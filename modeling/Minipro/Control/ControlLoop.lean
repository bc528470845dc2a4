import Minipro.Control.MiniPro
import Minipro.Joystick.AxisTable

namespace Minipro
open ByteOrder Latest MiniPro

namespace XBox360Controller

def axisLeftThumbstick : UInt8 := 0
def axisRightThumbstick : UInt8 := 1

end XBox360Controller

namespace ControlLoop
variable {F : Type}

def zeroThreshold : Int := 4000

def iteration (j : Joystick F) (between : List JsEvent) : Except String (Call × Joystick F) := do
  let (left,j) ← j.getAxisState XBox360Controller.axisLeftThumbstick
  let throttle := -left.y.toInt
  -- The input thread may consume records between the two samples.
  let j := j.consume between
  let (right,j) ← j.getAxisState XBox360Controller.axisRightThumbstick
  let steering := -right.x.toInt
  let throttle := if throttle.natAbs < zeroThreshold then 0 else throttle
  let steering := if steering.natAbs < zeroThreshold then 0 else steering
  return (.drive (Int16.ofInt throttle) (Int16.ofInt steering),j)

def plain (record : UInt8 × Int16) : JsEvent := ⟨record.2,jsEventAxis,record.1⟩

inductive Step where
  | consume (record : UInt8 × Int16)
  | iterate (between : List (UInt8 × Int16))
deriving DecidableEq, Repr

def writes (host : HostOrder) (j : Joystick F) : List Step → Except String (List WriteValue)
  | [] => return []
  | .consume record :: steps => writes host (j.handleEvent (plain record)).1 steps
  | .iterate between :: steps => do
      let (c,j) ← iteration j (between.map plain)
      let ws ← writes host j steps
      return call host c :: ws

structure Stick where
  y : Int16
  x : Int16
deriving DecidableEq, Repr

def lastValue (number : UInt8) (seen : List (UInt8 × Int16)) : Int16 :=
  latest (fun r => r.1 = number) Prod.snd 0 seen

def sticks (seen : List (UInt8 × Int16)) : List Step → List Stick
  | [] => []
  | .consume record :: steps => sticks (seen ++ [record]) steps
  | .iterate between :: steps =>
      ⟨lastValue 1 seen,lastValue 2 (seen ++ between)⟩ :: sticks (seen ++ between) steps

def narrowed (v : Int16) : Int16 :=
  Int16.ofInt (if (-v.toInt).natAbs < zeroThreshold then 0 else -v.toInt)

def driven (s : Stick) : Call := .drive (narrowed s.y) (narrowed s.x)

theorem iteration_ok {j : Joystick F} (h : 2 ≤ j.numAxes) (between : List JsEvent) :
    ∃ j', iteration j between =
        .ok (driven ⟨j.axisValue 1,(j.consume between).axisValue 2⟩,j') ∧
      j'.numAxes = j.numAxes ∧ ∀ n, j'.axisValue n = (j.consume between).axisValue n := by
  have hn : 2 ≤ j.numAxes.toNat := UInt8.le_iff_toNat_le.mp h
  have h0 : XBox360Controller.axisLeftThumbstick < j.numAxes :=
    UInt8.lt_iff_toNat_lt.mpr (Nat.lt_of_lt_of_le (by decide) hn)
  have h1 : XBox360Controller.axisRightThumbstick < j.numAxes :=
    UInt8.lt_iff_toNat_lt.mpr (Nat.lt_of_lt_of_le (by decide) hn)
  obtain ⟨j1,hl,hn1,hv1⟩ := Joystick.getAxisState_spec h0
  have h1' : XBox360Controller.axisRightThumbstick < (j1.consume between).numAxes := by
    simpa [hn1] using h1
  obtain ⟨j2,hr,hn2,hv2⟩ := Joystick.getAxisState_spec h1'
  have hcons (n : UInt8) : (j1.consume between).axisValue n = (j.consume between).axisValue n := by
    rw [Joystick.consume_axisValue,Joystick.consume_axisValue,hv1]
  refine ⟨j2,?_,by simp [hn2,hn1],fun n => (hv2 n).trans (hcons n)⟩
  rw [← hcons 2]
  simp only [iteration,hl,hr,bind,Except.bind]
  rfl

theorem iteration_ok_iff (j : Joystick F) (between : List JsEvent) :
    (∃ p, iteration j between = .ok p) ↔ 2 ≤ j.numAxes := by
  constructor
  · rintro ⟨p,hp⟩
    by_contra h
    have hn : j.numAxes.toNat < 2 := UInt8.lt_iff_toNat_lt.mp (UInt8.not_le.mp h)
    by_cases h0 : XBox360Controller.axisLeftThumbstick < j.numAxes
    · obtain ⟨j1,hl,hn1,-⟩ := Joystick.getAxisState_spec h0
      have h1 : (j1.consume between).numAxes ≤ XBox360Controller.axisRightThumbstick := by
        rw [Joystick.consume_numAxes,hn1]
        exact UInt8.le_iff_toNat_le.mpr (Nat.le_of_lt_succ hn)
      simp only [iteration,hl,Joystick.getAxisState_error h1,bind,Except.bind] at hp
      cases hp
    · simp only [iteration,Joystick.getAxisState_error (UInt8.not_lt.mp h0),bind,Except.bind] at hp
      cases hp
  · intro h
    obtain ⟨j',he,-⟩ := iteration_ok h between
    exact ⟨_,he⟩

theorem iteration_call {j j' : Joystick F} {between : List JsEvent} {c : Call}
    (h : iteration j between = .ok (c,j')) :
    (∃ t s, c = .drive t s) ∧ j'.numAxes = j.numAxes := by
  obtain ⟨j1,he,hn,-⟩ := iteration_ok ((iteration_ok_iff j between).mp ⟨_,h⟩) between
  rw [he] at h
  cases h
  exact ⟨⟨_,_,rfl⟩,hn⟩

theorem plainRecord_plain (n : UInt8) (r : UInt8 × Int16) :
    Joystick.plainRecord n (plain r) = decide (r.1 = n) := by
  simp [Joystick.plainRecord,plain]

theorem consume_plain {j : Joystick F} {seen : List (UInt8 × Int16)}
    (h : ∀ n, j.axisValue n = lastValue n seen) (records : List (UInt8 × Int16)) (n : UInt8) :
    (j.consume (records.map plain)).axisValue n = lastValue n (seen ++ records) := by
  induction records using List.reverseRecOn with
  | nil => simpa using h n
  | append_singleton records r ih =>
    have hs := Joystick.handleEvent_axisValue (j.consume (records.map plain)) (plain r) n
    rw [plainRecord_plain,ih] at hs
    rw [List.map_append,Joystick.consume_append,← List.append_assoc,lastValue,latest_concat]
    exact hs

theorem writes_eq (host : HostOrder) (steps : List Step) (j : Joystick F)
    (seen : List (UInt8 × Int16)) (hj : 2 ≤ j.numAxes)
    (h : ∀ n, j.axisValue n = lastValue n seen) :
    writes host j steps = .ok ((sticks seen steps).map fun s => call host (driven s)) := by
  induction steps generalizing j seen with
  | nil => rfl
  | cons step steps ih =>
    cases step with
    | consume r =>
      exact ih _ _ (by simpa using hj) (fun n => consume_plain h [r] n)
    | iterate between =>
      obtain ⟨j',he,hn,hv⟩ := iteration_ok hj (between.map plain)
      have hc := consume_plain h between
      have ht := ih j' (seen ++ between) (hn ▸ hj) (fun n => (hv n).trans (hc n))
      simp only [writes,he,bind,Except.bind,ht,sticks,List.map_cons,h 1,hc 2]
      rfl

def command (v : Int) : Int := if |v| < 4000 then 0 else -v

def commanded (w : WriteValue) : Option (Int × Int) :=
  match decodeStream .little w.value with
  | some [.drive throttle steering] => some (throttle.toInt,steering.toInt)
  | _ => none

structure FollowsStick (ss : List Stick) (ws : List WriteValue) : Prop where
  carries : List.Forall₂ (fun s w => w.handle = txServiceHandle ∧
    commanded w = some (command s.y.toInt,command s.x.toInt)) ss ws
  opposite : ∀ p ∈ ss.zip ws, ∀ t s, commanded p.2 = some (t,s) →
    (4000 ≤ |p.1.y.toInt| → ¬ 0 < t * p.1.y.toInt) ∧
    (4000 ≤ |p.1.x.toInt| → ¬ 0 < s * p.1.x.toInt)
  antitone : ∀ p ∈ ss.zip ws, ∀ p' ∈ ss.zip ws, ∀ t s t' s',
    commanded p.2 = some (t,s) → commanded p'.2 = some (t',s') →
    (p.1.y.toInt ≤ p'.1.y.toInt → t' ≤ t) ∧ (p.1.x.toInt ≤ p'.1.x.toInt → s' ≤ s)

theorem commanded_call (t s : Int16) :
    commanded (call .little (.drive t s)) = some (t.toInt,s.toInt) := by
  have hd : decodeStream .little (call .little (.drive t s)).value = some [.drive t s] := by
    have hs : (call .little (.drive t s)).value = (commandCodec .little).encodeAll [.drive t s] := by
      rw [← stream_encodeAll]
      simp [stream]
    rw [hs]
    exact (commandCodec .little).decodeAll_encodeAll _
  simp only [commanded,hd]

theorem command_opposite (v : Int) : ¬ 0 < command v * v := by
  simp only [command]
  split
  · simp
  · nlinarith [sq_nonneg v]

theorem command_antitone {v w : Int} (h : v ≤ w) : command w ≤ command v := by
  simp only [command]
  split <;> split
  · exact le_rfl
  · rename_i hw hv
    rw [abs_lt] at hw
    rw [abs_lt] at hv
    omega
  · rename_i hw hv
    rw [abs_lt] at hw
    rw [abs_lt] at hv
    omega
  · omega

theorem narrowed_iff (v : Int16) : (narrowed v).toInt = command v.toInt ↔ v ≠ Int16.minValue := by
  have hlo := v.le_toInt
  have hhi := v.toInt_lt
  have habs : ((-v.toInt).natAbs < zeroThreshold) ↔ |v.toInt| < 4000 := by
    rw [Int.natAbs_neg,Int.natCast_natAbs]
    rfl
  by_cases hz : |v.toInt| < 4000
  · have hne : v ≠ Int16.minValue := by
      rintro rfl
      exact absurd hz (by decide)
    simp only [narrowed,command,if_pos (habs.mpr hz),if_pos hz,hne,ne_eq,not_false_eq_true,iff_true]
    rfl
  · simp only [narrowed,command,if_neg (mt habs.mp hz),if_neg hz]
    constructor
    · rintro h rfl
      exact absurd h (by decide)
    · intro hne
      have hmin : v.toInt ≠ -2^15 := by
        rw [← Int16.toInt_minValue]
        exact fun h => hne (Int16.toInt_inj.mp h)
      exact Int16.toInt_ofInt_of_le (by omega) (by omega)

theorem commanded_driven (s : Stick) :
    commanded (call .little (driven s)) = some (command s.y.toInt,command s.x.toInt) ↔
      s.y ≠ Int16.minValue ∧ s.x ≠ Int16.minValue := by
  rw [driven,commanded_call,Option.some.injEq,Prod.mk.injEq,narrowed_iff,narrowed_iff]

theorem forall₂_map_self {A B : Type} (R : A → B → Prop) (f : A → B) (as : List A) :
    List.Forall₂ R as (as.map f) ↔ ∀ a ∈ as, R a (f a) := by
  rw [List.forall₂_map_right_iff,List.forall₂_same]

theorem mem_zip_map {A B : Type} {f : A → B} {as : List A} {p : A × B}
    (h : p ∈ as.zip (as.map f)) : p.1 ∈ as ∧ p.2 = f p.1 := by
  rw [List.zip_map_right,List.mem_map] at h
  obtain ⟨q,hq,rfl⟩ := h
  obtain ⟨i,hi,rfl⟩ := List.mem_iff_getElem.mp hq
  simp

theorem followsStick_iff (ss : List Stick) :
    FollowsStick ss (ss.map fun s => call .little (driven s)) ↔
      ∀ s ∈ ss, s.y ≠ Int16.minValue ∧ s.x ≠ Int16.minValue := by
  constructor
  · intro h s hs
    exact (commanded_driven s).mp (((forall₂_map_self _ _ _).mp h.carries) s hs).2
  · intro h
    have hc (p : Stick × WriteValue) (hp : p ∈ ss.zip (ss.map fun s => call .little (driven s)))
        (t s : Int) (hts : commanded p.2 = some (t,s)) :
        t = command p.1.y.toInt ∧ s = command p.1.x.toInt := by
      obtain ⟨hm,hw⟩ := mem_zip_map hp
      rw [hw,(commanded_driven p.1).mpr (h p.1 hm)] at hts
      cases hts
      exact ⟨rfl,rfl⟩
    refine ⟨(forall₂_map_self _ _ _).mpr fun s hs => ⟨rfl,(commanded_driven s).mpr (h s hs)⟩,?_,?_⟩
    · intro p hp t s hts
      obtain ⟨rfl,rfl⟩ := hc p hp t s hts
      exact ⟨fun _ => command_opposite _,fun _ => command_opposite _⟩
    · intro p hp p' hp' t s t' s' hts hts'
      obtain ⟨rfl,rfl⟩ := hc p hp t s hts
      obtain ⟨rfl,rfl⟩ := hc p' hp' t' s' hts'
      exact ⟨command_antitone,command_antitone⟩

theorem stick_to_wire (d : Device) (j : Joystick F) (hd : Joystick.construct d = .ok j)
    (hj : 2 ≤ j.numAxes) (steps : List Step) :
    ∃ ws, writes .little j steps = .ok ws ∧
      (FollowsStick (sticks [] steps) ws ↔
        ∀ s ∈ sticks [] steps, s.y ≠ Int16.minValue ∧ s.x ≠ Int16.minValue) :=
  ⟨_,writes_eq .little steps j [] hj (fun n => Joystick.construct_axisValue hd n),
    followsStick_iff _⟩

theorem stick_to_wire_pair :
    ∃ ws, writes .little Joystick.pair [.consume (1,-20000),.iterate [(2,700)]] = .ok ws ∧
      (FollowsStick [⟨-20000,700⟩] ws ↔
        ∀ s ∈ [(⟨-20000,700⟩ : Stick)], s.y ≠ Int16.minValue ∧ s.x ≠ Int16.minValue) :=
  stick_to_wire ⟨true,some 2,some 0,.ok ()⟩ Joystick.pair rfl (by decide)
    [.consume (1,-20000),.iterate [(2,700)]]

theorem full_deflection_reversed :
    ∃ ws, writes .little Joystick.pair [.consume (1,-32768),.iterate []] = .ok ws ∧
      ¬ FollowsStick (sticks [] [.consume (1,-32768),.iterate []]) ws := by
  refine ⟨_,rfl,?_⟩
  intro h
  cases h.carries with
  | cons hw _ => exact absurd hw.2 (by decide)

end ControlLoop
end Minipro
