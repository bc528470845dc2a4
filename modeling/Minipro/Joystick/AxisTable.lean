import Minipro.Library.Latest
import Minipro.Joystick.Device

namespace Minipro.Joystick
open Latest
variable {F : Type}

def plainRecord (number : UInt8) (e : JsEvent) : Bool :=
  e.type = jsEventAxis ∧ e.number = number

def axisRecord (number : UInt8) (e : JsEvent) : Bool :=
  (e.type = jsEventAxis ∨ e.type = jsEventAxis ||| jsEventInit) ∧ e.number = number

def lastPlain (number : UInt8) (es : List JsEvent) : Int16 :=
  latest (plainRecord number) JsEvent.value 0 es

def lastReported (number : UInt8) (es : List JsEvent) : Int16 :=
  latest (axisRecord number) JsEvent.value 0 es

theorem number_eq_of_half {a b : UInt8} (hd : a / 2 = b / 2) (hm : (a % 2 = 0) ↔ (b % 2 = 0)) :
    a = b := by
  have hd' : a.toNat / 2 = b.toNat / 2 := by simpa using congrArg UInt8.toNat hd
  have hm' : a.toNat % 2 = 0 ↔ b.toNat % 2 = 0 := by
    simpa [← UInt8.toNat_inj] using hm
  exact UInt8.toNat_inj.mp (by omega)

theorem coordinate_setX (m : UInt8 → Option AxisState) (e n : UInt8) (v : Int16)
    (he : e % 2 = 0) :
    coordinate n ((setX m (e / 2) v (n / 2)).getD default) =
      if e = n then v else coordinate n ((m (n / 2)).getD default) := by
  by_cases hd : n / 2 = e / 2
  · by_cases hn : n % 2 = 0
    · rw [if_pos (number_eq_of_half hd.symm (by simp [he,hn]))]
      simp [setX,hd,coordinate,hn]
    · rw [if_neg (fun h : e = n => hn (h ▸ he))]
      simp [setX,hd,coordinate,hn]
  · rw [if_neg (fun h => hd (by rw [h]))]
    simp [setX,Function.update_of_ne hd]

theorem coordinate_setY (m : UInt8 → Option AxisState) (e n : UInt8) (v : Int16)
    (he : ¬ e % 2 = 0) :
    coordinate n ((setY m (e / 2) v (n / 2)).getD default) =
      if e = n then v else coordinate n ((m (n / 2)).getD default) := by
  by_cases hd : n / 2 = e / 2
  · by_cases hn : n % 2 = 0
    · rw [if_neg (fun h : e = n => he (h ▸ hn))]
      simp [setY,hd,coordinate,hn]
    · rw [if_pos (number_eq_of_half hd.symm (by simp [he,hn]))]
      simp [setY,hd,coordinate,hn]
  · rw [if_neg (fun h => hd (by rw [h]))]
    simp [setY,Function.update_of_ne hd]

theorem handleEvent_axisValue (j : Joystick F) (e : JsEvent) (n : UInt8) :
    (j.handleEvent e).1.axisValue n = if plainRecord n e then e.value else j.axisValue n := by
  by_cases hb : e.type = jsEventButton
  · have hp : plainRecord n e = false := by simp [plainRecord,hb,jsEventButton,jsEventAxis]
    simp [handleEvent,hb,hp,axisValue]
  · by_cases ha : e.type = jsEventAxis
    · have hab : jsEventAxis ≠ jsEventButton := by decide
      by_cases hm : e.number % 2 = 0
      · simpa [handleEvent,hab,ha,hm,axisValue,plainRecord] using
          coordinate_setX j.axisMap e.number n e.value hm
      · simpa [handleEvent,hab,ha,hm,axisValue,plainRecord] using
          coordinate_setY j.axisMap e.number n e.value hm
    · have hp : plainRecord n e = false := by simp [plainRecord,ha]
      simp [handleEvent,hb,ha,hp]

theorem consume_axisValue (j : Joystick F) (es : List JsEvent) (n : UInt8) :
    (j.consume es).axisValue n = latest (plainRecord n) JsEvent.value (j.axisValue n) es :=
  foldl_latest (fun j e => (j.handleEvent e).1) (fun j => j.axisValue n) (plainRecord n)
    JsEvent.value j (fun j e => handleEvent_axisValue j e n) es

theorem initAxes_getD (n : Nat) (k : UInt8) :
    (initAxes n (fun _ => none) k).getD default = (⟨0,0⟩ : AxisState) := by
  induction n with
  | zero => rfl
  | succ n ih =>
    rw [initAxes_succ]
    by_cases hk : k = UInt8.ofNat n
    · subst hk
      simp [setY,setX]
    · simpa [setY,setX,Function.update_of_ne hk] using ih

theorem construct_axisValue {d : Device} {j : Joystick F} (h : construct d = .ok j) (n : UInt8) :
    j.axisValue n = 0 := by
  simp only [axisValue,(construct_maps h).1,initAxes_getD,coordinate]
  split <;> rfl

theorem consume_lastPlain {d : Device} {j : Joystick F} (h : construct d = .ok j)
    (es : List JsEvent) (n : UInt8) : (j.consume es).axisValue n = lastPlain n es := by
  rw [consume_axisValue,construct_axisValue h,lastPlain]

structure TracksDevice (j : Joystick F) (es : List JsEvent) : Prop where
  current : ∀ n, n / 2 < j.numAxes → ∃ s j', (j.consume es).getAxisState (n / 2) = .ok (s,j') ∧
    coordinate n s = lastReported n es
  untouched : ∀ pre e post, es = pre ++ e :: post → ∀ n, n / 2 < j.numAxes →
    axisRecord n e = false → (j.consume (pre ++ [e])).axisValue n = (j.consume pre).axisValue n

theorem plain_of_axisRecord {n : UInt8} {e : JsEvent} (h : axisRecord n e) :
    plainRecord n e ↔ e.type = jsEventAxis := by
  simp only [axisRecord,plainRecord,decide_eq_true_eq] at h ⊢
  simp [h.2]

theorem axisRecord_of_plain {n : UInt8} {e : JsEvent} (h : plainRecord n e) : axisRecord n e := by
  simp only [axisRecord,plainRecord,decide_eq_true_eq] at h ⊢
  exact ⟨.inl h.1,h.2⟩

theorem lastPlain_eq_lastReported_iff (n : UInt8) (es : List JsEvent) :
    lastPlain n es = lastReported n es ↔
      ∀ e, (es.filter (axisRecord n)).getLast? = some e →
        e.type = jsEventAxis ∨ e.value = lastPlain n es := by
  cases hl : (es.filter (axisRecord n)).getLast? with
  | none =>
    have hp : es.filter (plainRecord n) = [] := by
      have ha : es.filter (axisRecord n) = [] := List.getLast?_eq_none_iff.mp hl
      rw [List.filter_eq_nil_iff] at ha ⊢
      exact fun e he h => ha e he (axisRecord_of_plain h)
    rw [lastReported,latest_none hl,lastPlain,latest_none (by rw [hp]; rfl)]
    simp
  | some e =>
    have ha : axisRecord n e := by
      simpa using (List.mem_filter.mp (List.mem_of_getLast? hl)).2
    rw [lastReported,latest_some hl]
    constructor
    · rintro h _ ⟨⟩
      exact .inr h.symm
    · intro h
      rcases h e rfl with ht | hv
      · have hp := getLast?_filter_of_imp (q := plainRecord n)
          (fun _ h => axisRecord_of_plain h) hl ((plain_of_axisRecord ha).mpr ht)
        rw [lastPlain,latest_some hp]
      · exact hv.symm

theorem tracksDevice_iff (d : Device) (j : Joystick F) (h : construct d = .ok j)
    (es : List JsEvent) :
    TracksDevice j es ↔ ∀ n, n / 2 < j.numAxes →
      ∀ e, (es.filter (axisRecord n)).getLast? = some e →
        e.type = jsEventAxis ∨ e.value = lastPlain n es := by
  have hread (n : UInt8) (hn : n / 2 < j.numAxes) :
      (∃ s j', (j.consume es).getAxisState (n / 2) = .ok (s,j') ∧
        coordinate n s = lastReported n es) ↔ lastPlain n es = lastReported n es := by
    rw [getAxisState_ok (by simpa using hn),← consume_lastPlain h es n]
    constructor
    · rintro ⟨s,j',he,hs⟩
      cases he
      exact hs
    · exact fun hs => ⟨_,_,rfl,hs⟩
  constructor
  · intro ht n hn
    exact (lastPlain_eq_lastReported_iff n es).mp ((hread n hn).mp (ht.current n hn))
  · intro hc
    refine ⟨fun n hn => (hread n hn).mpr ((lastPlain_eq_lastReported_iff n es).mpr (hc n hn)),?_⟩
    intro pre e post _ n _ hne
    have hp : plainRecord n e = false := by
      by_contra hp
      rw [axisRecord_of_plain (by simpa using hp)] at hne
      cases hne
    rw [consume_lastPlain h,consume_lastPlain h,lastPlain,lastPlain,latest_concat,hp]
    rfl

def pair : Joystick Unit :=
  { numAxes := 2, axisMap := initAxes 2 (fun _ => none), buttonMap := initButtons 0 (fun _ => none) }

def replayed : List JsEvent :=
  [⟨5000,jsEventAxis ||| jsEventInit,1⟩,⟨1,jsEventButton ||| jsEventInit,0⟩,⟨500,jsEventAxis,1⟩,
    ⟨-20,jsEventAxis,2⟩,⟨0,jsEventAxis ||| jsEventInit,0⟩,⟨-20,jsEventAxis ||| jsEventInit,2⟩]

-- An INIT record does no harm once a plain record follows or where it repeats the last plain value.
theorem tracksDevice_pair : TracksDevice pair replayed := by
  refine (tracksDevice_iff ⟨true,some 2,some 0,.ok ()⟩ pair rfl _).mpr ?_
  intro n hn e he
  have hlt : n.toNat / 2 < 2 := by
    have hn' : n / 2 < 2 := hn
    simpa [UInt8.lt_iff_toNat_lt] using hn'
  have hcases : n = 0 ∨ n = 1 ∨ n = 2 ∨ n = 3 := by
    simp only [← UInt8.toNat_inj]
    simp
    omega
  rcases hcases with rfl | rfl | rfl | rfl
  · have hl : (replayed.filter (axisRecord 0)).getLast? =
        some ⟨0,jsEventAxis ||| jsEventInit,0⟩ := by decide
    obtain rfl := Option.some.inj (hl.symm.trans he)
    exact .inr (by decide)
  · have hl : (replayed.filter (axisRecord 1)).getLast? = some ⟨500,jsEventAxis,1⟩ := by decide
    obtain rfl := Option.some.inj (hl.symm.trans he)
    exact .inl rfl
  · have hl : (replayed.filter (axisRecord 2)).getLast? =
        some ⟨-20,jsEventAxis ||| jsEventInit,2⟩ := by decide
    obtain rfl := Option.some.inj (hl.symm.trans he)
    exact .inr (by decide)
  · have hl : (replayed.filter (axisRecord 3)).getLast? = none := by decide
    cases hl.symm.trans he

theorem synthetic_record_missed :
    ∃ (d : Device) (j : Joystick Unit), construct d = .ok j ∧
      ¬ TracksDevice j [⟨5000,jsEventAxis ||| jsEventInit,1⟩] := by
  refine ⟨⟨true,some 2,some 0,.ok ()⟩,pair,rfl,?_⟩
  intro h
  obtain ⟨s,j',he,hs⟩ := h.current 1 (by decide)
  have hz : s = ⟨0,0⟩ := (congrArg Prod.fst (Except.ok.inj he)).symm
  rw [hz] at hs
  exact absurd hs (by decide)

end Minipro.Joystick
