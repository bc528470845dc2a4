import Minipro.Joystick.AxisTable

namespace Minipro.Joystick
variable {F : Type}

def AxisReport (e : JsEvent) : Prop := e.type = jsEventAxis ∨ e.type = jsEventAxis ||| jsEventInit

def FromDevice (numAxes : UInt8) (e : JsEvent) : Prop := AxisReport e → e.number < numAxes

def read (j : Joystick F) (axis : UInt8) : Except String AxisState :=
  (j.getAxisState axis).map Prod.fst

def Accepts (j : Joystick F) (axis : UInt8) : Prop := ∃ s, j.read axis = .ok s

structure ReadableExactly (j : Joystick F) (trace : List JsEvent) : Prop where
  driven : ∀ axis, Accepts (j.consume trace) axis → ∃ e, AxisReport e ∧ FromDevice j.numAxes e ∧
    ((j.consume trace).handleEvent e).1.read axis ≠ (j.consume trace).read axis
  readable : ∀ pre e post, trace = pre ++ e :: post → AxisReport e →
    ∃ axis s, (j.consume (pre ++ [e])).read axis = .ok s ∧ coordinate e.number s = e.value
  distinct : ∀ a b value, a < j.numAxes → b < j.numAxes → a ≠ b →
    ((j.consume trace).handleEvent ⟨value,jsEventAxis,a⟩).1.axisValue b =
      (j.consume trace).axisValue b
  closed : ∀ axis, ((j.consume trace).axisMap axis).isSome → (j.axisMap axis).isSome

variable {j : Joystick F} {e : JsEvent} {axis : UInt8} {trace : List JsEvent}

theorem read_ok (h : axis < j.numAxes) : j.read axis = .ok ((j.axisMap axis).getD default) := by
  rw [read,getAxisState_ok h]
  rfl

theorem accepts_iff : Accepts j axis ↔ axis < j.numAxes := by
  constructor
  · rintro ⟨s,hs⟩
    by_contra hn
    rw [read,getAxisState_error (UInt8.not_lt.mp hn)] at hs
    cases hs
  · exact fun h => ⟨_,read_ok h⟩

theorem half_lt {a b : UInt8} (h : a < b) : a / 2 < b := by
  rw [UInt8.lt_iff_toNat_lt] at h ⊢
  simp only [UInt8.toNat_div]
  have hh : a.toNat / 2 ≤ a.toNat := Nat.div_le_self _ _
  exact lt_of_le_of_lt hh h

theorem handleEvent_axisMap_ne (h : e.number / 2 ≠ axis) :
    (j.handleEvent e).1.axisMap axis = j.axisMap axis := by
  simp only [handleEvent]
  split
  · rfl
  · split
    · split
      · simp only [setX,Function.update_of_ne h.symm]
      · simp only [setY,Function.update_of_ne h.symm]
    · rfl

theorem initAxes_isSome (n : Nat) (i : Nat) (h : i < n) :
    (initAxes n (fun _ => none) (UInt8.ofNat i)).isSome := by
  induction n with
  | zero => exact absurd h (Nat.not_lt_zero i)
  | succ n ih =>
    rw [initAxes_succ]
    by_cases hk : UInt8.ofNat i = UInt8.ofNat n
    · simp [hk,setY]
    · have hi : i < n := by
        rcases Nat.lt_succ_iff_lt_or_eq.mp h with hi | rfl
        · exact hi
        · exact absurd rfl hk
      simpa [setY,setX,Function.update_of_ne hk] using ih hi

theorem construct_isSome {d : Device} (h : construct d = .ok j) (ha : axis < j.numAxes) :
    (j.axisMap axis).isSome := by
  have hi := initAxes_isSome _ _ (UInt8.lt_iff_toNat_lt.mp ha)
  rwa [UInt8.ofNat_toNat,← (construct_maps h).1] at hi

theorem handleEvent_isSome {d : Device} {k : Joystick F} (h : construct d = .ok j)
    (he : FromDevice j.numAxes e) (hs : ((k.handleEvent e).1.axisMap axis).isSome) :
    (k.axisMap axis).isSome ∨ (j.axisMap axis).isSome := by
  by_cases ht : e.type = jsEventAxis
  · by_cases ha : e.number / 2 = axis
    · exact .inr (construct_isSome h (ha ▸ half_lt (he (.inl ht))))
    · exact .inl (by rwa [handleEvent_axisMap_ne ha] at hs)
  · exact .inl (by rwa [handleEvent_axisMap ht] at hs)

theorem consume_isSome {d : Device} (h : construct d = .ok j)
    (ht : ∀ e ∈ trace, FromDevice j.numAxes e) :
    ((j.consume trace).axisMap axis).isSome → (j.axisMap axis).isSome := by
  induction trace using List.reverseRecOn with
  | nil => exact id
  | append_singleton es e ih =>
    intro hs
    rw [consume_concat] at hs
    rcases handleEvent_isSome h (ht e (by simp)) hs with hs | hs
    · exact ih (fun e he => ht e (by simp [he])) hs
    · exact hs

theorem top_lt {n : UInt8} (h : 1 < n) : n - 1 < n ∧ ∀ a, a < n → a / 2 ≠ n - 1 := by
  have h1 : 1 < n.toNat := UInt8.lt_iff_toNat_lt.mp h
  have hs : (n - 1).toNat = n.toNat - 1 :=
    UInt8.toNat_sub_of_le _ _ (UInt8.le_iff_toNat_le.mpr h1.le)
  constructor
  · rw [UInt8.lt_iff_toNat_lt,hs]
    omega
  · intro a ha he
    have hn := UInt8.lt_iff_toNat_lt.mp ha
    have ht := congrArg UInt8.toNat he
    rw [hs,UInt8.toNat_div] at ht
    have h2 : a.toNat / 2 = n.toNat - 1 := ht
    omega

theorem not_driven {k : Joystick F} (hk : 1 < k.numAxes) (hr : AxisReport e)
    (hd : FromDevice k.numAxes e) :
    (k.handleEvent e).1.read (k.numAxes - 1) = k.read (k.numAxes - 1) := by
  obtain ⟨hl,hn⟩ := top_lt hk
  rw [read_ok (by rwa [handleEvent_numAxes]),read_ok hl,handleEvent_axisMap_ne (hn _ (hd hr))]

theorem ReadableExactly.numAxes_le (h : ReadableExactly j trace) : j.numAxes ≤ 1 := by
  by_contra hn
  have hk : 1 < (j.consume trace).numAxes := by
    rw [consume_numAxes]
    exact UInt8.not_le.mp hn
  obtain ⟨e,hr,hd,hc⟩ := h.driven _ (accepts_iff.mpr (top_lt hk).1)
  exact hc (not_driven hk hr (by rwa [consume_numAxes]))

theorem eq_zero_of_lt {a b : UInt8} (h : a < b) (hb : b ≤ 1) : a = 0 := by
  have h1 := UInt8.lt_iff_toNat_lt.mp h
  have h2 : b.toNat ≤ 1 := UInt8.le_iff_toNat_le.mp hb
  exact UInt8.toNat_inj.mp (by simp only [UInt8.toNat_zero]; omega)

def Echoes (trace : List JsEvent) : Prop :=
  ∀ pre e post, trace = pre ++ e :: post → e.type = jsEventAxis ||| jsEventInit →
    e.value = lastPlain e.number pre

theorem lastPlain_synthetic {n : UInt8} (h : e.type = jsEventAxis ||| jsEventInit)
    (es : List JsEvent) : lastPlain n (es ++ [e]) = lastPlain n es := by
  have hn : jsEventAxis ||| jsEventInit ≠ jsEventAxis := by decide
  have hp : plainRecord n e = false := by simp [plainRecord,h,hn]
  rw [lastPlain,Latest.latest_concat,hp]
  rfl

theorem lastPlain_plain (h : e.type = jsEventAxis) (es : List JsEvent) :
    lastPlain e.number (es ++ [e]) = e.value := by
  have hp : plainRecord e.number e = true := by simp [plainRecord,h]
  rw [lastPlain,Latest.latest_concat,hp]
  rfl

theorem read_consume {d : Device} {s : AxisState} (h : construct d = .ok j) {es : List JsEvent}
    {n : UInt8} (hr : (j.consume es).read (n / 2) = .ok s) : coordinate n s = lastPlain n es := by
  have ha := accepts_iff.mp ⟨s,hr⟩
  rw [read_ok ha] at hr
  cases hr
  exact consume_lastPlain h es n

theorem readable_value {d : Device} (h : construct d = .ok j) (es : List JsEvent)
    (hr : AxisReport e) (hd : FromDevice j.numAxes e) :
    ∃ axis s, (j.consume es).read axis = .ok s ∧ coordinate e.number s = lastPlain e.number es := by
  have hl : e.number / 2 < (j.consume es).numAxes := by
    rw [consume_numAxes]
    exact half_lt (hd hr)
  exact ⟨_,_,read_ok hl,read_consume h (read_ok hl)⟩

theorem driven_zero {k : Joystick F} (hk : 0 < k.numAxes) :
    ∃ e, AxisReport e ∧ FromDevice k.numAxes e ∧ (k.handleEvent e).1.read 0 ≠ k.read 0 := by
  refine ⟨⟨k.axisValue 0 + 1,jsEventAxis,0⟩,.inl rfl,fun _ => hk,?_⟩
  intro he
  rw [read_ok (by rwa [handleEvent_numAxes]),read_ok hk] at he
  have hv := congrArg (coordinate 0) (Except.ok.inj he)
  have hw := handleEvent_axisValue k ⟨k.axisValue 0 + 1,jsEventAxis,0⟩ 0
  have ha : k.axisValue 0 + 1 = k.axisValue 0 := hw.symm.trans hv
  simp at ha

theorem readableExactly_iff {d : Device} (h : construct d = .ok j)
    (ht : ∀ e ∈ trace, FromDevice j.numAxes e) :
    ReadableExactly j trace ↔ j.numAxes ≤ 1 ∧ Echoes trace := by
  constructor
  · intro hr
    have hn := hr.numAxes_le
    refine ⟨hn,?_⟩
    intro pre e post he hs
    have hd := ht e (by simp [he])
    obtain ⟨axis,s,ho,hv⟩ := hr.readable pre e post he (.inr hs)
    have ha := accepts_iff.mp ⟨s,ho⟩
    rw [consume_numAxes] at ha
    have hz : e.number / 2 = axis := by
      rw [eq_zero_of_lt ha hn,eq_zero_of_lt (hd (.inr hs)) hn]
      rfl
    rw [← hv,← lastPlain_synthetic hs]
    exact read_consume h (by rwa [hz])
  · rintro ⟨hn,he⟩
    refine ⟨?_,?_,?_,fun axis => consume_isSome h ht⟩
    · intro axis ha
      have ha' := accepts_iff.mp ha
      have hz : axis = 0 := eq_zero_of_lt ha' (by rwa [consume_numAxes])
      subst hz
      simpa only [consume_numAxes] using driven_zero ha'
    · intro pre e post hp hr
      obtain ⟨axis,s,ho,hv⟩ := readable_value h (pre ++ [e]) hr (ht e (by simp [hp]))
      refine ⟨axis,s,ho,hv.trans ?_⟩
      rcases hr with hr | hr
      · exact lastPlain_plain hr pre
      · rw [lastPlain_synthetic hr,← he pre e post hp hr]
    · intro a b value _ _ hab
      have hp : plainRecord b ⟨value,jsEventAxis,a⟩ = false := by simp [plainRecord,hab]
      rw [handleEvent_axisValue,hp]
      rfl

def stick : Joystick Unit :=
  { numAxes := 1, axisMap := initAxes 1 (fun _ => none), buttonMap := initButtons 0 (fun _ => none) }

theorem readableExactly_stick : ReadableExactly stick [⟨5,jsEventAxis,0⟩,⟨1,jsEventButton,3⟩] := by
  refine (readableExactly_iff (show construct ⟨true,some 1,some 0,.ok ()⟩ = .ok stick from rfl) ?_).mpr
    ⟨by decide,?_⟩
  · intro e he hr
    rcases List.mem_pair.mp he with rfl | rfl
    · decide
    · rcases hr with hr | hr <;> exact absurd hr (by decide)
  · intro pre e post hp hs
    have hm : e ∈ [⟨5,jsEventAxis,0⟩,⟨1,jsEventButton,3⟩] := by simp [hp]
    rcases List.mem_pair.mp hm with rfl | rfl <;> exact absurd hs (by decide)

theorem second_index_not_driven :
    ∃ (d : Device) (j : Joystick Unit), construct d = .ok j ∧
      (∀ e ∈ [(⟨5,jsEventAxis,1⟩ : JsEvent)], FromDevice j.numAxes e) ∧
      ¬ ReadableExactly j [⟨5,jsEventAxis,1⟩] := by
  refine ⟨⟨true,some 2,some 0,.ok ()⟩,pair,rfl,?_,?_⟩
  · intro e he _
    rw [List.mem_singleton.mp he]
    decide
  · exact fun h => absurd h.numAxes_le (by decide)

end Minipro.Joystick
