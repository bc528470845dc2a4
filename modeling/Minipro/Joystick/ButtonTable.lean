import Minipro.Library.Latest
import Minipro.Joystick.AxisTable

namespace Minipro.Joystick
open Latest
variable {F : Type}

inductive Step (F : Type) where
  | setButtonCallback (button : UInt8) (callback : Option F)
  | record (e : JsEvent)

def Step.callback : Step F → Option F
  | .setButtonCallback _ callback => callback
  | .record _ => none

abbrev Output (F : Type) := Except String (Option (F × Bool))

def perform (j : Joystick F) : Step F → Output F × Joystick F
  | .setButtonCallback button callback => match j.setButtonCallback button callback with
      | .ok j' => (.ok none,j')
      | .error what => (.error what,j)
  | .record e => (.ok (j.handleEvent e).2,(j.handleEvent e).1)

def after (j : Joystick F) (steps : List (Step F)) : Joystick F :=
  steps.foldl (fun j s => (j.perform s).2) j

def outputs : Joystick F → List (Step F) → List (Output F)
  | _, [] => []
  | j, s :: steps => (j.perform s).1 :: (j.perform s).2.outputs steps

def invocations (os : List (Output F)) : List (F × Bool) := os.filterMap fun o => o.toOption.join

def callbackOf (j : Joystick F) (button : UInt8) : Option F := (j.buttonMap button).getD none

namespace Reference

def registers (numButtons button : UInt8) : Step F → Bool
  | .setButtonCallback b _ => b < numButtons ∧ b = button
  | .record _ => false

def registered (numButtons button : UInt8) (past : List (Step F)) : Option F :=
  latest (registers numButtons button) Step.callback none past

def respond (numButtons : UInt8) (past : List (Step F)) : Step F → List (F × Bool)
  | .setButtonCallback _ _ => []
  | .record e =>
      if e.type = jsEventButton then
        ((registered numButtons e.number past).map fun f => (f,decide (e.value ≠ 0))).toList
      else []

def invocations (numButtons : UInt8) : List (Step F) → List (Step F) → List (F × Bool)
  | _, [] => []
  | past, s :: steps => respond numButtons past s ++ invocations numButtons (past ++ [s]) steps

end Reference

theorem setButtonCallback_ok {j : Joystick F} {button : UInt8} (h : button < j.numButtons)
    (callback : Option F) : j.setButtonCallback button callback =
      .ok { j with buttonMap := Function.update j.buttonMap button (some callback) } := by
  simp only [setButtonCallback,if_neg (UInt8.not_le.mpr h)]
  rfl

theorem setButtonCallback_error {j : Joystick F} {button : UInt8} (h : j.numButtons ≤ button)
    (callback : Option F) : j.setButtonCallback button callback =
      .error "Joystick: set_button_callback: button value out of range" := by
  simp only [setButtonCallback,if_pos h]
  rfl

theorem handleEvent_button (j : Joystick F) {e : JsEvent} (h : e.type = jsEventButton) :
    j.handleEvent e =
      ({ j with buttonMap := Function.update j.buttonMap e.number (some (j.callbackOf e.number)) },
        (j.callbackOf e.number).map fun f => (f,decide (e.value ≠ 0))) := by
  simp only [handleEvent,if_pos h]
  rfl

theorem handleEvent_other (j : Joystick F) {e : JsEvent} (h : e.type ≠ jsEventButton) :
    (j.handleEvent e).1.buttonMap = j.buttonMap ∧ (j.handleEvent e).2 = none := by
  simp only [handleEvent,if_neg h]
  split
  · split <;> exact ⟨rfl,rfl⟩
  · exact ⟨rfl,rfl⟩

theorem handleEvent_callbackOf (j : Joystick F) (e : JsEvent) (button : UInt8) :
    (j.handleEvent e).1.callbackOf button = j.callbackOf button := by
  rcases eq_or_ne e.type jsEventButton with h | h
  · rw [handleEvent_button j h]
    rcases eq_or_ne button e.number with rfl | hb
    · simp [callbackOf]
    · simp [callbackOf,Function.update_of_ne hb]
  · rw [callbackOf,(handleEvent_other j h).1]
    rfl

theorem handleEvent_numButtons (j : Joystick F) (e : JsEvent) :
    (j.handleEvent e).1.numButtons = j.numButtons := by
  simp only [handleEvent]
  split
  · rfl
  · split
    · split <;> rfl
    · rfl

theorem handleEvent_invokes (j : Joystick F) (e : JsEvent) :
    (j.handleEvent e).2 = if e.type = jsEventButton then
      (j.callbackOf e.number).map fun f => (f,decide (e.value ≠ 0)) else none := by
  split
  · next h => rw [handleEvent_button j h]
  · next h => exact (handleEvent_other j h).2

theorem initButtons_getD (n : Nat) (button : UInt8) :
    (initButtons n (fun _ => none) button).getD none = (none : Option F) := by
  induction n with
  | zero => rfl
  | succ n ih =>
    rw [initButtons_succ]
    by_cases hb : button = UInt8.ofNat n
    · simp [hb]
    · simpa [Function.update_of_ne hb] using ih

theorem construct_callbackOf {d : Device} {j : Joystick F} (h : construct d = .ok j)
    (button : UInt8) : j.callbackOf button = none := by
  rw [callbackOf,(construct_maps h).2]
  exact initButtons_getD _ button

theorem perform_rejected {j : Joystick F} {button : UInt8} (h : j.numButtons ≤ button)
    (callback : Option F) : j.perform (.setButtonCallback button callback) =
      (.error "Joystick: set_button_callback: button value out of range",j) := by
  simp only [perform,setButtonCallback_error h]

theorem perform_accepted {j : Joystick F} {button : UInt8} (h : button < j.numButtons)
    (callback : Option F) : j.perform (.setButtonCallback button callback) =
      (.ok none,{ j with buttonMap := Function.update j.buttonMap button (some callback) }) := by
  simp only [perform,setButtonCallback_ok h]

theorem perform_numButtons (j : Joystick F) (s : Step F) :
    (j.perform s).2.numButtons = j.numButtons := by
  cases s with
  | record e => exact handleEvent_numButtons j e
  | setButtonCallback b callback =>
    rcases UInt8.lt_or_le b j.numButtons with hb | hb
    · rw [perform_accepted hb]
    · rw [perform_rejected hb]

theorem perform_callbackOf (j : Joystick F) (s : Step F) (button : UInt8) :
    (j.perform s).2.callbackOf button =
      if Reference.registers j.numButtons button s then s.callback else j.callbackOf button := by
  cases s with
  | record e => exact handleEvent_callbackOf j e button
  | setButtonCallback b callback =>
    rcases UInt8.lt_or_le b j.numButtons with hb | hb
    · rw [perform_accepted hb]
      by_cases hn : b = button
      · subst hn
        simp [Reference.registers,callbackOf,Step.callback,hb]
      · simp [Reference.registers,callbackOf,hn,Function.update_of_ne (Ne.symm hn)]
    · rw [perform_rejected hb]
      simp [Reference.registers,UInt8.not_lt.mpr hb]

theorem perform_invokes {j : Joystick F} {past : List (Step F)}
    (h : ∀ n, j.callbackOf n = Reference.registered j.numButtons n past) (s : Step F) :
    (j.perform s).1.toOption.join.toList = Reference.respond j.numButtons past s := by
  cases s with
  | setButtonCallback b callback =>
    rcases UInt8.lt_or_le b j.numButtons with hb | hb
    · rw [perform_accepted hb]
      rfl
    · rw [perform_rejected hb]
      rfl
  | record e =>
    simp only [perform,Reference.respond,Except.toOption,Option.join_some,handleEvent_invokes,h]
    split <;> rfl

theorem perform_registered {j : Joystick F} {past : List (Step F)}
    (h : ∀ n, j.callbackOf n = Reference.registered j.numButtons n past) (s : Step F)
    (n : UInt8) : (j.perform s).2.callbackOf n =
      Reference.registered (j.perform s).2.numButtons n (past ++ [s]) := by
  rw [perform_callbackOf,perform_numButtons,Reference.registered,latest_concat,h]
  rfl

theorem invocations_cons (o : Output F) (os : List (Output F)) :
    invocations (o :: os) = o.toOption.join.toList ++ invocations os := by
  cases h : o.toOption.join <;> simp [invocations,h]

theorem outputs_match {j : Joystick F} {past : List (Step F)}
    (h : ∀ n, j.callbackOf n = Reference.registered j.numButtons n past)
    (steps : List (Step F)) :
    invocations (j.outputs steps) = Reference.invocations j.numButtons past steps := by
  induction steps generalizing j past with
  | nil => rfl
  | cons s steps ih =>
    rw [outputs,invocations_cons,Reference.invocations,perform_invokes h,
      ih (perform_registered h s),perform_numButtons]

theorem after_concat (j : Joystick F) (steps : List (Step F)) (s : Step F) :
    j.after (steps ++ [s]) = ((j.after steps).perform s).2 := by simp [after]

theorem after_numButtons (j : Joystick F) (steps : List (Step F)) :
    (j.after steps).numButtons = j.numButtons := by
  induction steps using List.reverseRecOn with
  | nil => rfl
  | append_singleton steps s ih => rw [after_concat,perform_numButtons,ih]

def pressed (j : Joystick F) (button : UInt8) (value : Int16) : Option (F × Bool) :=
  (j.handleEvent ⟨value,jsEventButton,button⟩).2

theorem pressed_eq (j : Joystick F) (button : UInt8) (value : Int16) :
    j.pressed button value = (j.callbackOf button).map fun f => (f,decide (value ≠ 0)) := by
  rw [pressed,handleEvent_invokes,if_pos rfl]

structure Dispatches (j : Joystick F) (steps : List (Step F)) : Prop where
  invoked : invocations (j.outputs steps) = Reference.invocations j.numButtons [] steps
  rejected : ∀ pre button callback post, steps = pre ++ .setButtonCallback button callback :: post →
    j.numButtons ≤ button → (j.after pre).perform (.setButtonCallback button callback) =
      (.error "Joystick: set_button_callback: button value out of range",j.after pre)
  kept : ∀ pre e post, steps = pre ++ .record e :: post → ∀ button value,
    (j.after (pre ++ [.record e])).pressed button value = (j.after pre).pressed button value

def AxesKept (p : JsEvent → Prop) (j : Joystick F) (steps : List (Step F)) : Prop :=
  ∀ pre e post, steps = pre ++ .record e :: post → p e → ∀ axis,
    ((j.after (pre ++ [.record e])).axisMap axis).getD default =
      ((j.after pre).axisMap axis).getD default

theorem dispatches {d : Device} {j : Joystick F} (h : construct d = .ok j)
    (steps : List (Step F)) : Dispatches j steps := by
  refine ⟨outputs_match (construct_callbackOf h) steps,?_,?_⟩
  · intro pre button callback post _ hb
    exact perform_rejected (by rwa [after_numButtons]) callback
  · intro pre e post _ button value
    rw [after_concat,pressed_eq,pressed_eq,perform,handleEvent_callbackOf]

theorem axesKept (j : Joystick F) (steps : List (Step F)) :
    AxesKept (fun e => e.type ≠ jsEventAxis) j steps := by
  intro pre e post _ he axis
  rw [after_concat,perform,handleEvent_axisMap he]

theorem button_dispatch_exact {d : Device} {j : Joystick F} (h : construct d = .ok j)
    (steps : List (Step F)) :
    Dispatches j steps ∧ AxesKept (fun e => e.type ≠ jsEventAxis) j steps :=
  ⟨dispatches h steps,axesKept j steps⟩

def pad : Joystick Unit :=
  { pair with numButtons := 1, buttonMap := initButtons 1 (fun _ => none) }

theorem button_dispatch_exact_pad :
    Dispatches pad [.setButtonCallback 0 (some ()),.record ⟨1,jsEventButton,0⟩,
        .record ⟨1,jsEventButton,1⟩,.setButtonCallback 1 (some ())] ∧
      AxesKept (fun e => e.type ≠ jsEventAxis) pad [.setButtonCallback 0 (some ()),
        .record ⟨1,jsEventButton,0⟩,.record ⟨1,jsEventButton,1⟩,.setButtonCallback 1 (some ())] :=
  button_dispatch_exact (show construct ⟨true,some 2,some 1,.ok ()⟩ = .ok pad from rfl) _

theorem axis_record_changes_axis :
    ∃ (d : Device) (j : Joystick Unit) (steps : List (Step Unit)), construct d = .ok j ∧
      ¬ (Dispatches j steps ∧ AxesKept (fun _ => True) j steps) := by
  refine ⟨⟨true,some 2,some 0,.ok ()⟩,pair,[.record ⟨5,jsEventAxis,0⟩],rfl,?_⟩
  rintro ⟨_,h⟩
  exact absurd (h [] _ [] rfl trivial 0) (by decide)

end Minipro.Joystick
