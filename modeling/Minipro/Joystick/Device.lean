import Mathlib.Tactic

namespace Minipro

structure JsEvent where
  value : Int16
  type : UInt8
  number : UInt8
deriving DecidableEq, Repr

def jsEventButton : UInt8 := 0x01
def jsEventAxis : UInt8 := 0x02
def jsEventInit : UInt8 := 0x80

structure AxisState where
  x : Int16
  y : Int16
deriving DecidableEq, Repr

instance : Inhabited AxisState := ⟨⟨0,0⟩⟩

structure Device where
  opens : Bool
  axes : Option UInt8
  buttons : Option UInt8
  thread : Except String Unit

structure Joystick (F : Type) where
  numAxes : UInt8 := 0
  numButtons : UInt8 := 0
  axisMap : UInt8 → Option AxisState := fun _ => none
  buttonMap : UInt8 → Option (Option F) := fun _ => none

namespace Joystick
variable {F : Type}

def setX (m : UInt8 → Option AxisState) (axis : UInt8) (x : Int16) : UInt8 → Option AxisState :=
  Function.update m axis (some { (m axis).getD default with x := x })

def setY (m : UInt8 → Option AxisState) (axis : UInt8) (y : Int16) : UInt8 → Option AxisState :=
  Function.update m axis (some { (m axis).getD default with y := y })

def initAxes (n : Nat) (m : UInt8 → Option AxisState) : UInt8 → Option AxisState :=
  (List.range n).foldl (fun m i => setY (setX m (UInt8.ofNat i) 0) (UInt8.ofNat i) 0) m

def initButtons (n : Nat) (m : UInt8 → Option (Option F)) : UInt8 → Option (Option F) :=
  (List.range n).foldl (fun m i => Function.update m (UInt8.ofNat i) (some none)) m

def construct (d : Device) : Except String (Joystick F) := do
  if !d.opens then throw "Joystick: Couldn't open joystick device"
  let numAxes ← match d.axes with
    | none => throw "Joystick: ioctl (JSIOCGAXES) failed"
    | some n => pure n
  let numButtons ← match d.buttons with
    | none => throw "Joystick: ioctl (JSIOCGBUTTONS) failed"
    | some n => pure n
  d.thread
  return { numAxes := numAxes, numButtons := numButtons,
           axisMap := initAxes numAxes.toNat (fun _ => none),
           buttonMap := initButtons numButtons.toNat (fun _ => none) }

theorem construct_inv {d : Device} {j : Joystick F} (h : construct d = .ok j) :
    ∃ buttons, d = ⟨true,some j.numAxes,some buttons,.ok ()⟩ := by
  obtain ⟨opens,axes,buttons,thread⟩ := d
  cases opens <;> cases axes <;> cases buttons <;> cases thread <;> cases h
  exact ⟨_,rfl⟩

theorem construct_maps {d : Device} {j : Joystick F} (h : construct d = .ok j) :
    j.axisMap = initAxes j.numAxes.toNat (fun _ => none) ∧
      j.buttonMap = initButtons j.numButtons.toNat (fun _ => none) := by
  obtain ⟨opens,axes,buttons,thread⟩ := d
  cases opens <;> cases axes <;> cases buttons <;> cases thread <;> cases h
  exact ⟨rfl,rfl⟩

theorem initAxes_succ (n : Nat) (m : UInt8 → Option AxisState) :
    initAxes (n+1) m = setY (setX (initAxes n m) (UInt8.ofNat n) 0) (UInt8.ofNat n) 0 := by
  simp [initAxes,List.range_succ]

theorem initButtons_succ (n : Nat) (m : UInt8 → Option (Option F)) :
    initButtons (n+1) m = Function.update (initButtons n m) (UInt8.ofNat n) (some none) := by
  simp [initButtons,List.range_succ]

theorem construct_ok (F : Type) (axes buttons : UInt8) :
    ∃ j : Joystick F, construct ⟨true,some axes,some buttons,.ok ()⟩ = .ok j ∧
      j.numAxes = axes := ⟨_,rfl,rfl⟩

def getAxisState (j : Joystick F) (axis : UInt8) : Except String (AxisState × Joystick F) :=
  if axis ≥ j.numAxes then
    throw "Joystick: get_axis_state: axis value out of range"
  else
    let state := (j.axisMap axis).getD default
    return (state,{ j with axisMap := Function.update j.axisMap axis (some state) })

def setButtonCallback (j : Joystick F) (button : UInt8) (callback : Option F) :
    Except String (Joystick F) :=
  if button ≥ j.numButtons then
    throw "Joystick: set_button_callback: button value out of range"
  else
    return { j with buttonMap := Function.update j.buttonMap button (some callback) }

def handleEvent (j : Joystick F) (event : JsEvent) : Joystick F × Option (F × Bool) :=
  if event.type = jsEventButton then
    let callback := (j.buttonMap event.number).getD none
    ({ j with buttonMap := Function.update j.buttonMap event.number (some callback) },
      callback.map fun f => (f,event.value ≠ 0))
  else if event.type = jsEventAxis then
    let axis := event.number / 2
    if event.number % 2 = 0 then
      ({ j with axisMap := setX j.axisMap axis event.value },none)
    else
      ({ j with axisMap := setY j.axisMap axis event.value },none)
  else
    (j,none)

def consume (j : Joystick F) (events : List JsEvent) : Joystick F :=
  events.foldl (fun j event => (j.handleEvent event).1) j

@[simp] theorem consume_nil (j : Joystick F) : j.consume [] = j := rfl

theorem consume_append (j : Joystick F) (es fs : List JsEvent) :
    j.consume (es ++ fs) = (j.consume es).consume fs := by simp [consume]

theorem consume_concat (j : Joystick F) (es : List JsEvent) (e : JsEvent) :
    j.consume (es ++ [e]) = ((j.consume es).handleEvent e).1 := by simp [consume]

theorem handleEvent_axisMap {j : Joystick F} {e : JsEvent} (h : e.type ≠ jsEventAxis) :
    (j.handleEvent e).1.axisMap = j.axisMap := by
  simp only [handleEvent,if_neg h]
  split <;> rfl

@[simp] theorem handleEvent_numAxes (j : Joystick F) (event : JsEvent) :
    (j.handleEvent event).1.numAxes = j.numAxes := by
  simp only [handleEvent]
  split
  · rfl
  · split
    · split <;> rfl
    · rfl

@[simp] theorem consume_numAxes (j : Joystick F) (es : List JsEvent) :
    (j.consume es).numAxes = j.numAxes := by
  induction es generalizing j with
  | nil => rfl
  | cons e es ih => exact (ih _).trans (handleEvent_numAxes j e)

def coordinate (number : UInt8) (s : AxisState) : Int16 :=
  if number % 2 = 0 then s.x else s.y

def axisValue (j : Joystick F) (number : UInt8) : Int16 :=
  coordinate number ((j.axisMap (number / 2)).getD default)

theorem getAxisState_ok {j : Joystick F} {axis : UInt8} (h : axis < j.numAxes) :
    j.getAxisState axis = .ok ((j.axisMap axis).getD default,
      { j with axisMap := Function.update j.axisMap axis (some ((j.axisMap axis).getD default)) }) := by
  simp only [getAxisState,if_neg (UInt8.not_le.mpr h)]
  rfl

theorem getAxisState_error {j : Joystick F} {axis : UInt8} (h : j.numAxes ≤ axis) :
    j.getAxisState axis = .error "Joystick: get_axis_state: axis value out of range" := by
  simp only [getAxisState,if_pos h]
  rfl

theorem getAxisState_spec {j : Joystick F} {axis : UInt8} (h : axis < j.numAxes) :
    ∃ j', j.getAxisState axis = .ok ((j.axisMap axis).getD default,j') ∧
      j'.numAxes = j.numAxes ∧ ∀ number, j'.axisValue number = j.axisValue number := by
  refine ⟨_,getAxisState_ok h,rfl,?_⟩
  intro number
  by_cases hn : number / 2 = axis
  · simp [axisValue,hn]
  · simp [axisValue,Function.update_of_ne hn]

end Joystick
end Minipro
