import Minipro.Library.Emission
import Minipro.Control.ControlLoop

namespace Minipro.Session
open ByteOrder Emission
variable {F : Type}

abbrev Returns := Except String Unit

inductive Sending where
  | returns
  | throwsBefore (what : String)
  | throwsAfter (what : String)

def Sending.hands : Sending → Bool
  | .throwsBefore _ => false
  | _ => true

def handOver (p : Packet) : Sending → Emission Packet Unit
  | .returns => emit p
  | .throwsBefore what => perform (.error what)
  | .throwsAfter what => do
      emit p
      perform (.error what)

structure Iteration where
  before : List JsEvent
  between : List JsEvent
  drive : Sending
  sleep : Returns

structure Run where
  connects : Returns
  enableNotifications : Returns
  enterRemoteControlMode : Sending
  device : Device
  loopRate : Returns
  iterations : List Iteration
  stop : Sending
  exitRemoteControlMode : Sending
  disableNotifications : Returns

def iterate (host : HostOrder) (j : Joystick F) (it : Iteration) :
    Emission Packet (Joystick F) := do
  let (c,j) ← perform (ControlLoop.iteration (j.consume it.before) it.between)
  handOver (c.packet host) it.drive
  perform it.sleep
  return j

def loop (host : HostOrder) : Joystick F → List Iteration → Emission Packet Unit
  | _, [] => return ()
  | j, it :: its => do
      let j ← iterate host j it
      loop host j its

def shutdown (host : HostOrder) (r : Run) : Emission Packet Unit := do
  handOver (MiniPro.Call.packet host (.drive 0 0)) r.stop
  handOver (MiniPro.Call.packet host .exitRemoteControlMode) r.exitRemoteControlMode
  perform r.disableNotifications

def drivingSession (F : Type) (host : HostOrder) (r : Run) : Emission Packet Unit := do
  let joystick : Joystick F ← perform (Joystick.construct r.device)
  perform r.loopRate
  loop host joystick r.iterations
  shutdown host r

def session (F : Type) (host : HostOrder) (r : Run) : Emission Packet Unit := do
  perform r.connects
  perform r.enableNotifications
  handOver (MiniPro.Call.packet host .enterRemoteControlMode) r.enterRemoteControlMode
  drivingSession F host r

structure Exit where
  sent : List Packet
  status : Int
  message : Option String

def main (F : Type) (host : HostOrder) (r : Run) : Exit :=
  match (session F host r).result with
  | .ok () => ⟨(session F host r).out,0,none⟩
  | .error what => ⟨(session F host r).out,-1,some ("Exception: " ++ what)⟩

theorem main_sent (F : Type) (host : HostOrder) (r : Run) :
    (main F host r).sent = (session F host r).out := by
  simp only [main]
  split <;> rfl

def enter (host : HostOrder) : Packet := MiniPro.Call.packet host .enterRemoteControlMode
def leave (host : HostOrder) : Packet := MiniPro.Call.packet host .exitRemoteControlMode
def halt (host : HostOrder) : Packet := MiniPro.Call.packet host (.drive 0 0)

def FailSafe (host : HostOrder) (sent : List Packet) : Prop :=
  enter host ∈ sent → [halt host,leave host] <:+ sent

def Entered (r : Run) : Prop :=
  r.connects = .ok () ∧ r.enableNotifications = .ok () ∧ r.enterRemoteControlMode.hands

def Undisturbed (r : Run) : Prop :=
  ∃ axes buttons, r.device = ⟨true,some axes,some buttons,.ok ()⟩ ∧ r.loopRate = .ok () ∧
    (∀ it ∈ r.iterations, 2 ≤ axes ∧ it.drive = .returns ∧ it.sleep = .ok ()) ∧
    r.stop = .returns ∧ r.exitRemoteControlMode.hands

theorem handOver_out (p : Packet) (s : Sending) :
    (handOver p s).out = if s.hands then [p] else [] := by
  cases s <;> rfl

@[simp] theorem mem_handOver {p p' : Packet} {s : Sending} :
    p' ∈ (handOver p s).out ↔ p' = p ∧ s.hands := by
  rw [handOver_out]
  split
  · next h => simp [h]
  · next h => simp [h]

@[simp] theorem handOver_ok {p : Packet} {s : Sending} {u : Unit} :
    (handOver p s).result = .ok u ↔ s = .returns := by
  cases s with
  | returns => exact iff_of_true rfl rfl
  | throwsBefore what => exact iff_of_false (fun h => by cases h) (fun h => by cases h)
  | throwsAfter what => exact iff_of_false (fun h => by cases h) (fun h => by cases h)

theorem enter_ne_leave (host : HostOrder) : enter host ≠ leave host := by
  cases host <;> decide

theorem drive_not_mode (host : HostOrder) (t s : Int16) :
    MiniPro.Call.packet host (.drive t s) ≠ enter host ∧
    MiniPro.Call.packet host (.drive t s) ≠ leave host := by
  have hp : Parameter.setDrive.value ≠ Parameter.enableRemoteControl.value := by decide
  exact ⟨fun h => hp (congrArg Packet.parameter h),fun h => hp (congrArg Packet.parameter h)⟩

theorem iterate_ok_iff (host : HostOrder) (j : Joystick F) (it : Iteration) :
    (∃ j', (iterate host j it).result = .ok j') ↔
      2 ≤ j.numAxes ∧ it.drive = .returns ∧ it.sleep = .ok () := by
  have hi := ControlLoop.iteration_ok_iff (j.consume it.before) it.between
  simp only [Joystick.consume_numAxes] at hi
  rw [← hi]
  simp only [iterate,bind_ok_iff,perform_result,handOver_ok,pure_result,Except.ok.injEq]
  constructor
  · rintro ⟨j',p,hp,_,hd,_,hs,_⟩
    exact ⟨⟨p,hp⟩,hd,hs⟩
  · rintro ⟨⟨p,hp⟩,hd,hs⟩
    exact ⟨p.2,p,hp,(),hd,(),hs,rfl⟩

theorem iterate_spec {host : HostOrder} {j : Joystick F} {it : Iteration} :
    (∀ p ∈ (iterate host j it).out, ∃ t s, p = MiniPro.Call.packet host (.drive t s)) ∧
    ∀ j', (iterate host j it).result = .ok j' → j'.numAxes = j.numAxes := by
  constructor
  · intro p hp
    simp only [iterate,mem_bind,perform_out,perform_result,List.not_mem_nil,false_or,mem_handOver,
      pure_out,and_false,exists_false,or_false] at hp
    obtain ⟨⟨c,j'⟩,hc,rfl,_⟩ := hp
    obtain ⟨t,s,rfl⟩ := (ControlLoop.iteration_call hc).1
    exact ⟨t,s,rfl⟩
  · intro j' hj
    simp only [iterate,bind_ok_iff,perform_result,handOver_ok,pure_result,Except.ok.injEq] at hj
    obtain ⟨⟨c,j''⟩,hc,_,_,_,_,rfl⟩ := hj
    simpa using (ControlLoop.iteration_call hc).2

theorem loop_ok_iff (host : HostOrder) (j : Joystick F) (its : List Iteration) :
    (loop host j its).result = .ok () ↔
      ∀ it ∈ its, 2 ≤ j.numAxes ∧ it.drive = .returns ∧ it.sleep = .ok () := by
  induction its generalizing j with
  | nil => simp [loop]
  | cons it its ih =>
    simp only [loop,bind_ok_iff,List.forall_mem_cons]
    constructor
    · rintro ⟨j',hj,hl⟩
      have hn := iterate_spec.2 j' hj
      exact ⟨(iterate_ok_iff host j it).mp ⟨j',hj⟩,hn ▸ (ih j').mp hl⟩
    · rintro ⟨h,hs⟩
      obtain ⟨j',hj⟩ := (iterate_ok_iff host j it).mpr h
      have hn := iterate_spec.2 j' hj
      exact ⟨j',hj,(ih j').mpr (hn ▸ hs)⟩

theorem loop_out {host : HostOrder} {j : Joystick F} {its : List Iteration} {p : Packet}
    (hp : p ∈ (loop host j its).out) : ∃ t s, p = MiniPro.Call.packet host (.drive t s) := by
  induction its generalizing j with
  | nil => simp [loop] at hp
  | cons it its ih =>
    rcases mem_bind.mp hp with h | ⟨j',_,h⟩
    · exact iterate_spec.1 p h
    · exact ih h

theorem leave_mem_shutdown {host : HostOrder} {r : Run}
    (h : leave host ∈ (shutdown host r).out) :
    r.stop = .returns ∧ r.exitRemoteControlMode.hands := by
  have hd := (drive_not_mode host 0 0).2
  simp only [shutdown,mem_bind,perform_out,mem_handOver,handOver_ok,List.not_mem_nil,and_false,
    exists_false,or_false] at h
  obtain ⟨hm,_⟩ | ⟨_,hs,_,he⟩ := h
  · exact absurd hm.symm hd
  · exact ⟨hs,he⟩

theorem shutdown_suffix {host : HostOrder} {r : Run} (hs : r.stop = .returns)
    (he : r.exitRemoteControlMode.hands) :
    [halt host,leave host] <:+ (shutdown host r).out := by
  have hleave : (handOver (leave host) r.exitRemoteControlMode >>= fun _ =>
      perform r.disableNotifications).out = [leave host] := by
    cases h : r.exitRemoteControlMode with
    | returns => rfl
    | throwsBefore what =>
      rw [h] at he
      cases he
    | throwsAfter what => rfl
  have hout : (shutdown host r).out = [halt host] ++ [leave host] := by
    rw [← hleave,shutdown,(bind_of_ok ((handOver_ok (u := ())).mpr hs) _).1,hs]
    rfl
  rw [hout]
  exact List.suffix_refl _

theorem leave_mem_drivingSession {host : HostOrder} {r : Run}
    (h : leave host ∈ (drivingSession F host r).out) : Undisturbed r := by
  simp only [drivingSession,mem_bind,perform_out,perform_result,List.not_mem_nil,false_or] at h
  obtain ⟨j,hj,_,hr,hl | ⟨_,hl,hs⟩⟩ := h
  · obtain ⟨t,s,he⟩ := loop_out hl
    exact absurd he.symm (drive_not_mode host t s).2
  · obtain ⟨buttons,hd⟩ := Joystick.construct_inv hj
    have hm := leave_mem_shutdown hs
    exact ⟨_,_,hd,hr,(loop_ok_iff host j _).mp hl,hm⟩

theorem drivingSession_suffix {host : HostOrder} {r : Run} (h : Undisturbed r) :
    [halt host,leave host] <:+ (drivingSession F host r).out := by
  obtain ⟨axes,buttons,hd,hr,hl,hs,he⟩ := h
  obtain ⟨j,hj,hn⟩ := Joystick.construct_ok F axes buttons
  refine suffix_bind (a := j) (by rw [perform_result,hd,hj]) (suffix_bind hr ?_)
  exact suffix_bind ((loop_ok_iff host j _).mpr (hn ▸ hl)) (shutdown_suffix hs he)

theorem enter_mem_session (host : HostOrder) (r : Run) :
    enter host ∈ (session F host r).out ↔ Entered r := by
  constructor
  · intro h
    simp only [session,mem_bind,perform_out,perform_result,List.not_mem_nil,false_or,mem_handOver,
      handOver_ok] at h
    obtain ⟨_,hc,_,hn,⟨-,hm⟩ | ⟨_,hm,_⟩⟩ := h
    · exact ⟨hc,hn,hm⟩
    · exact ⟨hc,hn,by rw [hm]; rfl⟩
  · rintro ⟨hc,hn,hm⟩
    simp only [session,mem_bind,perform_out,perform_result,List.not_mem_nil,false_or,mem_handOver]
    exact ⟨(),hc,(),hn,.inl ⟨rfl,hm⟩⟩

theorem leave_mem_session {host : HostOrder} {r : Run}
    (h : leave host ∈ (session F host r).out) :
    r.enterRemoteControlMode = .returns ∧ Undisturbed r := by
  simp only [session,mem_bind,perform_out,perform_result,List.not_mem_nil,false_or,mem_handOver,
    handOver_ok] at h
  obtain ⟨_,_,_,_,⟨he,_⟩ | ⟨_,hm,hl⟩⟩ := h
  · exact absurd he.symm (enter_ne_leave host)
  · exact ⟨hm,leave_mem_drivingSession hl⟩

theorem fail_safe_iff (F : Type) (host : HostOrder) (r : Run) :
    FailSafe host (main F host r).sent ↔
      (Entered r → r.enterRemoteControlMode = .returns ∧ Undisturbed r) := by
  rw [main_sent,FailSafe,enter_mem_session]
  apply forall_congr'
  intro he
  obtain ⟨hc,hn,-⟩ := he
  constructor
  · intro hs
    exact leave_mem_session (hs.subset (List.mem_cons_of_mem _ (List.mem_singleton_self _)))
  · rintro ⟨hm,hu⟩
    exact suffix_bind hc (suffix_bind hn (suffix_bind ((handOver_ok (u := ())).mpr hm)
      (drivingSession_suffix hu)))

def unplugged : Run where
  connects := .ok ()
  enableNotifications := .ok ()
  enterRemoteControlMode := .returns
  device := ⟨false,none,none,.ok ()⟩
  loopRate := .ok ()
  iterations := []
  stop := .returns
  exitRemoteControlMode := .returns
  disableNotifications := .ok ()

theorem unplugged_not_fail_safe :
    enter .little ∈ (main Unit .little unplugged).sent ∧
      ¬ FailSafe .little (main Unit .little unplugged).sent := by
  have hs : (main Unit .little unplugged).sent = [enter .little] := rfl
  rw [hs]
  refine ⟨List.mem_singleton_self _,fun h => ?_⟩
  have hl := (h (List.mem_singleton_self _)).length_le
  exact absurd hl (by decide)

end Minipro.Session
