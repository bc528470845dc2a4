import Minipro.Library.Transition
import Minipro.Joystick.AxisTable

namespace Minipro.InputLoop
open Joystick Transition
variable {F : Type}

inductive Phase where
  | reading
  | updating (event : Option JsEvent)
  | sleeping
deriving DecidableEq

structure State (F : Type) where
  queue : List JsEvent := []
  joystick : Joystick F
  phase : Phase := .reading

inductive Event where
  | arrive (e : JsEvent)
  | read
  | update
  | sleep
deriving DecidableEq

def State.arrive (s : State F) (e : JsEvent) : Option (State F) :=
  if e.type = jsEventAxis ∨ e.type = jsEventButton then some { s with queue := s.queue ++ [e] }
  else none

def State.read (s : State F) : Option (State F) := match s.phase,s.queue with
  | .reading,[] => some { s with phase := .updating none }
  | .reading,e :: queue => some { s with queue := queue, phase := .updating (some e) }
  | _,_ => none

def State.update (s : State F) : Option (State F) := match s.phase with
  | .updating none => some { s with phase := .sleeping }
  | .updating (some e) =>
      some { s with joystick := (s.joystick.handleEvent e).1, phase := .sleeping }
  | _ => none

def State.sleep (s : State F) : Option (State F) := match s.phase with
  | .sleeping => some { s with phase := .reading }
  | _ => none

def machine : Machine (State F) Event where
  step s
    | .arrive e => s.arrive e
    | .read => s.read
    | .update => s.update
    | .sleep => s.sleep

def arrivals (ls : List Event) : List JsEvent := ls.filterMap fun
  | .arrive e => some e
  | _ => none

def reads (ls : List Event) : Nat := ls.count .read

def Phase.held : Phase → List JsEvent
  | .updating event => event.toList
  | _ => []

def State.unread (s : State F) : List JsEvent := s.phase.held ++ s.queue

variable {s t u : State F} {e : JsEvent} {l : Event} {ls : List Event}

theorem arrive_some (h : s.arrive e = some t) : t = { s with queue := s.queue ++ [e] } := by
  simp only [State.arrive] at h
  split at h
  · exact (Option.some.inj h).symm
  · cases h

theorem read_some (h : s.read = some t) : s.phase = .reading ∧
    t = { s with queue := s.queue.drop 1, phase := .updating s.queue.head? } := by
  obtain ⟨queue,joystick,phase⟩ := s
  cases phase with
  | updating event => cases h
  | sleeping => cases h
  | reading =>
    cases queue with
    | nil => exact ⟨rfl,(Option.some.inj h).symm⟩
    | cons e queue => exact ⟨rfl,(Option.some.inj h).symm⟩

theorem update_some (h : s.update = some t) : ∃ event, s.phase = .updating event ∧
    t = { s with joystick := s.joystick.consume event.toList, phase := .sleeping } := by
  obtain ⟨queue,joystick,phase⟩ := s
  cases phase with
  | reading => cases h
  | sleeping => cases h
  | updating event =>
    cases event with
    | none => exact ⟨none,rfl,(Option.some.inj h).symm⟩
    | some e => exact ⟨some e,rfl,(Option.some.inj h).symm⟩

theorem sleep_some (h : s.sleep = some t) :
    s.phase = .sleeping ∧ t = { s with phase := .reading } := by
  obtain ⟨queue,joystick,phase⟩ := s
  cases phase with
  | reading => cases h
  | updating event => cases h
  | sleeping => exact ⟨rfl,(Option.some.inj h).symm⟩

theorem step_unread (h : machine.step s l = some t) :
    ∃ done, s.unread ++ arrivals [l] = done ++ t.unread ∧
      t.joystick = s.joystick.consume done := by
  cases l with
  | arrive e =>
    cases arrive_some h
    exact ⟨[],by simp [State.unread,arrivals],rfl⟩
  | read =>
    obtain ⟨hp,rfl⟩ := read_some h
    refine ⟨[],?_,rfl⟩
    cases hq : s.queue <;> simp [State.unread,Phase.held,arrivals,hp,hq]
  | update =>
    obtain ⟨event,hp,rfl⟩ := update_some h
    exact ⟨event.toList,by simp [State.unread,Phase.held,arrivals,hp],rfl⟩
  | sleep =>
    obtain ⟨hp,rfl⟩ := sleep_some h
    exact ⟨[],by simp [State.unread,Phase.held,arrivals,hp],rfl⟩

theorem step_queue (h : machine.step s l = some t) :
    t.queue = s.queue.drop (reads [l]) ++ arrivals [l] := by
  cases l with
  | arrive e =>
    cases arrive_some h
    rfl
  | read =>
    obtain ⟨-,rfl⟩ := read_some h
    simp [reads,arrivals]
  | update =>
    obtain ⟨event,-,rfl⟩ := update_some h
    simp [reads,arrivals]
  | sleep =>
    obtain ⟨-,rfl⟩ := sleep_some h
    simp [reads,arrivals]

theorem arrivals_cons (l : Event) (ls : List Event) :
    arrivals (l :: ls) = arrivals [l] ++ arrivals ls := List.filterMap_append (l := [l])

theorem reads_cons (l : Event) (ls : List Event) : reads (l :: ls) = reads [l] + reads ls := by
  rw [reads,reads,reads,← List.count_append,List.singleton_append]

theorem run_unread (h : machine.run s ls = some t) :
    ∃ done, s.unread ++ arrivals ls = done ++ t.unread ∧
      t.joystick = s.joystick.consume done := by
  induction ls generalizing s with
  | nil =>
    cases h
    exact ⟨[],by simp [arrivals],rfl⟩
  | cons l ls ih =>
    obtain ⟨u,hu,ht⟩ := Option.bind_eq_some_iff.mp h
    obtain ⟨first,hf,hj⟩ := step_unread hu
    obtain ⟨later,hl,hk⟩ := ih ht
    refine ⟨first ++ later,?_,?_⟩
    · rw [arrivals_cons,← List.append_assoc,hf,List.append_assoc,hl,List.append_assoc]
    · rw [hk,hj,consume_append]

theorem run_queue (h : machine.run s ls = some t) (hl : reads ls ≤ s.queue.length) :
    t.queue = s.queue.drop (reads ls) ++ arrivals ls := by
  induction ls generalizing s with
  | nil =>
    cases h
    simp [reads,arrivals]
  | cons l ls ih =>
    obtain ⟨u,hu,ht⟩ := Option.bind_eq_some_iff.mp h
    have hq := step_queue hu
    rw [reads_cons] at hl ⊢
    have hd : reads ls ≤ (s.queue.drop (reads [l])).length := by
      rw [List.length_drop]
      omega
    have hn : reads ls ≤ u.queue.length := by
      rw [hq,List.length_append]
      omega
    rw [ih ht hn,hq,List.drop_append_of_le_length hd,List.drop_drop,arrivals_cons l ls,
      List.append_assoc]

theorem run_takes {k : Nat} (hs : s.unread = s.queue) (ht : t.unread = t.queue)
    (h : machine.run s ls = some t) (hq : t.queue = s.queue.drop k ++ arrivals ls) :
    t.joystick = s.joystick.consume (s.queue.take k) := by
  obtain ⟨done,hd,hj⟩ := run_unread h
  rw [hs,ht,hq,← List.append_assoc] at hd
  have hc : s.queue.take k ++ s.queue.drop k = done ++ s.queue.drop k := by
    rw [List.take_append_drop]
    exact List.append_cancel_right hd
  rw [List.append_cancel_right hc,hj]

def start (j : Joystick F) : State F := { joystick := j }

structure Iteration (u : State F) (rest : List Event) (t : State F) : Prop where
  runs : machine.run u (.read :: rest) = some t
  single : .read ∉ rest
  ends : t.phase = .sleeping

theorem unread_reading (h : s.phase = .reading) : s.unread = s.queue := by
  simp [State.unread,Phase.held,h]

theorem unread_sleeping (h : s.phase = .sleeping) : s.unread = s.queue := by
  simp [State.unread,Phase.held,h]

variable {rest : List Event}

theorem Iteration.reading (h : Iteration u rest t) : u.phase = .reading := by
  obtain ⟨v,hv,-⟩ := Option.bind_eq_some_iff.mp h.runs
  exact (read_some hv).1

theorem Iteration.queue (h : Iteration u rest t) : t.queue = u.queue.drop 1 ++ arrivals rest := by
  obtain ⟨v,hv,hr⟩ := Option.bind_eq_some_iff.mp h.runs
  have hz : reads rest = 0 := List.count_eq_zero.mpr h.single
  obtain ⟨-,rfl⟩ := read_some hv
  simpa [hz] using run_queue hr (by simp [hz])

theorem Iteration.joystick (h : Iteration u rest t) :
    t.joystick = u.joystick.consume (u.queue.take 1) :=
  run_takes (unread_reading h.reading) (unread_sleeping h.ends) h.runs h.queue

theorem run_start {d : Device} {j : Joystick F} (h : construct d = .ok j)
    (hr : machine.run (start j) ls = some s) : ∃ consumed, arrivals ls = consumed ++ s.unread ∧
      ∀ later n, (s.joystick.consume later).axisValue n = lastPlain n (consumed ++ later) := by
  obtain ⟨consumed,hd,hj⟩ := run_unread hr
  refine ⟨consumed,hd,?_⟩
  intro later n
  rw [hj,← consume_lastPlain h,consume_append]
  rfl

structure Sampled (pre : List Event) (u : State F) (rest : List Event) (t : State F)
    (consumed : List JsEvent) : Prop where
  before : arrivals pre = consumed ++ u.queue
  oldest : t.queue = u.queue.drop 1 ++ arrivals rest
  table : ∀ n, t.joystick.axisValue n = lastPlain n (consumed ++ u.queue.take 1)
  drained : t.queue = arrivals rest ↔ u.queue.length ≤ 1
  current : u.queue.length ≤ 1 → ∀ n, t.joystick.axisValue n = lastPlain n (arrivals pre)
  lag : ∀ ls v, machine.run u ls = some v → v.phase = .sleeping → reads ls ≤ u.queue.length →
    ∀ n, v.joystick.axisValue n = lastPlain n (consumed ++ u.queue.take (reads ls))

def Current (j : Joystick F) : Prop :=
  ∀ pre u rest t, machine.run (start j) pre = some u → Iteration u rest t →
    (∀ n, t.joystick.axisValue n = lastPlain n (arrivals pre)) ∧ t.queue = arrivals rest

theorem iteration_samples_oldest {d : Device} {j : Joystick F} (h : construct d = .ok j)
    {pre : List Event} (hu : machine.run (start j) pre = some u) (hi : Iteration u rest t) :
    ∃ consumed, Sampled pre u rest t consumed := by
  obtain ⟨consumed,hb,hv⟩ := run_start h hu
  rw [unread_reading hi.reading] at hb
  have htable (n : UInt8) : t.joystick.axisValue n = lastPlain n (consumed ++ u.queue.take 1) := by
    rw [hi.joystick]
    exact hv _ n
  refine ⟨consumed,hb,hi.queue,htable,?_,?_,?_⟩
  · rw [hi.queue,List.append_left_eq_self,List.drop_eq_nil_iff]
  · intro hl n
    rw [htable,hb,List.take_of_length_le hl]
  · intro ls v hr hp hl n
    rw [run_takes (unread_reading hi.reading) (unread_sleeping hp) hr (run_queue hr hl)]
    exact hv _ n

def pushed : JsEvent := ⟨500,jsEventAxis,0⟩

def released : JsEvent := ⟨0,jsEventAxis,0⟩

theorem iteration_samples_oldest_pair : ∃ consumed,
    Sampled [.arrive pushed,.arrive released] ⟨[pushed,released],pair,.reading⟩ [.update]
      ⟨[released],pair.consume [pushed],.sleeping⟩ consumed :=
  iteration_samples_oldest (show construct ⟨true,some 2,some 0,.ok ()⟩ = .ok pair from rfl) rfl
    ⟨rfl,by decide,rfl⟩

theorem released_stick_read_as_pushed :
    ∃ (d : Device) (j : Joystick Unit), construct d = .ok j ∧ ¬ Current j := by
  refine ⟨⟨true,some 2,some 0,.ok ()⟩,pair,rfl,?_⟩
  intro h
  have hc := h [.arrive pushed,.arrive released] ⟨[pushed,released],pair,.reading⟩ [.update]
    ⟨[released],pair.consume [pushed],.sleeping⟩ rfl ⟨rfl,by decide,rfl⟩
  exact absurd (hc.1 0) (by decide)

end Minipro.InputLoop
