import Minipro.Library.Transition

namespace Minipro.Readiness
open Transition

inductive Thread where
  | constructor
  | mainloop
deriving DecidableEq

inductive Waiter where
  | starting
  | testing
  | testedFalse
  | blocked
  | woken
  | timedOut
  | finalTest
  | ready
  | throwing
  | constructed
  | threw
deriving DecidableEq

inductive Callback where
  | idle
  | entered
  | locked
  | stored
  | unlocked
  | notified
deriving DecidableEq

def Waiter.holds : Waiter → Bool
  | .testing | .testedFalse | .finalTest | .ready | .throwing => true
  | _ => false

def Callback.holds : Callback → Bool
  | .locked | .stored => true
  | _ => false

def Callback.published : Callback → Bool
  | .stored | .unlocked | .notified => true
  | _ => false

structure State where
  ready : Bool := false
  mutex : Option Thread := none
  elapsed : Bool := false
  waiter : Waiter := .starting
  callback : Callback := .idle
deriving DecidableEq

inductive Event where
  | lock
  | test
  | block
  | spurious
  | elapse
  | timeout
  | relock
  | finalTest
  | leave
  | deliver (success : Bool)
  | acquire
  | store
  | release
  | notifyAll
  | storeAgain
deriving DecidableEq

def enabled (s : State) : Event → Bool
  | .lock => s.waiter = .starting ∧ s.mutex = none
  | .test => s.waiter = .testing
  | .block => s.waiter = .testedFalse
  | .spurious => s.waiter = .blocked
  | .elapse => s.elapsed = false
  | .timeout => s.elapsed ∧ (s.waiter = .blocked ∨ s.waiter = .woken)
  | .relock => (s.waiter = .woken ∨ s.waiter = .timedOut) ∧ s.mutex = none
  | .finalTest => s.waiter = .finalTest
  | .leave => s.waiter = .ready ∨ s.waiter = .throwing
  | .deliver _ => s.callback = .idle
  | .acquire => s.callback = .entered ∧ s.mutex = none
  | .store => s.callback = .locked
  | .release => s.callback = .stored
  | .notifyAll => s.callback = .unlocked
  | .storeAgain => s.callback = .notified

def effect (s : State) : Event → State
  | .lock => { s with waiter := .testing, mutex := some .constructor }
  | .test => { s with waiter := if s.ready then .ready else .testedFalse }
  | .block => { s with waiter := .blocked, mutex := none }
  | .spurious => { s with waiter := .woken }
  | .elapse => { s with elapsed := true }
  | .timeout => { s with waiter := .timedOut }
  | .relock => { s with
      waiter := if s.waiter = .timedOut then .finalTest else .testing
      mutex := some .constructor }
  | .finalTest => { s with waiter := if s.ready then .ready else .throwing }
  | .leave => { s with
      waiter := if s.waiter = .ready then .constructed else .threw
      mutex := none }
  | .deliver success => { s with callback := if success then .entered else .idle }
  | .acquire => { s with callback := .locked, mutex := some .mainloop }
  | .store => { s with callback := .stored, ready := true }
  | .release => { s with callback := .unlocked, mutex := none }
  | .notifyAll => { s with
      callback := .notified
      waiter := if s.waiter = .blocked then .woken else s.waiter }
  | .storeAgain => { s with callback := .idle, ready := true }

def machine : Machine State Event := Machine.guarded enabled effect

structure Locks (s : State) : Prop where
  waiter : s.waiter.holds → s.mutex = some .constructor
  callback : s.callback.holds → s.mutex = some .mainloop

variable {s t : State} {l : Event}

theorem Locks.free (h : Locks s) (hm : s.mutex = none) :
    ¬ s.waiter.holds ∧ ¬ s.callback.holds := by
  constructor
  · intro hw
    rw [h.waiter hw] at hm
    cases hm
  · intro hc
    rw [h.callback hc] at hm
    cases hm

theorem Locks.exclusive (h : Locks s) (hw : s.waiter.holds) : ¬ s.callback.holds := by
  intro hc
  have hm := h.waiter hw
  rw [h.callback hc] at hm
  cases hm

theorem locks_step (h : Locks s) (he : enabled s l) : Locks (effect s l) := by
  cases l with
  | lock =>
    have he := of_decide_eq_true he
    exact ⟨fun _ => rfl,fun hc => absurd hc (h.free he.2).2⟩
  | test =>
    have he := of_decide_eq_true he
    exact ⟨fun _ => h.waiter (by rw [he]; rfl),h.callback⟩
  | block =>
    have he := of_decide_eq_true he
    exact ⟨nofun,fun hc => absurd hc (h.exclusive (by rw [he]; rfl))⟩
  | spurious => exact ⟨nofun,h.callback⟩
  | elapse => exact ⟨h.waiter,h.callback⟩
  | timeout => exact ⟨nofun,h.callback⟩
  | relock =>
    have he := of_decide_eq_true he
    exact ⟨fun _ => rfl,fun hc => absurd hc (h.free he.2).2⟩
  | finalTest =>
    have he := of_decide_eq_true he
    exact ⟨fun _ => h.waiter (by rw [he]; rfl),h.callback⟩
  | leave =>
    have he := of_decide_eq_true he
    have hw : s.waiter.holds := by rcases he with he | he <;> rw [he] <;> rfl
    refine ⟨fun hw => ?_,fun hc => absurd hc (h.exclusive hw)⟩
    simp only [effect] at hw
    split at hw <;> cases hw
  | deliver success =>
    refine ⟨h.waiter,fun hc => ?_⟩
    cases success <;> cases hc
  | acquire =>
    have he := of_decide_eq_true he
    exact ⟨fun hw => absurd hw (h.free he.2).1,fun _ => rfl⟩
  | store =>
    have he := of_decide_eq_true he
    exact ⟨h.waiter,fun _ => h.callback (by rw [he]; rfl)⟩
  | release =>
    have he := of_decide_eq_true he
    exact ⟨fun hw => absurd (show s.callback.holds by rw [he]; rfl) (h.exclusive hw),nofun⟩
  | notifyAll =>
    refine ⟨fun hw => h.waiter ?_,nofun⟩
    simp only [effect] at hw
    split at hw
    · cases hw
    · exact hw
  | storeAgain => exact ⟨h.waiter,nofun⟩

structure Flag (s : State) : Prop where
  tested : s.waiter = .testedFalse → s.ready = false
  published : s.callback.published → s.ready
  pending : s.ready → s.waiter = .blocked → s.callback = .stored ∨ s.callback = .unlocked
  timed : s.waiter = .timedOut ∨ s.waiter = .finalTest → s.elapsed

theorem Flag.setWaiter (h : Flag s) (w : Waiter) (m : Option Thread)
    (ht : w = .testedFalse → s.ready = false) (hb : w = .blocked → s.ready = false)
    (hd : w = .timedOut ∨ w = .finalTest → s.elapsed) :
    Flag { s with waiter := w, mutex := m } :=
  ⟨ht,h.published,fun hr hw => absurd ((hb hw).symm.trans hr) nofun,hd⟩

theorem Flag.setCallback (h : Flag s) (c : Callback) (m : Option Thread)
    (hp : c.published → s.ready)
    (hb : s.ready → s.waiter = .blocked → c = .stored ∨ c = .unlocked) :
    Flag { s with callback := c, mutex := m } := ⟨h.tested,hp,hb,h.timed⟩

theorem Flag.not_blocked (h : Flag s) (hr : s.ready) (hs : s.callback ≠ .stored)
    (hu : s.callback ≠ .unlocked) : s.waiter ≠ .blocked :=
  fun hb => (h.pending hr hb).elim hs hu

theorem flag_step (hl : Locks s) (h : Flag s) (he : enabled s l) : Flag (effect s l) := by
  cases l with
  | lock => exact h.setWaiter .testing _ nofun nofun nofun
  | test =>
    simp only [effect]
    split
    · exact h.setWaiter .ready _ nofun nofun nofun
    · next hr => exact h.setWaiter .testedFalse _ (fun _ => by simpa using hr) nofun nofun
  | block =>
    have hr := h.tested (of_decide_eq_true he)
    exact h.setWaiter .blocked _ nofun (fun _ => hr) nofun
  | spurious => exact h.setWaiter .woken _ nofun nofun nofun
  | elapse => exact ⟨h.tested,h.published,h.pending,fun _ => rfl⟩
  | timeout => exact h.setWaiter .timedOut _ nofun nofun (fun _ => (of_decide_eq_true he).1)
  | relock =>
    simp only [effect]
    split
    · next hw => exact h.setWaiter .finalTest _ nofun nofun (fun _ => h.timed (.inl hw))
    · exact h.setWaiter .testing _ nofun nofun nofun
  | finalTest =>
    simp only [effect]
    split
    · exact h.setWaiter .ready _ nofun nofun nofun
    · exact h.setWaiter .throwing _ nofun nofun nofun
  | leave =>
    simp only [effect]
    split
    · exact h.setWaiter .constructed _ nofun nofun nofun
    · exact h.setWaiter .threw _ nofun nofun nofun
  | deliver success =>
    have hc : s.callback = .idle := of_decide_eq_true he
    have hb (hr : s.ready) : s.waiter ≠ .blocked := h.not_blocked hr (by simp [hc]) (by simp [hc])
    cases success with
    | false => exact h.setCallback .idle _ nofun (fun hr hw => absurd hw (hb hr))
    | true => exact h.setCallback .entered _ nofun (fun hr hw => absurd hw (hb hr))
  | acquire =>
    have hc : s.callback = .entered := (of_decide_eq_true he).1
    have hb (hr : s.ready) : s.waiter ≠ .blocked := h.not_blocked hr (by simp [hc]) (by simp [hc])
    exact h.setCallback .locked _ nofun (fun hr hw => absurd hw (hb hr))
  | store =>
    have hc : s.callback = .locked := of_decide_eq_true he
    have ht : s.waiter ≠ .testedFalse :=
      fun ht => hl.exclusive (by rw [ht]; rfl) (by rw [hc]; rfl)
    exact ⟨fun hw => absurd hw ht,fun _ => rfl,fun _ _ => .inl rfl,h.timed⟩
  | release =>
    have hc : s.callback = .stored := of_decide_eq_true he
    exact h.setCallback .unlocked _ (fun _ => h.published (by rw [hc]; rfl)) (fun _ _ => .inr rfl)
  | notifyAll =>
    have hc : s.callback = .unlocked := of_decide_eq_true he
    have hr := h.published (by rw [hc]; rfl)
    simp only [effect]
    split
    · exact ⟨nofun,fun _ => hr,nofun,nofun⟩
    · next hw => exact ⟨h.tested,fun _ => hr,fun _ hb => absurd hb hw,h.timed⟩
  | storeAgain =>
    have hc : s.callback = .notified := of_decide_eq_true he
    have hr := h.published (by rw [hc]; rfl)
    have hb := h.not_blocked hr (by simp [hc]) (by simp [hc])
    exact ⟨fun ht => absurd ((h.tested ht).symm.trans hr) nofun,nofun,
      fun _ hw => absurd hw hb,h.timed⟩

def Delivering (ls : List Event) : Prop :=
  ∃ before between, ls = before ++ .deliver true :: between ∧ ∀ success, .deliver success ∉ between

def StoredBy (ls : List Event) : Prop :=
  ∃ before after, ls = before ++ .store :: after ∧ Delivering before

structure Recorded (ls : List Event) (s : State) : Prop where
  delivering : s.callback = .entered ∨ s.callback = .locked → Delivering ls
  stored : s.ready → StoredBy ls
  elapsed : s.elapsed → .elapse ∈ ls

variable {ls : List Event}

theorem Delivering.concat (h : Delivering ls) (hl : ∀ success, l ≠ .deliver success) :
    Delivering (ls ++ [l]) := by
  obtain ⟨before,between,rfl,hb⟩ := h
  refine ⟨before,between ++ [l],by simp,?_⟩
  intro success hm
  rcases List.mem_append.mp hm with hm | hm
  · exact hb success hm
  · exact hl success (List.mem_singleton.mp hm).symm

theorem StoredBy.concat (h : StoredBy ls) (l : Event) : StoredBy (ls ++ [l]) := by
  obtain ⟨before,after,rfl,hd⟩ := h
  exact ⟨before,after ++ [l],by simp,hd⟩

theorem delivering_step (h : Recorded ls s) (he : enabled s l)
    (hc : (effect s l).callback = .entered ∨ (effect s l).callback = .locked) :
    Delivering (ls ++ [l]) := by
  cases l with
  | deliver success =>
    cases success with
    | false => rcases hc with hc | hc <;> cases hc
    | true => exact ⟨ls,[],rfl,nofun⟩
  | acquire => exact (h.delivering (.inl (of_decide_eq_true he).1)).concat nofun
  | store => rcases hc with hc | hc <;> cases hc
  | release => rcases hc with hc | hc <;> cases hc
  | notifyAll => rcases hc with hc | hc <;> cases hc
  | storeAgain => rcases hc with hc | hc <;> cases hc
  | _ => exact (h.delivering hc).concat nofun

theorem stored_step (hf : Flag s) (h : Recorded ls s) (he : enabled s l)
    (hr : (effect s l).ready) : StoredBy (ls ++ [l]) := by
  cases l with
  | store => exact ⟨ls,[],rfl,h.delivering (.inr (of_decide_eq_true he))⟩
  | storeAgain =>
    have hc : s.callback = .notified := of_decide_eq_true he
    exact (h.stored (hf.published (by rw [hc]; rfl))).concat _
  | _ => exact (h.stored hr).concat _

theorem elapsed_step (h : Recorded ls s) (he : (effect s l).elapsed) : .elapse ∈ ls ++ [l] := by
  cases l with
  | elapse => simp
  | _ => exact List.mem_append_left _ (h.elapsed he)

structure Inv (ls : List Event) (s : State) : Prop where
  locks : Locks s
  flag : Flag s
  recorded : Recorded ls s

theorem inv_initial : Inv [] {} :=
  ⟨⟨nofun,nofun⟩,⟨nofun,nofun,nofun,nofun⟩,⟨nofun,nofun,nofun⟩⟩

theorem inv_step (h : Inv ls s) (hs : machine.step s l = some t) : Inv (ls ++ [l]) t := by
  obtain ⟨he,rfl⟩ := Machine.guarded_step hs
  exact ⟨locks_step h.locks he,flag_step h.locks h.flag he,
    delivering_step h.recorded he,stored_step h.flag h.recorded he,elapsed_step h.recorded⟩

theorem run_inv (h : machine.run {} ls = some s) : Inv ls s :=
  machine.run_history Inv (fun _ _ _ _ => inv_step) inv_initial h

theorem wait_ends (hs : s.waiter ≠ (effect s l).waiter)
    (ht : (effect s l).waiter = .ready ∨ (effect s l).waiter = .throwing) :
    ((effect s l).waiter = .ready ∧ s.ready) ∨
      ((effect s l).waiter = .throwing ∧ l = .finalTest ∧ s.ready = false) := by
  cases l with
  | test =>
    by_cases hr : s.ready
    · exact .inl ⟨if_pos hr,hr⟩
    · simp [effect,hr] at ht
  | finalTest =>
    by_cases hr : s.ready
    · exact .inl ⟨if_pos hr,hr⟩
    · exact .inr ⟨if_neg hr,rfl,by simpa using hr⟩
  | relock =>
    simp only [effect] at ht
    split at ht <;> simp at ht
  | leave =>
    simp only [effect] at ht
    split at ht <;> simp at ht
  | notifyAll =>
    by_cases hb : s.waiter = .blocked
    · simp [effect,hb] at ht
    · exact absurd (if_neg hb).symm hs
  | lock => simp [effect] at ht
  | block => simp [effect] at ht
  | spurious => simp [effect] at ht
  | timeout => simp [effect] at ht
  | _ => exact absurd rfl hs

structure Handshake (ls : List Event) (s : State) : Prop where
  left : ∀ l t, machine.step s l = some t → s.waiter ≠ .ready → t.waiter = .ready → StoredBy ls
  thrown : ∀ l t, machine.step s l = some t → s.waiter ≠ .throwing → t.waiter = .throwing →
    l = .finalTest ∧ .elapse ∈ ls ∧ s.ready = false
  woken : ¬ (s.ready ∧ s.callback = .idle ∧ s.waiter = .blocked)

theorem readiness_handshake (h : machine.run {} ls = some s) : Handshake ls s := by
  have hi := run_inv h
  refine ⟨?_,?_,?_⟩
  · intro l t hs hn ht
    obtain ⟨-,rfl⟩ := Machine.guarded_step hs
    rcases wait_ends (by rwa [ht]) (.inl ht) with ⟨-,hr⟩ | ⟨hw,-⟩
    · exact hi.recorded.stored hr
    · cases ht.symm.trans hw
  · intro l t hs hn ht
    obtain ⟨he,rfl⟩ := Machine.guarded_step hs
    rcases wait_ends (by rwa [ht]) (.inr ht) with ⟨hw,-⟩ | ⟨-,rfl,hr⟩
    · cases ht.symm.trans hw
    · have hd := hi.flag.timed (.inr (of_decide_eq_true he))
      exact ⟨rfl,hi.recorded.elapsed hd,hr⟩
  · rintro ⟨hr,hc,hb⟩
    exact hi.flag.not_blocked hr (by simp [hc]) (by simp [hc]) hb

def late : List Event :=
  [.lock,.test,.block,.deliver false,.deliver true,.acquire,.store,.release,.notifyAll,.relock]

theorem readiness_handshake_late :
    Handshake late ⟨true,some .constructor,false,.testing,.notified⟩ := readiness_handshake rfl

end Minipro.Readiness
