import Mathlib.Logic.Function.Basic
import Minipro.Library.Transition
import Minipro.LEClient.Completion

namespace Minipro.LEClient
open Transition

inductive Operation where
  | writeValue
  | writeLongValue
  | writeExecute
deriving DecidableEq, Repr

def Operation.stores : Operation → Bool → Bool → UInt8 → Option Int
  | .writeLongValue, success, reliableError, attEcode =>
      writeLongCb success reliableError attEcode
  | _, success, _, attEcode => some (writeCb ⟨success,attEcode⟩)

inductive Request where
  | prepare
  | awaited (op : Operation) (promise : Nat)
deriving DecidableEq, Repr

inductive Caller where
  | idle
  | waiting (op : Operation) (promise : Nat)
deriving DecidableEq, Repr

structure Writer where
  caller : Caller := .idle
  promises : Nat → Option Int := fun _ => none
  pending : Nat → Option Request := fun _ => none
  next : Nat := 0
  reliableSessionId : UInt32 := 0

inductive Event where
  | write (op : Operation) (reply : UInt32)
  | writePrepare (id reply : UInt32)
  | complete (request : Nat) (success reliableError : Bool) (attEcode : UInt8)
  | drop (request : Nat)
  | resume

namespace Writer

def accept (s : Writer) (r : Request) (reply : UInt32) : Writer :=
  if reply = 0 then { s with next := s.next+1 }
  else { s with pending := Function.update s.pending s.next (some r), next := s.next+1 }

def start (s : Writer) (op : Operation) (reply : UInt32) : Writer :=
  { s.accept (.awaited op s.next) reply with caller := .waiting op s.next }

def writePrepare (s : Writer) (id reply : UInt32) : Writer :=
  if s.reliableSessionId ≠ id then s
  else { s.accept .prepare reply with reliableSessionId := reply }

def remove (s : Writer) (request : Nat) : Writer :=
  { s with pending := Function.update s.pending request none }

def callback (s : Writer) (success reliableError : Bool) (attEcode : UInt8) : Request → Writer
  | .prepare => s
  | .awaited op promise => match op.stores success reliableError attEcode with
      | some rc => { s with promises := Function.update s.promises promise (some rc) }
      | none => s

def finish (s : Writer) (op : Operation) : Writer :=
  { s with
    caller := .idle
    reliableSessionId := if op = .writeExecute then 0 else s.reliableSessionId }

def step (s : Writer) : Event → Option Writer
  | .write op reply => if s.caller = .idle then some (s.start op reply) else none
  | .writePrepare id reply => if s.caller = .idle then some (s.writePrepare id reply) else none
  | .complete request success reliableError attEcode => (s.pending request).map fun r =>
      (s.remove request).callback success reliableError attEcode r
  | .drop request => (s.pending request).map fun _ => s.remove request
  | .resume => match s.caller with
      | .idle => none
      | .waiting op promise => (s.promises promise).map fun _ => s.finish op

def machine : Machine Writer Event := ⟨step⟩

inductive Steps : Writer → Event → Writer → Prop
  | write {s : Writer} (op : Operation) (reply : UInt32) (h : s.caller = .idle) :
      Steps s (.write op reply) (s.start op reply)
  | writePrepare {s : Writer} (id reply : UInt32) (h : s.caller = .idle) :
      Steps s (.writePrepare id reply) (s.writePrepare id reply)
  | complete {s : Writer} {request : Nat} {r : Request} (success reliableError : Bool)
      (attEcode : UInt8) (h : s.pending request = some r) :
      Steps s (.complete request success reliableError attEcode)
        ((s.remove request).callback success reliableError attEcode r)
  | drop {s : Writer} {request : Nat} {r : Request} (h : s.pending request = some r) :
      Steps s (.drop request) (s.remove request)
  | resume {s : Writer} {op : Operation} {promise : Nat} {rc : Int}
      (hc : s.caller = .waiting op promise) (hp : s.promises promise = some rc) :
      Steps s .resume (s.finish op)

theorem steps_of_step {s t : Writer} {e : Event} (hs : machine.step s e = some t) :
    Steps s e t := by
  cases e with
  | write op reply =>
    simp only [machine,step,Option.ite_none_right_eq_some] at hs
    obtain ⟨h,⟨⟩⟩ := hs
    exact .write op reply h
  | writePrepare id reply =>
    simp only [machine,step,Option.ite_none_right_eq_some] at hs
    obtain ⟨h,⟨⟩⟩ := hs
    exact .writePrepare id reply h
  | complete request success reliableError attEcode =>
    obtain ⟨r,h,rfl⟩ := Option.map_eq_some_iff.mp hs
    exact .complete success reliableError attEcode h
  | drop request =>
    obtain ⟨r,h,rfl⟩ := Option.map_eq_some_iff.mp hs
    exact .drop h
  | resume =>
    simp only [machine,step] at hs
    split at hs
    · cases hs
    · next hc =>
      obtain ⟨rc,hp,rfl⟩ := Option.map_eq_some_iff.mp hs
      exact .resume hc hp

def Lost (s : Writer) : Prop :=
  ∃ op promise, s.caller = .waiting op promise ∧ s.promises promise = none ∧
    ∀ request op', s.pending request ≠ some (.awaited op' promise)

def Answers (s : Writer) : Event → Prop
  | .write _ reply => reply ≠ 0
  | .complete request success reliableError _ =>
      ∀ promise, s.pending request = some (.awaited .writeLongValue promise) →
        success ∨ ¬ reliableError
  | .drop request => ∀ op promise, s.pending request ≠ some (.awaited op promise)
  | _ => True

structure Live (s : Writer) : Prop where
  awaited : ∀ request op promise, s.pending request = some (.awaited op promise) →
    request = promise ∧ s.caller = .waiting op promise ∧ s.promises promise = none
  unused : ∀ n, s.next ≤ n → s.pending n = none ∧ s.promises n = none

theorem live_initial : Live {} := ⟨fun _ _ _ h => (by cases h),fun _ _ => ⟨rfl,rfl⟩⟩

variable {s t : Writer}

@[simp] theorem accept_caller (s : Writer) (r : Request) (reply : UInt32) :
    (s.accept r reply).caller = s.caller := by
  simp only [accept]
  split <;> rfl

@[simp] theorem accept_promises (s : Writer) (r : Request) (reply : UInt32) :
    (s.accept r reply).promises = s.promises := by
  simp only [accept]
  split <;> rfl

@[simp] theorem accept_next (s : Writer) (r : Request) (reply : UInt32) :
    (s.accept r reply).next = s.next+1 := by
  simp only [accept]
  split <;> rfl

theorem accept_pending (s : Writer) (r : Request) (reply : UInt32) :
    (s.accept r reply).pending =
      if reply = 0 then s.pending else Function.update s.pending s.next (some r) := by
  simp only [accept]
  split <;> rfl

theorem accept_pending_some {r r' : Request} {reply : UInt32} {request : Nat}
    (h : (s.accept r reply).pending request = some r') :
    request = s.next ∧ r' = r ∨ s.pending request = some r' := by
  rw [accept_pending] at h
  split at h
  · exact .inr h
  · by_cases hr : request = s.next
    · subst hr
      exact .inl ⟨rfl,by simpa using h.symm⟩
    · exact .inr (by simpa [hr] using h)

theorem accept_unused (h : Live s) (r : Request) (reply : UInt32) {n : Nat} (hn : s.next+1 ≤ n) :
    (s.accept r reply).pending n = none ∧ (s.accept r reply).promises n = none := by
  have hu := h.unused n (by omega)
  refine ⟨?_,by simpa using hu.2⟩
  rw [accept_pending]
  split
  · exact hu.1
  · rw [Function.update_of_ne (by omega)]
    exact hu.1

theorem callback_eq (s : Writer) (success reliableError : Bool) (attEcode : UInt8) (r : Request) :
    s.callback success reliableError attEcode r = s ∨ ∃ op promise rc, r = .awaited op promise ∧
      s.callback success reliableError attEcode r =
        { s with promises := Function.update s.promises promise (some rc) } := by
  cases r with
  | prepare => exact .inl rfl
  | awaited op promise =>
    cases h : op.stores success reliableError attEcode with
    | none => exact .inl (by simp only [callback,h])
    | some rc => exact .inr ⟨op,promise,rc,rfl,by simp only [callback,h]⟩

theorem idle_pending (h : Live s) (hc : s.caller = .idle) (request : Nat) (op : Operation)
    (promise : Nat) : s.pending request ≠ some (.awaited op promise) := by
  intro hp
  have hw := (h.awaited request op promise hp).2.1
  rw [hc] at hw
  cases hw

theorem live_start (h : Live s) (hc : s.caller = .idle) (op : Operation) (reply : UInt32) :
    Live (s.start op reply) := by
  constructor
  · intro request op' promise hp
    rcases accept_pending_some hp with ⟨rfl,he⟩ | hp
    · cases he
      exact ⟨rfl,rfl,by simpa [start] using (h.unused s.next le_rfl).2⟩
    · exact absurd hp (idle_pending h hc request op' promise)
  · intro n hn
    exact accept_unused h _ reply (by simpa [start] using hn)

theorem live_prepare (h : Live s) (hc : s.caller = .idle) (id reply : UInt32) :
    Live (s.writePrepare id reply) := by
  simp only [writePrepare]
  split
  · exact h
  constructor
  · intro request op promise hp
    rcases accept_pending_some hp with ⟨-,he⟩ | hp
    · cases he
    · exact absurd hp (idle_pending h hc request op promise)
  · intro n hn
    exact accept_unused h .prepare reply (by simpa using hn)

theorem remove_pending {request request' : Nat} {r : Request}
    (hp : (s.remove request).pending request' = some r) :
    request' ≠ request ∧ s.pending request' = some r := by
  by_cases hr : request' = request
  · subst hr
    simp [remove] at hp
  · exact ⟨hr,by simpa [remove,hr] using hp⟩

theorem live_remove (h : Live s) (request : Nat) : Live (s.remove request) := by
  constructor
  · intro request' op promise hp
    exact h.awaited request' op promise (remove_pending hp).2
  · intro n hn
    have hu := h.unused n hn
    refine ⟨?_,hu.2⟩
    by_cases hr : n = request
    · simp [remove,hr]
    · simpa [remove,hr] using hu.1

theorem live_complete (h : Live s) {request : Nat} {r : Request} (hr : s.pending request = some r)
    (success reliableError : Bool) (attEcode : UInt8) :
    Live ((s.remove request).callback success reliableError attEcode r) := by
  rcases callback_eq (s.remove request) success reliableError attEcode r with
    he | ⟨op,promise,rc,rfl,he⟩
  · rw [he]
    exact live_remove h request
  · rw [he]
    obtain ⟨rfl,-,-⟩ := h.awaited request op promise hr
    constructor
    · intro request' op' promise' hp
      obtain ⟨hne,hp⟩ := remove_pending hp
      obtain ⟨rfl,hc,hn⟩ := h.awaited request' op' promise' hp
      exact ⟨rfl,hc,by simpa [remove,hne] using hn⟩
    · intro n hn
      have hu := h.unused n hn
      have hne : n ≠ request := by
        rintro rfl
        rw [hu.1] at hr
        cases hr
      exact ⟨by simpa [remove,hne] using hu.1,by simpa [remove,hne] using hu.2⟩

theorem live_finish (h : Live s) {op : Operation} {promise : Nat} {rc : Int}
    (hc : s.caller = .waiting op promise) (hp : s.promises promise = some rc) :
    Live (s.finish op) := by
  constructor
  · intro request op' promise' hr
    obtain ⟨-,hc',hn⟩ := h.awaited request op' promise' hr
    cases hc.symm.trans hc'
    rw [hp] at hn
    cases hn
  · exact h.unused

theorem live_step (s : Writer) (l : Event) (t : Writer) (h : Live s)
    (hs : machine.step s l = some t) : Live t := by
  cases steps_of_step hs with
  | write op reply hc => exact live_start h hc op reply
  | writePrepare id reply hc => exact live_prepare h hc id reply
  | complete success reliableError attEcode hr =>
    exact live_complete h hr success reliableError attEcode
  | drop hr => exact live_remove h _
  | resume hc hp => exact live_finish h hc hp

theorem not_lost_idle (hc : s.caller = .idle) : ¬ Lost s := by
  rintro ⟨op,promise,hw,-⟩
  rw [hc] at hw
  cases hw

theorem lost_remove_prepare {request : Nat} (hr : s.pending request = some .prepare) :
    Lost (s.remove request) ↔ Lost s := by
  have hp (op' : Operation) (promise : Nat) (request' : Nat) :
      (s.remove request).pending request' ≠ some (.awaited op' promise) ↔
        s.pending request' ≠ some (.awaited op' promise) := by
    by_cases he : request' = request
    · subst he
      simp [remove,hr]
    · simp [remove,he]
  simp only [Lost]
  simp only [hp]
  rfl

theorem lost_remove_awaited (h : Live s) {request : Nat} {op : Operation} {promise : Nat}
    (hr : s.pending request = some (.awaited op promise)) : Lost (s.remove request) := by
  obtain ⟨rfl,hc,hn⟩ := h.awaited request op promise hr
  refine ⟨op,request,hc,hn,?_⟩
  intro request' op' hp
  obtain ⟨hne,hp⟩ := remove_pending hp
  exact hne (h.awaited request' op' request hp).1

theorem not_lost_stored (h : Live s) {request : Nat} {op : Operation} {promise : Nat}
    (hr : s.pending request = some (.awaited op promise)) (rc : Int) :
    ¬ Lost { s.remove request with promises := Function.update s.promises promise (some rc) } := by
  obtain ⟨-,hc,-⟩ := h.awaited request op promise hr
  rintro ⟨op',promise',hw,hn,-⟩
  cases hc.symm.trans hw
  simp at hn

theorem lost_start (h : Live s) (hc : s.caller = .idle) (op : Operation) (reply : UInt32) :
    ¬ Lost (s.start op reply) ↔ reply ≠ 0 := by
  constructor
  · rintro hl rfl
    refine hl ⟨op,s.next,rfl,by simpa [start] using (h.unused s.next le_rfl).2,?_⟩
    intro request op' hp
    exact idle_pending h hc request op' s.next (by simpa [start,accept] using hp)
  · rintro hr ⟨op',promise,hw,-,hp⟩
    cases hw
    exact hp s.next op (by simp [start,accept,hr])

theorem stores_none_iff (op : Operation) (success reliableError : Bool) (attEcode : UInt8) :
    op.stores success reliableError attEcode = none ↔
      op = .writeLongValue ∧ success = false ∧ reliableError = true := by
  cases op <;> cases success <;> cases reliableError <;> simp [Operation.stores,writeLongCb]

theorem lost_complete (h : Live s) (hl : ¬ Lost s) {request : Nat} {r : Request}
    (hr : s.pending request = some r) (success reliableError : Bool) (attEcode : UInt8) :
    ¬ Lost ((s.remove request).callback success reliableError attEcode r) ↔
      s.Answers (.complete request success reliableError attEcode) := by
  cases r with
  | prepare => simp [callback,lost_remove_prepare hr,hl,Answers,hr]
  | awaited op promise =>
    cases hs : op.stores success reliableError attEcode with
    | some rc =>
      have hn : ¬ (op = .writeLongValue ∧ success = false ∧ reliableError = true) := by
        rw [← stores_none_iff op success reliableError attEcode,hs]
        simp
      simp only [callback,hs,Answers,hr]
      refine iff_of_true (not_lost_stored h hr rc) ?_
      rintro promise' he
      cases he
      rw [← Bool.not_eq_false success,← not_and_or]
      simpa using hn
    | none =>
      obtain ⟨rfl,rfl,rfl⟩ := (stores_none_iff op success reliableError attEcode).mp hs
      simp only [callback,hs,Answers,hr]
      refine iff_of_false (not_not.mpr (lost_remove_awaited h hr)) ?_
      intro ha
      simpa using ha promise rfl

theorem lost_drop (h : Live s) (hl : ¬ Lost s) {request : Nat} {r : Request}
    (hr : s.pending request = some r) :
    ¬ Lost (s.remove request) ↔ s.Answers (.drop request) := by
  cases r with
  | prepare => simp [lost_remove_prepare hr,hl,Answers,hr]
  | awaited op promise => simp [lost_remove_awaited h hr,Answers,hr]

theorem lost_step (s : Writer) (l : Event) (t : Writer) (h : Live s) (hl : ¬ Lost s)
    (hs : machine.step s l = some t) : ¬ Lost t ↔ s.Answers l := by
  cases steps_of_step hs with
  | write op reply hc => exact lost_start h hc op reply
  | writePrepare id reply hc =>
    refine iff_of_true (not_lost_idle ?_) trivial
    simp only [writePrepare]
    split <;> simpa using hc
  | complete success reliableError attEcode hr =>
    exact lost_complete h hl hr success reliableError attEcode
  | drop hr => exact lost_drop h hl hr
  | resume hc hp => exact iff_of_true (not_lost_idle rfl) trivial

theorem lost_forever (s : Writer) (l : Event) (t : Writer) (h : Live s) (hl : ¬ ¬ Lost s)
    (hs : machine.step s l = some t) : ¬ ¬ Lost t := by
  rw [not_not] at hl ⊢
  obtain ⟨op,promise,hc,hn,hp⟩ := id hl
  have hprep {request : Nat} {r : Request} (hr : s.pending request = some r) : r = .prepare := by
    cases r with
    | prepare => rfl
    | awaited op' promise' =>
      cases hc.symm.trans (h.awaited request op' promise' hr).2.1
      exact absurd hr (hp request op)
  cases steps_of_step hs with
  | write op reply hi => cases hc.symm.trans hi
  | writePrepare id reply hi => cases hc.symm.trans hi
  | complete success reliableError attEcode hr =>
    cases hprep hr
    exact (lost_remove_prepare hr).mpr hl
  | drop hr =>
    cases hprep hr
    exact (lost_remove_prepare hr).mpr hl
  | resume hw hr =>
    cases hc.symm.trans hw
    cases hn.symm.trans hr

theorem no_lost_writer_iff {ls : List Event} {t : Writer} (h : machine.run {} ls = some t) :
    machine.Always (fun s => ¬ Lost s) {} ls ↔ machine.Along Answers {} ls :=
  machine.always_iff_along Live (fun s => ¬ Lost s) Answers live_step lost_step lost_forever
    live_initial (not_lost_idle rfl) h

theorem no_lost_writer_answered :
    machine.Always (fun s => ¬ Lost s) {}
      [.writePrepare 0 7,.write .writeValue 1,.complete 0 true false 0,.complete 1 false false 3,
        .resume,.write .writeLongValue 2,.complete 2 true true 0,.resume,.writePrepare 7 0,
        .write .writeExecute 4,.complete 4 true false 0,.resume] := by
  refine (no_lost_writer_iff rfl).mpr ?_
  have h1 : (1 : UInt32) ≠ 0 := by decide
  have h2 : (2 : UInt32) ≠ 0 := by decide
  have h4 : (4 : UInt32) ≠ 0 := by decide
  refine ⟨trivial,fun _ _ => ⟨h1,fun _ _ => ⟨fun _ _ => .inl rfl,fun _ _ =>
    ⟨fun _ _ => .inr (by decide),fun _ _ => ⟨trivial,fun _ _ => ?_⟩⟩⟩⟩⟩
  refine ⟨h2,fun _ _ => ⟨fun _ _ => .inl rfl,fun _ _ => ⟨trivial,fun _ _ => ⟨trivial,fun _ _ => ?_⟩⟩⟩⟩
  exact ⟨h4,fun _ _ => ⟨fun _ _ => .inl rfl,fun _ _ => ⟨trivial,fun _ _ => trivial⟩⟩⟩

theorem refused_writer_lost :
    ¬ ∀ (ls : List Event) (t : Writer), machine.run {} ls = some t → ¬ Lost t := by
  intro h
  refine h [.write .writeValue 0] _ rfl ⟨.writeValue,0,rfl,rfl,?_⟩
  intro request op hp
  cases hp

end Writer
end Minipro.LEClient
