import Minipro.Library.Transition

namespace Minipro.ReliableSession
open Transition

structure Request where
  address : Nat
  id : UInt32
deriving DecidableEq

structure Gatt where
  reliableWriteSessionId : UInt32 := 0
  nextRequestId : UInt32 := 0
  pendingRequests : List Request := []
  allocated : Nat := 0
deriving DecidableEq

-- linked: the client still has its bt_att. sent: the copy of the PDU and bt_att_send succeed.
structure Conditions where
  linked : Bool
  inLongWrite : Bool
  allocates : Bool
  sent : Bool
deriving DecidableEq

namespace Gatt

def requestCreate (g : Gatt) : Request × Gatt :=
  let id := if g.nextRequestId < 1 then 1 else g.nextRequestId
  (⟨g.allocated,id⟩,
    { g with
      nextRequestId := id + 1
      pendingRequests := g.pendingRequests ++ [⟨g.allocated,id⟩]
      allocated := g.allocated + 1 })

def requestUnref (g : Gatt) (address : Nat) : Gatt :=
  { g with pendingRequests := g.pendingRequests.filter fun r => r.address ≠ address }

def find (g : Gatt) (id : UInt32) : Option Request := g.pendingRequests.find? fun r => r.id = id

def getReliableRequest (g : Gatt) (id : UInt32) (allocates : Bool) : Option (Request × Gatt) :=
  if ¬ allocates then none
  else if id ≠ 0 then (g.find id).map fun req => (req,g)
  else some g.requestCreate

-- A refused follow-up frees the only request of the session.
def prepareWrite (g : Gatt) (id : UInt32) (c : Conditions) : UInt32 × Gatt :=
  if c.inLongWrite then (0,g)
  else if id ≠ g.reliableWriteSessionId then (0,g)
  else match g.getReliableRequest id c.allocates with
    | none => (0,g)
    | some (req,g) =>
      if ¬ c.sent then (0,g.requestUnref req.address)
      else if g.reliableWriteSessionId = 0 then
        (req.id,{ g with reliableWriteSessionId := req.id })
      else (g.reliableWriteSessionId,g)

def writeExecute (g : Gatt) (id : UInt32) (c : Conditions) : Option Request × Gatt :=
  if c.inLongWrite then (none,g)
  else if g.reliableWriteSessionId ≠ id then (none,g)
  else if ¬ c.allocates then (none,g)
  else match g.find id with
    | none => (none,g)
    | some req => if c.sent then (some req,g) else (none,g.requestUnref req.address)

def cancel (g : Gatt) (id : UInt32) (c : Conditions) : Bool × Gatt :=
  if id = 0 ∨ ¬ c.linked then (false,g)
  else match g.find id with
    | none => (false,g)
    | some req => (c.sent,g.requestUnref req.address)

def close (g : Gatt) : Gatt := { g with reliableWriteSessionId := 0 }

end Gatt

inductive Caller where
  | idle
  | executing (request : Nat)
  | refused
  | answered
  | cancelling (accepted : Bool)
deriving DecidableEq

-- Where the mainloop thread stands in exec_write_cb and behind it.
inductive Mainloop where
  | free
  | closing (request : Nat)
  | releasing (request : Nat)
deriving DecidableEq

structure State where
  reliableSessionId : UInt32 := 0
  gatt : Gatt := {}
  cancels : Nat := 0
  caller : Caller := .idle
  mainloop : Mainloop := .free
deriving DecidableEq

inductive Event where
  | writePrepare (id : UInt32) (c : Conditions)
  | writeExecute (sessionId : UInt32) (execute : Bool) (c : Conditions)
  | executed
  | closed
  | released
  | cancelled
  | finish
deriving DecidableEq

namespace State

def session (s : State) : UInt32 := s.gatt.reliableWriteSessionId

def writePrepare (s : State) (id : UInt32) (c : Conditions) : State :=
  if s.reliableSessionId ≠ id then s
  else { s with
    reliableSessionId := (s.gatt.prepareWrite id c).1
    gatt := (s.gatt.prepareWrite id c).2 }

def writeExecute (s : State) (sessionId : UInt32) (execute : Bool) (c : Conditions) : State :=
  if execute then
    { s with
      gatt := (s.gatt.writeExecute sessionId c).2
      caller := match (s.gatt.writeExecute sessionId c).1 with
        | some req => .executing req.address
        | none => .refused }
  else
    { s with
      gatt := (s.gatt.cancel sessionId c).2
      cancels := if (s.gatt.cancel sessionId c).1 then s.cancels + 1 else s.cancels
      caller := .cancelling (s.gatt.cancel sessionId c).1 }

-- exec_write_cb wakes the caller first, closes the session after that, and the operation drops its
-- request when it has returned.
def executed (s : State) : Option State := match s.mainloop,s.caller with
  | .free,.executing req => some { s with caller := .answered, mainloop := .closing req }
  | _,_ => none

def closed (s : State) : Option State := match s.mainloop with
  | .closing req => some { s with gatt := s.gatt.close, mainloop := .releasing req }
  | _ => none

def released (s : State) : Option State := match s.mainloop with
  | .releasing req => some { s with gatt := s.gatt.requestUnref req, mainloop := .free }
  | _ => none

def cancelled (s : State) : Option State :=
  if s.mainloop = .free ∧ 0 < s.cancels then
    some { s with gatt := s.gatt.close, cancels := s.cancels - 1 }
  else none

def finish (s : State) : Option State := match s.caller with
  | .answered => some { s with reliableSessionId := 0, caller := .idle }
  | .cancelling _ => some { s with reliableSessionId := 0, caller := .idle }
  | _ => none

end State

def machine : Machine State Event where
  step s
    | .writePrepare id c => if s.caller = .idle then some (s.writePrepare id c) else none
    | .writeExecute sessionId execute c =>
        if s.caller = .idle then some (s.writeExecute sessionId execute c) else none
    | .executed => s.executed
    | .closed => s.closed
    | .released => s.released
    | .cancelled => s.cancelled
    | .finish => s.finish

def Agrees (s : State) : Prop := s.caller = .idle → s.reliableSessionId = s.session

def Continues (s : State) : Prop :=
  s.caller = .idle → s.session ≠ 0 → ∃ c t,
    machine.step s (.writePrepare s.reliableSessionId c) = some t ∧
      t.session = s.session ∧ t.reliableSessionId = s.session

def Rejected (s : State) : Event → Prop
  | .writePrepare id c => s.reliableSessionId ≠ id ∨ (s.gatt.prepareWrite id c).1 = 0
  | .writeExecute sessionId true c => (s.gatt.writeExecute sessionId c).1 = none
  | .writeExecute sessionId false c => (s.gatt.cancel sessionId c).1 = false
  | .finish => s.caller = .cancelling false
  | _ => False

structure SessionAgrees (ls : List Event) : Prop where
  agree : machine.Always Agrees {} ls
  continued : machine.Always Continues {} ls
  rejected : ∀ pre l s t, pre ++ [l] <+: ls → machine.run {} pre = some s →
    machine.step s l = some t → Rejected s l →
      t.reliableSessionId = s.reliableSessionId ∧ t.session = s.session

def Kept (s : State) : Event → Prop
  | .writePrepare id c =>
      s.reliableSessionId = id → (s.gatt.prepareWrite id c).1 = 0 → s.session = 0
  | .finish => s.session = 0 ∧ (s.caller = .cancelling false → s.reliableSessionId = 0)
  | .closed | .cancelled => s.caller = .idle → s.session = 0
  | _ => True

namespace Gatt
variable {g : Gatt} {id : UInt32} {c : Conditions} {req : Request}

structure Fresh (g : Gatt) : Prop where
  below : ∀ r ∈ g.pendingRequests, r.address < g.allocated

theorem find_some (h : g.find id = some req) : req ∈ g.pendingRequests ∧ req.id = id :=
  ⟨List.mem_of_find?_eq_some h,by simpa using List.find?_some h⟩

theorem find_isSome (hr : req ∈ g.pendingRequests) : ∃ r, g.find req.id = some r := by
  refine Option.isSome_iff_exists.mp ?_
  rw [find,List.find?_isSome]
  exact ⟨req,hr,by simp⟩

theorem Fresh.unref (h : g.Fresh) (address : Nat) : (g.requestUnref address).Fresh :=
  ⟨fun r hr => h.below r (List.mem_of_mem_filter hr)⟩

theorem Fresh.create (h : g.Fresh) : g.requestCreate.2.Fresh := by
  refine ⟨fun r hr => ?_⟩
  rcases List.mem_append.mp hr with hr | hr
  · exact Nat.lt_succ_of_lt (h.below r hr)
  · rw [List.mem_singleton.mp hr]
    exact Nat.lt_succ_self _

theorem created_id (g : Gatt) : g.requestCreate.1.id ≠ 0 := by
  simp only [requestCreate]
  split
  next => decide
  next h =>
    intro h0
    rw [h0] at h
    exact h (by decide)

inductive Prepared (g : Gatt) (id : UInt32) : UInt32 × Gatt → Prop where
  | refused (g' : Gatt) (hs : g'.reliableWriteSessionId = g.reliableWriteSessionId)
      (ha : g.allocated ≤ g'.allocated) (hf : g.Fresh → g'.Fresh) : Prepared g id (0,g')
  | continued (hi : id = g.reliableWriteSessionId) (h0 : id ≠ 0) : Prepared g id (id,g)
  | opened (hi : id = 0) (h0 : g.reliableWriteSessionId = 0) :
      Prepared g id (g.requestCreate.1.id,
        { g.requestCreate.2 with reliableWriteSessionId := g.requestCreate.1.id })

theorem prepareWrite_prepared (g : Gatt) (id : UInt32) (c : Conditions) :
    Prepared g id (g.prepareWrite id c) := by
  have hkeep : Prepared g id (0,g) := .refused g rfl (Nat.le_refl _) fun h => h
  simp only [prepareWrite,getReliableRequest]
  split
  next => exact hkeep
  split
  next => exact hkeep
  next hid =>
    have hid : id = g.reliableWriteSessionId := not_not.mp hid
    by_cases ha : c.allocates = true
    · rw [if_neg (not_not.mpr ha)]
      by_cases h0 : id = 0
      · rw [if_neg (not_not.mpr h0)]
        change Prepared g id (if ¬ c.sent then
            (0,g.requestCreate.2.requestUnref g.requestCreate.1.address)
          else if g.requestCreate.2.reliableWriteSessionId = 0 then (g.requestCreate.1.id,
            { g.requestCreate.2 with reliableWriteSessionId := g.requestCreate.1.id })
          else (g.requestCreate.2.reliableWriteSessionId,g.requestCreate.2))
        split
        next => exact .refused _ rfl (Nat.le_succ _) fun h => h.create.unref _
        next =>
          have hs : g.requestCreate.2.reliableWriteSessionId = 0 := hid.symm.trans h0
          rw [if_pos hs]
          exact .opened h0 (hid.symm.trans h0)
      · rw [if_pos h0]
        cases hf : g.find id with
        | none => exact hkeep
        | some req =>
          simp only [Option.map_some]
          split
          next => exact .refused _ rfl (Nat.le_refl _) fun h => h.unref _
          next =>
            rw [if_neg (hid ▸ h0),← hid]
            exact .continued hid h0
    · rw [if_pos ha]
      exact hkeep

theorem writeExecute_cases (g : Gatt) (id : UInt32) (c : Conditions) :
    (g.writeExecute id c).2.reliableWriteSessionId = g.reliableWriteSessionId ∧
    (g.writeExecute id c).2.allocated = g.allocated ∧
    (g.Fresh → (g.writeExecute id c).2.Fresh) ∧
    ∀ req, (g.writeExecute id c).1 = some req → req ∈ g.pendingRequests := by
  simp only [writeExecute]
  split
  next => exact ⟨rfl,rfl,fun h => h,fun _ h => nomatch h⟩
  split
  next => exact ⟨rfl,rfl,fun h => h,fun _ h => nomatch h⟩
  split
  next => exact ⟨rfl,rfl,fun h => h,fun _ h => nomatch h⟩
  split
  next => exact ⟨rfl,rfl,fun h => h,fun _ h => nomatch h⟩
  next req hf =>
    split
    next => exact ⟨rfl,rfl,fun h => h,fun r h => Option.some.inj h ▸ (find_some hf).1⟩
    next => exact ⟨rfl,rfl,fun h => h.unref _,fun _ h => nomatch h⟩

theorem cancel_cases (g : Gatt) (id : UInt32) (c : Conditions) :
    (g.cancel id c).2.reliableWriteSessionId = g.reliableWriteSessionId ∧
    (g.cancel id c).2.allocated = g.allocated ∧ (g.Fresh → (g.cancel id c).2.Fresh) := by
  simp only [cancel]
  split
  next => exact ⟨rfl,rfl,fun h => h⟩
  split
  next => exact ⟨rfl,rfl,fun h => h⟩
  next => exact ⟨rfl,rfl,fun h => h.unref _⟩

end Gatt

structure Inv (s : State) : Prop where
  agree : s.caller = .idle → s.reliableSessionId = s.session
  listed : s.caller = .idle → s.session ≠ 0 → ∃ r ∈ s.gatt.pendingRequests, r.id = s.session ∧
    s.mainloop ≠ .releasing r.address
  fresh : s.gatt.Fresh
  called : ∀ a, s.caller = .executing a → a < s.gatt.allocated
  busy : ∀ a, s.mainloop = .closing a ∨ s.mainloop = .releasing a → a < s.gatt.allocated

variable {s t : State} {id sessionId : UInt32} {execute : Bool} {c : Conditions}

theorem executed_cases (h : s.executed = some t) : ∃ a, s.mainloop = .free ∧
    s.caller = .executing a ∧ t = { s with caller := .answered, mainloop := .closing a } := by
  simp only [State.executed] at h
  split at h
  next a hm hc => exact ⟨a,hm,hc,(Option.some.inj h).symm⟩
  next => cases h

theorem closed_cases (h : s.closed = some t) : ∃ a, s.mainloop = .closing a ∧
    t = { s with gatt := s.gatt.close, mainloop := .releasing a } := by
  simp only [State.closed] at h
  split at h
  next a hm => exact ⟨a,hm,(Option.some.inj h).symm⟩
  next => cases h

theorem released_cases (h : s.released = some t) : ∃ a, s.mainloop = .releasing a ∧
    t = { s with gatt := s.gatt.requestUnref a, mainloop := .free } := by
  simp only [State.released] at h
  split at h
  next a hm => exact ⟨a,hm,(Option.some.inj h).symm⟩
  next => cases h

theorem cancelled_cases (h : s.cancelled = some t) :
    t = { s with gatt := s.gatt.close, cancels := s.cancels - 1 } := by
  simp only [State.cancelled,Option.ite_none_right_eq_some] at h
  exact (Option.some.inj h.2).symm

theorem finish_cases (h : s.finish = some t) :
    t = { s with reliableSessionId := 0, caller := .idle } := by
  simp only [State.finish] at h
  split at h
  next => exact (Option.some.inj h).symm
  next => exact (Option.some.inj h).symm
  next => cases h

theorem writeExecute_kept (s : State) (sessionId : UInt32) (execute : Bool) (c : Conditions) :
    (s.writeExecute sessionId execute c).reliableSessionId = s.reliableSessionId ∧
      (s.writeExecute sessionId execute c).session = s.session := by
  simp only [State.writeExecute,State.session]
  split
  · exact ⟨rfl,(s.gatt.writeExecute_cases sessionId c).1⟩
  · exact ⟨rfl,(s.gatt.cancel_cases sessionId c).1⟩

theorem inv_initial : Inv {} :=
  ⟨fun _ => rfl,fun _ h => absurd rfl h,⟨fun _ h => nomatch h⟩,fun _ h => (by cases h),
    fun _ h => (by rcases h with h | h <;> cases h)⟩

theorem inv_prepare (h : Inv s) (hc : s.caller = .idle) (hk : Kept s (.writePrepare id c)) :
    Inv (s.writePrepare id c) := by
  simp only [State.writePrepare]
  split
  next => exact h
  next hid =>
    have hk := hk (not_not.mp hid)
    have hbusy {n : Nat} (hn : s.gatt.allocated ≤ n) (a : Nat)
        (ha : s.mainloop = .closing a ∨ s.mainloop = .releasing a) : a < n :=
      Nat.lt_of_lt_of_le (h.busy a ha) hn
    have hcalled (n : Nat) (a : Nat) (ha : s.caller = .executing a) : a < n :=
      nomatch hc.symm.trans ha
    generalize hr : s.gatt.prepareWrite id c = r at hk
    cases hr ▸ s.gatt.prepareWrite_prepared id c with
    | refused g hs ha hf =>
      have hz : s.session = 0 := hk rfl
      refine ⟨fun _ => ?_,fun _ hn => ?_,hf h.fresh,fun a => hcalled _ a,fun a => hbusy ha a⟩
      · exact hz.symm.trans hs.symm
      · exact absurd (hs.trans hz) hn
    | continued hi h0 => exact ⟨fun _ => hi,h.listed,h.fresh,h.called,h.busy⟩
    | opened hi h0 =>
      refine ⟨fun _ => rfl,fun _ _ => ?_,⟨h.fresh.create.below⟩,fun a => hcalled _ a,
        fun a => hbusy (Nat.le_succ _) a⟩
      refine ⟨s.gatt.requestCreate.1,List.mem_append_right _ (List.mem_singleton.mpr rfl),rfl,?_⟩
      intro hm
      exact absurd (h.busy _ (.inr hm)) (Nat.lt_irrefl _)

theorem inv_execute (h : Inv s) :
    Inv (s.writeExecute sessionId execute c) := by
  cases execute with
  | true =>
    obtain ⟨-,ha,hf,hm⟩ := s.gatt.writeExecute_cases sessionId c
    have hidle : (s.writeExecute sessionId true c).caller ≠ .idle := by
      simp only [State.writeExecute,if_true]
      split <;> simp
    refine ⟨fun hc => absurd hc hidle,fun hc => absurd hc hidle,hf h.fresh,fun a hc => ?_,
      fun a hb => ?_⟩
    · change a < (s.gatt.writeExecute sessionId c).2.allocated
      simp only [State.writeExecute,if_true] at hc
      split at hc
      next req hr =>
        obtain rfl := Caller.executing.inj hc
        rw [ha]
        exact h.fresh.below req (hm req hr)
      next => cases hc
    · change a < (s.gatt.writeExecute sessionId c).2.allocated
      rw [ha]
      exact h.busy a hb
  | false =>
    obtain ⟨-,ha,hf⟩ := s.gatt.cancel_cases sessionId c
    refine ⟨fun hc => (nomatch hc),fun hc => (nomatch hc),hf h.fresh,fun a hc => (nomatch hc),
      fun a hb => ?_⟩
    change a < (s.gatt.cancel sessionId c).2.allocated
    rw [ha]
    exact h.busy a hb

theorem inv_executed (h : Inv s) (he : s.executed = some t) : Inv t := by
  obtain ⟨a,-,hc,rfl⟩ := executed_cases he
  refine ⟨fun hc => (nomatch hc),fun hc => (nomatch hc),h.fresh,fun a hc => (nomatch hc),?_⟩
  rintro b (hb | hb)
  · exact Mainloop.closing.inj hb ▸ h.called a hc
  · cases hb

theorem inv_closed (h : Inv s) (hk : Kept s .closed) (hc : s.closed = some t) : Inv t := by
  obtain ⟨a,hm,rfl⟩ := closed_cases hc
  refine ⟨fun hi => (h.agree hi).trans (hk hi),fun _ hn => absurd rfl hn,⟨h.fresh.below⟩,h.called,?_⟩
  rintro b (hb | hb)
  · cases hb
  · exact Mainloop.releasing.inj hb ▸ h.busy a (.inl hm)

theorem inv_released (h : Inv s) (hr : s.released = some t) : Inv t := by
  obtain ⟨a,hm,rfl⟩ := released_cases hr
  refine ⟨h.agree,fun hi hn => ?_,h.fresh.unref a,h.called,fun b hb => by rcases hb with hb | hb <;> cases hb⟩
  obtain ⟨r,hr,hid,hne⟩ := h.listed hi hn
  have ha : r.address ≠ a := fun he => hne (he ▸ hm)
  exact ⟨r,List.mem_filter.mpr ⟨hr,by simpa using ha⟩,hid,by simp⟩

theorem inv_cancelled (h : Inv s) (hk : Kept s .cancelled) (hc : s.cancelled = some t) : Inv t := by
  obtain rfl := cancelled_cases hc
  exact ⟨fun hi => (h.agree hi).trans (hk hi),fun _ hn => absurd rfl hn,⟨h.fresh.below⟩,h.called,
    h.busy⟩

theorem inv_finish (h : Inv s) (hk : Kept s .finish) (hf : s.finish = some t) : Inv t := by
  obtain rfl := finish_cases hf
  exact ⟨fun _ => hk.1.symm,fun _ hn => absurd hk.1 hn,h.fresh,fun a hc => (nomatch hc),h.busy⟩

theorem inv_step {l : Event} (h : Inv s) (hk : Kept s l) (hs : machine.step s l = some t) :
    Inv t := by
  cases l with
  | writePrepare id c =>
    obtain ⟨hc,⟨⟩⟩ := Option.ite_none_right_eq_some.mp hs
    exact inv_prepare h hc hk
  | writeExecute sessionId execute c =>
    obtain ⟨-,⟨⟩⟩ := Option.ite_none_right_eq_some.mp hs
    exact inv_execute h
  | executed => exact inv_executed h hs
  | closed => exact inv_closed h hk hs
  | released => exact inv_released h hs
  | cancelled => exact inv_cancelled h hk hs
  | finish => exact inv_finish h hk hs

theorem continues_of_inv (h : Inv s) : Continues s := by
  intro hc hs
  have ha := h.agree hc
  obtain ⟨r,hr,hid,-⟩ := h.listed hc hs
  obtain ⟨req,hreq⟩ := Gatt.find_isSome hr
  have hp : s.gatt.prepareWrite s.session ⟨true,false,true,true⟩ = (s.session,s.gatt) := by
    rw [hid] at hreq
    simp only [State.session] at hs hreq ⊢
    simp [Gatt.prepareWrite,Gatt.getReliableRequest,hs,hreq]
  refine ⟨⟨true,false,true,true⟩,_,if_pos hc,?_,?_⟩
  · simp only [State.session,State.writePrepare,ha,ne_eq,not_true_eq_false,if_false]
    exact congrArg (fun r => r.2.reliableWriteSessionId) hp
  · simp only [State.writePrepare,ha,ne_eq,not_true_eq_false,if_false]
    exact congrArg Prod.fst hp

theorem rejected_unchanged {l : Event} (h : Inv s) (hk : Kept s l) (hs : machine.step s l = some t)
    (hr : Rejected s l) :
    t.reliableSessionId = s.reliableSessionId ∧ t.session = s.session := by
  cases l with
  | writePrepare id c =>
    obtain ⟨hc,⟨⟩⟩ := Option.ite_none_right_eq_some.mp hs
    simp only [State.writePrepare]
    split
    next => exact ⟨rfl,rfl⟩
    next hid =>
      have hz : (s.gatt.prepareWrite id c).1 = 0 := hr.resolve_left hid
      have ho := hk (not_not.mp hid) hz
      refine ⟨(hz.trans ho.symm).trans (h.agree hc).symm,?_⟩
      generalize hg : s.gatt.prepareWrite id c = r at hz
      simp only [State.session] at ho ⊢
      cases hg ▸ s.gatt.prepareWrite_prepared id c with
      | refused g hs => exact hs
      | continued => rfl
      | opened => exact absurd hz s.gatt.created_id
  | writeExecute sessionId execute c =>
    obtain ⟨-,⟨⟩⟩ := Option.ite_none_right_eq_some.mp hs
    exact writeExecute_kept s sessionId execute c
  | finish =>
    obtain rfl := finish_cases hs
    exact ⟨(hk.2 hr).symm,rfl⟩
  | _ => exact absurd hr id

theorem kept_of_sound {l : Event} (hi : Inv s) (hs : machine.step s l = some t) (ha : Agrees t)
    (hr : Rejected s l → t.reliableSessionId = s.reliableSessionId ∧ t.session = s.session) :
    Kept s l := by
  cases l with
  | writePrepare id c =>
    obtain ⟨hc,⟨⟩⟩ := Option.ite_none_right_eq_some.mp hs
    intro hid hz
    obtain ⟨hheld,hsess⟩ := hr (.inr hz)
    rw [← hsess,← ha (by simpa [State.writePrepare,hid] using hc)]
    simpa [State.writePrepare,hid] using hz
  | finish =>
    obtain rfl := finish_cases hs
    exact ⟨(ha rfl).symm,fun hc => (hr hc).1.symm⟩
  | closed =>
    obtain ⟨a,-,rfl⟩ := closed_cases hs
    exact fun hc => (hi.agree hc).symm.trans (ha hc)
  | cancelled =>
    obtain rfl := cancelled_cases hs
    exact fun hc => (hi.agree hc).symm.trans (ha hc)
  | _ => trivial

theorem sessionAgrees_of_kept {ls : List Event} (h : machine.Along Kept {} ls) :
    SessionAgrees ls := by
  have hinv (ms : List Event) (u : State) (hm : ms <+: ls) (hu : machine.run {} ms = some u) :
      Inv u :=
    machine.along_invariant Inv Kept (fun _ _ _ => inv_step) inv_initial
      (machine.along_of_prefix Kept h hm) hu
  refine ⟨?_,?_,?_⟩
  · exact fun ms u hm hu => (hinv ms u hm hu).agree
  · exact fun ms u hm hu => continues_of_inv (hinv ms u hm hu)
  · intro pre l u v hm hu hs hr
    have hk := ((machine.along_concat Kept hu l).mp (machine.along_of_prefix Kept h hm)).2
    exact rejected_unchanged (hinv pre u ((List.prefix_append pre [l]).trans hm) hu) hk hs hr

theorem session_agrees_iff {ls : List Event} (h : machine.run {} ls = some t) :
    SessionAgrees ls ↔ machine.Along Kept {} ls := by
  refine ⟨fun ha => ?_,sessionAgrees_of_kept⟩
  refine machine.along_of_steps Inv Kept (fun _ _ _ => inv_step) inv_initial h ?_
  intro ms u l v hm hu hi hv
  refine kept_of_sound hi hv (ha.agree _ v hm ?_) (ha.rejected ms l u v hm hu hv)
  rw [machine.run_append,hu]
  simpa using hv

def accepting : Conditions := ⟨true,false,true,true⟩

def written : List Event :=
  [.writePrepare 0 accepting,.writePrepare 1 accepting,.writeExecute 1 true accepting,.executed,
    .closed,.finish,.released]

theorem session_agrees_written : SessionAgrees written := by
  refine (session_agrees_iff (show machine.run {} written =
    some { gatt := { nextRequestId := 2, allocated := 1 } } from by decide)).mpr ?_
  refine ⟨fun _ _ => rfl,fun t ht => ?_⟩
  cases ht
  refine ⟨fun _ h => absurd h (by decide),fun t ht => ?_⟩
  cases ht
  refine ⟨trivial,fun t ht => ?_⟩
  cases ht
  refine ⟨trivial,fun t ht => ?_⟩
  cases ht
  refine ⟨fun h => (by cases h),fun t ht => ?_⟩
  cases ht
  refine ⟨⟨rfl,fun h => (by cases h)⟩,fun t ht => ?_⟩
  cases ht
  exact ⟨trivial,fun _ _ => trivial⟩

theorem refused_prepare_forgets_session :
    ∃ ls t, machine.run {} ls = some t ∧ ¬ SessionAgrees ls := by
  refine ⟨[.writePrepare 0 accepting,.writePrepare 1 { accepting with sent := false }],_,rfl,?_⟩
  intro h
  exact absurd (h.agree _ _ List.prefix_rfl rfl rfl) (by decide)

end Minipro.ReliableSession
