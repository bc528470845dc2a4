import Minipro.Bluez.DiscoveryChanges
import Minipro.Bluez.NotifyRegistration

namespace Minipro.ServiceChanged
open GattDb GattHelpers GattClient Keyed Transition
open GattNotify (ServiceChangedOp changedRange svcChngdHandle)

inductive Purpose where
  | init
  | serviceChanged (op : ServiceChangedOp)

structure Discovery where
  purpose : Purpose
  op : DiscoveryOp
  stage : Stage

-- What register_notify makes of the client's own request: the id it returns, 0 when it refuses, and
-- whether the CCC write has yet to be answered.
structure Registration where
  id : UInt32
  writing : Bool

-- handler: the value handle that service_changed_cb is listed for. changes: the ranges that the
-- upper layer was told of. refused: those whose rediscovery could not be started.
structure Client where
  db : Db
  discovery : Option Discovery
  inSvcChngd : Bool
  svcChngdQueue : List ServiceChangedOp
  ready : Bool
  svcChngdIndId : UInt32
  handler : Option UInt16
  enabling : Bool
  changes : List ServiceChangedOp
  refused : List ServiceChangedOp

def covers (op : ServiceChangedOp) (handle : UInt16) : Bool :=
  op.startHandle ≤ handle ∧ handle ≤ op.endHandle

namespace Client

def serviceChangedRegisterCb (c : Client) (attEcode : UInt8) : Client :=
  if attEcode = 0 then c else { c with svcChngdIndId := 0 }

-- enable_ccc_callback for the client's own handler.
def enableCccCallback (c : Client) (refused : Bool) (attEcode : UInt8) : Client :=
  if refused then { c with handler := none,enabling := false }.serviceChangedRegisterCb attEcode
  else { c with enabling := false }.serviceChangedRegisterCb 0

def registerServiceChanged (c : Client) (r : Registration) : Client × Bool :=
  if c.svcChngdIndId ≠ 0 then (c,true)
  else match svcChngdHandle c.db with
    | none => (c,true)
    | some handle =>
      if r.id = 0 then (c,false)
      else ({ c with svcChngdIndId := r.id,handler := some handle,enabling := r.writing },true)

def removeNotify (c : Client) (op : ServiceChangedOp) : Client :=
  if c.handler.any (covers op) then { c with handler := none } else c

def clearRange (c : Client) (op : ServiceChangedOp) : Client :=
  { c with db := c.db.clearRange op.startHandle op.endHandle }

def processServiceChanged (c : Client) (op : ServiceChangedOp) (sent : Bool) : Client :=
  if sent then
    { (c.removeNotify op).clearRange op with
      discovery := some ⟨.serviceChanged op,discoveryOpCreate,.awaiting .primary⟩
      inSvcChngd := true }
  else { (c.removeNotify op).clearRange op with refused := c.refused ++ [op] }

def processQueued (c : Client) (r : Registration) (sent : Bool) : Client :=
  match c.svcChngdQueue with
  | [] => (c.registerServiceChanged r).1
  | next :: rest => { c with svcChngdQueue := rest }.processServiceChanged next sent

def serviceChangedComplete (c : Client) (op : ServiceChangedOp) (success : Bool) (attEcode : UInt8)
    (r : Registration) (sent : Bool) : Client :=
  let db :=
    if ¬ success ∧ attEcode ≠ errorAttributeNotFound then
      c.db.clearRange op.startHandle op.endHandle
    else c.db
  { c with db := db,inSvcChngd := false,changes := c.changes ++ [op] }.processQueued r sent

def initComplete (c : Client) (success : Bool) (r : Registration) : Client × Bool :=
  if success then
    let v := c.registerServiceChanged r
    ({ v.1 with ready := v.2 },v.2)
  else ({ c with ready := false },false)

def completeFunc (c : Client) (purpose : Purpose) (success : Bool) (attEcode : UInt8)
    (r : Registration) (sent : Bool) : Client × Bool :=
  match purpose with
  | .init => c.initComplete success r
  | .serviceChanged op => (c.serviceChangedComplete op success attEcode r sent,success)

def failureFunc (c : Client) : Purpose → Client
  | .init => { c with db := c.db.clear }
  | .serviceChanged op => c.clearRange op

def discoveryOpUnref (c : Client) (purpose : Purpose) (success : Bool) : Client :=
  if success then c else c.failureFunc purpose

-- The request that completes an operation holds its last reference, which is dropped once
-- complete_func has returned, the next rediscovery perhaps already sent.
def discovered (c : Client) (purpose : Purpose) (u : Discovering) (r : Registration)
    (sent : Bool) : Option Client :=
  match u.stage with
  | .awaiting _ => some { c with db := u.db,discovery := some ⟨purpose,u.op,u.stage⟩ }
  | .complete success attEcode =>
    let v := { c with db := u.db,discovery := none }.completeFunc purpose success attEcode r sent
    some (v.1.discoveryOpUnref purpose v.2)
  | .freed => none

def serviceChangedCb (c : Client) (value : List UInt8) (sent : Bool) : Client :=
  match changedRange value with
  | none => c
  | some op =>
    if ¬ c.inSvcChngd then c.processServiceChanged op sent
    else { c with svcChngdQueue := c.svcChngdQueue ++ [op] }

def notifyCb (c : Client) (valueHandle : UInt16) (value : List UInt8) (sent : Bool) : Client :=
  if c.handler = some valueHandle then c.serviceChangedCb value sent else c

end Client

inductive Event where
  | report (r : Report) (registration : Registration) (sent : Bool)
  | registered (refused : Bool) (attEcode : UInt8)
  | indication (valueHandle : UInt16) (value : List UInt8) (sent : Bool)

-- A discovery that reads a freed service has no step, nor has an answer to the CCC write of a handler
-- that has been freed.
def machine : Machine Client Event where
  step c
    | .report r registration sent => c.discovery.bind fun d =>
        (Discovering.step ⟨c.db,d.op,d.stage⟩ r).bind fun u =>
          c.discovered d.purpose u registration sent
    | .registered refused attEcode =>
        if c.enabling ∧ c.handler.isSome then some (c.enableCccCallback refused attEcode) else none
    | .indication valueHandle value sent => some (c.notifyCb valueHandle value sent)

def init (db : Db) : Client :=
  ⟨db,some ⟨.init,discoveryOpCreate,.awaiting .primary⟩,false,[],false,0,none,false,[],[]⟩

section
variable {c t u : Client} {e : Event} {op : ServiceChangedOp} {sent : Bool} {r : Registration}
  {handle : UInt16}

-- What service_changed_cb is listed for, which the database and the discoveries do not depend on.
def Client.listening (c : Client) (id : UInt32) (handler : Option UInt16) (enabling : Bool) :
    Client :=
  { c with svcChngdIndId := id,handler := handler,enabling := enabling }

theorem register_eq (c : Client) (r : Registration) : ∃ id handler enabling,
    (c.registerServiceChanged r).1 = c.listening id handler enabling := by
  rw [Client.registerServiceChanged]
  split
  · exact ⟨_,_,_,rfl⟩
  · split
    · exact ⟨_,_,_,rfl⟩
    · split
      · exact ⟨_,_,_,rfl⟩
      · exact ⟨_,_,_,rfl⟩

theorem remove_eq (c : Client) (op : ServiceChangedOp) : ∃ handler,
    c.removeNotify op = c.listening c.svcChngdIndId handler c.enabling := by
  rw [Client.removeNotify]
  split
  · exact ⟨none,rfl⟩
  · exact ⟨c.handler,rfl⟩

theorem process_db (c : Client) (op : ServiceChangedOp) (sent : Bool) :
    (c.processServiceChanged op sent).db = c.db.clearRange op.startHandle op.endHandle := by
  obtain ⟨handler,he⟩ := remove_eq c op
  rw [Client.processServiceChanged,he]
  split
  · rfl
  · rfl

theorem process_evolves (c : Client) (op : ServiceChangedOp) (sent : Bool) :
    Evolves c.db (c.processServiceChanged op sent).db := by
  rw [process_db]
  exact evolves_clearRange _ _ _

theorem register_evolves (c : Client) (r : Registration) :
    Evolves c.db (c.registerServiceChanged r).1.db := by
  obtain ⟨id,handler,enabling,he⟩ := register_eq c r
  rw [he]
  exact .refl

theorem queued_evolves (c : Client) (r : Registration) (sent : Bool) :
    Evolves c.db (c.processQueued r sent).db := by
  rw [Client.processQueued]
  split
  · exact register_evolves c r
  · next next rest _ => exact process_evolves { c with svcChngdQueue := rest } next sent

theorem complete_evolves (c : Client) (op : ServiceChangedOp) (success : Bool) (attEcode : UInt8)
    (r : Registration) (sent : Bool) :
    Evolves c.db (c.serviceChangedComplete op success attEcode r sent).db := by
  have hcleared : Evolves c.db
      (if ¬ success ∧ attEcode ≠ errorAttributeNotFound then
        c.db.clearRange op.startHandle op.endHandle
      else c.db) := by
    split
    · exact evolves_clearRange _ _ _
    · exact .refl
  exact hcleared.trans
    (queued_evolves { c with db := _,inSvcChngd := false,changes := c.changes ++ [op] } r sent)

theorem init_evolves (c : Client) (success : Bool) (r : Registration) :
    Evolves c.db (c.initComplete success r).1.db := by
  rw [Client.initComplete]
  split
  · exact register_evolves c r
  · exact .refl

theorem unref_evolves (c : Client) (purpose : Purpose) (success : Bool) :
    Evolves c.db (c.discoveryOpUnref purpose success).db := by
  rw [Client.discoveryOpUnref]
  split
  · exact .refl
  · cases purpose with
    | init => exact evolves_clear _
    | serviceChanged op => exact evolves_clearRange _ _ _

theorem discovered_evolves {purpose : Purpose} {v : Discovering}
    (h : c.discovered purpose v r sent = some t) : Evolves v.db t.db := by
  rw [Client.discovered] at h
  split at h
  · cases h
    exact .refl
  · next success attEcode _ =>
    obtain rfl := Option.some.inj h
    cases purpose with
    | init =>
      exact (init_evolves { c with db := v.db,discovery := none } success r).trans
        (unref_evolves _ .init _)
    | serviceChanged op =>
      exact (complete_evolves { c with db := v.db,discovery := none } op success attEcode r
        sent).trans (unref_evolves _ (.serviceChanged op) success)
  · cases h

theorem answered_eq (c : Client) (refused : Bool) (attEcode : UInt8) : ∃ id handler,
    c.enableCccCallback refused attEcode = c.listening id handler false := by
  rw [Client.enableCccCallback]
  split
  · rw [Client.serviceChangedRegisterCb]
    split
    · exact ⟨_,_,rfl⟩
    · exact ⟨_,_,rfl⟩
  · exact ⟨_,_,rfl⟩

theorem evolves_step (h : machine.step c e = some t) : Evolves c.db t.db := by
  cases e with
  | report rep r sent =>
    obtain ⟨d,_,h⟩ := Option.bind_eq_some_iff.mp h
    obtain ⟨v,hv,h⟩ := Option.bind_eq_some_iff.mp h
    exact (step_evolves hv).trans (discovered_evolves h)
  | registered refused attEcode =>
    obtain ⟨_,h⟩ := Option.ite_none_right_eq_some.mp h
    obtain ⟨id,handler,he⟩ := answered_eq c refused attEcode
    rw [← Option.some.inj h,he]
    exact .refl
  | indication handle value sent =>
    obtain rfl := Option.some.inj h
    rw [Client.notifyCb]
    split
    · rw [Client.serviceChangedCb]
      split
      · exact .refl
      · split
        · exact process_evolves _ _ _
        · exact .refl
    · exact .refl

end
end Minipro.ServiceChanged
