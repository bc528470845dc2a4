import Minipro.Bluez.GattDb
import Minipro.Bluez.GattWrite
import Minipro.Control.Notifications

namespace Minipro.GattNotify
open Att ByteOrder GattClient GattDb Keyed

inductive Fault where
  | aborted
  | freed
deriving DecidableEq

structure NotifyChrc where
  address : Address
  valueHandle : UInt16
  cccHandle : UInt16
  properties : UInt8
  notifyCount : Int
  regNotifyQueue : List Address
  cccWriteId : UInt32

-- Who is behind the callbacks of a registration: the client registers for Service Changed itself.
inductive Handler where
  | upper
  | serviceChanged
deriving DecidableEq

structure NotifyData where
  address : Address
  id : UInt32
  attId : UInt32
  refCount : Nat
  chrc : Address
  notify : Handler

structure CccWrite where
  id : UInt32
  enable : Bool
  data : Address
  pdu : List UInt8
deriving DecidableEq

inductive Notice where
  | returned (data : Address) (id : UInt32)
  | registered (data : Address) (attEcode : UInt8)
  | notified (data : Address) (value : List UInt8)
  | destroyed (data : Address)
deriving DecidableEq

structure ServiceChangedOp where
  startHandle : UInt16
  endHandle : UInt16
deriving DecidableEq

-- datas are the notify_data that have not been freed, writes the CCC writes that the bearer has
-- accepted and not answered; each write holds a reference to its notify_data.
structure Client where
  db : Db
  notifyChrcs : List NotifyChrc
  datas : List NotifyData
  notifyList : List Address
  nextRegId : Int32
  allocated : Address
  writes : List CccWrite
  notices : List Notice
  svcChngdIndId : UInt32
  inSvcChngd : Bool
  svcChngdQueue : List ServiceChangedOp

def intMax : Int := 2147483647

def clientCharacCfgUuid : Uuid := .uuid16 0x2902

def findCcc (descriptors : List Attribute) : Option Attribute :=
  descriptors.find? fun a => Uuid.same clientCharacCfgUuid a.uuid

def notifyChrcCreate (db : Db) (address : Address) (valueHandle : UInt16) : Option NotifyChrc :=
  (db.getAttribute (valueHandle - 1)).bind fun (s,attr) =>
    attr.getCharData.map fun (_,_,properties,_) =>
      let ccc := findCcc (s.foreachDesc (s.contents.findIdx fun a => a.handle = attr.handle))
      { address := address
        valueHandle := valueHandle
        cccHandle := (ccc.map Attribute.handle).getD 0
        properties := properties
        notifyCount := 0
        regNotifyQueue := []
        cccWriteId := 0 }

def svcChngdUuid : Uuid := .uuid16 0x2a05

def svcChngdHandle (db : Db) : Option UInt16 :=
  (db.findByType 1 0xffff svcChngdUuid).head?.map Attribute.handle

def changedRange : List UInt8 → Option ServiceChangedOp
  | [a,b,d,e] => if join d e < join a b then none else some ⟨join a b,join d e⟩
  | _ => none

namespace Client

def new (db : Db) : Client := ⟨db,[],[],[],0,0,[],[],0,false,[]⟩

def chrc (c : Client) (a : Address) : Except Fault NotifyChrc :=
  (find NotifyChrc.address a c.notifyChrcs).elim (.error .freed) .ok

def data (c : Client) (a : Address) : Except Fault NotifyData :=
  (find NotifyData.address a c.datas).elim (.error .freed) .ok

def putChrc (c : Client) (x : NotifyChrc) : Client :=
  { c with notifyChrcs := replace NotifyChrc.address x c.notifyChrcs }

def putData (c : Client) (d : NotifyData) : Client :=
  { c with datas := replace NotifyData.address d c.datas }

def note (c : Client) (n : Notice) : Client := { c with notices := c.notices ++ [n] }

def free (c : Client) (a : Address) : Client :=
  { c with datas := c.datas.filter fun d => d.address ≠ a }

def unref (c : Client) (a : Address) : Except Fault Client := do
  let d ← c.data a
  if d.refCount = 1 then .ok ((c.free a).note (.destroyed a))
  else .ok (c.putData { d with refCount := d.refCount - 1 })

def serviceChangedRegisterCb (c : Client) (attEcode : UInt8) : Client :=
  if attEcode = 0 then c else { c with svcChngdIndId := 0 }

def callback (c : Client) (d : NotifyData) (attEcode : UInt8) : Client :=
  match d.notify with
  | .upper => c.note (.registered d.address attEcode)
  | .serviceChanged => (c.serviceChangedRegisterCb attEcode).note (.registered d.address attEcode)

def completeNotifyRequest (c : Client) (a : Address) : Except Fault Client := do
  let d ← c.data a
  let ch ← c.chrc d.chrc
  .ok (((c.putChrc { ch with notifyCount := ch.notifyCount + 1 }).putData
    { d with attId := 0 }).callback d 0)

-- attId is what bt_att_send returns, 0 when it refuses.
def notifyDataWriteCcc (c : Client) (a : Address) (enable : Bool) (attId : UInt32) :
    Except Fault (Client × Bool) := do
  let d ← c.data a
  let ch ← c.chrc d.chrc
  if ch.cccHandle = 0 then .error .aborted
  else match Notifications.notifyDataWriteCcc ch.cccHandle ch.properties enable with
    | none => .ok (c,false)
    | some pdu =>
      let c := (c.putChrc { ch with cccWriteId := attId }).putData
        { d with attId := attId,refCount := d.refCount + 1 }
      if attId = 0 then .ok (c,false)
      else .ok ({ c with writes := c.writes ++ [⟨attId,enable,a,pdu⟩] },true)

-- The list is what is left of the queue once its entries before have been popped; the write is for
-- the handler that sender gives for the popped one.
def retryQueued (attId : UInt32) (x : Address) (sender : Address → Address) :
    Client → List Address → Except Fault Client
  | c, [] => .ok c
  | c, a :: rest => do
    let ch ← c.chrc x
    let (c,sent) ← (c.putChrc { ch with regNotifyQueue := rest }).notifyDataWriteCcc (sender a) true
      attId
    if sent then .ok c else retryQueued attId x sender c rest

def enableCccCallback (c : Client) (a : Address) (opcode : UInt8) (pdu : List UInt8)
    (attId : UInt32) : Except Fault Client := do
  let d ← c.data a
  let ch ← c.chrc d.chrc
  if ch.notifyCount ≠ 0 ∨ ch.cccWriteId = 0 then .error .aborted
  else
    let c := c.putChrc { ch with cccWriteId := 0 }
    if opcode = opErrorRsp then
      retryQueued attId ch.address id
        ({ c with notifyList := c.notifyList.erase a }.callback d (processError pdu))
        ch.regNotifyQueue
    else
      let c ← c.completeNotifyRequest a
      let ch ← c.chrc ch.address
      ch.regNotifyQueue.foldlM completeNotifyRequest (c.putChrc { ch with regNotifyQueue := [] })

-- The popped request is not the one written for, but the handler whose write was answered.
def disableCccCallback (c : Client) (a : Address) (attId : UInt32) : Except Fault Client := do
  let d ← c.data a
  let ch ← c.chrc d.chrc
  if ch.notifyCount ≠ 0 ∨ ch.cccWriteId = 0 then .error .aborted
  else
    retryQueued attId ch.address (fun _ => a) (c.putChrc { ch with cccWriteId := 0 })
      ch.regNotifyQueue

-- The bearer drops its reference once the callback has returned.
def answer (c : Client) (w : CccWrite) (opcode : UInt8) (pdu : List UInt8) (attId : UInt32) :
    Except Fault Client := do
  let c := { c with writes := c.writes.erase w }
  let c ← if w.enable then c.enableCccCallback w.data opcode pdu attId
    else c.disableCccCallback w.data attId
  c.unref w.data

-- A timeout or a disconnect destroys the operation without its callback.
def dropped (c : Client) (w : CccWrite) : Except Fault Client :=
  { c with writes := c.writes.erase w }.unref w.data

def addNotify (c : Client) (ch : NotifyChrc) (notify : Handler) (attId : UInt32) :
    Except Fault (Client × UInt32) :=
  if ch.notifyCount = intMax then .ok (c,0)
  else
    let id := if c.nextRegId < 1 then 1 else c.nextRegId
    let a := c.allocated
    let d : NotifyData := ⟨a,id.toUInt32,0,1,ch.address,notify⟩
    let c := { c with
      datas := c.datas ++ [d]
      notifyList := c.notifyList ++ [a]
      nextRegId := id + 1
      allocated := a + 1 }
    if ch.cccWriteId ≠ 0 then
      .ok ((c.putChrc { ch with regNotifyQueue := ch.regNotifyQueue ++ [a] }).note
        (.returned a id.toUInt32),id.toUInt32)
    else if 0 < ch.notifyCount ∨ ch.cccHandle = 0 then do
      let c ← c.completeNotifyRequest a
      .ok (c.note (.returned a id.toUInt32),id.toUInt32)
    else do
      let (c,sent) ← c.notifyDataWriteCcc a true attId
      if sent then .ok (c.note (.returned a id.toUInt32),id.toUInt32)
      else .ok ({ c with notifyList := c.notifyList.erase a }.free a,0)

def registerNotify (c : Client) (handle : UInt16) (notify : Handler) (attId : UInt32) :
    Except Fault (Client × UInt32) :=
  match c.notifyChrcs.find? fun ch => ch.valueHandle = handle with
  | some ch => c.addNotify ch notify attId
  | none =>
    match notifyChrcCreate c.db c.allocated handle with
    | none => .ok (c,0)
    | some ch =>
      { c with notifyChrcs := c.notifyChrcs ++ [ch],allocated := c.allocated + 1 }.addNotify ch
        notify attId

def registerServiceChanged (c : Client) (attId : UInt32) : Except Fault Client :=
  if c.svcChngdIndId ≠ 0 then .ok c
  else match svcChngdHandle c.db with
    | none => .ok c
    | some handle => do
      let (c,id) ← c.registerNotify handle .serviceChanged attId
      .ok { c with svcChngdIndId := id }

def btAttCancel (c : Client) (attId : UInt32) : Except Fault Client :=
  match c.writes.find? fun w => w.id = attId with
  | none => .ok c
  | some w => { c with writes := c.writes.erase w }.unref w.data

def completeUnregisterNotify (c : Client) (a : Address) (attId : UInt32) : Except Fault Client := do
  let d ← c.data a
  if d.attId ≠ 0 then
    let c ← c.btAttCancel d.attId
    c.unref a
  else
    let ch ← c.chrc d.chrc
    let c := c.putChrc { ch with notifyCount := ch.notifyCount - 1 }
    if ch.notifyCount - 1 ≠ 0 ∨ ch.cccHandle = 0 then c.unref a
    else
      let (c,sent) ← c.notifyDataWriteCcc a false attId
      if sent then .ok c else c.unref a

def findListed (c : Client) (id : UInt32) : List Address → Except Fault (Option NotifyData)
  | [] => .ok none
  | a :: rest => do
    let d ← c.data a
    if d.id = id then .ok (some d) else c.findListed id rest

def unregisterNotify (c : Client) (id : UInt32) (attId : UInt32) : Except Fault Client := do
  match ← c.findListed id c.notifyList with
  | none => .ok c
  | some d =>
    let c := { c with notifyList := c.notifyList.erase d.address }
    let ch ← c.chrc d.chrc
    if ch.notifyCount ≤ 0 ∨ ch.cccWriteId ≠ 0 then .error .aborted
    else c.completeUnregisterNotify d.address attId

def covers (start last : UInt16) (ch : NotifyChrc) : Bool :=
  start ≤ ch.valueHandle ∧ ch.valueHandle ≤ last

def removeNotify (start last : UInt16) (c : Client) (a : Address) : Except Fault Client := do
  let d ← c.data a
  let ch ← c.chrc d.chrc
  if covers start last ch then ({ c with notifyList := c.notifyList.erase a } : Client).unref a
  else .ok c

-- queue_destroy unrefs the entries of reg_notify_queue, which hold no reference of their own.
def notifyChrcFree (c : Client) (ch : NotifyChrc) : Except Fault Client :=
  ch.regNotifyQueue.foldlM unref
    { c with notifyChrcs := c.notifyChrcs.filter fun x => x.address ≠ ch.address }

-- sent: the bearer took the first request of the rediscovery.
def processServiceChanged (c : Client) (start last : UInt16) (sent : Bool) :
    Except Fault Client := do
  let c ← c.notifyList.foldlM (removeNotify start last) c
  let c ← (c.notifyChrcs.filter (covers start last)).foldlM notifyChrcFree c
  .ok { c with db := c.db.clearRange start last,inSvcChngd := c.inSvcChngd || sent }

def serviceChangedCb (c : Client) (value : List UInt8) (sent : Bool) : Except Fault Client :=
  match changedRange value with
  | none => .ok c
  | some op =>
    if ¬ c.inSvcChngd then c.processServiceChanged op.startHandle op.endHandle sent
    else .ok { c with svcChngdQueue := c.svcChngdQueue ++ [op] }

def notifyHandler (c : Client) (a : Address) (valueHandle : UInt16) (value : List UInt8)
    (sent : Bool) : Except Fault Client := do
  let d ← c.data a
  let ch ← c.chrc d.chrc
  if ch.valueHandle ≠ valueHandle then .ok c
  else match d.notify with
    | .upper => .ok (c.note (.notified a value))
    | .serviceChanged => (c.note (.notified a value)).serviceChangedCb value sent

-- The entry that the loop goes on to when the one it stands at has been unlinked: the next pointer
-- of an unlinked entry still names the one that was behind it.
def following (c : Client) (rest : List Address) : Option Address :=
  rest.find? fun b => b ∈ c.notifyList

-- queue_foreach over notify_list. Its entries are freed when they are unlinked, but for the one
-- that the loop stands at, and it stops once the list is empty.
def notifyEach (valueHandle : UInt16) (value : List UInt8) (sent : Bool) :
    Client → List Address → Except Fault Client
  | c, [] => .ok c
  | c, a :: rest =>
    if a ∉ c.notifyList then notifyEach valueHandle value sent c rest
    else do
      let t ← c.notifyHandler a valueHandle value sent
      if a ∉ t.notifyList ∧ t.notifyList ≠ [] ∧ (c.following rest).any (· ∉ t.notifyList) then
        .error .freed
      else notifyEach valueHandle value sent t rest

def notifyCb (c : Client) (valueHandle : UInt16) (value : List UInt8) (sent : Bool) :
    Except Fault Client :=
  notifyEach valueHandle value sent c c.notifyList

-- init_complete and service_changed_complete, the discovery having succeeded or failed.
def discovered (c : Client) (sent : Bool) (attId : UInt32) : Except Fault Client :=
  match c.svcChngdQueue with
  | [] => { c with inSvcChngd := false }.registerServiceChanged attId
  | op :: rest =>
    { c with inSvcChngd := false,svcChngdQueue := rest }.processServiceChanged op.startHandle
      op.endHandle sent

end Client

-- performed: whether the server carried out a write whose answer never came. stored: a discovery
-- puts what it has found into the database.
inductive Event where
  | registerNotify (handle : UInt16) (attId : UInt32)
  | unregisterNotify (id : UInt32) (attId : UInt32)
  | answer (w : CccWrite) (opcode : UInt8) (pdu : List UInt8) (attId : UInt32)
  | dropped (w : CccWrite) (performed : Bool)
  | notification (valueHandle : UInt16) (value : List UInt8) (sent : Bool)
  | stored (db : Db)
  | discovered (sent : Bool) (attId : UInt32)

namespace Client

def handle (c : Client) : Event → Except Fault Client
  | .registerNotify handle attId => Prod.fst <$> c.registerNotify handle .upper attId
  | .unregisterNotify id attId => c.unregisterNotify id attId
  | .answer w opcode pdu attId => c.answer w opcode pdu attId
  | .dropped w _ => c.dropped w
  | .notification valueHandle value sent => c.notifyCb valueHandle value sent
  | .stored db => .ok { c with db := db }
  | .discovered sent attId => c.discovered sent attId

def enabled (c : Client) : Event → Bool
  | .answer w _ _ _ | .dropped w _ => w ∈ c.writes
  | _ => true

def step : Except Fault Client → Event → Option (Except Fault Client)
  | .error _, _ => none
  | .ok c, e => if c.enabled e then some (c.handle e) else none

def machine : Transition.Machine (Except Fault Client) Event := ⟨step⟩

end Client
end Minipro.GattNotify
