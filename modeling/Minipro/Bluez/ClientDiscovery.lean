import Minipro.Bluez.GattDb

namespace Minipro.GattClient
open GattDb GattHelpers

structure Outcome (A : Type) where
  success : Bool
  attEcode : UInt8
  result : Option (List A)
  sent : Bool

structure FoundIncluded where
  handle : UInt16
  first : UInt16
  last : UInt16
  uuid : UInt128

inductive Report where
  | services (o : Outcome FoundService)
  | included (o : Outcome FoundIncluded)
  | characteristics (o : Outcome FoundCharacteristic)
  | descriptors (o : Outcome FoundDescriptor)

structure DiscoveryOp where
  pendingSvcs : List Address
  pendingChrcs : List FoundCharacteristic
  tmpQueue : List Address
  curSvc : Option Address

inductive DiscoveryReq where
  | primary
  | secondary
  | included (start last : UInt16)
  | characteristics (start last : UInt16)
  | descriptors (start last : UInt16)
deriving DecidableEq

-- freed: the code went on to read a service that the database had destroyed.
inductive Stage where
  | awaiting (req : DiscoveryReq)
  | complete (success : Bool) (attEcode : UInt8)
  | freed
deriving DecidableEq

structure Discovering where
  db : Db
  op : DiscoveryOp
  stage : Stage

def unsupportedGroupType : UInt8 := 0x10

def discoveryOpCreate : DiscoveryOp := ⟨[],[],[],none⟩

def proceed (db : Db) (op : DiscoveryOp) (req : DiscoveryReq) (sent : Bool) (ecode : UInt8) :
    Discovering :=
  ⟨db,op,if sent then .awaiting req else .complete false ecode⟩

def storeService (db : Db) (primary : Bool) (found : FoundService) : Db × Option Address :=
  match db.insertService found.first (.uuid128 found.uuid) primary (found.last - found.first + 1) with
  | some (a,db) => (db,some a)
  | none =>
    let db := db.clearRange found.first found.last
    match db.insertService found.first (.uuid128 found.uuid) primary
        (found.last - found.first + 1) with
    | some (a,db) => (db,some a)
    | none => (db,none)

def storeServices (primary : Bool) : Db → List Address → List FoundService →
    Db × List Address × Bool
  | db, pending, [] => (db,pending,true)
  | db, pending, found :: rest =>
    match storeService db primary found with
    | (db,none) => (db,pending,false)
    | (db,some a) =>
      storeServices primary db
        (if (db.find a).any Service.active then pending else pending ++ [a]) rest

-- Each pending service is moved to tmp_queue; when none is left, that queue is walked again for the
-- characteristics.
def nextIncluded (sent : Bool) (ecode : UInt8) (db : Db) : DiscoveryOp → List Address → Discovering
  | op, [] =>
    match op.tmpQueue with
    | [] => ⟨db,{ op with pendingSvcs := [] },.complete false ecode⟩
    | a :: pending =>
      let op := { op with pendingSvcs := pending,tmpQueue := [],curSvc := some a }
      match db.find a with
      | none => ⟨db,op,.freed⟩
      | some s => proceed db op (.characteristics s.start s.last) sent ecode
  | op, a :: pending =>
    let op := { op with pendingSvcs := pending,tmpQueue := op.tmpQueue ++ [a],curSvc := some a }
    match db.find a with
    | none => ⟨db,op,.freed⟩
    | some s =>
      if s.start = s.last then nextIncluded sent ecode db op pending
      else proceed db op (.included s.start s.last) sent ecode

def discoverSecondary (sent success : Bool) (ecode : UInt8) (db : Db) (op : DiscoveryOp) :
    Discovering :=
  if op.pendingSvcs = [] then ⟨db,op,.complete success ecode⟩
  else proceed db op .secondary sent ecode

def discoverPrimaryCb (db : Db) (op : DiscoveryOp) (o : Outcome FoundService) : Discovering :=
  if ¬ o.success then discoverSecondary o.sent false o.attEcode db op
  else match o.result with
    | none => ⟨db,op,.complete false o.attEcode⟩
    | some found =>
      match storeServices true db op.pendingSvcs found with
      | (db,pending,false) => ⟨db,{ op with pendingSvcs := pending },.complete false o.attEcode⟩
      | (db,pending,true) =>
        discoverSecondary o.sent true o.attEcode db { op with pendingSvcs := pending }

-- A refused request leaves success as the secondary discovery set it.
def discoverIncluded (sent success : Bool) (ecode : UInt8) (db : Db) (op : DiscoveryOp) :
    Discovering :=
  match op.pendingSvcs with
  | [] => ⟨db,op,.complete true ecode⟩
  | a :: pending =>
    let op := { op with pendingSvcs := pending,tmpQueue := op.tmpQueue ++ [a],curSvc := some a }
    match db.find a with
    | none => ⟨db,op,.freed⟩
    | some s =>
      ⟨db,op,if sent then .awaiting (.included s.start s.last) else .complete success ecode⟩

def discoverSecondaryCb (db : Db) (op : DiscoveryOp) (o : Outcome FoundService) : Discovering :=
  if ¬ o.success then
    if o.attEcode = errorAttributeNotFound ∨ o.attEcode = unsupportedGroupType then
      discoverIncluded o.sent false o.attEcode db op
    else ⟨db,op,.complete false o.attEcode⟩
  else match o.result with
    | none => ⟨db,op,.complete false o.attEcode⟩
    | some found =>
      match storeServices false db op.pendingSvcs found with
      | (db,pending,false) => ⟨db,{ op with pendingSvcs := pending },.complete false o.attEcode⟩
      | (db,pending,true) =>
        discoverIncluded o.sent true o.attEcode db { op with pendingSvcs := pending }

-- The outer option is none when the service has been freed, the inner one when the call fails.
def amendCurrent (db : Db) (curSvc : Option Address) (f : Service → Option (Attribute × Service)) :
    Option (Option (Attribute × Db)) :=
  match curSvc with
  | none => some none
  | some a => (db.find a).map fun s => (f s).map fun r => (r.1,db.replace r.2)

def addIncludes (curSvc : Option Address) : Db → List FoundIncluded → Option (Db × Bool)
  | db, [] => some (db,true)
  | db, i :: rest =>
    match db.getAttribute i.first with
    | none => some (db,false)
    | some (included,_) =>
      match amendCurrent db curSvc fun s => s.addIncluded included with
      | none => none
      | some none => some (db,false)
      | some (some (a,db)) =>
        if a.handle ≠ i.handle then some (db,false) else addIncludes curSvc db rest

def discoverInclCb (db : Db) (op : DiscoveryOp) (o : Outcome FoundIncluded) : Discovering :=
  if ¬ o.success then
    if o.attEcode = errorAttributeNotFound then nextIncluded o.sent o.attEcode db op op.pendingSvcs
    else ⟨db,op,.complete false o.attEcode⟩
  else match op.curSvc, o.result with
    | some _, some (i :: rest) =>
      match addIncludes op.curSvc db (i :: rest) with
      | none => ⟨db,op,.freed⟩
      | some (db,false) => ⟨db,op,.complete false o.attEcode⟩
      | some (db,true) => nextIncluded o.sent o.attEcode db op op.pendingSvcs
    | _, _ => ⟨db,op,.complete false o.attEcode⟩

inductive Descs where
  | failed
  | finished
  | discovering (start last : UInt16)

def discoverDescs (curSvc : Option Address) (sent : Bool) :
    Db → List FoundCharacteristic → Option (Db × List FoundCharacteristic × Descs)
  | db, [] => some (db,[],.finished)
  | db, c :: pending =>
    match amendCurrent db curSvc fun s =>
        s.gattDbInsertCharacteristic c.value (.uuid128 c.uuid) c.properties with
    | none => none
    | some none => some (db,pending,.failed)
    | some (some (a,db)) =>
      if a.handle ≠ c.value then some (db,pending,.failed)
      else if c.last ≤ c.value then discoverDescs curSvc sent db pending
      else if sent then some (db,pending,.discovering (c.value + 1) c.last)
      else some (db,pending,.failed)

def activate (db : Db) : Option Address → Option Db
  | none => some db
  | some a => (db.find a).map fun s => db.setActive s true

-- A service with one handle is passed over without becoming cur_svc, so the one before it is set
-- active once more.
def nextService (sent : Bool) (ecode : UInt8) (op : DiscoveryOp) :
    Db → List Address → Discovering
  | db, pending =>
    match activate db op.curSvc with
    | none => ⟨db,op,.freed⟩
    | some db =>
      match pending with
      | [] => ⟨db,{ op with pendingSvcs := [] },.complete true ecode⟩
      | a :: pending =>
        match db.find a with
        | none => ⟨db,op,.freed⟩
        | some s =>
          if s.start = s.last then nextService sent ecode op db pending
          else
            proceed db { op with pendingSvcs := pending,curSvc := some a }
              (.characteristics s.start s.last) sent ecode

def continueDescs (sent : Bool) (ecode : UInt8) (db : Db) (op : DiscoveryOp) : Discovering :=
  match discoverDescs op.curSvc sent db op.pendingChrcs with
  | none => ⟨db,op,.freed⟩
  | some (db,pending,.failed) => ⟨db,{ op with pendingChrcs := pending },.complete false ecode⟩
  | some (db,pending,.discovering start last) =>
    ⟨db,{ op with pendingChrcs := pending },.awaiting (.descriptors start last)⟩
  | some (db,pending,.finished) =>
    nextService sent ecode { op with pendingChrcs := pending } db op.pendingSvcs

def discoverChrcsCb (db : Db) (op : DiscoveryOp) (o : Outcome FoundCharacteristic) : Discovering :=
  if ¬ o.success then
    if o.attEcode = errorAttributeNotFound then nextService o.sent o.attEcode op db op.pendingSvcs
    else ⟨db,op,.complete false o.attEcode⟩
  else match op.curSvc, o.result with
    | some _, some (c :: rest) =>
      continueDescs o.sent o.attEcode db
        { op with pendingChrcs := op.pendingChrcs ++ c :: rest }
    | _, _ => ⟨db,op,.complete false o.attEcode⟩

def insertDescriptors (curSvc : Option Address) : Db → List FoundDescriptor → Option (Db × Bool)
  | db, [] => some (db,true)
  | db, d :: rest =>
    match amendCurrent db curSvc fun s => s.gattDbInsertDescriptor d.handle (.uuid128 d.uuid) with
    | none => none
    | some none => some (db,false)
    | some (some (a,db)) =>
      if a.handle ≠ d.handle then some (db,false) else insertDescriptors curSvc db rest

def discoverDescsCb (db : Db) (op : DiscoveryOp) (o : Outcome FoundDescriptor) : Discovering :=
  if ¬ o.success then
    if o.attEcode = errorAttributeNotFound then continueDescs o.sent o.attEcode db op
    else ⟨db,op,.complete false o.attEcode⟩
  else match o.result with
    | some (d :: rest) =>
      match insertDescriptors op.curSvc db (d :: rest) with
      | none => ⟨db,op,.freed⟩
      | some (db,false) => ⟨db,op,.complete false o.attEcode⟩
      | some (db,true) => continueDescs o.sent o.attEcode db op
    | _ => ⟨db,op,.complete false o.attEcode⟩

namespace Discovering

def step (d : Discovering) (r : Report) : Option Discovering :=
  match d.stage, r with
  | .awaiting .primary, .services o => some (discoverPrimaryCb d.db d.op o)
  | .awaiting .secondary, .services o => some (discoverSecondaryCb d.db d.op o)
  | .awaiting (.included _ _), .included o => some (discoverInclCb d.db d.op o)
  | .awaiting (.characteristics _ _), .characteristics o => some (discoverChrcsCb d.db d.op o)
  | .awaiting (.descriptors _ _), .descriptors o => some (discoverDescsCb d.db d.op o)
  | _, _ => none

def machine : Transition.Machine Discovering Report := ⟨step⟩

def begin (db : Db) : Discovering := ⟨db,discoveryOpCreate,.awaiting .primary⟩

end Discovering

end Minipro.GattClient
