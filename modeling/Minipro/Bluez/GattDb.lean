import Minipro.Library.Keyed
import Minipro.Bluez.Discovery

namespace Minipro.GattDb
open ByteOrder GattHelpers

-- The order of its allocation stands for the pointer to a service.
abbrev Address := Nat

structure Attribute where
  handle : UInt16
  uuid : Uuid
  value : List UInt8
deriving DecidableEq

def primaryServiceUuid : Uuid := .uuid16 primSvcUuid
def secondaryServiceUuid : Uuid := .uuid16 sndSvcUuid
def characteristicUuid : Uuid := .uuid16 characUuid
def includedServiceUuid : Uuid := .uuid16 0x2802

structure Service where
  address : Address
  active : Bool
  numHandles : UInt16
  declaration : Attribute
  attributes : List Attribute
  placed : 0 < declaration.handle
  ends : declaration.handle.toNat + numHandles.toNat ≤ 65536
  fits : attributes.length < numHandles.toNat
deriving DecidableEq

inductive Notice where
  | serviceAdded (service : Address)
  | serviceRemoved (service : Address)
deriving DecidableEq

structure Db where
  nextHandle : UInt16
  services : List Service
  allocated : Address
  notices : List Notice

namespace Service

def start (s : Service) : UInt16 := s.declaration.handle

def last (s : Service) : UInt16 := s.start + s.numHandles - 1

def contents (s : Service) : List Attribute := s.declaration :: s.attributes

def uuid (s : Service) : Option Uuid :=
  if s.declaration.value.length = 2 ∨ s.declaration.value.length = 16 then
    Uuid.ofLe s.declaration.value
  else none

def create (address : Address) (uuid : Uuid) (handle : UInt16) (primary : Bool)
    (numHandles : UInt16) (h : 0 < handle) (hn : 0 < numHandles.toNat)
    (he : handle.toNat + numHandles.toNat ≤ 65536) : Service where
  address := address
  active := false
  numHandles := numHandles
  declaration :=
    ⟨handle,if primary then primaryServiceUuid else secondaryServiceUuid,uuid.toLe⟩
  attributes := []
  placed := h
  ends := he
  fits := hn

def holds (s : Service) (handle : UInt16) : Bool := s.start ≤ handle ∧ handle ≤ s.last

def matchRange (start last : UInt16) (s : Service) : Bool := s.start ≤ last ∧ start ≤ s.last

def setActive (s : Service) (active : Bool) : Service := { s with active := active }

-- The filled slots of the array come first, so the loop over it stops behind them.
def getAttributeIndex (s : Service) (endOffset : Nat) : Nat :=
  if s.contents.length < s.numHandles.toNat - endOffset then s.contents.length else 0

theorem index_room {s : Service} {endOffset : Nat} (h : s.getAttributeIndex endOffset ≠ 0) :
    s.attributes.length + 1 + endOffset < s.numHandles.toNat := by
  simp only [getAttributeIndex] at h
  split at h
  next hl =>
    simp only [contents,List.length_cons] at hl
    omega
  next => exact absurd rfl h

def handleAt (s : Service) (i : Nat) : UInt16 := (s.contents.getD i s.declaration).handle

def append (s : Service) (l : List Attribute)
    (h : s.attributes.length + l.length < s.numHandles.toNat) : Service :=
  { s with
    attributes := s.attributes ++ l
    fits := by
      rw [List.length_append]
      exact h }

def insertCharacteristic (s : Service) (handle : UInt16) (uuid : Uuid) (properties : UInt8) :
    Option (Attribute × Service) :=
  if handle ≠ 0 ∧ handle ≤ s.start then none
  else if handle = 0xffff then none
  else if hi : s.getAttributeIndex 1 = 0 then none
  else
    let handle := if handle = 0 then s.handleAt (s.getAttributeIndex 1 - 1) + 2 else handle
    let value : Attribute := ⟨handle,uuid,[]⟩
    some (value,s.append
      [⟨handle-1,characteristicUuid,properties :: putLe16 handle ++ uuid.toLe⟩,value]
      (by have := index_room hi; simp only [List.length_cons,List.length_nil]; omega))

def insertDescriptor (s : Service) (handle : UInt16) (uuid : Uuid) :
    Option (Attribute × Service) :=
  if hi : s.getAttributeIndex 0 = 0 then none
  else if handle ≠ 0 ∧ handle ≤ s.start then none
  else
    let handle := if handle = 0 then s.handleAt (s.getAttributeIndex 0 - 1) + 1 else handle
    let descriptor : Attribute := ⟨handle,uuid,[]⟩
    some (descriptor,s.append [descriptor]
      (by have := index_room hi; simp only [List.length_cons,List.length_nil]; omega))

def gattDbInsertCharacteristic (s : Service) (handle : UInt16) (uuid : Uuid)
    (properties : UInt8) : Option (Attribute × Service) :=
  if handle = 0 then none else s.insertCharacteristic handle uuid properties

def gattDbInsertDescriptor (s : Service) (handle : UInt16) (uuid : Uuid) :
    Option (Attribute × Service) :=
  if handle = 0 then none else s.insertDescriptor handle uuid

def addIncluded (s included : Service) : Option (Attribute × Service) :=
  let value := putLe16 included.start ++ putLe16 (included.start + included.numHandles - 1) ++
    (if included.declaration.value.length = 2 then included.declaration.value else [])
  if hi : s.getAttributeIndex 0 = 0 then none
  else
    let attrib : Attribute :=
      ⟨s.handleAt (s.getAttributeIndex 0 - 1) + 1,includedServiceUuid,value⟩
    some (attrib,s.append [attrib]
      (by have := index_room hi; simp only [List.length_cons,List.length_nil]; omega))

-- The descriptors of the characteristic declared at index i: its value is skipped, and the next
-- characteristic or include ends them.
def foreachDesc (s : Service) (i : Nat) : List Attribute :=
  (s.contents.drop (i+2)).takeWhile fun a =>
    ¬ (Uuid.same characteristicUuid a.uuid ∨ Uuid.same includedServiceUuid a.uuid)

end Service

namespace Attribute

def getCharData (a : Attribute) : Option (UInt16 × UInt16 × UInt8 × Uuid) :=
  if ¬ Uuid.same characteristicUuid a.uuid then none
  else if a.value.length ≠ 5 ∧ a.value.length ≠ 19 then none
  else (Uuid.ofLe (a.value.drop 3)).map fun uuid =>
    (a.handle,le16At a.value 1,a.value.getD 0 0,uuid)

end Attribute

namespace Db

def new : Db := ⟨1,[],0,[]⟩

def find (db : Db) (a : Address) : Option Service := Keyed.find Service.address a db.services

def replace (db : Db) (t : Service) : Db :=
  { db with services := Keyed.replace Service.address t db.services }

def removed (services : List Service) : List Notice :=
  (services.filter Service.active).map fun s => .serviceRemoved s.address

def destroy (db : Db) (p : Service → Bool) : Db :=
  { db with
    services := db.services.filter fun s => ¬ p s
    notices := db.notices ++ removed (db.services.filter p) }

def removeService (db : Db) (a : Address) : Db := db.destroy fun s => s.address = a

def clear (db : Db) : Db := { db.destroy fun _ => true with nextHandle := 0 }

def clearRange (db : Db) (start last : UInt16) : Db :=
  if last < start then db else db.destroy (Service.matchRange start last)

inductive Location where
  | clash (s : Service)
  | gap (front back : List Service)

def findInsertLoc (start last : UInt16) : List Service → Location
  | [] => .gap [] []
  | s :: entries =>
    if s.holds start then .clash s
    else if s.holds last then .clash s
    else if last < s.start then .gap [] (s :: entries)
    else match findInsertLoc start last entries with
      | .clash t => .clash t
      | .gap front back => .gap (s :: front) back

def describes (s : Service) (handle : UInt16) (uuid : Uuid) (primary : Bool)
    (numHandles : UInt16) : Bool :=
  Uuid.same s.declaration.uuid (if primary then primaryServiceUuid else secondaryServiceUuid) ∧
    (s.uuid.any fun value => value.same uuid) ∧ s.numHandles = numHandles ∧ s.start = handle

def insertService (db : Db) (handle : UInt16) (uuid : Uuid) (primary : Bool)
    (numHandles : UInt16) : Option (Address × Db) :=
  if h : 0 < handle ∧ 0 < numHandles.toNat ∧ handle.toNat + numHandles.toNat ≤ 65536 then
    match findInsertLoc handle (handle + numHandles - 1) db.services with
    | .clash s => if describes s handle uuid primary numHandles then some (s.address,db) else none
    | .gap front back =>
      some (db.allocated,
        { db with
          services := front ++
            Service.create db.allocated uuid handle primary numHandles h.1 h.2.1 h.2.2 :: back
          nextHandle :=
            UInt16.ofNat (max (handle.toNat + numHandles.toNat) db.nextHandle.toNat)
          allocated := db.allocated + 1 })
  else none

def setActive (db : Db) (s : Service) (active : Bool) : Db :=
  if s.active = active then db
  else
    { db.replace (s.setActive active) with
      notices := db.notices ++
        [if active then .serviceAdded s.address else .serviceRemoved s.address] }

def getAttribute (db : Db) (handle : UInt16) : Option (Service × Attribute) :=
  if handle = 0 then none
  else (db.services.find? fun s => s.holds handle).bind fun s =>
    (s.contents.find? fun a => a.handle = handle).map fun a => (s,a)

def findByType (db : Db) (start last : UInt16) (uuid : Uuid) : List Attribute :=
  (db.services.filter Service.active).flatMap fun s => s.contents.filter fun a =>
    start ≤ a.handle ∧ a.handle ≤ last ∧ Uuid.same uuid a.uuid

end Db

inductive Operation where
  | insertService (handle : UInt16) (uuid : Uuid) (primary : Bool) (numHandles : UInt16)
  | removeService (service : Address)
  | clear
  | clearRange (start last : UInt16)
  | setActive (service : Address) (active : Bool)
  | insertCharacteristic (service : Address) (handle : UInt16) (uuid : Uuid) (properties : UInt8)
  | insertDescriptor (service : Address) (handle : UInt16) (uuid : Uuid)
  | addIncluded (service included : Address)

namespace Db

def amend (db : Db) (a : Address) (f : Service → Option (Attribute × Service)) : Option Db :=
  (db.find a).map fun s => (f s).elim db fun r => db.replace r.2

-- A call that passes a freed service has no step.
def step (db : Db) : Operation → Option Db
  | .insertService handle uuid primary numHandles =>
      some ((db.insertService handle uuid primary numHandles).elim db Prod.snd)
  | .removeService a => (db.find a).map fun _ => db.removeService a
  | .clear => some db.clear
  | .clearRange start last => some (db.clearRange start last)
  | .setActive a active => (db.find a).map fun s => db.setActive s active
  | .insertCharacteristic a handle uuid properties =>
      db.amend a fun s => s.insertCharacteristic handle uuid properties
  | .insertDescriptor a handle uuid => db.amend a fun s => s.insertDescriptor handle uuid
  | .addIncluded a b => (db.find b).bind fun included => db.amend a fun s => s.addIncluded included

def machine : Transition.Machine Db Operation := ⟨step⟩

end Db
end Minipro.GattDb
