import Minipro.Library.Records
import Minipro.Library.Transition
import Minipro.Bluez.GattWrite
import Minipro.Bluez.Uuid

namespace Minipro.GattHelpers
open Att ByteOrder Transition Records GattClient

structure Result where
  opcode : UInt8
  pdu : List UInt8
  dataLen : Nat
deriving DecidableEq, Repr

structure Request where
  startHandle : UInt16
  endHandle : UInt16
  uuid : Option Uuid := none
  results : List Result := []
deriving DecidableEq

inductive Discovery where
  | awaiting (op : Request)
  | complete (op : Request) (success : Bool) (attEcode : UInt8)

def errorAttributeNotFound : UInt8 := 0x0a

def discoveryOpComplete (op : Request) (success : Bool) (ecode : UInt8) : Discovery :=
  .complete op (success ∨ (ecode = errorAttributeNotFound ∧ op.results ≠ [])) ecode

def putLe16 (v : UInt16) : List UInt8 := [low v,high v]

def le16At (pdu : List UInt8) (i : Nat) : UInt16 := join (pdu.getD i 0) (pdu.getD (i+1) 0)

structure Procedure where
  req : UInt8
  rsp : UInt8
  sought : List UInt8
  header : Nat
  dataLength : List UInt8 → Option Nat
  handleAt : Nat
  more : UInt16 → UInt16 → Bool
  refused : Bool
  reached : Bool
  clips : Bool

def Result.clip (endHandle : UInt16) (r : Result) : Result :=
  { r with pdu := r.pdu.take (r.pdu.length - r.dataLen + 2) ++ putLe16 endHandle ++
      r.pdu.drop (r.pdu.length - r.dataLen + 4) }

namespace Procedure

def request (p : Procedure) (op : Request) : List UInt8 :=
  putLe16 op.startHandle ++ putLe16 op.endHandle ++ p.sought

def appended (op : Request) (cur : Result) : Request :=
  { op with results := op.results ++ [cur] }

def advance (p : Procedure) (op : Request) (cur : Result) (last : UInt16) (sent : Bool) :
    Discovery :=
  if last < op.startHandle then discoveryOpComplete (appended op cur) false 0
  else if p.more last op.endHandle then
    let op := { appended op cur with startHandle := last + 1 }
    if sent then .awaiting op else discoveryOpComplete op p.refused 0
  else
    let cur :=
      if p.clips ∧ last = 0xffff ∧ last ≠ op.endHandle then cur.clip op.endHandle else cur
    discoveryOpComplete { appended op cur with startHandle := last + 1 } p.reached 0

def respond (p : Procedure) (op : Request) (opcode : UInt8) (pdu : List UInt8) (sent : Bool) :
    Discovery :=
  if opcode = opErrorRsp then discoveryOpComplete op false (processError pdu)
  else if opcode ≠ p.rsp then discoveryOpComplete op false 0
  else match p.dataLength pdu with
    | none => discoveryOpComplete op false 0
    | some dataLength =>
      p.advance op ⟨opcode,pdu.drop p.header,dataLength⟩
        (le16At pdu (pdu.length - dataLength + p.handleAt)) sent

end Procedure

structure Reply where
  bearer : Bearer
  answer : Answer
  sent : Bool

def Procedure.machine (p : Procedure) : Machine Discovery Reply where
  step
    | .awaiting op, r => (deliver r.bearer p.req r.answer).map fun d =>
        p.respond op d.opcode d.pdu r.sent
    | .complete _ _ _, _ => none

def begin (start last : UInt16) (uuid : Option Uuid := none) : Discovery :=
  .awaiting { startHandle := start, endHandle := last, uuid := uuid }

def declaredLength (least : Nat) (lengths : List Nat) : List UInt8 → Option Nat
  | [] => none
  | n :: list =>
      if least ≤ list.length + 1 ∧ n.toNat ∈ lengths ∧ list.length % n.toNat = 0 then some n.toNat
      else none

def formatLength : List UInt8 → Option Nat
  | [] => none
  | format :: list =>
      if list.length + 1 < 5 then none
      else if format = 0x01 then if list.length % 4 = 0 then some 4 else none
      else if format = 0x02 then if list.length % 18 = 0 then some 18 else none
      else none

def handlesLength (list : List UInt8) : Option Nat :=
  if list ≠ [] ∧ list.length % 4 = 0 then some 4 else none

def primSvcUuid : UInt16 := 0x2800
def sndSvcUuid : UInt16 := 0x2801
def characUuid : UInt16 := 0x2803

def readByGrpType (serviceType : UInt16) : Procedure where
  req := opReadByGrpTypeReq
  rsp := opReadByGrpTypeRsp
  sought := putLe16 serviceType
  header := 1
  dataLength := declaredLength 7 [6,20]
  handleAt := 2
  more last endHandle := last < endHandle
  refused := false
  reached := true
  clips := true

def findByTypeVal (serviceType : UInt16) (uuid : Uuid) : Procedure where
  req := opFindByTypeValReq
  rsp := opFindByTypeValRsp
  sought := putLe16 serviceType ++ uuid.toLe
  header := 0
  dataLength := handlesLength
  handleAt := 2
  more last endHandle := last < endHandle
  refused := false
  reached := false
  clips := false

def discoverChrcs : Procedure where
  req := opReadByTypeReq
  rsp := opReadByTypeRsp
  sought := putLe16 characUuid
  header := 1
  dataLength := declaredLength 8 [7,21]
  handleAt := 0
  more last endHandle := last ≠ endHandle
  refused := false
  reached := true
  clips := false

-- A refused follow-up request falls through to success here, unlike in the other procedures.
def discoverDescs : Procedure where
  req := opFindInfoReq
  rsp := opFindInfoRsp
  sought := []
  header := 1
  dataLength := formatLength
  handleAt := 0
  more last endHandle := last ≠ endHandle
  refused := true
  reached := true
  clips := false

def paging : Paging Result UInt8 where
  width := Result.dataLen
  cells := Result.pdu

abbrev Iter := Cursor Result

def elementCount (results : List Result) : Nat :=
  (results.map fun r => r.pdu.length / r.dataLen).sum

structure FoundService where
  first : UInt16
  last : UInt16
  uuid : UInt128
deriving DecidableEq

structure FoundCharacteristic where
  first : UInt16
  last : UInt16
  value : UInt16
  properties : UInt8
  uuid : UInt128
deriving DecidableEq

structure FoundDescriptor where
  handle : UInt16
  uuid : UInt128
deriving DecidableEq

-- convert_uuid_le leaves its output alone on other lengths.
def uuidAt (pdu : List UInt8) (i n : Nat) : UInt128 :=
  (Uuid.convertUuidLe ((pdu.drop i).take n)).getD ⟨List.replicate 16 0,rfl⟩

def iterNextService (op : Request) (iter : Iter) : Option (FoundService × Iter) :=
  match iter.pages with
  | [] => none
  | r :: _ =>
    let pdu := r.pdu.drop iter.pos
    if r.opcode = opReadByGrpTypeRsp then
      some (⟨le16At pdu 0,le16At pdu 2,uuidAt pdu 4 (r.dataLen-4)⟩,paging.advance iter)
    else if r.opcode = opFindByTypeValRsp then
      op.uuid.map fun uuid => (⟨le16At pdu 0,le16At pdu 2,uuid.toUuid128⟩,paging.advance iter)
    else none

def iterNextCharacteristic (op : Request) (iter : Iter) :
    Option (FoundCharacteristic × Iter) :=
  match iter.pages with
  | [] => none
  | r :: _ =>
    if r.opcode ≠ opReadByTypeRsp ∨ op.uuid ≠ none ∨ (r.dataLen ≠ 21 ∧ r.dataLen ≠ 7) then none
    else
      let pdu := r.pdu.drop iter.pos
      let next := paging.advance iter
      let last := match next.pages with
        | [] => op.endHandle
        | s :: _ => le16At (s.pdu.drop next.pos) 0 - 1
      some (⟨le16At pdu 0,last,le16At pdu 3,pdu.getD 2 0,uuidAt pdu 5 (r.dataLen-5)⟩,next)

def iterNextDescriptor (iter : Iter) : Option (FoundDescriptor × Iter) :=
  match iter.pages with
  | [] => none
  | r :: _ =>
    if r.opcode ≠ opFindInfoRsp then none
    else
      let pdu := r.pdu.drop iter.pos
      some (⟨le16At pdu 0,uuidAt pdu 2 (r.dataLen-2)⟩,paging.advance iter)

def services (op : Request) : List FoundService :=
  Paging.collect (iterNextService op) (elementCount op.results) ⟨op.results,0⟩

def characteristics (op : Request) : List FoundCharacteristic :=
  Paging.collect (iterNextCharacteristic op) (elementCount op.results) ⟨op.results,0⟩

def descriptors (op : Request) : List FoundDescriptor :=
  Paging.collect iterNextDescriptor (elementCount op.results) ⟨op.results,0⟩

end Minipro.GattHelpers
