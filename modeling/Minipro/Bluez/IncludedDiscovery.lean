import Minipro.Bluez.ClientDiscovery
import Minipro.Bluez.DiscoveryComplete

namespace Minipro.GattHelpers
open Att ByteOrder Transition Records GattClient

def gattIncludeUuid : UInt16 := 0x2802

-- discover_included_cb on a page whose elements hold their UUIDs.
def discoverIncluded : Procedure where
  req := opReadByTypeReq
  rsp := opReadByTypeRsp
  sought := putLe16 gattIncludeUuid
  header := 1
  dataLength := declaredLength 6 [6,8]
  handleAt := 0
  more last endHandle := last ≠ endHandle
  refused := false
  reached := true
  clips := false

-- pos: behind the element whose UUID is being read.
structure ReadInclData where
  result : Result
  pos : Nat

def ReadInclData.handle (data : ReadInclData) : UInt16 :=
  le16At data.result.pdu (data.pos - data.result.dataLen + 2)

-- first: where the request in flight starts. A page that had to be read leaves start_handle behind.
inductive Inclusion where
  | listing (op : Request) (first : UInt16)
  | reading (op : Request) (data : ReadInclData)
  | complete (op : Request) (success : Bool) (attEcode : UInt8)

namespace Inclusion

def ofDiscovery : Discovery → Inclusion
  | .awaiting op => .listing op op.startHandle
  | .complete op success attEcode => .complete op success attEcode

def readIncluded (op : Request) (cur : Result) (sent : Bool) : Inclusion :=
  if sent then .reading op ⟨cur,cur.dataLen⟩ else .complete op false 0

def discoverIncludedCb (op : Request) (opcode : UInt8) (pdu : List UInt8) (sent : Bool) :
    Inclusion :=
  if opcode = opReadByTypeRsp ∧ discoverIncluded.dataLength pdu = some 6 then
    let cur : Result := ⟨opcode,pdu.drop 1,6⟩
    readIncluded (Procedure.appended op cur) cur sent
  else ofDiscovery (discoverIncluded.respond op opcode pdu sent)

def readIncludedCb (op : Request) (data : ReadInclData) (opcode : UInt8) (pdu : List UInt8)
    (sent : Bool) : Inclusion :=
  if opcode = opErrorRsp then ofDiscovery (discoveryOpComplete op false (processError pdu))
  else if opcode ≠ opReadRsp ∨ pdu.length ≠ 16 then ofDiscovery (discoveryOpComplete op false 0)
  else
    let op := Procedure.appended op ⟨opcode,pdu,pdu.length⟩
    if data.pos = data.result.pdu.length then
      let last := le16At data.result.pdu (data.pos - data.result.dataLen)
      if last = op.endHandle then ofDiscovery (discoveryOpComplete op true 0)
      else if sent then .listing op (last + 1)
      else ofDiscovery (discoveryOpComplete op false 0)
    else if sent then .reading op { data with pos := data.pos + data.result.dataLen }
    else ofDiscovery (discoveryOpComplete op false 0)

def machine : Machine Inclusion Reply where
  step
    | .listing op _, r => (deliver r.bearer opReadByTypeReq r.answer).map fun d =>
        discoverIncludedCb op d.opcode d.pdu r.sent
    | .reading op data, r => (deliver r.bearer opReadReq r.answer).map fun d =>
        readIncludedCb op data d.opcode d.pdu r.sent
    | .complete _ _ _, _ => none

def begin (start last : UInt16) : Inclusion :=
  .listing { startHandle := start, endHandle := last } start

end Inclusion

def includedCount (results : List Result) : Nat :=
  match results with
  | [] => 0
  | r :: _ =>
    if r.opcode ≠ opReadByTypeRsp ∨ (r.dataLen ≠ 6 ∧ r.dataLen ≠ 8) then 0
    else elementCount (results.filter fun s => s.opcode = opReadByTypeRsp)

-- The UUID of a page's element n that has none of its own is in the n-th result behind the page.
def iterNextIncludedService (op : Request) (iter : Iter) : Option (FoundIncluded × Iter) :=
  match iter.pages with
  | [] => none
  | r :: rest =>
    if r.opcode ≠ opReadByTypeRsp ∨ op.uuid ≠ none ∨ (r.dataLen ≠ 8 ∧ r.dataLen ≠ 6) then none
    else
      let pdu := r.pdu.drop iter.pos
      if r.dataLen = 8 then
        some (⟨le16At pdu 0,le16At pdu 2,le16At pdu 4,uuidAt pdu 6 2⟩,paging.advance iter)
      else
        match rest.drop (iter.pos / r.dataLen) with
        | [] => none
        | read :: more =>
          some (⟨le16At pdu 0,le16At pdu 2,le16At pdu 4,uuidAt read.pdu 0 read.dataLen⟩,
            if iter.pos + r.dataLen = r.pdu.length then ⟨more,0⟩
            else ⟨r :: rest,iter.pos + r.dataLen⟩)

def includedServices (op : Request) : List FoundIncluded :=
  Paging.collect (iterNextIncludedService op) (includedCount op.results) ⟨op.results,0⟩

section Steps
variable {op : Request} {data : ReadInclData} {pdu : List UInt8} {start last first handle : UInt16}

theorem listing_step (op : Request) (first : UInt16) (b : Bearer) (pdu : List UInt8) (sent : Bool) :
    Inclusion.machine.step (.listing op first) ⟨b,.received (opReadByTypeRsp :: pdu),sent⟩ =
      some (.discoverIncludedCb op opReadByTypeRsp pdu sent) := by
  obtain ⟨d,hd,ho,hp⟩ := deliver_rsp (show getOpType opReadByTypeRsp = .rsp from rfl) (by decide)
    (show getReqOpcode opReadByTypeRsp = opReadByTypeReq from rfl) (by decide) b pdu
  simp only [Inclusion.machine,hd,Option.map_some,ho,hp]

theorem reading_step (op : Request) (data : ReadInclData) (b : Bearer) (pdu : List UInt8)
    (sent : Bool) :
    Inclusion.machine.step (.reading op data) ⟨b,.received (opReadRsp :: pdu),sent⟩ =
      some (.readIncludedCb op data opReadRsp pdu sent) := by
  obtain ⟨d,hd,ho,hp⟩ := deliver_rsp (show getOpType opReadRsp = .rsp from rfl) (by decide)
    (show getReqOpcode opReadRsp = opReadReq from rfl) (by decide) b pdu
  simp only [Inclusion.machine,hd,Option.map_some,ho,hp]

theorem unnamed_cb (h : discoverIncluded.dataLength pdu = some 6) (sent : Bool) :
    Inclusion.discoverIncludedCb op opReadByTypeRsp pdu sent =
      .readIncluded (Procedure.appended op ⟨opReadByTypeRsp,pdu.drop 1,6⟩)
        ⟨opReadByTypeRsp,pdu.drop 1,6⟩ sent := if_pos ⟨rfl,h⟩

theorem read_more (hl : pdu.length = 16) (hpos : data.pos ≠ data.result.pdu.length) (sent : Bool) :
    Inclusion.readIncludedCb op data opReadRsp pdu sent =
      if sent then .reading (Procedure.appended op ⟨opReadRsp,pdu,16⟩)
        { data with pos := data.pos + data.result.dataLen }
      else .complete (Procedure.appended op ⟨opReadRsp,pdu,16⟩) false 0 := by
  have he : ¬ opReadRsp = opErrorRsp := by decide
  simp only [Inclusion.readIncludedCb,if_neg he,hl,if_neg hpos,discoveryOpComplete_zero]
  rfl

theorem read_last (hl : pdu.length = 16) (hpos : data.pos = data.result.pdu.length)
    (hh : le16At data.result.pdu (data.pos - data.result.dataLen) = handle) (sent : Bool) :
    Inclusion.readIncludedCb op data opReadRsp pdu sent =
      if handle = op.endHandle then .complete (Procedure.appended op ⟨opReadRsp,pdu,16⟩) true 0
      else if sent then .listing (Procedure.appended op ⟨opReadRsp,pdu,16⟩) (handle + 1)
      else .complete (Procedure.appended op ⟨opReadRsp,pdu,16⟩) false 0 := by
  have he : ¬ opReadRsp = opErrorRsp := by decide
  simp only [Inclusion.readIncludedCb,if_neg he,hl,if_pos hpos,hh,discoveryOpComplete_zero]
  rfl

end Steps

section Endless
variable {op : Request} {start last first handle : UInt16}

def unnamedRow (handle : UInt16) : List UInt8 := putLe16 handle ++ [0,0,0,0]

-- A page of one element without UUID, and the UUID that is then asked for.
def sameAnswers (handle : UInt16) : List Reply :=
  [reply (opReadByTypeRsp :: 6 :: unnamedRow handle) true,
    reply (opReadRsp :: List.replicate 16 0) true]

theorem same_round (hne : handle ≠ op.endHandle) (first : UInt16) :
    ∃ op', op'.endHandle = op.endHandle ∧
      Inclusion.machine.run (.listing op first) (sameAnswers handle) =
        some (.listing op' (handle + 1)) := by
  let cur : Result := ⟨opReadByTypeRsp,unnamedRow handle,6⟩
  let data : ReadInclData := ⟨cur,6⟩
  let op' := Procedure.appended (Procedure.appended op cur) ⟨opReadRsp,List.replicate 16 0,16⟩
  have hl : le16At data.result.pdu (data.pos - data.result.dataLen) = handle :=
    le16At_putLe16 handle _
  have hn : discoverIncluded.dataLength (6 :: unnamedRow handle) = some 6 := by
    simp [discoverIncluded,declaredLength,unnamedRow]
  have h1 : Inclusion.machine.step (.listing op first)
      (reply (opReadByTypeRsp :: 6 :: unnamedRow handle) true) =
        some (.reading (Procedure.appended op cur) data) := by
    rw [reply,listing_step,unnamed_cb hn]
    rfl
  have h2 : Inclusion.machine.step (.reading (Procedure.appended op cur) data)
      (reply (opReadRsp :: List.replicate 16 0) true) =
        some (.listing op' (handle + 1)) := by
    have hlen : (List.replicate 16 (0 : UInt8)).length = 16 := List.length_replicate
    have hpos : data.pos = data.result.pdu.length := rfl
    have hread : Inclusion.readIncludedCb (Procedure.appended op cur) data opReadRsp
        (List.replicate 16 0) true = .listing op' (handle + 1) :=
      (read_last hlen hpos hl true).trans ((if_neg hne).trans (if_pos rfl))
    rw [reply,reading_step,hread]
  refine ⟨op',rfl,?_⟩
  rw [sameAnswers,Machine.run_cons,h1,Option.bind_some,Machine.run_cons,h2]
  rfl

theorem included_requests_endless (hne : handle ≠ last) (n : Nat) : ∃ op first,
    Inclusion.machine.run (.begin start last) (List.replicate n (sameAnswers handle)).flatten =
      some (.listing op first) := by
  have hrounds : ∀ op : Request, ∀ first, op.endHandle = last → ∃ op' first',
      Inclusion.machine.run (.listing op first)
        (List.replicate n (sameAnswers handle)).flatten = some (.listing op' first') := by
    induction n with
    | zero => exact fun op first _ => ⟨op,first,rfl⟩
    | succ n ih =>
      intro op first he
      obtain ⟨op',he',hr⟩ := same_round (he.symm ▸ hne) first
      obtain ⟨op'',first'',hrest⟩ := ih op' (handle + 1) (he'.trans he)
      refine ⟨op'',first'',?_⟩
      rw [List.replicate_succ,List.flatten_cons,Machine.run_append,hr]
      exact hrest
  exact hrounds _ start rfl

theorem included_requests_endless_thrice : ∃ op first,
    Inclusion.machine.run (.begin 1 11) (List.replicate 3 (sameAnswers 2)).flatten =
      some (.listing op first) := included_requests_endless (by decide) 3

end Endless

end Minipro.GattHelpers
