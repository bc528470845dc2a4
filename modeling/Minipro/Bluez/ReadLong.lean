import Minipro.Bluez.Discovery

namespace Minipro.GattClient
open Att ByteOrder Transition
open GattHelpers (putLe16)

def maxValueLen : UInt16 := 512

structure ReadLongOp where
  valueHandle : UInt16
  offset : UInt16
  value : List UInt8

inductive ReadLong where
  | reading (op : ReadLongOp)
  | finished (success : Bool) (attEcode : UInt8) (value : List UInt8)
  | overread

def chunkLength (offset length : UInt16) : UInt16 :=
  if maxValueLen.toNat < offset.toNat + length.toNat then maxValueLen - offset else length

-- The length left to copy is a uint16_t, and memcpy may take more than the PDU has.
def appendChunk (op : ReadLongOp) (data : List UInt8) (length : UInt16) : Option ReadLongOp :=
  let len := chunkLength op.offset length
  if data.length < len.toNat then none
  else some { op with value := op.value ++ data.take len.toNat, offset := op.offset + len }

def readLongCb (mtu : UInt16) (sent : Bool) (op : ReadLongOp) (opcode : UInt8)
    (pdu : List UInt8) : ReadLong :=
  let length := UInt16.ofNat pdu.length
  if opcode = opErrorRsp then .finished false (processError pdu) op.value
  else if opcode ≠ opReadBlobRsp then .finished false 0 op.value
  else if length = 0 then .finished true 0 op.value
  else match appendChunk op pdu length with
    | none => .overread
    | some op =>
      if maxValueLen ≤ op.offset then .finished true 0 op.value
      else if (mtu.toNat : Int) - 1 ≤ length.toNat then
        if sent then .reading op else .finished false 0 op.value
      else .finished true 0 op.value

def readBlobRequest (op : ReadLongOp) : List UInt8 :=
  opReadBlobReq :: putLe16 op.valueHandle ++ putLe16 op.offset

structure ReadReply where
  bearer : Bearer
  answer : Answer
  mtu : UInt16
  sent : Bool

def readLong : Machine ReadLong ReadReply where
  step
    | .reading op, r => (deliver r.bearer opReadBlobReq r.answer).map fun d =>
        readLongCb r.mtu r.sent op d.opcode d.pdu
    | _, _ => none

def startReadLong (valueHandle offset : UInt16) : ReadLong := .reading ⟨valueHandle,offset,[]⟩

def errorInvalidOffset : UInt8 := 0x07

-- A server that holds the value v.
def blob (v : List UInt8) (mtu : UInt16) (offset : Nat) : List UInt8 :=
  (v.drop offset).take (mtu.toNat - 1)

def blobReply (v : List UInt8) (mtu : UInt16) : List UInt8 → Answer
  | [_,a,b,lo,hi] =>
    let offset := (join lo hi).toNat
    if offset ≤ v.length then .received (opReadBlobRsp :: blob v mtu offset)
    else .received [opErrorRsp,opReadBlobReq,a,b,errorInvalidOffset]
  | _ => .received []

structure Honest (v : List UInt8) (mtu : UInt16) (op : ReadLongOp) (r : ReadReply) : Prop where
  answer : r.answer = blobReply v mtu (readBlobRequest op)
  mtu : r.mtu = mtu
  sent : r.sent = true

variable {v pdu data : List UInt8} {mtu offset valueHandle : UInt16} {op : ReadLongOp}
  {r : ReadReply} {rs : List ReadReply} {s : ReadLong}

theorem chunkLength_le (ho : op.offset ≤ maxValueLen) (length : UInt16) :
    (chunkLength op.offset length).toNat = min length.toNat (512 - op.offset.toNat) := by
  rw [UInt16.le_iff_toNat_le,show maxValueLen.toNat = 512 from rfl] at ho
  rw [chunkLength,show maxValueLen.toNat = 512 from rfl]
  split
  next h =>
    have hs : (maxValueLen - op.offset).toNat = 512 - op.offset.toNat :=
      UInt16.toNat_sub_of_le _ _ (by rw [UInt16.le_iff_toNat_le]; exact ho)
    omega
  next h => omega

theorem length_le (data : List UInt8) : (UInt16.ofNat data.length).toNat ≤ data.length := by
  rw [UInt16.toNat_ofNat']
  exact Nat.mod_le _ _

theorem appendChunk_some (ho : op.offset ≤ maxValueLen) {length : UInt16}
    (hl : length.toNat ≤ data.length) :
    ∃ t, appendChunk op data length = some t ∧
      t.offset.toNat = op.offset.toNat + min length.toNat (512 - op.offset.toNat) ∧
      t.value = op.value ++ data.take (min length.toNat (512 - op.offset.toNat)) := by
  have hc := chunkLength_le ho length
  have hle : ¬ data.length < (chunkLength op.offset length).toNat := by omega
  refine ⟨_,if_neg hle,?_,?_⟩
  · have hb := op.offset.toNat_lt
    rw [UInt16.toNat_add,hc]
    rw [UInt16.le_iff_toNat_le,show maxValueLen.toNat = 512 from rfl] at ho
    omega
  · rw [hc]

def Bounded : ReadLong → Prop
  | .reading op => op.offset ≤ maxValueLen
  | .finished _ _ _ => True
  | .overread => False

theorem readLongCb_bounded (ho : op.offset ≤ maxValueLen) (mtu : UInt16) (sent : Bool)
    (opcode : UInt8) (pdu : List UInt8) : Bounded (readLongCb mtu sent op opcode pdu) := by
  obtain ⟨t,ht,_⟩ := appendChunk_some ho (length_le pdu)
  simp only [readLongCb,ht]
  split
  next => trivial
  split
  next => trivial
  split
  next => trivial
  split
  next => trivial
  next hn =>
    split
    next =>
      split
      next => exact UInt16.le_of_lt (UInt16.not_le.mp hn)
      next => trivial
    next => trivial

theorem bounded_run (ho : offset ≤ maxValueLen)
    (hr : readLong.run (startReadLong valueHandle offset) rs = some s) : Bounded s := by
  refine readLong.run_invariant Bounded ?_ (show Bounded (startReadLong valueHandle offset) from ho) hr
  intro s r t hs ht
  cases s with
  | reading op =>
    obtain ⟨d,_,rfl⟩ := Option.map_eq_some_iff.mp ht
    exact readLongCb_bounded hs _ _ _ _
  | finished => cases ht
  | overread => cases ht

theorem step_delivered (r : ReadReply) {d : Delivery opReadBlobReq}
    (hd : deliver r.bearer opReadBlobReq r.answer = some d) :
    readLong.step (.reading op) r = some (readLongCb r.mtu r.sent op d.opcode d.pdu) := by
  change (deliver r.bearer opReadBlobReq r.answer).map
    (fun d => readLongCb r.mtu r.sent op d.opcode d.pdu) = _
  rw [hd,Option.map_some]

theorem deliver_blob (b : Bearer) (data : List UInt8) :
    ∃ d, deliver b opReadBlobReq (.received (opReadBlobRsp :: data)) = some d ∧
      d.opcode = opReadBlobRsp ∧ d.pdu = data :=
  deliver_rsp (by decide) (by decide) (by decide) (by decide) b data

theorem overread_beyond (ho : maxValueLen < offset) (b : Bearer) (mtu : UInt16) (sent : Bool)
    (hd : data ≠ []) (hl : data.length ≤ 512) :
    readLong.run (startReadLong valueHandle offset)
      [⟨b,.received (opReadBlobRsp :: data),mtu,sent⟩] = some .overread := by
  obtain ⟨d,hdel,hop,hpdu⟩ := deliver_blob b data
  have hlen : (UInt16.ofNat data.length).toNat = data.length := by
    rw [UInt16.toNat_ofNat']
    omega
  have hpos := List.length_pos_iff.mpr hd
  have hb := offset.toNat_lt
  rw [UInt16.lt_iff_toNat_lt,show maxValueLen.toNat = 512 from rfl] at ho
  have hover : data.length < (chunkLength offset (UInt16.ofNat data.length)).toNat := by
    rw [chunkLength,if_pos,UInt16.toNat_sub]
    · rw [show maxValueLen.toNat = 512 from rfl]
      omega
    · rw [show maxValueLen.toNat = 512 from rfl,hlen]
      omega
  have hnone : appendChunk ⟨valueHandle,offset,[]⟩ data (UInt16.ofNat data.length) = none :=
    if_pos hover
  have hne : UInt16.ofNat data.length ≠ 0 := by
    intro h
    rw [h] at hlen
    exact absurd hlen.symm (Nat.ne_of_gt hpos)
  have hcb : readLongCb mtu sent ⟨valueHandle,offset,[]⟩ opReadBlobRsp data = .overread := by
    rw [readLongCb,if_neg (by decide),if_neg (not_not.mpr rfl),if_neg hne,hnone]
  rw [Machine.run_cons,startReadLong,step_delivered ⟨b,_,mtu,sent⟩ hdel,hop,hpdu,hcb]
  rfl

theorem long_read_safe_iff (valueHandle offset : UInt16) :
    ((∀ rs, readLong.run (startReadLong valueHandle offset) rs ≠ some .overread) ↔
      offset ≤ maxValueLen) ∧
    (maxValueLen < offset → ∀ b data mtu sent, data ≠ [] → data.length ≤ 512 →
      readLong.run (startReadLong valueHandle offset)
        [⟨b,.received (opReadBlobRsp :: data),mtu,sent⟩] = some .overread) := by
  refine ⟨⟨fun h => ?_,fun ho rs hr => bounded_run ho hr⟩,
    fun ho b data mtu sent => overread_beyond ho b mtu sent⟩
  by_contra hn
  exact h _ (overread_beyond (UInt16.not_le.mp hn) ⟨0,false,false⟩ 0 true
    (List.cons_ne_nil 0 []) (by decide))

theorem blob_length (v : List UInt8) (mtu : UInt16) (offset : Nat) :
    (blob v mtu offset).length = min (mtu.toNat - 1) (v.length - offset) := by
  rw [blob,List.length_take,List.length_drop]

theorem blob_length_toNat (v : List UInt8) (mtu : UInt16) (offset : Nat) :
    (UInt16.ofNat (blob v mtu offset).length).toNat = (blob v mtu offset).length := by
  have hb := mtu.toNat_lt
  have hl := blob_length v mtu offset
  rw [UInt16.toNat_ofNat']
  omega

theorem honest_blob (h : Honest v mtu op r) (hv : op.offset.toNat ≤ v.length) :
    readLong.step (.reading op) r =
      some (readLongCb mtu true op opReadBlobRsp (blob v mtu op.offset.toNat)) := by
  have ha : r.answer = .received (opReadBlobRsp :: blob v mtu op.offset.toNat) := by
    rw [h.answer]
    simp only [readBlobRequest,putLe16,List.cons_append,List.nil_append,blobReply,join_low_high,
      if_pos hv]
  obtain ⟨d,hd,hop,hpdu⟩ := deliver_blob r.bearer (blob v mtu op.offset.toNat)
  rw [step_delivered r (ha ▸ hd),hop,hpdu,h.mtu,h.sent]

theorem honest_invalid (h : Honest v mtu op r) (hv : ¬ op.offset.toNat ≤ v.length) :
    readLong.step (.reading op) r = some (.finished false errorInvalidOffset op.value) := by
  have ha : r.answer = .received [opErrorRsp,opReadBlobReq,low op.valueHandle,high op.valueHandle,
      errorInvalidOffset] := by
    rw [h.answer]
    simp only [readBlobRequest,putLe16,List.cons_append,List.nil_append,blobReply,join_low_high,
      if_neg hv]
  obtain ⟨d,hd,hop,hpdu⟩ := deliver_error (show errorInvalidOffset ≠ errorInsufficientEncryption by
    decide) (by decide) r.bearer opReadBlobReq (low op.valueHandle) (high op.valueHandle)
  rw [step_delivered r (ha ▸ hd),hop,hpdu]
  rfl

theorem readLongCb_blob {t : ReadLongOp} (hn : UInt16.ofNat data.length ≠ 0)
    (ht : appendChunk op data (UInt16.ofNat data.length) = some t) (mtu : UInt16) :
    readLongCb mtu true op opReadBlobRsp data =
      if t.offset < maxValueLen ∧ (mtu.toNat : Int) - 1 ≤ (UInt16.ofNat data.length).toNat
      then .reading t else .finished true 0 t.value := by
  rw [readLongCb,if_neg (by decide),if_neg (not_not.mpr rfl),if_neg hn,ht]
  by_cases hmax : maxValueLen ≤ t.offset
  · have hlt : ¬ t.offset < maxValueLen := UInt16.not_lt.mpr hmax
    simp only [if_pos hmax,hlt,false_and,if_false]
  · have hlt : t.offset < maxValueLen := UInt16.not_le.mp hmax
    simp only [if_neg hmax,hlt,true_and,if_true]

structure Partly (v : List UInt8) (offset mtu : UInt16) (n : Nat) (op : ReadLongOp) : Prop where
  reached : op.offset.toNat = offset.toNat + n * (mtu.toNat - 1)
  value : op.value = (v.drop offset.toNat).take (n * (mtu.toNat - 1))
  short : op.offset.toNat ≤ 512
  within : n ≠ 0 → op.offset.toNat ≤ v.length

def readResult (v : List UInt8) (offset : UInt16) : ReadLong :=
  if offset.toNat ≤ v.length then .finished true 0 ((v.drop offset.toNat).take (512 - offset.toNat))
  else .finished false errorInvalidOffset []

theorem take_rest {i k m : Nat} (h : min k (v.length - i) = min m (v.length - i)) :
    (v.drop i).take k = (v.drop i).take m := by
  rw [List.take_eq_take_iff,List.length_drop]
  exact h

namespace Partly
variable {n : Nat}

theorem chunk (h : Partly v offset mtu n op) :
    ∃ t, appendChunk op (blob v mtu op.offset.toNat)
        (UInt16.ofNat (blob v mtu op.offset.toNat).length) = some t ∧
      t.offset.toNat = op.offset.toNat +
        min (blob v mtu op.offset.toNat).length (512 - op.offset.toNat) ∧
      t.value = (v.drop offset.toNat).take (n * (mtu.toNat - 1) +
        min (blob v mtu op.offset.toNat).length (512 - op.offset.toNat)) := by
  obtain ⟨t,ht,hto,htv⟩ := appendChunk_some
    (show op.offset ≤ maxValueLen from UInt16.le_iff_toNat_le.mpr h.short)
    (length_le (blob v mtu op.offset.toNat))
  rw [blob_length_toNat] at hto htv
  have hl := blob_length v mtu op.offset.toNat
  have hchunk (k : Nat) (hk : k ≤ (blob v mtu op.offset.toNat).length) :
      (blob v mtu op.offset.toNat).take k = (v.drop op.offset.toNat).take k := by
    rw [blob,List.take_take]
    exact take_rest (by omega)
  refine ⟨t,ht,hto,?_⟩
  rw [htv,h.value,hchunk _ (Nat.min_le_left _ _),List.take_add,List.drop_drop,h.reached]

theorem full {t : ReadLongOp} (h : Partly v offset mtu n op)
    (hl : (blob v mtu op.offset.toNat).length = mtu.toNat - 1)
    (hto : t.offset.toNat = op.offset.toNat +
      min (blob v mtu op.offset.toNat).length (512 - op.offset.toNat))
    (htv : t.value = (v.drop offset.toNat).take (n * (mtu.toNat - 1) +
      min (blob v mtu op.offset.toNat).length (512 - op.offset.toNat)))
    (hv : op.offset.toNat ≤ v.length) (ht : t.offset.toNat < 512) :
    Partly v offset mtu (n + 1) t := by
  have hb := blob_length v mtu op.offset.toNat
  have ho := h.reached
  have hs := h.short
  have hsucc : (n + 1) * (mtu.toNat - 1) = n * (mtu.toNat - 1) + (mtu.toNat - 1) :=
    Nat.succ_mul n (mtu.toNat - 1)
  have hmin : min (blob v mtu op.offset.toNat).length (512 - op.offset.toNat) = mtu.toNat - 1 := by
    omega
  rw [hmin] at hto htv
  refine ⟨?_,?_,by omega,fun _ => by omega⟩
  · rw [hto,ho,hsucc,Nat.add_assoc]
  · rw [htv,hsucc]

theorem answered (h : Partly v offset mtu n op) (hm : 1 < mtu.toNat)
    (hr : Honest v mtu op r) (hv : op.offset.toNat ≤ v.length) :
    (∃ t, readLong.step (.reading op) r = some (.reading t) ∧ Partly v offset mtu (n + 1) t) ∨
      readLong.step (.reading op) r =
        some (.finished true 0 ((v.drop offset.toNat).take (512 - offset.toNat))) := by
  have ho := h.reached
  have hs := h.short
  have hb := blob_length v mtu op.offset.toNat
  have hlen := blob_length_toNat v mtu op.offset.toNat
  rw [honest_blob hr hv]
  by_cases hd : UInt16.ofNat (blob v mtu op.offset.toNat).length = 0
  · right
    have h0 : (blob v mtu op.offset.toNat).length = 0 := by
      rw [← hlen,hd]
      rfl
    rw [readLongCb,if_neg (by decide),if_neg (not_not.mpr rfl),if_pos hd,h.value]
    exact congrArg (fun l => some (ReadLong.finished true 0 l)) (take_rest (by omega))
  · obtain ⟨t,ht,hto,htv⟩ := h.chunk
    rw [readLongCb_blob hd ht,hlen]
    by_cases hc : t.offset < maxValueLen ∧
        (mtu.toNat : Int) - 1 ≤ (blob v mtu op.offset.toNat).length
    · left
      have hmax : t.offset.toNat < 512 := UInt16.lt_iff_toNat_lt.mp hc.1
      have hfull := hc.2
      exact ⟨t,by rw [if_pos hc],h.full (by omega) hto htv hv hmax⟩
    · right
      have hstop : 512 ≤ t.offset.toNat ∨ (blob v mtu op.offset.toNat).length < mtu.toNat - 1 := by
        rcases not_and_or.mp hc with hmax | hshort
        · exact .inl (UInt16.le_iff_toNat_le.mp (UInt16.not_lt.mp hmax))
        · exact .inr (by omega)
      rw [if_neg hc,htv]
      exact congrArg (fun l => some (ReadLong.finished true 0 l)) (take_rest (by omega))

theorem refused (h : Partly v offset mtu n op) (hr : Honest v mtu op r)
    (hv : ¬ op.offset.toNat ≤ v.length) :
    ¬ offset.toNat ≤ v.length ∧
      readLong.step (.reading op) r = some (.finished false errorInvalidOffset []) := by
  have ho := h.reached
  have hn : n = 0 := by
    by_contra hn
    exact hv (h.within hn)
  have hz : n * (mtu.toNat - 1) = 0 := by
    rw [hn,Nat.zero_mul]
  refine ⟨by omega,?_⟩
  rw [honest_invalid hr hv,h.value,hz,List.take_zero]

end Partly

theorem partly_step {n : Nat} (h : Partly v offset mtu n op) (hm : 1 < mtu.toNat)
    (hr : Honest v mtu op r) :
    (∃ t, readLong.step (.reading op) r = some (.reading t) ∧ Partly v offset mtu (n + 1) t) ∨
      readLong.step (.reading op) r = some (readResult v offset) := by
  by_cases hv : op.offset.toNat ≤ v.length
  · have ho := h.reached
    rw [readResult,if_pos (by omega)]
    exact h.answered hm hr hv
  · obtain ⟨hov,ht⟩ := h.refused hr hv
    right
    rw [ht,readResult,if_neg hov]

def BlobAnswered (v : List UInt8) (mtu : UInt16) (s : ReadLong) (r : ReadReply) : Prop :=
  ∀ op, s = .reading op → Honest v mtu op r

theorem partly_run (hm : 1 < mtu.toNat) (ho : offset.toNat ≤ 512)
    (ha : readLong.Along (BlobAnswered v mtu) (startReadLong valueHandle offset) rs)
    (hr : readLong.run (startReadLong valueHandle offset) rs = some s) :
    (∃ op, s = .reading op ∧ Partly v offset mtu rs.length op) ∨
      s = readResult v offset ∧ (rs.length - 1) * (mtu.toNat - 1) ≤ 512 - offset.toNat := by
  refine readLong.along_history (fun rs s => (∃ op, s = .reading op ∧ Partly v offset mtu rs.length op) ∨
    s = readResult v offset ∧ (rs.length - 1) * (mtu.toNat - 1) ≤ 512 - offset.toNat)
    (BlobAnswered v mtu) ?_ (.inl ⟨_,rfl,?_⟩) ha hr
  · rintro rs s r t (⟨op,rfl,hp⟩ | ⟨rfl,_⟩) hh ht
    · rw [List.length_append,List.length_singleton]
      rcases partly_step hp hm (hh op rfl) with ⟨u,hu,hpu⟩ | hu
      · rw [hu] at ht
        exact .inl ⟨u,(Option.some.inj ht).symm,hpu⟩
      · rw [hu] at ht
        have hreached := hp.reached
        have hshort := hp.short
        exact .inr ⟨(Option.some.inj ht).symm,by rw [Nat.add_sub_cancel]; omega⟩
    · rw [readResult] at ht
      split at ht
      next => cases ht
      next => cases ht
  · refine ⟨?_,?_,ho,fun h => absurd rfl h⟩
    · rw [List.length_nil,Nat.zero_mul,Nat.add_zero]
    · rw [List.length_nil,Nat.zero_mul,List.take_zero]

theorem long_read_exact (hm : 1 < mtu.toNat) (ho : offset ≤ maxValueLen)
    (ha : readLong.Along (BlobAnswered v mtu) (startReadLong valueHandle offset) rs)
    (hr : readLong.run (startReadLong valueHandle offset) rs = some s) :
    (rs.length - 1) * (mtu.toNat - 1) ≤ 512 - offset.toNat ∧
    (s = readResult v offset ∨ ∃ op, s = .reading op ∧
      op.value = (v.drop offset.toNat).take (rs.length * (mtu.toNat - 1)) ∧
      ∀ r, Honest v mtu op r → ∃ t, readLong.step s r = some t) := by
  rcases partly_run hm (UInt16.le_iff_toNat_le.mp ho) ha hr with ⟨op,rfl,hp⟩ | ⟨hs,hb⟩
  · have hreached := hp.reached
    have hshort := hp.short
    have hle : (rs.length - 1) * (mtu.toNat - 1) ≤ rs.length * (mtu.toNat - 1) :=
      Nat.mul_le_mul_right _ (Nat.sub_le _ _)
    refine ⟨by omega,.inr ⟨op,rfl,hp.value,fun r hh => ?_⟩⟩
    rcases partly_step hp hm hh with ⟨t,ht,_⟩ | ht
    · exact ⟨_,ht⟩
    · exact ⟨_,ht⟩
  · exact ⟨hb,.inl hs⟩

theorem long_read_exact_two :
    let b : Bearer := ⟨0,false,false⟩
    let rs : List ReadReply :=
      [⟨b,.received [opReadBlobRsp,1,2],3,true⟩,⟨b,.received [opReadBlobRsp,3],3,true⟩]
    let s : ReadLong := .finished true 0 [1,2,3]
    (rs.length - 1) * ((3 : UInt16).toNat - 1) ≤ 512 - (0 : UInt16).toNat ∧
    (s = readResult [1,2,3] 0 ∨ ∃ op, s = .reading op ∧
      op.value = ([1,2,3].drop (0 : UInt16).toNat).take (rs.length * ((3 : UInt16).toNat - 1)) ∧
      ∀ r, Honest [1,2,3] 3 op r → ∃ t, readLong.step s r = some t) := by
  intro b rs s
  have hr : readLong.run (startReadLong 5 0) rs = some s := rfl
  refine long_read_exact (by decide) (by decide) ⟨fun op h => ?_,fun t ht => ⟨fun op h => ?_,?_⟩⟩ hr
  · cases h
    exact ⟨rfl,rfl,rfl⟩
  · obtain rfl := Option.some.inj ht
    cases h
    exact ⟨rfl,rfl,rfl⟩
  · exact fun _ _ => trivial

end Minipro.GattClient
