import Minipro.Library.Latest
import Minipro.Bluez.GattWrite

namespace Minipro.LEClient
open Att GattClient Latest

def writeCb (r : WriteResult) : Int := if r.success then 0 else r.attEcode.toNat

def writeLongCb (success reliableError : Bool) (attEcode : UInt8) : Option Int :=
  if success then some 0
  else if reliableError then none
  else some attEcode.toNat

structure LongStart where
  reliable : Bool
  valueHandle : UInt16
  offset : Nat
  value : List UInt8
  follow : Follow

def LongStart.begin (s : LongStart) : LongWrite :=
  startLongWrite s.reliable s.valueHandle s.offset s.value s.follow

inductive Exchange where
  | value (b : Bearer) (a : Answer)
  | execute (b : Bearer) (a : Answer)
  | long (s : LongStart) (replies : List LongReply)

def Exchange.completion : Exchange → Option (Bool × Option Int)
  | .value b a => (deliver b opWriteReq a).map fun d =>
      let r := GattClient.writeCb d.opcode d.pdu
      (r.success,some (writeCb r))
  | .execute b a => (deliver b opExecWriteReq a).map fun d =>
      let r := execWriteCb d.opcode d.pdu
      (r.success,some (writeCb r))
  | .long s replies => match longWrite.run s.begin replies with
      | some (.finished success reliableError attEcode) =>
          some (success,writeLongCb success reliableError attEcode)
      | _ => none

def errorCode (req : UInt8) : Answer → Option UInt8
  | .received (opcode :: pdu) =>
      if Concerns req opcode pdu then
        if opcode = opErrorRsp then some (processError pdu) else none
      else some 0
  | _ => some 0

def replyCode : LongReply → Option UInt8
  | .prepared _ a _ => errorCode opPrepWriteReq a
  | .executed _ a => errorCode opExecWriteReq a

def lastError (replies : List LongReply) : UInt8 :=
  latest (fun r => (replyCode r).isSome) (fun r => (replyCode r).getD 0) 0 replies

inductive Prepared : LongReply → Prop where
  | intro (b : Bearer) (pdu : List UInt8) (f : Follow) (h : f.sent) :
      Prepared (.prepared b (.received (opPrepWriteRsp :: pdu)) f)

def Prepares (s : LongStart) (replies : List LongReply) : Prop :=
  s.follow.sent ∧ ∀ r ∈ replies, Prepared r

def Executed (s : LongStart) (replies : List LongReply) : Prop :=
  ∃ prepares b, replies = prepares ++ [.executed b (.received [opExecWriteRsp])] ∧
    Prepares s prepares

def Exchange.Reported : Exchange → Prop
  | .value _ a => a = .received [opWriteRsp] ∨ ∃ e, errorCode opWriteReq a = some e ∧ e ≠ 0
  | .execute _ a =>
      a = .received [opExecWriteRsp] ∨ ∃ e, errorCode opExecWriteReq a = some e ∧ e ≠ 0
  | .long s replies => Executed s replies ∨ lastError replies ≠ 0

theorem errorCode_of_deliver {b : Bearer} {req : UInt8} (hr : req ≠ 0) {a : Answer}
    {d : Delivery req} (h : deliver b req a = some d) :
    errorCode req a = if d.opcode = opErrorRsp then some (processError d.pdu) else none := by
  rcases deliver_cases hr h with ⟨opcode,pdu,rfl,hc,ho,hp⟩ | ⟨rfl,hn⟩
  · simp only [errorCode,if_pos hc,ho,hp]
  · rcases a with (_ | ⟨opcode,pdu⟩) | _
    · rfl
    · simp only [errorCode,if_neg (hn opcode pdu rfl)]
      rfl
    · rfl

theorem deliver_eq_iff {b : Bearer} {req : UInt8} (rsp : UInt8) (hr : req ≠ 0) (he : rsp ≠ opErrorRsp)
    (hq : getReqOpcode rsp = req) {a : Answer} {d : Delivery req} (h : deliver b req a = some d)
    (pdu : List UInt8) : d.opcode = rsp ∧ d.pdu = pdu ↔ a = .received (rsp :: pdu) := by
  rcases deliver_cases hr h with ⟨opcode,bytes,rfl,-,ho,hp⟩ | ⟨rfl,hn⟩
  · simp [ho,hp]
  · have hc : Concerns req rsp pdu := by simpa [Concerns,he] using hq
    simp only [Delivery.failed,he.symm,false_and,false_iff]
    exact fun ha => hn rsp pdu ha hc

theorem plainCb_success {expected opcode : UInt8} (he : expected ≠ opErrorRsp)
    (pdu : List UInt8) : (plainCb expected opcode pdu).success ↔ opcode = expected ∧ pdu = [] := by
  simp only [plainCb]
  split
  · next h => simp [h,he.symm]
  · split
    · next h => simpa [← not_and_or] using h
    · next h => simpa [not_or] using h

theorem plainCb_attEcode (expected opcode : UInt8) (pdu : List UInt8) :
    (plainCb expected opcode pdu).attEcode =
      if opcode = opErrorRsp then processError pdu else 0 := by
  simp only [plainCb]
  split
  · rfl
  · split <;> rfl

theorem toNat_eq_zero (e : UInt8) : e.toNat = 0 ↔ e = 0 := by
  rw [← UInt8.toNat_inj]
  rfl

theorem writeCb_zero_iff (r : WriteResult) :
    (writeCb r = 0 ↔ r.success = true) ↔ r.success ∨ r.attEcode ≠ 0 := by
  simp only [writeCb]
  cases r.success with
  | true => simp
  | false => simp [toNat_eq_zero]

theorem writeLongCb_zero_iff {success reliableError : Bool} {attEcode : UInt8} {rc : Int}
    (h : writeLongCb success reliableError attEcode = some rc) :
    (reliableError → success) ∧ ((rc = 0 ↔ success = true) ↔ success ∨ attEcode ≠ 0) := by
  simp only [writeLongCb] at h
  cases success with
  | true =>
    cases h
    simp
  | false =>
    cases reliableError with
    | true => cases h
    | false =>
      cases h
      simp [toNat_eq_zero]

theorem plain_reported {b : Bearer} {req rsp : UInt8} (hr : req ≠ 0) (he : rsp ≠ opErrorRsp)
    (hq : getReqOpcode rsp = req) {a : Answer} {d : Delivery req} (h : deliver b req a = some d) :
    (writeCb (plainCb rsp d.opcode d.pdu) = 0 ↔ (plainCb rsp d.opcode d.pdu).success = true) ↔
      a = .received [rsp] ∨ ∃ e, errorCode req a = some e ∧ e ≠ 0 := by
  rw [writeCb_zero_iff,plainCb_success he,deliver_eq_iff rsp hr he hq h,plainCb_attEcode,
    errorCode_of_deliver hr h]
  by_cases ho : d.opcode = opErrorRsp <;> simp [ho]

theorem lastError_concat (replies : List LongReply) (r : LongReply) :
    lastError (replies ++ [r]) = (replyCode r).getD (lastError replies) := by
  rw [lastError,latest_concat,← lastError]
  cases replyCode r <;> rfl

theorem lastError_delivered {b : Bearer} {req : UInt8} (hr : req ≠ 0) {a : Answer}
    {d : Delivery req} (h : deliver b req a = some d) {r : LongReply}
    (hc : replyCode r = errorCode req a) (replies : List LongReply) :
    lastError (replies ++ [r]) =
      if d.opcode = opErrorRsp then processError d.pdu else lastError replies := by
  rw [lastError_concat,hc,errorCode_of_deliver hr h]
  split <;> rfl

theorem executed_concat (s : LongStart) (replies : List LongReply) (b : Bearer) (a : Answer) :
    Executed s (replies ++ [.executed b a]) ↔
      a = .received [opExecWriteRsp] ∧ Prepares s replies := by
  constructor
  · rintro ⟨prepares,b',hl,hp⟩
    obtain ⟨rfl,ht⟩ := List.append_inj' hl rfl
    cases ht
    exact ⟨rfl,hp⟩
  · rintro ⟨rfl,hp⟩
    exact ⟨replies,b,rfl,hp⟩

theorem not_executed_prepared (s : LongStart) (replies : List LongReply) (b : Bearer) (a : Answer)
    (f : Follow) : ¬ Executed s (replies ++ [.prepared b a f]) := by
  rintro ⟨prepares,b',hl,-⟩
  obtain ⟨-,ht⟩ := List.append_inj' hl rfl
  cases ht

theorem prepares_concat (s : LongStart) (replies : List LongReply) (b : Bearer) (a : Answer)
    (f : Follow) : Prepares s (replies ++ [.prepared b a f]) ↔
      Prepares s replies ∧ (∃ pdu, a = .received (opPrepWriteRsp :: pdu)) ∧ f.sent := by
  have hr : Prepared (.prepared b a f) ↔
      (∃ pdu, a = .received (opPrepWriteRsp :: pdu)) ∧ f.sent := by
    constructor
    · rintro ⟨b,pdu,f,h⟩
      exact ⟨⟨pdu,rfl⟩,h⟩
    · rintro ⟨⟨pdu,rfl⟩,h⟩
      exact .intro b pdu f h
  simp only [Prepares,List.mem_append,List.mem_singleton,or_imp,forall_and,forall_eq,hr,and_assoc]

def Progress (s : LongStart) (replies : List LongReply) : LongWrite → Prop
  | .preparing _ => Prepares s replies ∧ lastError replies = 0
  | .executing op => lastError replies = op.attEcode ∧
      if op.reliableError then op.success = false else (op.success ↔ Prepares s replies)
  | .finished success reliableError attEcode => lastError replies = attEcode ∧
      if reliableError then success = false else (success ↔ Executed s replies)

theorem progress_begin (s : LongStart) : Progress s [] s.begin := by
  simp only [LongStart.begin,startLongWrite,handleNextPrepWrite]
  split
  · next h => exact ⟨⟨h,by simp⟩,rfl⟩
  · next h =>
    simp only [completeWriteLongOp]
    split
    · exact ⟨rfl,by simp [Prepares,h]⟩
    · exact ⟨rfl,by simp [Executed]⟩

theorem progress_complete {s : LongStart} {replies : List LongReply} {b : Bearer} {a : Answer}
    {f : Follow} (op : LongWriteOp) {success reliableError : Bool} {attEcode : UInt8}
    (sent : Bool) (he : lastError (replies ++ [.prepared b a f]) = attEcode)
    (hs : if reliableError then success = false
      else sent → (success ↔ Prepares s (replies ++ [.prepared b a f]))) :
    Progress s (replies ++ [.prepared b a f])
      (completeWriteLongOp op success attEcode reliableError sent) := by
  simp only [completeWriteLongOp]
  split
  · next h =>
    refine ⟨he,?_⟩
    cases reliableError with
    | true => exact hs
    | false => simpa [h] using hs
  · refine ⟨he,?_⟩
    simp [not_executed_prepared]

theorem progress_prepared {s : LongStart} {replies : List LongReply} {op : LongWriteOp}
    (hp : Prepares s replies) (h0 : lastError replies = 0) {b : Bearer} {a : Answer} {f : Follow}
    {d : Delivery opPrepWriteReq} (hd : deliver b opPrepWriteReq a = some d) :
    Progress s (replies ++ [.prepared b a f]) (prepareWriteCb op d.opcode d.pdu f) := by
  have hprep := deliver_eq_iff opPrepWriteRsp (by decide) (by decide) (by decide) hd
  have hpre : Prepares s (replies ++ [.prepared b a f]) ↔ d.opcode = opPrepWriteRsp ∧ f.sent := by
    rw [prepares_concat]
    constructor
    · rintro ⟨-,⟨pdu,ha⟩,hf⟩
      exact ⟨((hprep pdu).mpr ha).1,hf⟩
    · rintro ⟨ho,hf⟩
      exact ⟨hp,⟨d.pdu,(hprep d.pdu).mp ⟨ho,rfl⟩⟩,hf⟩
  have hlast : lastError (replies ++ [.prepared b a f]) =
      if d.opcode = opErrorRsp then processError d.pdu else 0 := by
    rw [lastError_delivered (by decide) hd rfl,h0]
  unfold prepareWriteCb
  by_cases he : d.opcode = opErrorRsp
  · rw [if_pos he]
    refine progress_complete op f.sent (by rw [hlast,if_pos he]) ?_
    simp [hpre,he,opErrorRsp,opPrepWriteRsp]
  rw [if_neg he] at hlast ⊢
  by_cases ho : d.opcode = opPrepWriteRsp
  · rw [if_neg (not_not.mpr ho)]
    split
    · exact progress_complete op f.sent hlast (by simp)
    · have hdone : Progress s (replies ++ [.prepared b a f])
          (completeWriteLongOp op true 0 false f.sent) :=
        progress_complete op f.sent hlast (by simp [hpre,ho])
      dsimp only
      split
      · exact hdone
      · split
        · simp only [handleNextPrepWrite]
          split
          · next hf => exact ⟨hpre.mpr ⟨ho,hf⟩,hlast⟩
          · next hf => exact progress_complete _ f.cancelSent hlast (by simp [hpre,hf])
        · exact hdone
  · rw [if_pos ho]
    exact progress_complete op f.sent hlast (by simp [hpre,ho])

theorem progress_executed {s : LongStart} {replies : List LongReply} {op : LongWriteOp}
    (h : Progress s replies (.executing op)) {b : Bearer} {a : Answer}
    {d : Delivery opExecWriteReq} (hd : deliver b opExecWriteReq a = some d) :
    Progress s (replies ++ [.executed b a]) (executeWriteCb op d.opcode d.pdu) := by
  have hexec := deliver_eq_iff opExecWriteRsp (by decide) (by decide) (by decide) hd []
  have hlast : lastError (replies ++ [.executed b a]) =
      if d.opcode = opErrorRsp then processError d.pdu else op.attEcode := by
    rw [lastError_delivered (by decide) hd rfl,h.1]
  have hfail (hn : ¬ (d.opcode = opExecWriteRsp ∧ d.pdu = [])) :
      if op.reliableError then false = false
        else (false ↔ Executed s (replies ++ [.executed b a])) := by
    rw [executed_concat,← hexec]
    split <;> simp [hn]
  simp only [executeWriteCb]
  by_cases he : d.opcode = opErrorRsp
  · rw [if_pos he]
    exact ⟨by rw [hlast,if_pos he],hfail (by simp [he,opErrorRsp,opExecWriteRsp])⟩
  rw [if_neg he] at hlast ⊢
  by_cases ho : d.opcode = opExecWriteRsp ∧ d.pdu = []
  · rw [if_neg (by simpa using ho)]
    refine ⟨hlast,?_⟩
    simp only [executed_concat,hexec.mp ho,true_and]
    exact h.2
  · rw [if_pos (not_and_or.mp ho)]
    exact ⟨hlast,hfail ho⟩

theorem progress_step {s : LongStart} (replies : List LongReply) (w : LongWrite) (r : LongReply)
    (w' : LongWrite) (h : Progress s replies w) (hs : longWrite.step w r = some w') :
    Progress s (replies ++ [r]) w' := by
  cases w with
  | preparing op =>
    cases r with
    | executed b a => cases hs
    | prepared b a f =>
      obtain ⟨d,hd,rfl⟩ := Option.map_eq_some_iff.mp hs
      exact progress_prepared h.1 h.2 hd
  | executing op =>
    cases r with
    | prepared b a f => cases hs
    | executed b a =>
      obtain ⟨d,hd,rfl⟩ := Option.map_eq_some_iff.mp hs
      exact progress_executed h hd
  | finished success reliableError attEcode => cases r <;> cases hs

theorem progress_run {s : LongStart} {replies : List LongReply} {w : LongWrite}
    (h : longWrite.run s.begin replies = some w) : Progress s replies w :=
  longWrite.run_history (Progress s) progress_step (progress_begin s) h

theorem rc_zero_iff_success (x : Exchange) {success : Bool} {rc : Int}
    (h : x.completion = some (success,some rc)) :
    (rc = 0 ↔ success = true) ↔ x.Reported := by
  cases x with
  | value b a =>
    obtain ⟨d,hd,he⟩ := Option.map_eq_some_iff.mp h
    cases he
    exact plain_reported (by decide) (by decide) (by decide) hd
  | execute b a =>
    obtain ⟨d,hd,he⟩ := Option.map_eq_some_iff.mp h
    cases he
    exact plain_reported (by decide) (by decide) (by decide) hd
  | long s replies =>
    simp only [Exchange.completion] at h
    split at h
    · next success' reliableError attEcode hrun =>
      obtain ⟨he,hp⟩ := progress_run hrun
      obtain ⟨rfl,hrc⟩ := Prod.mk.inj (Option.some.inj h)
      obtain ⟨hr,hz⟩ := writeLongCb_zero_iff hrc
      have hs : success' ↔ Executed s replies := by
        cases reliableError with
        | true => exact absurd hp (by simp [hr rfl])
        | false => exact hp
      rw [hz,hs,← he]
      rfl
    · cases h

theorem rc_zero_iff_success_refused :
    (((3 : Int) = 0) ↔ false = true) ↔
      (Exchange.value ⟨0,false,false⟩ (.received [opErrorRsp,opWriteReq,14,0,3])).Reported :=
  rc_zero_iff_success (.value ⟨0,false,false⟩ (.received [opErrorRsp,opWriteReq,14,0,3])) rfl

theorem failed_send_reported_as_success :
    ¬ ∀ (x : Exchange) (success : Bool) (rc : Int), x.completion = some (success,some rc) →
      (rc = 0 ↔ success = true) := by
  intro h
  have hx := h (.value ⟨0,false,false⟩ .sendFailed) false 0 rfl
  exact absurd (hx.mp rfl) (by decide)

end Minipro.LEClient
