import Mathlib.Tactic

namespace Minipro.Att

def opErrorRsp : UInt8 := 0x01
def opMtuReq : UInt8 := 0x02
def opMtuRsp : UInt8 := 0x03
def opFindInfoReq : UInt8 := 0x04
def opFindInfoRsp : UInt8 := 0x05
def opFindByTypeValReq : UInt8 := 0x06
def opFindByTypeValRsp : UInt8 := 0x07
def opReadByTypeReq : UInt8 := 0x08
def opReadByTypeRsp : UInt8 := 0x09
def opReadReq : UInt8 := 0x0a
def opReadRsp : UInt8 := 0x0b
def opReadBlobReq : UInt8 := 0x0c
def opReadBlobRsp : UInt8 := 0x0d
def opReadMultReq : UInt8 := 0x0e
def opReadMultRsp : UInt8 := 0x0f
def opReadByGrpTypeReq : UInt8 := 0x10
def opReadByGrpTypeRsp : UInt8 := 0x11
def opWriteReq : UInt8 := 0x12
def opWriteRsp : UInt8 := 0x13
def opWriteCmd : UInt8 := 0x52
def opSignedWriteCmd : UInt8 := 0xd2
def opPrepWriteReq : UInt8 := 0x16
def opPrepWriteRsp : UInt8 := 0x17
def opExecWriteReq : UInt8 := 0x18
def opExecWriteRsp : UInt8 := 0x19
def opHandleValNot : UInt8 := 0x1b
def opHandleValInd : UInt8 := 0x1d
def opHandleValConf : UInt8 := 0x1e

inductive OpType where
  | req
  | rsp
  | cmd
  | ind
  | notify
  | conf
  | unknown
deriving DecidableEq, Repr

def opcodeTypeTable : List (UInt8 × OpType) :=
  [(opErrorRsp,.rsp),(opMtuReq,.req),(opMtuRsp,.rsp),(opFindInfoReq,.req),(opFindInfoRsp,.rsp),
    (opFindByTypeValReq,.req),(opFindByTypeValRsp,.rsp),(opReadByTypeReq,.req),
    (opReadByTypeRsp,.rsp),(opReadReq,.req),(opReadRsp,.rsp),(opReadBlobReq,.req),
    (opReadBlobRsp,.rsp),(opReadMultReq,.req),(opReadMultRsp,.rsp),(opReadByGrpTypeReq,.req),
    (opReadByGrpTypeRsp,.rsp),(opWriteReq,.req),(opWriteRsp,.rsp),(opWriteCmd,.cmd),
    (opSignedWriteCmd,.cmd),(opPrepWriteReq,.req),(opPrepWriteRsp,.rsp),(opExecWriteReq,.req),
    (opExecWriteRsp,.rsp),(opHandleValNot,.notify),(opHandleValInd,.ind),(opHandleValConf,.conf)]

def getOpType (opcode : UInt8) : OpType := (opcodeTypeTable.lookup opcode).getD .unknown

def reqRspMappingTable : List (UInt8 × UInt8) :=
  [(opMtuReq,opMtuRsp),(opFindInfoReq,opFindInfoRsp),(opFindByTypeValReq,opFindByTypeValRsp),
    (opReadByTypeReq,opReadByTypeRsp),(opReadReq,opReadRsp),(opReadBlobReq,opReadBlobRsp),
    (opReadMultReq,opReadMultRsp),(opReadByGrpTypeReq,opReadByGrpTypeRsp),
    (opWriteReq,opWriteRsp),(opPrepWriteReq,opPrepWriteRsp),(opExecWriteReq,opExecWriteRsp)]

def getReqOpcode (rspOpcode : UInt8) : UInt8 :=
  ((reqRspMappingTable.find? fun m => m.2 = rspOpcode).map Prod.fst).getD 0

def errorAuthentication : UInt8 := 0x05
def errorInsufficientEncryption : UInt8 := 0x0f

def securityAuto : Int := 0
def securityMedium : Int := 2
def securityHigh : Int := 3

structure Bearer where
  getSecurity : Int
  setSecurity : Bool
  pushHead : Bool

def changeSecurity (b : Bearer) (ecode : UInt8) : Bool :=
  if b.getSecurity ≠ securityAuto then false
  else if ecode = errorInsufficientEncryption ∧ b.getSecurity < securityMedium then b.setSecurity
  else if ecode = errorAuthentication ∧ b.getSecurity < securityHigh then b.setSecurity
  else false

def handleErrorRsp (b : Bearer) : List UInt8 → Bool × UInt8
  | [opcode,_,_,ecode] => (changeSecurity b ecode && b.pushHead,opcode)
  | _ => (false,0)

structure Delivery (req : UInt8) where
  opcode : UInt8
  pdu : List UInt8
  answers : opcode = opErrorRsp ∨ getReqOpcode opcode = req
deriving DecidableEq

def Delivery.failed (req : UInt8) : Delivery req := ⟨opErrorRsp,[],.inl rfl⟩

def handleRsp (b : Bearer) (req opcode : UInt8) (pdu : List UInt8) : Option (Delivery req) :=
  if h : opcode = opErrorRsp then
    let (retried,reqOpcode) := handleErrorRsp b pdu
    if retried then none
    else if reqOpcode ≠ req then some (.failed req)
    else some ⟨opcode,pdu,.inl h⟩
  else if getReqOpcode opcode = 0 then some (.failed req)
  else if h : getReqOpcode opcode = req then some ⟨opcode,pdu,.inr h⟩
  else some (.failed req)

inductive Answer where
  | received (bytes : List UInt8)
  | sendFailed

def deliver (b : Bearer) (req : UInt8) : Answer → Option (Delivery req)
  | .received [] => none
  | .received (opcode :: pdu) =>
      if getOpType opcode = .rsp then handleRsp b req opcode pdu else none
  | .sendFailed => some (.failed req)

def Concerns (req opcode : UInt8) (pdu : List UInt8) : Prop :=
  if opcode = opErrorRsp then pdu.length = 4 ∧ pdu.head? = some req else getReqOpcode opcode = req

instance (req opcode : UInt8) (pdu : List UInt8) : Decidable (Concerns req opcode pdu) :=
  inferInstanceAs (Decidable (if opcode = opErrorRsp then pdu.length = 4 ∧ pdu.head? = some req
    else getReqOpcode opcode = req))

theorem handleErrorRsp_opcode (b : Bearer) {req : UInt8} (hr : req ≠ 0) (pdu : List UInt8) :
    (handleErrorRsp b pdu).2 = req ↔ Concerns req opErrorRsp pdu := by
  unfold handleErrorRsp Concerns
  split
  · simp
  · next hne =>
    have hlen : pdu.length ≠ 4 := by
      intro hl
      obtain ⟨w,x,y,z,rfl⟩ := List.length_eq_four.mp hl
      exact hne w x y z rfl
    simp [hlen,hr.symm]

theorem handleRsp_cases {b : Bearer} {req opcode : UInt8} (hr : req ≠ 0) {pdu : List UInt8}
    {d : Delivery req} (h : handleRsp b req opcode pdu = some d) :
    Concerns req opcode pdu ∧ d.opcode = opcode ∧ d.pdu = pdu ∨
      ¬ Concerns req opcode pdu ∧ d = .failed req := by
  by_cases he : opcode = opErrorRsp
  · subst he
    rw [← handleErrorRsp_opcode b hr]
    simp only [handleRsp,dif_pos] at h
    split at h
    · cases h
    · split at h
      · next hne =>
        cases h
        exact .inr ⟨hne,rfl⟩
      · next heq =>
        cases h
        exact .inl ⟨not_not.mp heq,rfl,rfl⟩
  · simp only [Concerns,if_neg he]
    by_cases hq : getReqOpcode opcode = req
    · have h0 : getReqOpcode opcode ≠ 0 := hq ▸ hr
      simp only [handleRsp,dif_neg he,if_neg h0,dif_pos hq,Option.some.injEq] at h
      cases h
      exact .inl ⟨hq,rfl,rfl⟩
    · simp only [handleRsp,dif_neg he,dif_neg hq,ite_self,Option.some.injEq] at h
      exact .inr ⟨hq,h.symm⟩

theorem deliver_cases {b : Bearer} {req : UInt8} (hr : req ≠ 0) {a : Answer} {d : Delivery req}
    (h : deliver b req a = some d) :
    (∃ opcode pdu, a = .received (opcode :: pdu) ∧ Concerns req opcode pdu ∧ d.opcode = opcode ∧
      d.pdu = pdu) ∨
    (d = .failed req ∧ ∀ opcode pdu, a = .received (opcode :: pdu) → ¬ Concerns req opcode pdu) := by
  cases a with
  | sendFailed =>
    cases h
    exact .inr ⟨rfl,fun _ _ h => by cases h⟩
  | received bytes =>
    cases bytes with
    | nil => cases h
    | cons opcode pdu =>
      by_cases hrsp : getOpType opcode = .rsp
      · simp only [deliver,if_pos hrsp] at h
        rcases handleRsp_cases hr h with ⟨hc,hd⟩ | ⟨hc,hd⟩
        · exact .inl ⟨opcode,pdu,rfl,hc,hd⟩
        · refine .inr ⟨hd,fun opcode' pdu' h => ?_⟩
          cases h
          exact hc
      · simp only [deliver,if_neg hrsp] at h
        cases h

theorem deliver_rsp {req opcode : UInt8} (ht : getOpType opcode = .rsp) (he : opcode ≠ opErrorRsp)
    (hq : getReqOpcode opcode = req) (h0 : req ≠ 0) (b : Bearer) (pdu : List UInt8) :
    ∃ d, deliver b req (.received (opcode :: pdu)) = some d ∧ d.opcode = opcode ∧ d.pdu = pdu := by
  refine ⟨⟨opcode,pdu,.inr hq⟩,?_,rfl,rfl⟩
  simp only [deliver,if_pos ht,handleRsp,dif_neg he,if_neg (hq ▸ h0),dif_pos hq]

theorem deliver_error {ecode : UInt8} (he : ecode ≠ errorInsufficientEncryption)
    (ha : ecode ≠ errorAuthentication) (b : Bearer) (req lo hi : UInt8) :
    ∃ d, deliver b req (.received [opErrorRsp,req,lo,hi,ecode]) = some d ∧
      d.opcode = opErrorRsp ∧ d.pdu = [req,lo,hi,ecode] := by
  have hc : changeSecurity b ecode = false := by simp [changeSecurity,he,ha]
  have ht : getOpType opErrorRsp = .rsp := by decide
  refine ⟨⟨opErrorRsp,_,.inl rfl⟩,?_,rfl,rfl⟩
  simp [deliver,ht,handleRsp,handleErrorRsp,hc]

end Minipro.Att
