import Minipro.Library.Transition
import Minipro.Control.MiniPro
import Minipro.Bluez.SendQueue
import Minipro.LEClient.Completion

namespace Minipro.Link
open Att ByteOrder Transition

inductive Stage where
  | quit
  | cancelling (ids : List UInt32)
  | attReleased
  | joined
deriving DecidableEq, Repr

inductive Caller where
  | running
  | waiting (op : Option SendOp) (promise : Option Int)
  | destroying (stage : Stage)
deriving DecidableEq, Repr

def Caller.answered : Caller → Int → Caller
  | .waiting op _,rc => .waiting op (some rc)
  | c,_ => c

structure State where
  att : BtAtt
  caller : Caller
  passed : List SendOp
  accepted : List SendOp
  discarded : List SendOp
deriving DecidableEq, Repr

structure Conditions where
  security : Int
  allocates : Bool
  signature : Option (List UInt8)

inductive Event where
  | writeValue (w : WriteValue) (c : Conditions)
  | traffic (s : Send)
  | canWrite (sent : Bool)
  | canRead (b : Bearer) (bytes : List UInt8)
  | timeout (indication : Bool)
  | disconnected
  | resume
  | quit
  | unrefGatt
  | cancel
  | unrefAtt
  | join

def putLe16 (v : UInt16) : List UInt8 := [low v,high v]

-- Both lengths pass through a uint16_t.
def narrow (bs : List UInt8) : List UInt8 := bs.take (bs.length % 65536)

def writePdu (w : WriteValue) : List UInt8 := narrow (putLe16 w.handle ++ narrow w.value)

def securityLow : Int := 1

def commandOpcode (signedWrite : Bool) (security : Int) : UInt8 :=
  if signedWrite then if security > securityLow then opWriteCmd else opSignedWriteCmd
  else opWriteCmd

def writeWithoutResponse (w : WriteValue) (c : Conditions) : Send :=
  { opcode := commandOpcode w.signedWrite c.security, pdu := writePdu w, issuer := .caller,
    callback := false, allocates := c.allocates, signature := c.signature }

def writeWithResponse (w : WriteValue) (c : Conditions) : Send :=
  { opcode := opWriteReq, pdu := writePdu w, issuer := .caller, callback := true,
    allocates := c.allocates, signature := c.signature }

namespace State

def writeValue (s : State) (w : WriteValue) (c : Conditions) : State :=
  if w.withoutResponse then
    match s.att.send (writeWithoutResponse w c) with
    | some (op,att) => { s with att := att, accepted := s.accepted ++ [op] }
    | none => s
  else
    match s.att.send (writeWithResponse w c) with
    | some (op,att) => { s with att := att, caller := .waiting (some op) none }
    | none => { s with caller := .waiting none none }

def traffic (s : State) (m : Send) : State :=
  match s.att.send { m with issuer := .bearer } with
  | some (_,att) => { s with att := att }
  | none => s

def answer (s : State) (op : SendOp) (d : Delivery op.opcode) : State :=
  { s with caller :=
      if op.issuer = .caller ∧ op.callback then
        s.caller.answered (LEClient.writeCb (GattClient.writeCb d.opcode d.pdu))
      else s.caller }

def pass (s : State) (op : SendOp) (att : BtAtt) : State :=
  { s with att := att, passed := s.passed ++ [op] }

def canWriteData (s : State) (sent : Bool) : Option State :=
  s.att.pickNextSendOp.map fun (op,att) =>
    if sent then s.pass op (att.sent op) else (s.pass op att).answer op (.failed op.opcode)

def clearReq (s : State) : State := { s with att := { s.att with pendingReq := none } }

def handleRsp (s : State) (b : Bearer) (opcode : UInt8) (pdu : List UInt8) : State :=
  match s.att.pendingReq with
  | none => s
  | some op => match Att.handleRsp b op.opcode opcode pdu with
    | none => { s with att := s.att.retry op }
    | some d => (s.answer op d).clearReq

def handleConf (s : State) (pdu : List UInt8) : State :=
  if pdu = [] then { s with att := { s.att with pendingInd := none } } else s

def canReadData (s : State) (b : Bearer) : List UInt8 → State
  | [] => s
  | opcode :: pdu => match getOpType opcode with
    | .rsp => s.handleRsp b opcode pdu
    | .conf => s.handleConf pdu
    | _ => s

def disconnect (s : State) : State :=
  { s with att := s.att.disconnect, discarded := s.discarded ++ s.att.writeQueue }

def cancel (s : State) (id : UInt32) (ids : List UInt32) : State :=
  { s with
    att := (s.att.cancel id).2
    discarded := s.discarded ++ (s.att.cancel id).1.toList
    caller := .destroying (.cancelling ids) }

def unrefAtt (s : State) : State :=
  { s with
    att := s.att.free
    discarded := s.discarded ++ s.att.writeQueue
    caller := .destroying .attReleased }

-- bt_gatt_client_free cancels its requests one by one, and the mainloop thread may send between
-- two of them: it is joined last.
def step (s : State) : Event → Option State
  | .writeValue w c => if s.caller = .running then some (s.writeValue w c) else none
  | .traffic m => some (s.traffic m)
  | .canWrite sent => if s.att.io then s.canWriteData sent else none
  | .canRead b bytes => if s.att.io then some (s.canReadData b bytes) else none
  | .timeout indication => some { s with att := s.att.timeout indication }
  | .disconnected => some s.disconnect
  | .resume => match s.caller with
      | .waiting _ (some _) => some { s with caller := .running }
      | _ => none
  | .quit => if s.caller = .running then some { s with caller := .destroying .quit } else none
  | .unrefGatt =>
      if s.caller = .destroying .quit then
        some { s with caller := .destroying (.cancelling s.att.pendingRequests) }
      else none
  | .cancel => match s.caller with
      | .destroying (.cancelling (id :: ids)) => some (s.cancel id ids)
      | _ => none
  | .unrefAtt => if s.caller = .destroying (.cancelling []) then some s.unrefAtt else none
  | .join =>
      if s.caller = .destroying .attReleased then some { s with caller := .destroying .joined }
      else none

end State

def machine : Machine State Event := ⟨State.step⟩

inductive Steps : State → Event → State → Prop
  | writeValue {s : State} (w : WriteValue) (c : Conditions) (h : s.caller = .running) :
      Steps s (.writeValue w c) (s.writeValue w c)
  | traffic (s : State) (m : Send) : Steps s (.traffic m) (s.traffic m)
  | canWrite {s t : State} {sent : Bool} (hio : s.att.io) (h : s.canWriteData sent = some t) :
      Steps s (.canWrite sent) t
  | canRead {s : State} (b : Bearer) (bytes : List UInt8) (hio : s.att.io) :
      Steps s (.canRead b bytes) (s.canReadData b bytes)
  | timeout (s : State) (indication : Bool) :
      Steps s (.timeout indication) { s with att := s.att.timeout indication }
  | disconnected (s : State) : Steps s .disconnected s.disconnect
  | resume {s : State} {op : Option SendOp} {rc : Int} (h : s.caller = .waiting op (some rc)) :
      Steps s .resume { s with caller := .running }
  | quit {s : State} (h : s.caller = .running) :
      Steps s .quit { s with caller := .destroying .quit }
  | unrefGatt {s : State} (h : s.caller = .destroying .quit) :
      Steps s .unrefGatt { s with caller := .destroying (.cancelling s.att.pendingRequests) }
  | cancel {s : State} {id : UInt32} {ids : List UInt32}
      (h : s.caller = .destroying (.cancelling (id :: ids))) : Steps s .cancel (s.cancel id ids)
  | unrefAtt {s : State} (h : s.caller = .destroying (.cancelling [])) :
      Steps s .unrefAtt s.unrefAtt
  | join {s : State} (h : s.caller = .destroying .attReleased) :
      Steps s .join { s with caller := .destroying .joined }

theorem steps_of_step {s t : State} {e : Event} (hs : machine.step s e = some t) : Steps s e t := by
  cases e with
  | traffic m =>
    cases hs
    exact .traffic s m
  | timeout indication =>
    cases hs
    exact .timeout s indication
  | disconnected =>
    cases hs
    exact .disconnected s
  | resume =>
    simp only [machine,State.step] at hs
    split at hs
    · next h =>
      cases hs
      exact .resume h
    · cases hs
  | cancel =>
    simp only [machine,State.step] at hs
    split at hs
    · next h =>
      cases hs
      exact .cancel h
    · cases hs
  | canWrite sent =>
    simp only [machine,State.step,Option.ite_none_right_eq_some] at hs
    exact .canWrite hs.1 hs.2
  | canRead b bytes =>
    simp only [machine,State.step,Option.ite_none_right_eq_some] at hs
    obtain ⟨h,⟨⟩⟩ := hs
    exact .canRead b bytes h
  | writeValue w c =>
    simp only [machine,State.step,Option.ite_none_right_eq_some] at hs
    obtain ⟨h,⟨⟩⟩ := hs
    exact .writeValue w c h
  | quit =>
    simp only [machine,State.step,Option.ite_none_right_eq_some] at hs
    obtain ⟨h,⟨⟩⟩ := hs
    exact .quit h
  | unrefGatt =>
    simp only [machine,State.step,Option.ite_none_right_eq_some] at hs
    obtain ⟨h,⟨⟩⟩ := hs
    exact .unrefGatt h
  | unrefAtt =>
    simp only [machine,State.step,Option.ite_none_right_eq_some] at hs
    obtain ⟨h,⟨⟩⟩ := hs
    exact .unrefAtt h
  | join =>
    simp only [machine,State.step,Option.ite_none_right_eq_some] at hs
    obtain ⟨h,⟨⟩⟩ := hs
    exact .join h

def isCommand (op : SendOp) : Bool := op.issuer = .caller ∧ op.type = .cmd
def isRequest (op : SendOp) : Bool := op.issuer = .caller ∧ op.callback

def commands (ops : List SendOp) : List SendOp := ops.filter isCommand

def outstanding (att : BtAtt) : List SendOp :=
  (att.pendingReq.toList ++ att.reqQueue).filter isRequest

end Minipro.Link
