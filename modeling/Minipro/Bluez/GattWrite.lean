import Minipro.Library.ByteOrder
import Minipro.Library.Transition
import Minipro.Bluez.Att

namespace Minipro.GattClient
open Att ByteOrder Transition

def processError : List UInt8 → UInt8
  | [_,_,_,ecode] => ecode
  | _ => 0

structure WriteResult where
  success : Bool
  attEcode : UInt8
deriving DecidableEq, Repr

def plainCb (expected opcode : UInt8) (pdu : List UInt8) : WriteResult :=
  if opcode = opErrorRsp then ⟨false,processError pdu⟩
  else if opcode ≠ expected ∨ pdu ≠ [] then ⟨false,0⟩
  else ⟨true,0⟩

def writeCb (opcode : UInt8) (pdu : List UInt8) : WriteResult := plainCb opWriteRsp opcode pdu

def execWriteCb (opcode : UInt8) (pdu : List UInt8) : WriteResult :=
  plainCb opExecWriteRsp opcode pdu

structure LongWriteOp where
  reliable : Bool
  valueHandle : UInt16
  value : List UInt8
  offset : Nat
  index : Nat
  curLength : Nat
  success : Bool := false
  attEcode : UInt8 := 0
  reliableError : Bool := false

inductive LongWrite where
  | preparing (op : LongWriteOp)
  | executing (op : LongWriteOp)
  | finished (success reliableError : Bool) (attEcode : UInt8)

def completeWriteLongOp (op : LongWriteOp) (success : Bool) (attEcode : UInt8)
    (reliableError sent : Bool) : LongWrite :=
  if sent then
    .executing { op with success := success, attEcode := attEcode, reliableError := reliableError }
  else .finished false reliableError attEcode

def handleNextPrepWrite (op : LongWriteOp) (sent cancelSent : Bool) : LongWrite :=
  if sent then .preparing op else completeWriteLongOp op false 0 false cancelSent

def getLe16 : List UInt8 → Option UInt16
  | a :: b :: _ => some (join a b)
  | _ => none

def echoes (op : LongWriteOp) (pdu : List UInt8) : Bool :=
  pdu.length = op.curLength + 4 ∧ getLe16 pdu = some op.valueHandle ∧
    (getLe16 (pdu.drop 2)).map UInt16.toNat = some (op.offset + op.index) ∧
    pdu.drop 4 = (op.value.drop op.index).take op.curLength

structure Follow where
  mtu : Nat
  sent : Bool
  cancelSent : Bool

def prepareWriteCb (op : LongWriteOp) (opcode : UInt8) (pdu : List UInt8) (f : Follow) :
    LongWrite :=
  if opcode = opErrorRsp then completeWriteLongOp op false (processError pdu) false f.sent
  else if opcode ≠ opPrepWriteRsp then completeWriteLongOp op false 0 false f.sent
  else if op.reliable ∧ ¬ echoes op pdu then completeWriteLongOp op false 0 true f.sent
  else
    let nextIndex := op.index + op.curLength
    if nextIndex = op.value.length then completeWriteLongOp op true 0 false f.sent
    else if (op.curLength : Int) ≥ f.mtu - 5 then
      handleNextPrepWrite { op with
        index := nextIndex
        curLength := min (op.value.length - nextIndex) (f.mtu - 5) } f.sent f.cancelSent
    else completeWriteLongOp op true 0 false f.sent

def executeWriteCb (op : LongWriteOp) (opcode : UInt8) (pdu : List UInt8) : LongWrite :=
  if opcode = opErrorRsp then .finished false op.reliableError (processError pdu)
  else if opcode ≠ opExecWriteRsp ∨ pdu ≠ [] then .finished false op.reliableError op.attEcode
  else .finished op.success op.reliableError op.attEcode

inductive LongReply where
  | prepared (b : Bearer) (a : Answer) (f : Follow)
  | executed (b : Bearer) (a : Answer)

def longWrite : Machine LongWrite LongReply where
  step
    | .preparing op, .prepared b a f => (deliver b opPrepWriteReq a).map fun d =>
        prepareWriteCb op d.opcode d.pdu f
    | .executing op, .executed b a => (deliver b opExecWriteReq a).map fun d =>
        executeWriteCb op d.opcode d.pdu
    | _, _ => none

def bytesPerPrepare (mtu length : Nat) : Nat := min length (mtu - 5)

def startLongWrite (reliable : Bool) (valueHandle : UInt16) (offset : Nat) (value : List UInt8)
    (f : Follow) : LongWrite :=
  handleNextPrepWrite
    { reliable := reliable, valueHandle := valueHandle, value := value, offset := offset,
      index := 0, curLength := bytesPerPrepare f.mtu value.length } f.sent f.cancelSent

end Minipro.GattClient
