import Minipro.Library.ByteOrder
import Minipro.Library.ErrorDetection

namespace Minipro
open ByteOrder ErrorDetection

inductive PacketType where
  | command
  | notification
deriving DecidableEq, Repr

def PacketType.value : PacketType → UInt8
  | .command => 0x0a
  | .notification => 0x0d

inductive Operation where
  | getSetValue
  | controlDriveBase
deriving DecidableEq, Repr

def Operation.value : Operation → UInt8
  | .getSetValue => 0x01
  | .controlDriveBase => 0x03

inductive Parameter where
  | enableRemoteControl
  | setDrive
deriving DecidableEq, Repr

def Parameter.value : Parameter → UInt8
  | .enableRemoteControl => 0x7a
  | .setDrive => 0x7b

structure Packet where
  length : UInt8 := 0
  type : UInt8
  operation : UInt8
  parameter : UInt8
  payload : List UInt8 := []
deriving DecidableEq, Repr

namespace Packet

def header : UInt16 := 0x55aa
def sizeofChecksum : Nat := 2

def getBytes (host : HostOrder) (p : Packet) : List UInt8 × Packet :=
  let p := { p with length := UInt8.ofNat (p.payload.length + sizeofChecksum) }
  let sum := p.payload.foldl (fun sum val => sum + val.toUInt16)
    (p.length.toUInt16 + p.type.toUInt16 + p.operation.toUInt16 + p.parameter.toUInt16)
  let checksum := sum ^^^ 0xffff
  (host.bytes (host.htons header) ++ [p.length,p.type,p.operation,p.parameter] ++ p.payload ++
    host.bytes checksum,p)

def bytes (host : HostOrder) (p : Packet) : List UInt8 := (p.getBytes host).1

def lengthByte (p : Packet) : UInt8 := UInt8.ofNat (p.payload.length + sizeofChecksum)

def body (p : Packet) : List UInt8 :=
  p.lengthByte :: p.type :: p.operation :: p.parameter :: p.payload

def trailer (host : HostOrder) (body : List UInt8) : List UInt8 :=
  host.bytes (byteSum body ^^^ 0xffff)

theorem lengthByte_exact_iff (p : Packet) :
    p.lengthByte.toNat = p.payload.length + 2 ↔ p.payload.length ≤ 253 := by
  rw [lengthByte,sizeofChecksum,UInt8.toNat_ofNat']
  omega

@[simp] theorem trailer_length (host : HostOrder) (body : List UInt8) :
    (trailer host body).length = 2 := host.bytes_length _

@[simp] theorem body_length (p : Packet) : p.body.length = p.payload.length + 4 := by simp [body]

theorem bytes_eq (host : HostOrder) (p : Packet) :
    p.bytes host = [0x55,0xaa] ++ p.body ++ trailer host p.body := by
  have hsum : p.payload.foldl (fun sum val => sum + val.toUInt16)
      (p.lengthByte.toUInt16 + p.type.toUInt16 + p.operation.toUInt16 + p.parameter.toUInt16) =
      byteSum p.body := by
    simp only [foldl_byteSum,body,byteSum,UInt16.add_assoc]
  have hhead : host.bytes (host.htons header) = [0x55,0xaa] := by
    rw [host.bytes_htons]; rfl
  simp only [lengthByte] at hsum
  simp only [bytes,getBytes,hhead,hsum,trailer]
  rfl

@[simp] theorem bytes_length (host : HostOrder) (p : Packet) :
    (p.bytes host).length = p.payload.length + 8 := by simp [bytes_eq]

theorem getBytes_again (host : HostOrder) (p : Packet) :
    (p.getBytes host).2.getBytes host = p.getBytes host := rfl

theorem trailer_separates (host : HostOrder) : Separates (trailer host) := by
  intro xs ys hl h he
  have hx : byteSum xs ^^^ 0xffff = byteSum ys ^^^ 0xffff := host.bytes_injective he
  exact byteSum_separates hl h (UInt16.xor_left_inj _ |>.mp hx)

def IsFrame (host : HostOrder) (w : List UInt8) : Prop := ∃ p : Packet, w = p.bytes host

theorem frames_detect (host : HostOrder) : Detects (IsFrame host) := by
  have hd := detects_of_separates [0x55,0xaa] (trailer host) 2 (trailer_length host)
    (trailer_separates host)
  rintro _ _ ⟨p,rfl⟩ ⟨q,rfl⟩
  exact hd _ _ ⟨p.body,bytes_eq host p⟩ ⟨q.body,bytes_eq host q⟩

theorem single_byte_corruption_detected (host : HostOrder) (p : Packet) :
    (∀ i, ∀ hi : i < (p.bytes host).length, ∀ b, b ≠ (p.bytes host)[i] →
      ∀ q : Packet, (p.bytes host).set i b ≠ q.bytes host) ∧
    (∀ q : Packet, (q.bytes host).length = (p.bytes host).length →
      q.bytes host ≠ p.bytes host → 2 ≤ distance (q.bytes host) (p.bytes host)) := by
  constructor
  · intro i hi b hb q hq
    exact (frames_detect host).no_single_change ⟨p,rfl⟩ hi hb ⟨q,hq⟩
  · intro q hl hne
    exact frames_detect host _ _ ⟨q,rfl⟩ ⟨p,rfl⟩ hl hne

theorem single_byte_corruption_detected_drive :
    let p : Packet := { type := 0x0a, operation := 0x03, parameter := 0x7b, payload := [1,0,0,0] }
    p.bytes .little = [0x55,0xaa,6,0x0a,0x03,0x7b,1,0,0,0,0x70,0xff] ∧
    ∀ q : Packet, (p.bytes .little).set 6 2 ≠ q.bytes .little :=
  ⟨by decide,(single_byte_corruption_detected .little _).1 6 (by decide) 2 (by decide)⟩

end Packet
end Minipro
