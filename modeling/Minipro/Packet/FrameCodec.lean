import Minipro.Library.Framing
import Minipro.Packet.Frame

namespace Minipro
open ByteOrder Framing

structure Frame where
  type : UInt8
  operation : UInt8
  parameter : UInt8
  payload : List UInt8
  fits : payload.length ≤ 253

namespace Frame

def packet (f : Frame) : Packet :=
  { type := f.type, operation := f.operation, parameter := f.parameter, payload := f.payload }

theorem lengthByte_toNat (f : Frame) : f.packet.lengthByte.toNat = f.payload.length + 2 :=
  (Packet.lengthByte_exact_iff f.packet).mpr f.fits

def read : List UInt8 → Option (Frame × List UInt8)
  | _ :: _ :: length :: type :: operation :: parameter :: rest =>
      if h : 2 ≤ length.toNat ∧ length.toNat ≤ rest.length then
        some (⟨type,operation,parameter,rest.take (length.toNat-2),by
          have := length.toNat_lt
          simp only [List.length_take]
          omega⟩,rest.drop length.toNat)
      else none
  | _ => none

theorem read_bytes (host : HostOrder) (f : Frame) (rest : List UInt8) :
    read (f.packet.bytes host ++ rest) = some (f,rest) := by
  have hl := f.lengthByte_toNat
  have ht : (Packet.trailer host f.packet.body).length = 2 := Packet.trailer_length host _
  have hsplit : f.packet.bytes host ++ rest = 0x55 :: 0xaa :: f.packet.lengthByte ::
      f.type :: f.operation :: f.parameter ::
        (f.payload ++ (Packet.trailer host f.packet.body ++ rest)) := by
    rw [Packet.bytes_eq]
    simp [Packet.body,packet]
  have htake : (f.payload ++ (Packet.trailer host f.packet.body ++ rest)).take
      (f.packet.lengthByte.toNat-2) = f.payload := by
    rw [hl,Nat.add_sub_cancel,List.take_left']
    rfl
  have hdrop : (f.payload ++ (Packet.trailer host f.packet.body ++ rest)).drop
      f.packet.lengthByte.toNat = rest := by
    rw [hl,← List.append_assoc,List.drop_left']
    simp [ht]
  rw [hsplit,read,dif_pos ⟨by omega,by simp [hl,ht]⟩]
  simp only [htake,hdrop]

theorem read_shorter {bs : List UInt8} {f : Frame} {rest : List UInt8}
    (h : read bs = some (f,rest)) : rest.length < bs.length := by
  simp only [read] at h
  split at h
  · split at h
    · simp only [Option.some.injEq,Prod.mk.injEq] at h
      rw [← h.2,List.length_drop]
      simp only [List.length_cons]
      omega
    · cases h
  · cases h

def codec (host : HostOrder) : Codec Frame UInt8 where
  encode f := f.packet.bytes host
  decode := read
  decode_encode := read_bytes host
  decode_shorter := read_shorter

end Frame
end Minipro
