import Minipro.Packet.Stream

namespace Minipro.Packet
open ByteOrder ErrorDetection

def partialSum (p : Packet) (seen : List UInt8) : UInt16 :=
  seen.foldl (fun sum val => sum + val.toUInt16)
    (p.lengthByte.toUInt16 + p.type.toUInt16 + p.operation.toUInt16 + p.parameter.toUInt16)

def exactSum (p : Packet) (seen : List UInt8) : Nat :=
  p.lengthByte.toNat + p.type.toNat + p.operation.toNat + p.parameter.toNat +
    (seen.map UInt8.toNat).sum

def emittedLength (host : HostOrder) (p : Packet) : Option Nat :=
  (p.bytes host)[2]?.map UInt8.toNat

def emittedChecksum (host : HostOrder) (p : Packet) : List UInt8 :=
  (p.bytes host).drop (p.payload.length+6)

structure ExactArithmetic (p : Packet) : Prop where
  sums : ∀ seen rest, p.payload = seen ++ rest → (p.partialSum seen).toNat = p.exactSum seen
  steps : ∀ seen val rest, p.payload = seen ++ val :: rest →
    (p.partialSum seen).toNat + val.toNat < 65536
  checksum : ∀ host, ∃ w : UInt16, p.emittedChecksum host = host.bytes w ∧
    w.toNat = 65535 - p.exactSum p.payload
  received : p.exactSum p.payload + littleEndian (p.emittedChecksum .little) = 65535

theorem bytes_partialSum (host : HostOrder) (p : Packet) : p.bytes host =
    host.bytes (host.htons header) ++ [p.lengthByte,p.type,p.operation,p.parameter] ++ p.payload ++
      host.bytes (p.partialSum p.payload ^^^ 0xffff) := rfl

theorem emittedLength_iff (host : HostOrder) (p : Packet) :
    p.emittedLength host = some (p.payload.length+2) ↔ p.payload.length ≤ 253 := by
  have hb : (p.bytes host)[2]? = some p.lengthByte := by
    simpa using bytes_length_byte host p []
  rw [emittedLength,hb,Option.map_some,Option.some.injEq]
  exact lengthByte_exact_iff p

theorem emittedChecksum_eq (host : HostOrder) (p : Packet) :
    p.emittedChecksum host = host.bytes (p.partialSum p.payload ^^^ 0xffff) := by
  have hl : (host.bytes (host.htons header) ++ [p.lengthByte,p.type,p.operation,p.parameter] ++
      p.payload).length = p.payload.length+6 := by
    simp only [List.length_append,HostOrder.bytes_length,List.length_cons,List.length_nil]
    omega
  rw [emittedChecksum,bytes_partialSum,List.drop_left' hl]

theorem partialSum_eq (p : Packet) (seen : List UInt8) : p.partialSum seen =
    byteSum (p.lengthByte :: p.type :: p.operation :: p.parameter :: seen) := by
  simp only [partialSum,foldl_byteSum,byteSum,UInt16.add_assoc]

theorem partialSum_toNat (p : Packet) {seen : List UInt8} (h : seen.length ≤ 253) :
    (p.partialSum seen).toNat = p.exactSum seen := by
  have hl : (p.lengthByte :: p.type :: p.operation :: p.parameter :: seen).length ≤ 257 := by
    simp only [List.length_cons]
    omega
  rw [partialSum_eq,byteSum_exact hl]
  simp only [List.map_cons,List.sum_cons,exactSum,Nat.add_assoc]

theorem exactSum_concat (p : Packet) (seen : List UInt8) (val : UInt8) :
    p.exactSum (seen ++ [val]) = p.exactSum seen + val.toNat := by
  simp [exactSum,Nat.add_assoc]

theorem checksum_toNat {p : Packet} (h : p.Fits) :
    (p.partialSum p.payload ^^^ 0xffff).toNat = 65535 - p.exactSum p.payload := by
  rw [complement_toNat,partialSum_toNat p h]

theorem exactSum_le {p : Packet} (h : p.Fits) : p.exactSum p.payload ≤ 65535 := by
  rw [← partialSum_toNat p h]
  exact Nat.le_of_lt_succ (p.partialSum p.payload).toNat_lt

theorem exactArithmetic {p : Packet} (h : p.Fits) : ExactArithmetic p := by
  refine ⟨?_,?_,?_,?_⟩
  · intro seen rest hp
    have hl : seen.length ≤ p.payload.length := by simp [hp]
    exact partialSum_toNat p (hl.trans h)
  · intro seen val rest hp
    have hl : (seen ++ [val]).length ≤ p.payload.length := by
      simp [hp]
    have hs : seen.length ≤ (seen ++ [val]).length := by simp
    rw [partialSum_toNat p ((hs.trans hl).trans h),← exactSum_concat,
      ← partialSum_toNat p (hl.trans h)]
    exact (p.partialSum (seen ++ [val])).toNat_lt
  · intro host
    exact ⟨_,emittedChecksum_eq host p,checksum_toNat h⟩
  · rw [emittedChecksum_eq,littleEndian_bytes,checksum_toNat h]
    exact Nat.add_sub_of_le (exactSum_le h)

theorem length_checksum_exact :
    (∀ host (p : Packet), p.emittedLength host = some (p.payload.length+2) ↔
      p.payload.length ≤ 253) ∧
    ∀ p : Packet, p.payload.length ≤ 253 → ExactArithmetic p :=
  ⟨emittedLength_iff,fun _ h => exactArithmetic h⟩

def saturated : Packet :=
  { type := 0xff, operation := 0xff, parameter := 0xff, payload := List.replicate 253 0xff }

theorem saturated_length : saturated.payload.length = 253 := List.length_replicate

theorem saturated_sum : saturated.exactSum saturated.payload = 65535 := by
  have hs : (saturated.payload.map UInt8.toNat).sum = 253 * 255 := by
    rw [saturated,List.map_replicate,List.sum_replicate]
    rfl
  rw [exactSum,hs,lengthByte,saturated_length]
  rfl

theorem length_checksum_exact_saturated :
    saturated.exactSum saturated.payload = 65535 ∧ ExactArithmetic saturated :=
  ⟨saturated_sum,length_checksum_exact.2 saturated saturated_length.le⟩

end Minipro.Packet
