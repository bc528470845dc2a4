import Mathlib.Tactic

namespace ByteOrder

def low (w : UInt16) : UInt8 := w.toUInt8
def high (w : UInt16) : UInt8 := (w >>> 8).toUInt8

def join (lo hi : UInt8) : UInt16 := lo.toUInt16 ||| (hi.toUInt16 <<< 8)

theorem low_toNat (w : UInt16) : (low w).toNat = w.toNat % 256 := by simp [low]

theorem high_toNat (w : UInt16) : (high w).toNat = w.toNat / 256 := by
  have h := w.toNat_lt
  simp only [high,UInt16.toNat_toUInt8,UInt16.toNat_shiftRight,UInt16.reduceToNat,
    Nat.reduceMod,Nat.shiftRight_eq_div_pow]
  omega

theorem join_toNat (lo hi : UInt8) : (join lo hi).toNat = lo.toNat + 256 * hi.toNat := by
  have hl := lo.toNat_lt
  have hh := hi.toNat_lt
  have hs : (hi.toNat <<< 8) % 65536 = 2^8 * hi.toNat := by
    rw [Nat.shiftLeft_eq]; omega
  have ho : 2^8 * hi.toNat + lo.toNat = 2^8 * hi.toNat ||| lo.toNat :=
    Nat.two_pow_add_eq_or_of_lt hl hi.toNat
  simp only [join,UInt16.toNat_or,UInt16.toNat_shiftLeft,UInt8.toNat_toUInt16,
    UInt16.reduceToNat,Nat.reduceMod,hs]
  rw [Nat.or_comm,← ho]
  omega

@[simp] theorem join_low_high (w : UInt16) : join (low w) (high w) = w := by
  apply UInt16.toNat_inj.mp
  rw [join_toNat,low_toNat,high_toNat]
  omega

@[simp] theorem low_join (lo hi : UInt8) : low (join lo hi) = lo := by
  apply UInt8.toNat_inj.mp
  have := lo.toNat_lt
  rw [low_toNat,join_toNat]
  omega

@[simp] theorem high_join (lo hi : UInt8) : high (join lo hi) = hi := by
  apply UInt8.toNat_inj.mp
  have := lo.toNat_lt
  rw [high_toNat,join_toNat]
  omega

inductive HostOrder where
  | little
  | big
deriving DecidableEq, Repr

namespace HostOrder

def bytes : HostOrder → UInt16 → List UInt8
  | .little, w => [low w,high w]
  | .big, w => [high w,low w]

def load : HostOrder → UInt8 → UInt8 → UInt16
  | .little, a, b => join a b
  | .big, a, b => join b a

def htons : HostOrder → UInt16 → UInt16
  | .little, w => join (high w) (low w)
  | .big, w => w

@[simp] theorem bytes_length (host : HostOrder) (w : UInt16) : (host.bytes w).length = 2 := by
  cases host <;> rfl

theorem bytes_injective (host : HostOrder) : Function.Injective host.bytes := by
  intro v w h
  have hl : low v = low w ∧ high v = high w := by
    cases host <;> simp only [bytes,List.cons.injEq,and_true] at h
    · exact h
    · exact h.symm
  rw [← join_low_high v,← join_low_high w,hl.1,hl.2]

theorem load_bytes (host : HostOrder) (w : UInt16) :
    ∃ a b, host.bytes w = [a,b] ∧ host.load a b = w := by
  cases host
  · exact ⟨low w,high w,rfl,join_low_high w⟩
  · exact ⟨high w,low w,rfl,join_low_high w⟩

theorem bytes_htons (host : HostOrder) (w : UInt16) :
    host.bytes (host.htons w) = [high w,low w] := by
  cases host <;> simp [bytes,htons]

end HostOrder

def littleEndian : List UInt8 → Nat
  | [] => 0
  | b :: bs => b.toNat + 256 * littleEndian bs

theorem littleEndian_bytes (w : UInt16) : littleEndian (HostOrder.little.bytes w) = w.toNat := by
  simp only [HostOrder.bytes,littleEndian,low_toNat,high_toNat]
  omega

def Palindromic (w : UInt16) : Prop := low w = high w

theorem bytes_agree_iff (w : UInt16) :
    HostOrder.little.bytes w = HostOrder.big.bytes w ↔ Palindromic w := by
  simp only [HostOrder.bytes,List.cons.injEq,and_true,Palindromic]
  exact ⟨And.left,fun h => ⟨h,h.symm⟩⟩

theorem htons_eq_iff (w : UInt16) : HostOrder.little.htons w = w ↔ Palindromic w := by
  constructor
  · intro h
    have hl := congrArg low h
    rw [HostOrder.htons,low_join] at hl
    exact hl.symm
  · intro h
    have hj := join_low_high w
    rw [HostOrder.htons,← h]
    rwa [← h] at hj

end ByteOrder
