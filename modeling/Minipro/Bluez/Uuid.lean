import Minipro.Library.ByteOrder

namespace Minipro
open ByteOrder

abbrev UInt128 := {data : List UInt8 // data.length = 16}

inductive Uuid where
  | uuid16 (u16 : UInt16)
  | uuid32 (u32 : UInt32)
  | uuid128 (u128 : UInt128)
deriving DecidableEq

namespace Uuid

def be16 (u : UInt16) : List UInt8 := [high u,low u]

def be32 (u : UInt32) : List UInt8 :=
  [(u >>> 24).toUInt8,(u >>> 16).toUInt8,(u >>> 8).toUInt8,u.toUInt8]

def baseUuidTail : List UInt8 := [0,0,0x10,0,0x80,0,0,0x80,0x5f,0x9b,0x34,0xfb]

def toUuid128 : Uuid → UInt128
  | uuid16 u16 => ⟨0 :: 0 :: be16 u16 ++ baseUuidTail,rfl⟩
  | uuid32 u32 => ⟨be32 u32 ++ baseUuidTail,rfl⟩
  | uuid128 u128 => u128

def same (u v : Uuid) : Bool := u.toUuid128 = v.toUuid128

def bswap128 (u : UInt128) : UInt128 := ⟨u.val.reverse,by rw [List.length_reverse,u.property]⟩

def toLe : Uuid → List UInt8
  | uuid16 u16 => [low u16,high u16]
  | u => (bswap128 u.toUuid128).val

def ofLe (src : List UInt8) : Option Uuid :=
  match src with
  | [a,b] => some (uuid16 (join a b))
  | [a,b,c,d] => some (uuid32 (a.toUInt32 ||| b.toUInt32 <<< 8 ||| c.toUInt32 <<< 16 |||
      d.toUInt32 <<< 24))
  | src => if h : src.length = 16 then some (uuid128 (bswap128 ⟨src,h⟩)) else none

def convertUuidLe (src : List UInt8) : Option UInt128 :=
  match src with
  | [a,b] => some ⟨0 :: 0 :: b :: a :: baseUuidTail,rfl⟩
  | src => if h : src.length = 16 then some (bswap128 ⟨src,h⟩) else none

@[simp] theorem bswap128_bswap128 (u : UInt128) : bswap128 (bswap128 u) = u := by
  apply Subtype.ext
  exact List.reverse_reverse u.val

theorem toLe_length (u : Uuid) : u.toLe.length = 2 ∨ u.toLe.length = 16 := by
  cases u with
  | uuid16 u16 => exact .inl rfl
  | uuid32 u32 => exact .inr (bswap128 _).property
  | uuid128 u128 => exact .inr (bswap128 _).property

theorem convertUuidLe_of_length {src : List UInt8} (h : src.length = 16) :
    convertUuidLe src = some (bswap128 ⟨src,h⟩) := by
  simp only [convertUuidLe]
  split
  · simp at h
  · rw [dif_pos h]

theorem convertUuidLe_toLe (u : Uuid) : convertUuidLe u.toLe = some u.toUuid128 := by
  cases u with
  | uuid16 u16 => rfl
  | uuid32 u32 =>
    have h := convertUuidLe_of_length (bswap128 (uuid32 u32).toUuid128).property
    rw [Subtype.coe_eta,bswap128_bswap128] at h
    exact h
  | uuid128 u128 =>
    have h := convertUuidLe_of_length (bswap128 u128).property
    rw [Subtype.coe_eta,bswap128_bswap128] at h
    exact h

end Uuid
end Minipro
