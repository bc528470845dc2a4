import Minipro.Bluez.Discovery

namespace Minipro.GattHelpers
open Att ByteOrder GattClient

def defaultLeMtu : UInt16 := 23

def setMtu (mtu size : UInt16) : UInt16 := if size < defaultLeMtu then mtu else size

structure MtuResult where
  success : Bool
  attEcode : UInt8
  mtu : UInt16

def mtuCb (mtu clientRxMtu : UInt16) (opcode : UInt8) (pdu : List UInt8) : MtuResult :=
  if opcode = opErrorRsp then ⟨false,processError pdu,mtu⟩
  else if opcode ≠ opMtuRsp then ⟨false,0,mtu⟩
  else match pdu with
    | [lo,hi] => ⟨true,0,setMtu mtu (min clientRxMtu (join lo hi))⟩
    | _ => ⟨false,0,mtu⟩

def clientRxMtu (mtu : UInt16) : UInt16 := max defaultLeMtu mtu

def exchangeMtu (b : Bearer) (mtu : UInt16) (a : Answer) : Option MtuResult :=
  (deliver b opMtuReq a).map fun d => mtuCb defaultLeMtu (clientRxMtu mtu) d.opcode d.pdu

variable {m s size : UInt16} {b : Bearer} {a : Answer} {r : MtuResult}

theorem default_le_client (m : UInt16) : defaultLeMtu ≤ clientRxMtu m := by
  change defaultLeMtu ≤ if defaultLeMtu ≤ m then m else defaultLeMtu
  split
  next h => exact h
  next => exact UInt16.le_refl _

theorem min_either (x y : UInt16) : min x y = x ∧ x ≤ y ∨ min x y = y ∧ y < x := by
  change (if x ≤ y then x else y) = x ∧ _ ∨ (if x ≤ y then x else y) = y ∧ _
  split
  next h => exact .inl ⟨rfl,h⟩
  next h => exact .inr ⟨rfl,UInt16.not_le.mp h⟩

theorem min_le_client (m s : UInt16) : min (clientRxMtu m) s ≤ clientRxMtu m := by
  rcases min_either (clientRxMtu m) s with ⟨he,_⟩ | ⟨he,hlt⟩
  · rw [he]
    exact UInt16.le_refl _
  · rw [he]
    exact UInt16.le_of_lt hlt

theorem setMtu_bounds (h : size ≤ clientRxMtu m) :
    defaultLeMtu ≤ setMtu defaultLeMtu size ∧ setMtu defaultLeMtu size ≤ clientRxMtu m := by
  rw [setMtu]
  split
  next => exact ⟨UInt16.le_refl _,default_le_client m⟩
  next hs => exact ⟨UInt16.not_lt.mp hs,h⟩

theorem mtuCb_bounds (m : UInt16) (opcode : UInt8) (pdu : List UInt8) :
    let r := mtuCb defaultLeMtu (clientRxMtu m) opcode pdu
    defaultLeMtu ≤ r.mtu ∧ r.mtu ≤ clientRxMtu m ∧ (r.success = false → r.mtu = defaultLeMtu) := by
  have hd := default_le_client m
  simp only [mtuCb]
  split
  next => exact ⟨UInt16.le_refl _,hd,fun _ => rfl⟩
  next =>
    split
    next => exact ⟨UInt16.le_refl _,hd,fun _ => rfl⟩
    next =>
      split
      next lo hi =>
        obtain ⟨h1,h2⟩ := setMtu_bounds (min_le_client m (join lo hi))
        exact ⟨h1,h2,fun h => nomatch h⟩
      next => exact ⟨UInt16.le_refl _,hd,fun _ => rfl⟩

theorem setMtu_agrees_iff :
    setMtu defaultLeMtu (min (clientRxMtu m) s) = min (clientRxMtu m) s ↔ defaultLeMtu ≤ s := by
  have hd := default_le_client m
  rw [setMtu]
  split
  next h =>
    have hs : s < defaultLeMtu := by
      rcases min_either (clientRxMtu m) s with ⟨he,_⟩ | ⟨he,_⟩
      · exact absurd (he ▸ h) (UInt16.not_lt.mpr hd)
      · exact he ▸ h
    exact iff_of_false (UInt16.ne_of_lt h).symm (UInt16.not_le.mpr hs)
  next h =>
    refine iff_of_true rfl ?_
    rcases min_either (clientRxMtu m) s with ⟨_,hle⟩ | ⟨he,_⟩
    · exact UInt16.le_trans hd hle
    · exact he ▸ UInt16.not_lt.mp h

theorem mtu_agreed (b : Bearer) (m s : UInt16) :
    (∀ a r, exchangeMtu b m a = some r → defaultLeMtu ≤ r.mtu ∧ r.mtu ≤ clientRxMtu m ∧
      (r.success = false → r.mtu = defaultLeMtu)) ∧
    ∃ r, exchangeMtu b m (.received (opMtuRsp :: putLe16 s)) = some r ∧ r.success = true ∧
      (r.mtu = min (clientRxMtu m) s ↔ defaultLeMtu ≤ s) := by
  constructor
  · intro a r h
    obtain ⟨d,_,rfl⟩ := Option.map_eq_some_iff.mp h
    exact mtuCb_bounds m d.opcode d.pdu
  · obtain ⟨d,hd,hop,hpdu⟩ := deliver_rsp (show getOpType opMtuRsp = .rsp by decide) (by decide)
      (show getReqOpcode opMtuRsp = opMtuReq by decide) (by decide) b (putLe16 s)
    have hr : mtuCb defaultLeMtu (clientRxMtu m) d.opcode d.pdu =
        ⟨true,0,setMtu defaultLeMtu (min (clientRxMtu m) s)⟩ := by
      have hne : opMtuRsp ≠ opErrorRsp := by decide
      rw [hop,hpdu]
      simp only [mtuCb,if_neg hne,ne_eq,not_true_eq_false,if_false,putLe16,join_low_high]
    exact ⟨_,by rw [exchangeMtu,hd,Option.map_some,hr],rfl,setMtu_agrees_iff⟩

end Minipro.GattHelpers
