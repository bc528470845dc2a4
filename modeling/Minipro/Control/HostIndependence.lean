import Minipro.Control.MiniPro

namespace Minipro
open ByteOrder ErrorDetection

namespace Packet

theorem palindromic_complement (w : UInt16) :
    Palindromic (w ^^^ 0xffff) ↔ w.toNat % 256 = w.toNat / 256 := by
  have hw := w.toNat_lt
  rw [Palindromic,← UInt8.toNat_inj,low_toNat,high_toNat,complement_toNat]
  omega

theorem hosts_agree_iff {p q : Packet} (hl : p.payload.length = q.payload.length) :
    p.bytes .little = q.bytes .big ↔ p.body = q.body ∧
      (byteSum p.body).toNat % 256 = (byteSum p.body).toNat / 256 := by
  have hb : ([0x55,0xaa] ++ p.body).length = ([0x55,0xaa] ++ q.body).length := by simp [hl]
  rw [bytes_eq,bytes_eq,← palindromic_complement,← bytes_agree_iff]
  constructor
  · intro h
    obtain ⟨hh,ht⟩ := List.append_inj h hb
    have he := List.append_cancel_left hh
    exact ⟨he,by rwa [← he] at ht⟩
  · rintro ⟨he,ht⟩
    rw [← he]
    exact congrArg _ ht

end Packet

namespace MiniPro

def wire (host : HostOrder) (c : Call) : List UInt8 := (c.packet host).bytes host

def Call.Symmetric : Call → Prop
  | .drive throttle steering =>
      Palindromic throttle.toUInt16 ∧ Palindromic steering.toUInt16 ∧
        ((low throttle.toUInt16).toNat + (low steering.toUInt16).toNat = 186 ∨
          (low throttle.toUInt16).toNat + (low steering.toUInt16).toNat = 443)
  | _ => False

theorem call_length (c : Call) :
    (c.packet .little).payload.length = (c.packet .big).payload.length := by
  cases c <;> rfl

theorem drive_body_iff (throttle steering : Int16) :
    (Call.packet .little (.drive throttle steering)).body =
      (Call.packet .big (.drive throttle steering)).body ↔
        Palindromic throttle.toUInt16 ∧ Palindromic steering.toUInt16 := by
  rw [← bytes_agree_iff,← bytes_agree_iff]
  constructor
  · intro h
    exact List.append_inj (List.cons.inj (List.cons.inj (List.cons.inj (List.cons.inj h).2).2).2).2 rfl
  · rintro ⟨ht,hs⟩
    simp only [Call.packet,Packet.drive,Packet.body,Packet.lengthByte,ht,hs]

theorem drive_sum {throttle steering : Int16} (ht : Palindromic throttle.toUInt16)
    (hs : Palindromic steering.toUInt16) :
    (byteSum (Call.packet .little (.drive throttle steering)).body).toNat =
      142 + 2 * ((low throttle.toUInt16).toNat + (low steering.toUInt16).toNat) := by
  have hb : (Call.packet .little (.drive throttle steering)).body =
      [6,0x0a,0x03,0x7b,low throttle.toUInt16,high throttle.toUInt16,low steering.toUInt16,
        high steering.toUInt16] := rfl
  have hlt := (low throttle.toUInt16).toNat_lt
  have hls := (low steering.toUInt16).toNat_lt
  rw [byteSum_toNat,hb,← ht,← hs]
  simp only [List.map_cons,List.map_nil,List.sum_cons,List.sum_nil,UInt8.reduceToNat]
  omega

theorem wire_host_independent_iff (c : Call) : wire .little c = wire .big c ↔ c.Symmetric := by
  rw [wire,wire,Packet.hosts_agree_iff (call_length c)]
  cases c with
  | enterRemoteControlMode => exact iff_of_false (by decide) id
  | exitRemoteControlMode => exact iff_of_false (by decide) id
  | drive throttle steering =>
    rw [drive_body_iff,Call.Symmetric,and_assoc]
    refine and_congr_right fun ht => and_congr_right fun hs => ?_
    have hlt := (low throttle.toUInt16).toNat_lt
    have hls := (low steering.toUInt16).toNat_lt
    rw [drive_sum ht hs]
    omega

theorem enter_host_dependent :
    wire .little .enterRemoteControlMode = [0x55,0xaa,4,0x0a,0x03,0x7a,1,0,0x73,0xff] ∧
      wire .big .enterRemoteControlMode = [0x55,0xaa,4,0x0a,0x03,0x7a,0,1,0xff,0x73] ∧
      ¬ ∀ c, wire .little c = wire .big c := by
  refine ⟨by decide,by decide,?_⟩
  intro h
  exact absurd (h .enterRemoteControlMode) (by decide)

end MiniPro
end Minipro
