import Minipro.Packet.FrameCodec

namespace Minipro
open ByteOrder Framing

namespace Packet

def drive (host : HostOrder) (throttle steering : UInt16) : Packet :=
  { type := PacketType.command.value, operation := Operation.controlDriveBase.value,
    parameter := Parameter.setDrive.value, payload := host.bytes throttle ++ host.bytes steering }

def enterRemoteControlMode (host : HostOrder) : Packet :=
  { type := PacketType.command.value, operation := Operation.controlDriveBase.value,
    parameter := Parameter.enableRemoteControl.value, payload := host.bytes 0x0001 }

def exitRemoteControlMode (host : HostOrder) : Packet :=
  { type := PacketType.command.value, operation := Operation.controlDriveBase.value,
    parameter := Parameter.enableRemoteControl.value, payload := host.bytes 0x0000 }

end Packet

structure WriteValue where
  handle : UInt16
  value : List UInt8
  withoutResponse : Bool := false
  signedWrite : Bool := false
deriving DecidableEq, Repr

namespace MiniPro

def configServiceHandle : UInt16 := 0x000c
def txServiceHandle : UInt16 := 0x000e

def sendPacket (host : HostOrder) (p : Packet) : WriteValue :=
  { handle := txServiceHandle, value := p.bytes host, withoutResponse := true }

def writeConfigValue (host : HostOrder) (value : UInt16) : WriteValue :=
  { handle := configServiceHandle, value := host.bytes (host.htons value) }

def enableNotifications (host : HostOrder) : WriteValue := writeConfigValue host 0x0001
def disableNotifications (host : HostOrder) : WriteValue := writeConfigValue host 0x0000

inductive Call where
  | enterRemoteControlMode
  | exitRemoteControlMode
  | drive (throttle steering : Int16)
deriving DecidableEq, Repr

def Call.packet (host : HostOrder) : Call → Packet
  | .enterRemoteControlMode => Packet.enterRemoteControlMode host
  | .exitRemoteControlMode => Packet.exitRemoteControlMode host
  | .drive throttle steering => Packet.drive host throttle.toUInt16 steering.toUInt16

def call (host : HostOrder) (c : Call) : WriteValue := sendPacket host (c.packet host)

theorem packet_length_le (host : HostOrder) (c : Call) : (c.packet host).payload.length ≤ 4 := by
  cases c <;> simp [Call.packet,Packet.enterRemoteControlMode,Packet.exitRemoteControlMode,
    Packet.drive]

def Call.frame (host : HostOrder) (c : Call) : Frame :=
  { type := (c.packet host).type, operation := (c.packet host).operation,
    parameter := (c.packet host).parameter, payload := (c.packet host).payload,
    fits := (packet_length_le host c).trans (by decide) }

theorem call_value (host : HostOrder) (c : Call) :
    (call host c).value = (Frame.codec host).encode (c.frame host) := by
  cases c <;> rfl

def interpret (host : HostOrder) (f : Frame) : Option Call :=
  if f.type = PacketType.command.value ∧ f.operation = Operation.controlDriveBase.value then
    match f.payload with
    | [a,b] =>
        if f.parameter = Parameter.enableRemoteControl.value then
          if host.load a b = 0x0001 then some .enterRemoteControlMode
          else if host.load a b = 0x0000 then some .exitRemoteControlMode
          else none
        else none
    | [a,b,c,d] =>
        if f.parameter = Parameter.setDrive.value then
          some (.drive (host.load a b).toInt16 (host.load c d).toInt16)
        else none
    | _ => none
  else none

theorem interpret_frame (host : HostOrder) (c : Call) :
    interpret host (c.frame host) = some c := by
  cases c with
  | enterRemoteControlMode => cases host <;> rfl
  | exitRemoteControlMode => cases host <;> rfl
  | drive throttle steering =>
    obtain ⟨a,b,hab,ht⟩ := host.load_bytes throttle.toUInt16
    obtain ⟨c,d,hcd,hs⟩ := host.load_bytes steering.toUInt16
    simp [interpret,Call.frame,Call.packet,Packet.drive,hab,hcd,ht,hs]

def commandCodec (host : HostOrder) : Codec Call UInt8 :=
  (Frame.codec host).refine (Call.frame host) (interpret host) (interpret_frame host)

def stream (host : HostOrder) (calls : List Call) : List UInt8 :=
  calls.flatMap fun c => (call host c).value

def decodeStream (host : HostOrder) (bs : List UInt8) : Option (List Call) :=
  (commandCodec host).decodeAll bs

theorem stream_encodeAll (host : HostOrder) (calls : List Call) :
    stream host calls = (commandCodec host).encodeAll calls := by
  have h : (fun c => (call host c).value) = (commandCodec host).encode := by
    funext c; exact call_value host c
  simp only [stream]
  rw [h]
  rfl

theorem command_stream_faithful :
    (∀ calls, decodeStream .little (stream .little calls) = some calls) ∧
    Function.Injective (stream .little) := by
  constructor
  · intro calls
    rw [decodeStream,stream_encodeAll]
    exact (commandCodec .little).decodeAll_encodeAll calls
  · intro calls calls' h
    rw [stream_encodeAll,stream_encodeAll] at h
    exact (commandCodec .little).encodeAll_injective h

end MiniPro
end Minipro
