import Minipro.LEClient.Link

namespace Minipro.Notifications
open Att ByteOrder GattClient Link MiniPro

abbrev Server := UInt16 → List UInt8

namespace Server

def receive (s : Server) : List UInt8 → Server
  | opcode :: a :: b :: value =>
      if opcode = opWriteReq then Function.update s (join a b) value else s
  | _ => s

def serve (s : Server) (ws : List WriteValue) : Server :=
  ws.foldl (fun s w => s.receive (opWriteReq :: writePdu w)) s

def descriptor (s : Server) (handle : UInt16) : Option UInt16 := getLe16 (s handle)

def notifying (s : Server) (handle : UInt16) : Option Bool :=
  (s.descriptor handle).map fun v => v &&& 0x0001 ≠ 0

end Server

inductive Switch where
  | enable
  | disable
deriving DecidableEq, Repr

def Switch.write (host : HostOrder) : Switch → WriteValue
  | .enable => enableNotifications host
  | .disable => disableNotifications host

def propNotify : UInt8 := 0x10
def propIndicate : UInt8 := 0x20

def notifyDataWriteCcc (cccHandle : UInt16) (properties : UInt8) (enable : Bool) :
    Option (List UInt8) :=
  let notify : UInt8 := if properties &&& propNotify ≠ 0 then 0x01 else 0
  let flags := if properties &&& propIndicate ≠ 0 then notify ||| 0x02 else notify
  if enable then
    if flags = 0 then none else some (putLe16 cccHandle ++ [flags,0])
  else some (putLe16 cccHandle ++ [0,0])

def Follows (s : Server) (vs : List UInt16) : Prop :=
  ∀ pre v post, vs = pre ++ v :: post →
    (s.serve ((pre ++ [v]).map (writeConfigValue .little))).descriptor configServiceHandle = some v

def Switches (s : Server) (cs : List Switch) : Prop :=
  ∀ pre c post, cs = pre ++ c :: post →
    (s.serve ((pre ++ [c]).map (Switch.write .little))).notifying configServiceHandle =
      some (decide (c = .enable))

theorem writeConfigValue_pdu (v : UInt16) :
    writePdu (writeConfigValue .little v) = [0x0c,0,high v,low v] := by
  have hb : HostOrder.little.bytes (HostOrder.little.htons v) = [high v,low v] :=
    HostOrder.little.bytes_htons v
  simp only [writePdu,narrow,writeConfigValue,hb]
  rfl

theorem descriptor_write (s : Server) (v : UInt16) :
    (s.receive (opWriteReq :: writePdu (writeConfigValue .little v))).descriptor
      configServiceHandle = some (HostOrder.little.htons v) := by
  have hh : join 0x0c 0 = configServiceHandle := by decide
  rw [writeConfigValue_pdu]
  simp [Server.receive,Server.descriptor,hh,getLe16,HostOrder.htons]

theorem serve_concat (s : Server) (ws : List WriteValue) (w : WriteValue) :
    s.serve (ws ++ [w]) = (s.serve ws).receive (opWriteReq :: writePdu w) := by
  simp [Server.serve]

theorem follows_iff (s : Server) (vs : List UInt16) :
    Follows s vs ↔ ∀ v ∈ vs, Palindromic v := by
  have hd (pre : List UInt16) (v : UInt16) :
      (s.serve ((pre ++ [v]).map (writeConfigValue .little))).descriptor configServiceHandle =
        some (HostOrder.little.htons v) := by
    rw [List.map_append,List.map_singleton,serve_concat,descriptor_write]
  constructor
  · intro h v hv
    obtain ⟨pre,post,rfl⟩ := List.append_of_mem hv
    have hf := h pre v post rfl
    rw [hd,Option.some.injEq] at hf
    exact (htons_eq_iff v).mp hf
  · rintro h pre v post rfl
    rw [hd,(htons_eq_iff v).mpr (h v (by simp))]

theorem switches_iff (s : Server) (cs : List Switch) : Switches s cs ↔ .enable ∉ cs := by
  have hd (pre : List Switch) (c : Switch) :
      (s.serve ((pre ++ [c]).map (Switch.write .little))).notifying configServiceHandle =
        some false := by
    rw [List.map_append,List.map_singleton,serve_concat,Server.notifying]
    cases c with
    | enable =>
      rw [Switch.write,enableNotifications,descriptor_write]
      decide
    | disable =>
      rw [Switch.write,disableNotifications,descriptor_write]
      decide
  constructor
  · intro h hm
    obtain ⟨pre,post,rfl⟩ := List.append_of_mem hm
    have hf := h pre .enable post rfl
    rw [hd] at hf
    cases hf
  · rintro h pre c post rfl
    cases c with
    | enable => exact absurd (by simp) h
    | disable =>
      rw [hd]
      rfl

theorem receive_le16 (s : Server) (handle : UInt16) (a b : UInt8) :
    (s.receive (opWriteReq :: (putLe16 handle ++ [a,b]))).descriptor handle = some (join a b) := by
  simp [Server.receive,Server.descriptor,putLe16,getLe16]

theorem ccc_notifies (s : Server) (handle : UInt16) {properties : UInt8}
    (hp : properties &&& propNotify ≠ 0) (enable : Bool) :
    ∃ pdu, notifyDataWriteCcc handle properties enable = some pdu ∧
      (s.receive (opWriteReq :: pdu)).notifying handle = some enable := by
  cases enable with
  | false =>
    refine ⟨_,rfl,?_⟩
    rw [Server.notifying,receive_le16]
    decide
  | true =>
    by_cases hi : properties &&& propIndicate ≠ 0
    · refine ⟨putLe16 handle ++ [0x03,0],?_,?_⟩
      · simp only [notifyDataWriteCcc,if_pos hp,if_pos hi,if_true]
        rfl
      · rw [Server.notifying,receive_le16]
        decide
    · refine ⟨putLe16 handle ++ [0x01,0],?_,?_⟩
      · simp [notifyDataWriteCcc,hp,hi]
      · rw [Server.notifying,receive_le16]
        decide

theorem notification_switch_iff (s : Server) :
    (∀ vs, Follows s vs ↔ ∀ v ∈ vs, Palindromic v) ∧
    (∀ cs, Switches s cs ↔ .enable ∉ cs) :=
  ⟨follows_iff s,switches_iff s⟩

theorem enable_not_followed :
    (Server.serve (fun _ => [0,0]) [enableNotifications .little]).descriptor configServiceHandle =
      some 0x0100 ∧
    ¬ ∀ s, (∀ vs, Follows s vs) ∧ ∀ cs, Switches s cs := by
  refine ⟨by decide,?_⟩
  intro h
  have hf := (follows_iff (fun _ => [0,0]) [0x0001]).mp ((h _).1 _) 0x0001 (by simp)
  exact absurd hf (by unfold Palindromic; decide)

end Minipro.Notifications
