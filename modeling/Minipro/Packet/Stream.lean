import Minipro.Packet.FrameCodec

namespace Minipro.Packet
open ByteOrder Framing

def Fits (p : Packet) : Prop := p.payload.length ≤ 253

instance (p : Packet) : Decidable p.Fits := inferInstanceAs (Decidable (p.payload.length ≤ 253))

def frame (p : Packet) (h : p.Fits) : Frame :=
  ⟨p.type,p.operation,p.parameter,p.payload,h⟩

def SameContent (p q : Packet) : Prop :=
  p.type = q.type ∧ p.operation = q.operation ∧ p.parameter = q.parameter ∧ p.payload = q.payload

def stream (host : HostOrder) (ps : List Packet) : List UInt8 := ps.flatMap (bytes host)

def takeFrame (bs : List UInt8) : Option (Frame × List UInt8) :=
  bs[2]?.bind fun length =>
    (Frame.read (bs.take (length.toNat+6))).map fun f => (f.1,bs.drop (length.toNat+6))

def again (host : HostOrder) (p : Packet) : Packet := (p.getBytes host).2

theorem frame_bytes (host : HostOrder) (p : Packet) (h : p.Fits) :
    (p.frame h).packet.bytes host = p.bytes host := rfl

theorem bytes_length_byte (host : HostOrder) (p : Packet) (rest : List UInt8) :
    (p.bytes host ++ rest)[2]? = some p.lengthByte := by
  rw [bytes_eq]
  rfl

theorem bytes_length_fits (host : HostOrder) {p : Packet} (h : p.Fits) :
    (p.bytes host).length = p.lengthByte.toNat+6 := by
  rw [bytes_length,(lengthByte_exact_iff p).mpr h]

theorem takeFrame_bytes (host : HostOrder) (p : Packet) (h : p.Fits) (rest : List UInt8) :
    takeFrame (p.bytes host ++ rest) = some (p.frame h,rest) := by
  have hl := bytes_length_fits host h
  have hr : Frame.read (p.bytes host) = some (p.frame h,[]) := by
    simpa [frame_bytes] using Frame.read_bytes host (p.frame h) []
  rw [takeFrame,bytes_length_byte,Option.bind_some,List.take_left' hl,List.drop_left' hl,hr]
  rfl

theorem stream_encodeAll (host : HostOrder) (ps : List Packet) (h : ∀ p ∈ ps, p.Fits) :
    stream host ps = (Frame.codec host).encodeAll (ps.pmap frame h) := by
  induction ps with
  | nil => rfl
  | cons p ps ih =>
    have hs := ih (fun q hq => h q (List.mem_cons_of_mem p hq))
    rw [List.pmap_cons,Codec.encodeAll_cons,← hs]
    rfl

theorem sameContent_of_frames {ps qs : List Packet} {hp : ∀ p ∈ ps, p.Fits}
    {hq : ∀ q ∈ qs, q.Fits} (h : ps.pmap frame hp = qs.pmap frame hq) :
    List.Forall₂ SameContent ps qs := by
  induction ps generalizing qs with
  | nil =>
    cases qs with
    | nil => exact .nil
    | cons q qs => cases h
  | cons p ps ih =>
    cases qs with
    | nil => cases h
    | cons q qs =>
      obtain ⟨hf,hs⟩ := List.cons.inj h
      have hc : SameContent p q := ⟨congrArg Frame.type hf,congrArg Frame.operation hf,
        congrArg Frame.parameter hf,congrArg Frame.payload hf⟩
      exact .cons hc (ih hs)

theorem again_iterate (host : HostOrder) (p : Packet) (n : Nat) :
    ((again host)^[n] p).bytes host = p.bytes host := by
  induction n generalizing p with
  | zero => rfl
  | succ n ih =>
    rw [Function.iterate_succ_apply,ih]
    exact congrArg Prod.fst (getBytes_again host p)

theorem framing_self_delimiting (host : HostOrder) :
    (∀ ps qs : List Packet, (∀ p ∈ ps, p.Fits) → (∀ q ∈ qs, q.Fits) →
      stream host ps = stream host qs → List.Forall₂ SameContent ps qs) ∧
    (∀ (p : Packet) (h : p.Fits) (rest : List UInt8),
      takeFrame (p.bytes host ++ rest) = some (p.frame h,rest)) ∧
    (∀ (p : Packet) (n : Nat), ((again host)^[n] p).bytes host = p.bytes host) := by
  refine ⟨?_,takeFrame_bytes host,again_iterate host⟩
  intro ps qs hp hq h
  rw [stream_encodeAll host ps hp,stream_encodeAll host qs hq] at h
  exact sameContent_of_frames ((Frame.codec host).encodeAll_injective h)

theorem framing_self_delimiting_header_payload :
    let p : Packet := { type := 0x0a, operation := 0x03, parameter := 0x7b,
                        payload := [0x55,0xaa,2,0] }
    takeFrame (p.bytes .little ++ [0x55]) = some (p.frame (by decide),[0x55]) :=
  (framing_self_delimiting .little).2.1 _ (by decide) [0x55]

end Minipro.Packet
