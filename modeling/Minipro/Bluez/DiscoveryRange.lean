import Minipro.Bluez.Discovery

namespace Minipro.GattHelpers
open Att ByteOrder Transition Records GattClient

variable {p : Procedure} {op op' : Request} {opcode : UInt8} {pdu : List UInt8} {sent : Bool}
  {s t : Discovery} {ls : List Reply} {start last : UInt16}

theorem discoveryOpComplete_ne {success : Bool} {ecode : UInt8} :
    discoveryOpComplete op success ecode ≠ .awaiting op' := by
  simp [discoveryOpComplete]

theorem respond_list {n : Nat} {handle : UInt16} (ho : opcode = p.rsp) (he : opcode ≠ opErrorRsp)
    (hn : p.dataLength pdu = some n)
    (hl : le16At pdu (pdu.length - n + p.handleAt) = handle) (sent : Bool) :
    p.respond op opcode pdu sent = p.advance op ⟨opcode,pdu.drop p.header,n⟩ handle sent := by
  simp only [Procedure.respond,if_neg he,if_neg (not_not.mpr ho),hn,hl]

theorem advance_more {cur : Result} {handle : UInt16} (hs : op.startHandle ≤ handle)
    (hm : p.more handle op.endHandle) : p.advance op cur handle true =
      .awaiting { Procedure.appended op cur with startHandle := handle + 1 } := by
  simp only [Procedure.advance,if_neg (UInt16.not_lt.mpr hs),if_pos hm,if_true]

theorem advance_awaiting {cur : Result} {handle : UInt16}
    (h : p.advance op cur handle sent = .awaiting op') :
    op.startHandle ≤ handle ∧ p.more handle op.endHandle ∧
      op' = { Procedure.appended op cur with startHandle := handle + 1 } := by
  simp only [Procedure.advance] at h
  split at h
  · exact absurd h discoveryOpComplete_ne
  · next hs =>
    split at h
    · next hm =>
      split at h
      · cases h
        exact ⟨UInt16.not_lt.mp hs,hm,rfl⟩
      · exact absurd h discoveryOpComplete_ne
    · exact absurd h discoveryOpComplete_ne

theorem respond_awaiting (h : p.respond op opcode pdu sent = .awaiting op') :
    ∃ cur handle, op.startHandle ≤ handle ∧ p.more handle op.endHandle ∧
      op' = { Procedure.appended op cur with startHandle := handle + 1 } := by
  simp only [Procedure.respond] at h
  split at h
  · exact absurd h discoveryOpComplete_ne
  split at h
  · exact absurd h discoveryOpComplete_ne
  split at h
  · exact absurd h discoveryOpComplete_ne
  · exact ⟨_,_,advance_awaiting h⟩

theorem step_awaiting {r : Reply} (h : p.machine.step s r = some (.awaiting op')) :
    ∃ op handle, s = .awaiting op ∧ op.startHandle ≤ handle ∧ p.more handle op.endHandle ∧
      op'.startHandle = handle + 1 ∧ op'.endHandle = op.endHandle := by
  cases s with
  | complete op success ecode => cases h
  | awaiting op =>
    obtain ⟨d,_,hd⟩ := Option.map_eq_some_iff.mp h
    obtain ⟨_,handle,hs,hm,rfl⟩ := respond_awaiting hd
    exact ⟨op,handle,rfl,hs,hm,rfl,rfl⟩

theorem succ_toNat {handle : UInt16} (h : handle < last) :
    (handle + 1).toNat = handle.toNat + 1 := by
  have h1 := UInt16.lt_iff_toNat_lt.mp h
  have h2 := last.toNat_lt
  rw [UInt16.toNat_add]
  exact Nat.mod_eq_of_lt (by rw [UInt16.toNat_one]; omega)

theorem requests_advance (hm : ∀ handle, p.more handle last → handle < last) {uuid : Option Uuid}
    (hr : p.machine.run (begin start last uuid) ls = some (.awaiting op)) :
    op.endHandle = last ∧ start.toNat + ls.length ≤ op.startHandle.toNat ∧
      (ls ≠ [] → op.startHandle ≤ last) := by
  induction ls using List.reverseRecOn generalizing op with
  | nil =>
    cases hr
    exact ⟨rfl,le_rfl,fun h => absurd rfl h⟩
  | append_singleton ls l ih =>
    obtain ⟨u,hu,ht⟩ := p.machine.run_concat hr
    obtain ⟨op',handle,rfl,hs,hh,hn,he⟩ := step_awaiting ht
    obtain ⟨hl,hc,_⟩ := ih hu
    have hlt := hm handle (hl ▸ hh)
    have h1 := UInt16.le_iff_toNat_le.mp hs
    have h2 := UInt16.lt_iff_toNat_lt.mp hlt
    have h3 := succ_toNat hlt
    refine ⟨he.trans hl,?_,fun _ => ?_⟩
    · rw [hn,h3,List.length_append,List.length_singleton]
      omega
    · rw [hn,UInt16.le_iff_toNat_le,h3]
      omega

def Discovery.unanswered : Discovery → Nat
  | .awaiting _ => 1
  | .complete _ _ _ => 0

theorem requests_within (hm : ∀ handle, p.more handle last → handle < last) {uuid : Option Uuid}
    (hr : p.machine.run (begin start last uuid) ls = some (.awaiting op)) :
    ls.length + 1 ≤ last.toNat - start.toNat + 1 := by
  obtain ⟨_,hc,hs⟩ := requests_advance hm hr
  rcases eq_or_ne ls [] with rfl | hne
  · simp
  · have h := UInt16.le_iff_toNat_le.mp (hs hne)
    omega

theorem requests_le (hm : ∀ handle, p.more handle last → handle < last) {uuid : Option Uuid}
    (hr : p.machine.run (begin start last uuid) ls = some t) :
    ls.length + t.unanswered ≤ last.toNat - start.toNat + 1 := by
  cases t with
  | awaiting op => exact requests_within hm hr
  | complete op success ecode =>
    rcases List.eq_nil_or_concat ls with rfl | ⟨ls,l,rfl⟩
    · cases hr
    · rw [List.concat_eq_append] at hr ⊢
      obtain ⟨u,hu,ht⟩ := p.machine.run_concat hr
      cases u with
      | complete op success ecode => cases ht
      | awaiting op =>
        rw [List.length_append,List.length_singleton]
        exact requests_within hm hu

theorem lt_of_ne_max {handle : UInt16} (h : handle ≠ 0xffff) : handle < 0xffff := by
  have h1 := handle.toNat_lt
  have h2 : handle.toNat ≠ 65535 := fun hn => h (UInt16.toNat_inj.mp hn)
  have h3 : (0xffff : UInt16).toNat = 65535 := rfl
  rw [UInt16.lt_iff_toNat_lt,h3]
  omega

-- An element list whose last handle is 0xffff makes the next request start from 0 again.
structure Restarts (p : Procedure) (opcode : UInt8) (pdu : List UInt8) : Prop where
  delivered : ∀ b, ∃ d, deliver b p.req (.received (opcode :: pdu)) = some d ∧
    d.opcode = opcode ∧ d.pdu = pdu
  responds : opcode = p.rsp ∧ opcode ≠ opErrorRsp
  wellFormed : ∃ n, p.dataLength pdu = some n ∧
    le16At pdu (pdu.length - n + p.handleAt) = 0xffff
  continues : ∀ last, last ≠ 0xffff → p.more 0xffff last

def reply (bytes : List UInt8) (sent : Bool) : Reply where
  bearer := ⟨0,false,false⟩
  answer := .received bytes
  sent := sent

theorem Restarts.step (h : Restarts p opcode pdu) (he : op.endHandle ≠ 0xffff) :
    ∃ op', p.machine.step (.awaiting op) (reply (opcode :: pdu) true) = some (.awaiting op') ∧
      op'.endHandle = op.endHandle := by
  obtain ⟨n,hn,hl⟩ := h.wellFormed
  obtain ⟨d,hd,ho,hp⟩ := h.delivered ⟨0,false,false⟩
  have hs : op.startHandle ≤ 0xffff := by
    have h1 := op.startHandle.toNat_lt
    have h2 : (0xffff : UInt16).toNat = 65535 := rfl
    rw [UInt16.le_iff_toNat_le,h2]
    omega
  refine ⟨{ Procedure.appended op ⟨opcode,pdu.drop p.header,n⟩ with startHandle := 0xffff + 1 },
    ?_,rfl⟩
  have hr : p.respond op opcode pdu true = p.advance op _ 0xffff true :=
    respond_list h.responds.1 h.responds.2 hn hl true
  simp only [Procedure.machine,reply,hd,Option.map_some,ho,hp]
  rw [hr,advance_more hs (h.continues _ he)]

theorem Restarts.endless (h : Restarts p opcode pdu) (n : Nat) (he : op.endHandle ≠ 0xffff) :
    ∃ ls op', ls.length = n ∧ p.machine.run (.awaiting op) ls = some (.awaiting op') := by
  induction n generalizing op with
  | zero => exact ⟨[],op,rfl,rfl⟩
  | succ n ih =>
    obtain ⟨op',hs,ho⟩ := h.step he
    obtain ⟨ls,op'',hl,hr⟩ := ih (ho.symm ▸ he)
    refine ⟨reply (opcode :: pdu) true :: ls,op'',congrArg (· + 1) hl,?_⟩
    rw [Machine.run_cons,hs]
    exact hr

-- A reply answers one request each, and a procedure that awaits has one more on its way.
def Bounded (p : Procedure) (start last : UInt16) : Prop :=
  ∀ uuid ls t, p.machine.run (begin start last uuid) ls = some t →
    ls.length + t.unanswered ≤ last.toNat - start.toNat + 1

def Endless (p : Procedure) (start last : UInt16) : Prop :=
  ∀ n, ∃ ls op, ls.length = n ∧ p.machine.run (begin start last) ls = some (.awaiting op)

theorem bounded_of_more (hm : ∀ handle, p.more handle last → handle < last) :
    Bounded p start last :=
  fun _ _ _ hr => requests_le hm hr

theorem Bounded.not_endless (h : Bounded p start last) : ¬ Endless p start last := by
  intro he
  obtain ⟨ls,op,hn,hr⟩ := he (last.toNat - start.toNat + 1)
  have hl := h none ls _ hr
  simp only [Discovery.unanswered] at hl
  omega

theorem Restarts.bounded_iff (h : Restarts p opcode pdu)
    (hm : ∀ handle, p.more handle 0xffff → handle ≠ 0xffff) :
    (Bounded p start last ↔ last = 0xffff) ∧ (Endless p start last ↔ last ≠ 0xffff) := by
  have hb : last = 0xffff → Bounded p start last := by
    rintro rfl
    exact bounded_of_more fun handle h => lt_of_ne_max (hm handle h)
  have he (hne : last ≠ 0xffff) : Endless p start last := fun n => h.endless n hne
  exact ⟨⟨fun h => not_not.mp fun hne => h.not_endless (he hne),hb⟩,
    ⟨fun h hl => (hb hl).not_endless h,he⟩⟩

theorem discoverChrcs_restarts : Restarts discoverChrcs opReadByTypeRsp [7,0xff,0xff,0,0,0,0,0] where
  delivered _ := ⟨_,rfl,rfl,rfl⟩
  responds := by decide
  wellFormed := ⟨7,by decide,by decide⟩
  continues last h := by simpa [discoverChrcs] using h.symm

theorem discoverDescs_restarts : Restarts discoverDescs opFindInfoRsp [1,0xff,0xff,0,0] where
  delivered _ := ⟨_,rfl,rfl,rfl⟩
  responds := by decide
  wellFormed := ⟨4,by decide,by decide⟩
  continues last h := by simpa [discoverDescs] using h.symm

theorem discovery_requests_bounded (start last : UInt16) :
    (∀ serviceType, Bounded (readByGrpType serviceType) start last) ∧
    (∀ serviceType uuid, Bounded (findByTypeVal serviceType uuid) start last) ∧
    (Bounded discoverChrcs start last ↔ last = 0xffff) ∧
    (Bounded discoverDescs start last ↔ last = 0xffff) ∧
    (Endless discoverChrcs start last ↔ last ≠ 0xffff) ∧
    (Endless discoverDescs start last ↔ last ≠ 0xffff) := by
  have hc : (Bounded discoverChrcs start last ↔ last = 0xffff) ∧
      (Endless discoverChrcs start last ↔ last ≠ 0xffff) :=
    discoverChrcs_restarts.bounded_iff (by simp [discoverChrcs])
  have hd : (Bounded discoverDescs start last ↔ last = 0xffff) ∧
      (Endless discoverDescs start last ↔ last ≠ 0xffff) :=
    discoverDescs_restarts.bounded_iff (by simp [discoverDescs])
  refine ⟨?_,?_,hc.1,hd.1,hc.2,hd.2⟩
  · exact fun serviceType => bounded_of_more (by simp [readByGrpType])
  · exact fun serviceType uuid => bounded_of_more (by simp [findByTypeVal])

end Minipro.GattHelpers
