import Minipro.LEClient.LinkOrder

namespace Minipro.Link
open Att Transition
variable {s t : State} {op : SendOp}

structure Fresh (s : State) : Prop where
  sorted : s.att.Sorted
  linked : s.att.io
  running : s.caller = .running
  passed : s.passed = []
  accepted : s.accepted = []
  discarded : s.discarded = []
  own : ∀ op, s.att.pendingReq = some op ∨ op ∈ s.att.reqQueue ∨ op ∈ s.att.writeQueue →
    op.issuer = .bearer

def established : State :=
  { att :=
      { io := true, mtu := 23, localSign := false, nextSendId := 0, reqQueue := [], indQueue := [],
        writeQueue := [], pendingReq := none, pendingInd := none }
    caller := .running
    passed := []
    accepted := []
    discarded := [] }

theorem fresh_established : Fresh established :=
  ⟨⟨by simp [established],by simp [established],by simp [established],by simp [established]⟩,rfl,
    rfl,rfl,rfl,rfl,by simp [established]⟩

theorem fresh_ordered (h : Fresh s) : Ordered s := by
  have hn : outstanding s.att = [] := by
    apply List.eq_nil_iff_forall_not_mem.mpr
    intro r hr
    obtain ⟨hm,hq⟩ := mem_outstanding.mp hr
    rw [not_isRequest_bearer (h.own r (by tauto))] at hq
    cases hq
  have hc : commands s.att.writeQueue = [] := by
    apply List.filter_eq_nil_iff.mpr
    intro op hop
    simp [isCommand,h.own op (.inr (.inr hop))]
  refine ⟨h.sorted,?_,?_,by simp [hn],by simp [hn],?_,?_⟩
  · intro _ _
    rw [h.accepted,h.passed,hc]
    rfl
  · intro hio
    cases hio.symm.trans h.linked
  · intro r hr hq
    rw [not_isRequest_bearer (h.own r (.inl hr))] at hq
    cases hq
  · intro o rc hw
    cases h.running.symm.trans hw

def Caller.Keeps (c c' : Caller) : Prop := c' = c ∨ ∃ rc, c' = c.answered rc

theorem keeps_waiting {c c' : Caller} (h : c.Keeps c') {o : Option SendOp} {p : Option Int}
    (hc : c = .waiting o p) : ∃ p', c' = .waiting o p' := by
  subst hc
  rcases h with rfl | ⟨rc,rfl⟩
  · exact ⟨p,rfl⟩
  · exact ⟨some rc,rfl⟩

theorem keeps_holdsClient {c c' : Caller} (h : c.Keeps c') : c'.holdsClient = c.holdsClient := by
  rcases h with rfl | ⟨rc,rfl⟩
  · rfl
  · cases c <;> rfl

theorem answer_keeps (s : State) (op : SendOp) (d : Delivery op.opcode) :
    s.caller.Keeps (s.answer op d).caller := by
  unfold State.answer
  dsimp only
  split
  · exact .inr ⟨_,rfl⟩
  · exact .inl rfl

theorem traffic_kept (s : State) (m : Send) : (s.traffic m).caller = s.caller ∧
    (s.traffic m).accepted = s.accepted ∧ (s.traffic m).passed = s.passed := by
  simp only [State.traffic]
  split <;> exact ⟨rfl,rfl,rfl⟩

theorem canReadData_kept (s : State) (b : Bearer) (bytes : List UInt8) :
    s.caller.Keeps (s.canReadData b bytes).caller ∧
      (s.canReadData b bytes).accepted = s.accepted ∧
      (s.canReadData b bytes).passed = s.passed ∧
      (s.canReadData b bytes).att.writeQueue = s.att.writeQueue ∧
      (s.canReadData b bytes).att.io = s.att.io := by
  cases bytes with
  | nil => exact ⟨.inl rfl,rfl,rfl,rfl,rfl⟩
  | cons opcode pdu =>
    simp only [State.canReadData]
    split
    · simp only [State.handleRsp]
      split
      · exact ⟨.inl rfl,rfl,rfl,rfl,rfl⟩
      · split
        · exact ⟨.inl rfl,rfl,rfl,rfl,rfl⟩
        · exact ⟨answer_keeps s _ _,rfl,rfl,rfl,rfl⟩
    · simp only [State.handleConf]
      split <;> exact ⟨.inl rfl,rfl,rfl,rfl,rfl⟩
    · exact ⟨.inl rfl,rfl,rfl,rfl,rfl⟩

theorem canWriteData_kept {sent : Bool} (h : s.canWriteData sent = some t) :
    s.caller.Keeps t.caller ∧ t.accepted = s.accepted := by
  obtain ⟨⟨op,att⟩,-,rfl⟩ := Option.map_eq_some_iff.mp h
  cases sent with
  | true => exact ⟨.inl rfl,rfl⟩
  | false => exact ⟨answer_keeps (s.pass op att) op _,rfl⟩

theorem waiting_step (u : State) (o : Option SendOp) (s : State) (e : Event) (t : State)
    (he : e ≠ .resume) (h : (∃ p, s.caller = .waiting o p) ∧ s.accepted = u.accepted)
    (hs : machine.step s e = some t) :
    (∃ p, t.caller = .waiting o p) ∧ t.accepted = u.accepted := by
  obtain ⟨⟨p,hc⟩,ha⟩ := h
  cases steps_of_step hs with
  | traffic m =>
    obtain ⟨hk,hacc,-⟩ := traffic_kept s _
    exact ⟨⟨p,hk.trans hc⟩,hacc.trans ha⟩
  | canWrite hio ht =>
    obtain ⟨hk,hacc⟩ := canWriteData_kept ht
    exact ⟨keeps_waiting hk hc,hacc.trans ha⟩
  | canRead b bytes hio =>
    obtain ⟨hk,hacc,-⟩ := canReadData_kept s b bytes
    exact ⟨keeps_waiting hk hc,hacc.trans ha⟩
  | timeout indication => exact ⟨⟨p,hc⟩,ha⟩
  | disconnected => exact ⟨⟨p,hc⟩,ha⟩
  | resume hw => exact absurd rfl he
  | writeValue w c hw => cases hc.symm.trans hw
  | quit hw => cases hc.symm.trans hw
  | unrefGatt hw => cases hc.symm.trans hw
  | cancel hw => cases hc.symm.trans hw
  | unrefAtt hw => cases hc.symm.trans hw
  | join hw => cases hc.symm.trans hw

theorem request_bytes {att att' : BtAtt} {w : WriteValue} {c : Conditions}
    (h : att.send (writeWithResponse w c) = some (op,att')) :
    op.bytes = opWriteReq :: writePdu w := by
  obtain ⟨-,-,-,-,-,-,-,hb⟩ := BtAtt.send_some h
  have hn : opWriteReq &&& 0x80 = 0 := by decide
  have hs : att.signed opWriteReq = false := by simp [BtAtt.signed,hn]
  simp only [BtAtt.encodePdu,writeWithResponse,hs,Bool.false_eq_true,if_false,not_false_eq_true,
    if_true] at hb
  split at hb
  · cases hb
  split at hb
  · cases hb
  · exact (Option.some.inj hb).symm

theorem flushed {v : State} {r : SendOp} (h : Ordered v) (hc : v.caller.holdsClient)
    (hb : Barrier v r) : commands v.att.writeQueue = [] := by
  cases hio : v.att.io with
  | true => exact h.queue_empty hio hc hb
  | false =>
    rw [h.unlinked hio]
    rfl

theorem barrier_of_resume {u v : State} (hu : Ordered u) {mid : List Event} {w : WriteValue}
    {c : Conditions} (hw : w.withoutResponse = false)
    (hv : machine.run u (.writeValue w c :: mid) = some v) (hm : ∀ e ∈ mid, e ≠ .resume)
    (ht : machine.step v .resume = some t) :
    t.accepted = u.accepted ∧ commands t.att.writeQueue = [] ∧ ∃ r, Barrier t r ∧
      r.bytes = opWriteReq :: writePdu w := by
  obtain ⟨s,hs,hr⟩ := Option.bind_eq_some_iff.mp hv
  obtain rfl : u.writeValue w c = s := by
    cases steps_of_step hs
    rfl
  obtain ⟨o,rc,hc,rfl⟩ : ∃ o rc, v.caller = .waiting o (some rc) ∧
      { v with caller := .running } = t := by
    cases steps_of_step ht with
    | resume hc => exact ⟨_,_,hc,rfl⟩
  have hord : Ordered v := machine.run_invariant Ordered ordered_step hu hv
  have hwait (o : Option SendOp) (hc : (u.writeValue w c).caller = .waiting o none)
      (ha : (u.writeValue w c).accepted = u.accepted) :
      (∃ p, v.caller = .waiting o p) ∧ v.accepted = u.accepted :=
    machine.run_invariant_of (· ≠ .resume)
      (fun s => (∃ p, s.caller = .waiting o p) ∧ s.accepted = u.accepted)
      (fun s e t => waiting_step u o s e t) hm ⟨⟨none,hc⟩,ha⟩ hr
  obtain ⟨r,rfl,hb⟩ := hord.stored o rc hc
  simp only [State.writeValue,hw,Bool.false_eq_true,if_false] at hwait
  split at hwait
  · next op att hsend =>
    obtain ⟨⟨p,hp⟩,ha⟩ := hwait (some op) rfl rfl
    cases hc.symm.trans hp
    have hq : commands v.att.writeQueue = [] := flushed hord (Ordered.holds_waiting hc) hb
    exact ⟨ha,hq,r,hb,request_bytes hsend⟩
  · obtain ⟨⟨p,hp⟩,-⟩ := hwait none rfl rfl
    cases hc.symm.trans hp

theorem write_with_response_barrier {s : State} (hs : Fresh s) :
    (∀ earlier u w c mid v t, machine.run s earlier = some u → w.withoutResponse = false →
      machine.run u (.writeValue w c :: mid) = some v → (∀ e ∈ mid, e ≠ .resume) →
      machine.step v .resume = some t →
      commands t.att.writeQueue = [] ∧ ∃ before r after, t.passed = before ++ r :: after ∧
        r.bytes = opWriteReq :: writePdu w ∧ commands before = u.accepted ∧
        commands (r :: after) = []) ∧
    (∀ host earlier c₁ m₁ c₂ m₂ c₃ m₃ t, (∀ e ∈ m₃, e ≠ .resume) →
      machine.run s (earlier ++ .writeValue (MiniPro.call host (.drive 0 0)) c₁ :: m₁ ++
        .writeValue (MiniPro.call host .exitRemoteControlMode) c₂ :: m₂ ++
        (.writeValue (MiniPro.disableNotifications host) c₃ :: m₃ ++ [.resume])) = some t →
      commands t.passed = t.accepted ∧ commands t.att.writeQueue = []) := by
  have hord {ls : List Event} {u : State} (hu : machine.run s ls = some u) : Ordered u :=
    machine.run_invariant Ordered ordered_step (fresh_ordered hs) hu
  constructor
  · intro earlier u w c mid v t hu hw hv hm ht
    obtain ⟨ha,hq,r,⟨before,after,hp,hb,hn⟩,hbytes⟩ := barrier_of_resume (hord hu) hw hv hm ht
    exact ⟨hq,before,r,after,hp,hbytes,hb.trans ha,hn⟩
  · intro host earlier c₁ m₁ c₂ m₂ c₃ m₃ t hm ht
    rw [machine.run_append] at ht
    obtain ⟨u,hu,ht⟩ := Option.bind_eq_some_iff.mp ht
    obtain ⟨v,hv,ht⟩ := machine.run_concat ht
    obtain ⟨-,hq,r,hb,-⟩ := barrier_of_resume (hord hu) rfl hv hm ht
    exact ⟨barrier_accepted hb,hq⟩

theorem write_with_response_barrier_shutdown :
    ∃ t, machine.run established
        ([] ++ .writeValue (MiniPro.call .little (.drive 0 0)) ⟨1,true,none⟩ :: [] ++
          .writeValue (MiniPro.call .little .exitRemoteControlMode) ⟨1,true,none⟩ ::
            [.canWrite true] ++
          (.writeValue (MiniPro.disableNotifications .little) ⟨1,true,none⟩ ::
            [.canWrite true,.canWrite true,.canRead ⟨1,false,false⟩ [opWriteRsp]] ++
              [.resume])) = some t ∧
      t.accepted.length = 2 ∧ commands t.passed = t.accepted ∧ commands t.att.writeQueue = [] := by
  refine ⟨_,rfl,rfl,?_⟩
  refine (write_with_response_barrier fresh_established).2 .little [] ⟨1,true,none⟩ []
    ⟨1,true,none⟩ [.canWrite true] ⟨1,true,none⟩
    [.canWrite true,.canWrite true,.canRead ⟨1,false,false⟩ [opWriteRsp]] _ ?_ rfl
  simp

end Minipro.Link
