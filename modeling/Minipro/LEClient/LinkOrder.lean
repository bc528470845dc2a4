import Minipro.LEClient.Link

namespace Minipro.Link
open Att Transition

def Caller.holdsClient : Caller → Bool
  | .running | .waiting _ _ | .destroying .quit => true
  | _ => false

def Barrier (s : State) (r : SendOp) : Prop :=
  ∃ before after, s.passed = before ++ r :: after ∧ commands before = s.accepted ∧
    commands (r :: after) = []

structure Ordered (s : State) : Prop where
  sorted : s.att.Sorted
  conserved : s.att.io → s.caller.holdsClient →
    s.accepted = commands s.passed ++ commands s.att.writeQueue
  unlinked : s.att.io = false → s.att.writeQueue = []
  waits : ∀ r ∈ outstanding s.att, s.caller = .waiting (some r) none
  single : (outstanding s.att).length ≤ 1
  taken : ∀ r ∈ s.att.pendingReq, isRequest r → Barrier s r
  stored : ∀ op rc, s.caller = .waiting op (some rc) → ∃ r, op = some r ∧ Barrier s r

variable {s : State} {att : BtAtt} {op r : SendOp}

theorem isCommand_of_type (h : op.type ≠ .cmd) : isCommand op = false := by
  simp [isCommand,h]

theorem not_isRequest_bearer (h : op.issuer = .bearer) : isRequest op = false := by
  simp [isRequest,h]

theorem mem_outstanding : r ∈ outstanding att ↔
    (att.pendingReq = some r ∨ r ∈ att.reqQueue) ∧ isRequest r := by
  simp [outstanding,or_and_right]

theorem outstanding_nil (h : ∀ r, att.pendingReq = some r ∨ r ∈ att.reqQueue → ¬ isRequest r) :
    outstanding att = [] := by
  apply List.eq_nil_iff_forall_not_mem.mpr
  intro r hr
  obtain ⟨hm,hq⟩ := mem_outstanding.mp hr
  exact h r hm hq

theorem commands_append (ops ops' : List SendOp) :
    commands (ops ++ ops') = commands ops ++ commands ops' := List.filter_append ops ops'

theorem commands_singleton (op : SendOp) :
    commands [op] = if isCommand op then [op] else [] := by
  by_cases h : isCommand op <;> simp [commands,h]

theorem commands_singleton_nil : commands [op] = [] ↔ isCommand op = false := by
  rw [commands_singleton]
  split
  · next h => simp [h]
  · next h => simpa using h

theorem commands_enqueue (att : BtAtt) (op : SendOp) :
    commands (att.enqueue op).writeQueue = commands att.writeQueue ++ commands [op] := by
  rw [BtAtt.enqueue_writeQueue,commands_append]
  split
  · next h =>
    have hn : isCommand op = false := by
      apply isCommand_of_type
      intro hc
      rw [hc] at h
      simp at h
    rw [commands_singleton_nil.mpr hn]
    rfl
  · rfl

theorem command_listed {w : WriteValue} {c : Conditions} {att' : BtAtt}
    (hs : att.send (writeWithoutResponse w c) = some (op,att')) :
    op.type = .cmd ∧ commands [op] = [op] := by
  obtain ⟨-,-,-,ho,hi,-⟩ := BtAtt.send_some hs
  have ht : op.type = .cmd := by
    simp only [SendOp.type]
    rw [ho]
    simp only [writeWithoutResponse,commandOpcode]
    split
    · split <;> rfl
    · rfl
  exact ⟨ht,by simp [commands,isCommand,ht,hi,writeWithoutResponse]⟩

theorem request_unlisted {w : WriteValue} {c : Conditions} {att' : BtAtt}
    (hs : att.send (writeWithResponse w c) = some (op,att')) :
    op.type = .req ∧ commands [op] = [] := by
  obtain ⟨-,-,-,ho,-⟩ := BtAtt.send_some hs
  have ht : op.type = .req := by
    simp only [SendOp.type]
    rw [ho]
    rfl
  exact ⟨ht,by simp [commands,isCommand,ht]⟩

theorem outstanding_enqueue (att : BtAtt) (op : SendOp) :
    outstanding (att.enqueue op) =
      outstanding att ++ (if op.type = .req then [op] else []).filter isRequest := by
  rw [outstanding,BtAtt.enqueue_reqQueue,BtAtt.enqueue_pendingReq,← List.append_assoc,
    List.filter_append,outstanding]

theorem send_effect {att' : BtAtt} {m : Send} (hs : att.send m = some (op,att')) :
    att.io ∧ att'.io = att.io ∧ att'.pendingReq = att.pendingReq ∧
      commands att'.writeQueue = commands att.writeQueue ++ commands [op] ∧
      outstanding att' =
        outstanding att ++ (if op.type = .req then [op] else []).filter isRequest := by
  obtain ⟨hio,id,rfl,-⟩ := BtAtt.send_some hs
  exact ⟨hio,BtAtt.enqueue_io _ op,BtAtt.enqueue_pendingReq _ op,commands_enqueue _ op,
    outstanding_enqueue _ op⟩

theorem barrier_accepted (h : Barrier s r) : commands s.passed = s.accepted := by
  obtain ⟨before,after,hp,hb,ha⟩ := h
  rw [hp,commands_append,hb,ha,List.append_nil]

theorem barrier_pass (h : Barrier s r) (ho : isCommand op = false) (att : BtAtt) :
    Barrier (s.pass op att) r := by
  obtain ⟨before,after,hp,hb,ha⟩ := h
  refine ⟨before,after ++ [op],by simp [State.pass,hp],hb,?_⟩
  rw [← List.cons_append,commands_append,ha,commands_singleton_nil.mpr ho,List.append_nil]

namespace Ordered

theorem holds_waiting {o : Option SendOp} {p : Option Int} (hc : s.caller = .waiting o p) :
    s.caller.holdsClient := by rw [hc]; rfl

theorem queue_empty (h : Ordered s) (hio : s.att.io) (hc : s.caller.holdsClient)
    (hb : Barrier s r) : commands s.att.writeQueue = [] := by
  have ha := h.conserved hio hc
  rw [barrier_accepted hb] at ha
  exact List.self_eq_append_right.mp ha

theorem frame (h : Ordered s) {att : BtAtt} (hs : att.Sorted)
    (hio : att.io → s.att.io ∧ commands att.writeQueue = commands s.att.writeQueue)
    (hu : att.io = false → att.writeQueue = [])
    (ho : List.Sublist (outstanding att) (outstanding s.att))
    (hp : ∀ r ∈ att.pendingReq, isRequest r → r ∈ s.att.pendingReq) :
    Ordered { s with att := att } where
  sorted := hs
  conserved := fun hi hc => by rw [(hio hi).2]; exact h.conserved (hio hi).1 hc
  unlinked := hu
  waits := fun r hr => h.waits r (ho.subset hr)
  single := ho.length_le.trans h.single
  taken := fun r hr hq => h.taken r (hp r hr hq) hq
  stored := h.stored

theorem clearReq (h : Ordered s) : Ordered s.clearReq := by
  refine h.frame (BtAtt.sorted_clearReq h.sorted) (fun hi => ⟨hi,rfl⟩) h.unlinked ?_ (by simp)
  simp [outstanding,List.filter_append]

theorem pendingInd (h : Ordered s) (ind : Option SendOp) :
    Ordered { s with att := { s.att with pendingInd := ind } } :=
  h.frame ⟨h.sorted.writes,h.sorted.reqs,h.sorted.inds,h.sorted.pending⟩ (fun hi => ⟨hi,rfl⟩)
    h.unlinked (List.Sublist.refl _) (fun _ hr _ => hr)

theorem timeout (h : Ordered s) (indication : Bool) :
    Ordered { s with att := s.att.timeout indication } := by
  cases indication with
  | true => exact h.pendingInd none
  | false => exact h.clearReq

theorem discard (h : Ordered s) (ops : List SendOp) : Ordered { s with discarded := ops } :=
  ⟨h.sorted,h.conserved,h.unlinked,h.waits,h.single,h.taken,h.stored⟩

theorem disconnect (h : Ordered s) : Ordered s.disconnect := by
  refine Ordered.discard (s := { s with att := s.att.disconnect }) ?_ _
  have hc : ∀ r ∈ s.att.disconnect.pendingReq, isRequest r = false := by
    intro r hr
    obtain ⟨op,-,rfl⟩ := Option.map_eq_some_iff.mp hr
    simp [isRequest,SendOp.cancel]
  refine h.frame (BtAtt.sorted_disconnect h.sorted) (fun hi => by cases hi) (fun _ => rfl) ?_ ?_
  · have hn : outstanding s.att.disconnect = [] := by
      apply outstanding_nil
      rintro r (hm | hm)
      · simp [hc r hm]
      · cases hm
    rw [hn]
    exact List.nil_sublist _
  · intro r hr hq
    rw [hc r hr] at hq
    cases hq

theorem retry (h : Ordered s) (hp : s.att.pendingReq = some op) :
    Ordered { s with att := s.att.retry op } := by
  refine h.frame (BtAtt.sorted_retry h.sorted (h.sorted.pending op hp)) (fun hi => ⟨hi,rfl⟩)
    h.unlinked ?_ (by simp [BtAtt.retry])
  simp [outstanding,BtAtt.retry,hp]

theorem traffic (h : Ordered s) (m : Send) : Ordered (s.traffic m) := by
  simp only [State.traffic]
  split
  · next op att hs =>
    obtain ⟨-,-,-,-,hb,-⟩ := BtAtt.send_some hs
    obtain ⟨hio,hl,hp,hw,ho⟩ := send_effect hs
    have hq : isRequest op = false := not_isRequest_bearer hb
    have hm : commands [op] = [] := commands_singleton_nil.mpr (by simp [isCommand,hb])
    refine h.frame (BtAtt.sorted_send h.sorted hs fun _ => hb) ?_ ?_ ?_ ?_
    · exact fun _ => ⟨hio,by rw [hw,hm,List.append_nil]⟩
    · intro hn
      cases hn.symm.trans (hl.trans hio)
    · rw [ho,List.filter_eq_nil_iff.mpr (by split <;> simp [hq]),List.append_nil]
    · intro r hr _
      rwa [hp] at hr
  · exact h

theorem not_outstanding (h : Ordered s) (hc : ∀ o, s.caller ≠ .waiting o none) :
    outstanding s.att = [] :=
  List.eq_nil_iff_forall_not_mem.mpr fun r hr => hc (some r) (h.waits r hr)

theorem no_pending (h : Ordered s) (hc : ∀ o, s.caller ≠ .waiting o none) :
    ∀ r ∈ s.att.pendingReq, isRequest r = false := by
  intro r hr
  by_contra hq
  have hm : r ∈ outstanding s.att := mem_outstanding.mpr ⟨.inl hr,by simpa using hq⟩
  rw [h.not_outstanding hc] at hm
  cases hm

theorem issue (h : Ordered s) (hc : s.caller = .running) {m : Send}
    (hs : s.att.send m = some (op,att)) (hi : op.type ≠ .ind) {caller : Caller}
    (hw : op.type = .req → caller = .waiting (some op) none)
    (hn : ∀ o rc, caller ≠ .waiting o (some rc)) :
    Ordered { s with att := att, caller := caller, accepted := s.accepted ++ commands [op] } := by
  obtain ⟨hio,hl,hp,hq,hout⟩ := send_effect hs
  have hrun : ∀ o, s.caller ≠ .waiting o none := fun o => by rw [hc]; simp
  rw [h.not_outstanding hrun,List.nil_append] at hout
  refine ⟨BtAtt.sorted_send h.sorted hs (fun ht => absurd ht hi),?_,?_,?_,?_,?_,?_⟩
  · intro _ _
    rw [hq,h.conserved hio (by rw [hc]; rfl),List.append_assoc]
  · intro hu
    cases hu.symm.trans (hl.trans hio)
  · rw [hout]
    intro r hr
    have hr := List.mem_of_mem_filter hr
    split at hr
    · next hq =>
      rw [List.mem_singleton.mp hr]
      exact hw hq
    · cases hr
  · rw [hout]
    refine (List.length_filter_le _ _).trans ?_
    split <;> simp
  · intro r hr hq
    rw [hp] at hr
    rw [h.no_pending hrun r hr] at hq
    cases hq
  · exact fun o rc hw => absurd hw (hn o rc)

theorem command (h : Ordered s) (hc : s.caller = .running) {w : WriteValue} {c : Conditions}
    {op : SendOp} {att : BtAtt} (hs : s.att.send (writeWithoutResponse w c) = some (op,att)) :
    Ordered { s with att := att, accepted := s.accepted ++ [op] } := by
  obtain ⟨ht,hcmd⟩ := command_listed hs
  rw [← hcmd]
  exact h.issue hc hs (by simp [ht]) (by simp [ht]) (by simp [hc])

theorem request (h : Ordered s) (hc : s.caller = .running) {w : WriteValue} {c : Conditions}
    {op : SendOp} {att : BtAtt} (hs : s.att.send (writeWithResponse w c) = some (op,att)) :
    Ordered { s with att := att, caller := .waiting (some op) none } := by
  obtain ⟨ht,hcmd⟩ := request_unlisted hs
  have hi : Ordered
      { s with att := att, caller := .waiting (some op) none, accepted := s.accepted ++ commands [op] } :=
    h.issue hc hs (by simp [ht]) (fun _ => rfl) (by simp)
  rwa [hcmd,List.append_nil] at hi

theorem refused (h : Ordered s) (hc : s.caller = .running) :
    Ordered { s with caller := .waiting none none } := by
  have hn := h.not_outstanding (fun o => by rw [hc]; simp)
  refine ⟨h.sorted,fun hio _ => h.conserved hio (by rw [hc]; rfl),h.unlinked,?_,h.single,h.taken,?_⟩
  · simp [hn]
  · intro o rc hw
    cases hw

theorem writeValue (h : Ordered s) (hc : s.caller = .running) (w : WriteValue) (c : Conditions) :
    Ordered (s.writeValue w c) := by
  simp only [State.writeValue]
  split
  · split
    · next hs => exact h.command hc hs
    · exact h
  · split
    · next hs => exact h.request hc hs
    · exact h.refused hc

theorem log (h : Ordered s) (ho : isCommand op = false) : Ordered (s.pass op s.att) where
  sorted := h.sorted
  conserved := fun hio hc => by
    have ha := h.conserved hio hc
    simpa [State.pass,commands_append,commands_singleton,ho] using ha
  unlinked := h.unlinked
  waits := h.waits
  single := h.single
  taken := fun r hr hq => barrier_pass (h.taken r hr hq) ho s.att
  stored := fun o rc hc => by
    obtain ⟨r,he,hb⟩ := h.stored o rc hc
    exact ⟨r,he,barrier_pass hb ho s.att⟩

theorem pickWrite (h : Ordered s) (hio : s.att.io) {ops : List SendOp}
    (hw : s.att.writeQueue = op :: ops) :
    Ordered (s.pass op { s.att with writeQueue := ops }) := by
  have hcmd {r : SendOp} (hc : s.caller.holdsClient) (hb : Barrier s r) : isCommand op = false := by
    have hn := h.queue_empty hio hc hb
    rw [hw,← List.singleton_append,commands_append,List.append_eq_nil_iff] at hn
    exact commands_singleton_nil.mp hn.1
  constructor
  · exact ⟨fun o ho => h.sorted.writes o (hw ▸ List.mem_cons_of_mem op ho),h.sorted.reqs,
      h.sorted.inds,h.sorted.pending⟩
  · intro _ hc
    have ha := h.conserved hio hc
    rw [hw,← List.singleton_append,commands_append,← List.append_assoc,← commands_append] at ha
    exact ha
  · intro hn
    cases hn.symm.trans hio
  · exact h.waits
  · exact h.single
  · intro r hr hq
    have hc := holds_waiting (h.waits r (mem_outstanding.mpr ⟨.inl hr,hq⟩))
    exact barrier_pass (h.taken r hr hq) (hcmd hc (h.taken r hr hq)) _
  · intro o rc hc
    obtain ⟨r,he,hb⟩ := h.stored o rc hc
    exact ⟨r,he,barrier_pass hb (hcmd (holds_waiting hc) hb) _⟩

theorem pickRequest (h : Ordered s) (hio : s.att.io) {ops : List SendOp}
    (hw : s.att.writeQueue = []) (hp : s.att.pendingReq = none)
    (hr : s.att.reqQueue = op :: ops) (hq : isRequest op) :
    outstanding { s.att with reqQueue := ops } = [] ∧ s.caller = .waiting (some op) none ∧
      Barrier (s.pass op { s.att with reqQueue := ops }) op := by
  have hout : outstanding s.att = op :: ops.filter isRequest := by
    simp [outstanding,hp,hr,hq]
  have hc := h.waits op (by rw [hout]; exact List.mem_cons_self)
  refine ⟨?_,hc,s.passed,[],rfl,?_,?_⟩
  · have hl := h.single
    rw [hout] at hl
    simpa [outstanding,hp] using hl
  · have ha := h.conserved hio (holds_waiting hc)
    rw [hw] at ha
    simpa [commands,State.pass] using ha.symm
  · have ht : isCommand op = false :=
      isCommand_of_type (by rw [h.sorted.reqs op (by rw [hr]; exact List.mem_cons_self)]; simp)
    simp [commands,ht]

theorem pick (h : Ordered s) (hio : s.att.io) (hp : s.att.pickNextSendOp = some (op,att)) :
    Ordered (s.pass op att) ∧
      (isRequest op → outstanding att = [] ∧ s.caller = .waiting (some op) none ∧
        Barrier (s.pass op att) op) := by
  have hs := BtAtt.sorted_pick h.sorted hp
  rcases BtAtt.pickNextSendOp_cases hp with ⟨ops,hw,rfl⟩ | ⟨ops,hw,hn,hr,rfl⟩ | ⟨ops,hw,hi,rfl⟩
  · refine ⟨h.pickWrite hio hw,fun hq => ?_⟩
    have hf := (h.sorted.writes op (by rw [hw]; exact List.mem_cons_self)).2.2
    simp [isRequest,hf] at hq
  · refine ⟨?_,h.pickRequest hio hw hn hr⟩
    have ht := h.sorted.reqs op (by rw [hr]; exact List.mem_cons_self)
    have hsub : List.Sublist (outstanding { s.att with reqQueue := ops }) (outstanding s.att) := by
      simp only [outstanding,hn,hr]
      exact (List.Sublist.filter _ (List.sublist_cons_self op ops))
    have hf := h.frame hs (fun hi => ⟨hi,rfl⟩) h.unlinked hsub (fun r hr _ => hr)
    exact hf.log (isCommand_of_type (by simp [ht]))
  · obtain ⟨ht,hb⟩ := h.sorted.inds op (by rw [hi]; exact List.mem_cons_self)
    have hf := h.frame hs (fun hi => ⟨hi,rfl⟩) h.unlinked (List.Sublist.refl _) (fun r hr _ => hr)
    refine ⟨hf.log (isCommand_of_type (by simp [ht])),fun hq => ?_⟩
    rw [not_isRequest_bearer hb] at hq
    cases hq

theorem answer (h : Ordered s) (d : Delivery op.opcode)
    (ho : isRequest op → outstanding s.att = [] ∧ s.caller = .waiting (some op) none ∧
      Barrier s op) : Ordered (s.answer op d) := by
  by_cases hq : op.issuer = .caller ∧ op.callback
  · obtain ⟨hn,hw,hb⟩ := ho (by simpa [isRequest] using hq)
    simp only [State.answer,if_pos hq,hw,Caller.answered]
    refine ⟨h.sorted,fun hi _ => h.conserved hi (holds_waiting hw),h.unlinked,?_,h.single,
      h.taken,?_⟩
    · simp [hn]
    · rintro o rc hc
      cases hc
      exact ⟨op,rfl,hb⟩
  · simp only [State.answer,if_neg hq]
    exact h

theorem sent (h : Ordered s) (hn : op.type = .req → s.att.pendingReq = none)
    (ho : isRequest op → outstanding s.att = [] ∧ s.caller = .waiting (some op) none ∧
      Barrier s op) : Ordered { s with att := s.att.sent op } := by
  have hs := BtAtt.sorted_sent h.sorted op
  simp only [BtAtt.sent] at hs ⊢
  split
  · next ht =>
    rw [if_pos ht] at hs
    have hout : outstanding { s.att with pendingReq := some op } =
        [op].filter isRequest ++ outstanding s.att := by
      simp only [outstanding,hn ht]
      exact List.filter_append [op] s.att.reqQueue
    by_cases hq : isRequest op
    · obtain ⟨he,hw,hb⟩ := ho hq
      have hout : outstanding { s.att with pendingReq := some op } = [op] := by simp [hout,he,hq]
      refine ⟨hs,h.conserved,h.unlinked,by simp [hout,hw],by simp [hout],?_,h.stored⟩
      rintro r ⟨⟩ -
      exact hb
    · refine h.frame hs (fun hi => ⟨hi,rfl⟩) h.unlinked ?_ ?_
      · simp [hout,hq]
      · rintro r ⟨⟩ hr
        exact absurd hr hq
  split
  · exact h.pendingInd (some op)
  · exact h

theorem canWriteData {t : State} (h : Ordered s) (hio : s.att.io) {sent : Bool}
    (hs : s.canWriteData sent = some t) : Ordered t := by
  obtain ⟨⟨op,att⟩,hp,rfl⟩ := Option.map_eq_some_iff.mp hs
  obtain ⟨hl,hq⟩ := h.pick hio hp
  cases sent with
  | false => exact hl.answer (.failed op.opcode) hq
  | true => exact hl.sent (BtAtt.pick_req h.sorted hp) hq

theorem handleRsp (h : Ordered s) (b : Bearer) (opcode : UInt8) (pdu : List UInt8) :
    Ordered (s.handleRsp b opcode pdu) := by
  simp only [State.handleRsp]
  split
  · exact h
  · next op hp =>
    split
    · exact h.retry hp
    · next d hd =>
      have hc : (s.answer op d).clearReq = s.clearReq.answer op d := rfl
      rw [hc]
      apply h.clearReq.answer d
      intro hq
      have hm := mem_outstanding.mpr ⟨.inl hp,hq⟩
      refine ⟨?_,h.waits op hm,h.taken op hp hq⟩
      have hl := h.single
      simpa [outstanding,hp,hq,State.clearReq] using hl

theorem canReadData (h : Ordered s) (b : Bearer) (bytes : List UInt8) :
    Ordered (s.canReadData b bytes) := by
  cases bytes with
  | nil => exact h
  | cons opcode pdu =>
    simp only [State.canReadData]
    split
    · exact h.handleRsp b opcode pdu
    · simp only [State.handleConf]
      split
      · exact h.pendingInd none
      · exact h
    · exact h

theorem move (h : Ordered s) {caller : Caller} (hr : ∀ o, s.caller ≠ .waiting o none)
    (hc : caller.holdsClient → s.caller.holdsClient) (hn : ∀ o rc, caller ≠ .waiting o (some rc)) :
    Ordered { s with caller := caller } := by
  refine ⟨h.sorted,fun hio hh => h.conserved hio (hc hh),h.unlinked,?_,h.single,h.taken,?_⟩
  · simp [h.not_outstanding hr]
  · exact fun o rc hw => absurd hw (hn o rc)

theorem cancel (h : Ordered s) {id : UInt32} {ids : List UInt32}
    (hc : s.caller = .destroying (.cancelling (id :: ids))) : Ordered (s.cancel id ids) := by
  have hn : outstanding s.att = [] := h.not_outstanding (by simp [hc])
  have hq : ∀ r, s.att.pendingReq = some r ∨ r ∈ s.att.reqQueue → isRequest r = false := by
    intro r hr
    by_contra hq
    have hm : r ∈ outstanding s.att := mem_outstanding.mpr ⟨hr,by simpa using hq⟩
    rw [hn] at hm
    cases hm
  have hfield : (s.att.cancel id).2.io = s.att.io ∧
      ((s.att.cancel id).2.writeQueue).Sublist s.att.writeQueue ∧
      ∀ r, (s.att.cancel id).2.pendingReq = some r ∨ r ∈ (s.att.cancel id).2.reqQueue →
        isRequest r = false := by
    rcases s.att.cancel_cases id with
      ⟨-,he | he | he⟩ | ⟨op,front,back,-,⟨hw,he⟩ | ⟨hw,he⟩ | ⟨hw,he⟩⟩
    all_goals rw [he]
    · exact ⟨rfl,.refl _,hq⟩
    · refine ⟨rfl,.refl _,?_⟩
      rintro r (hr | hr)
      · obtain ⟨op,-,rfl⟩ := Option.map_eq_some_iff.mp hr
        simp [isRequest,SendOp.cancel]
      · exact hq r (.inr hr)
    · exact ⟨rfl,.refl _,hq⟩
    · refine ⟨rfl,.refl _,?_⟩
      rintro r (hr | hr)
      · exact hq r (.inl hr)
      · exact hq r (.inr (hw ▸ (BtAtt.removed_sublist front back op).subset hr))
    · exact ⟨rfl,.refl _,hq⟩
    · exact ⟨rfl,hw ▸ BtAtt.removed_sublist front back op,hq⟩
  obtain ⟨hio,hsub,hreq⟩ := hfield
  have hout : outstanding (s.att.cancel id).2 = [] :=
    outstanding_nil fun r hr => by simp [hreq r hr]
  refine ⟨BtAtt.sorted_cancel h.sorted id,fun _ hh => (by cases hh),fun hu => ?_,?_,?_,?_,?_⟩
  · have hw := h.unlinked (hio.symm.trans hu)
    rw [hw] at hsub
    exact List.sublist_nil.mp hsub
  · intro r hr
    have hr : r ∈ outstanding (s.att.cancel id).2 := hr
    rw [hout] at hr
    cases hr
  · show (outstanding (s.att.cancel id).2).length ≤ 1
    simp [hout]
  · intro r hr hq
    rw [hreq r (.inl hr)] at hq
    cases hq
  · intro o rc hw
    cases hw

theorem free (h : Ordered s) (hr : s.caller = .destroying (.cancelling [])) :
    Ordered s.unrefAtt := by
  have hf : Ordered { s.disconnect with
      att := { s.att.disconnect with pendingReq := none, pendingInd := none } } :=
    (h.disconnect.clearReq).pendingInd none
  exact hf.move (fun o => by simp [hr,State.disconnect]) (fun hc => by cases hc) (by simp)

end Ordered

theorem ordered_step (s : State) (e : Event) (t : State) (h : Ordered s)
    (hs : machine.step s e = some t) : Ordered t := by
  cases steps_of_step hs with
  | writeValue w c hc => exact h.writeValue hc w c
  | traffic m => exact h.traffic _
  | canWrite hio ht => exact h.canWriteData hio ht
  | canRead b bytes hio => exact h.canReadData b bytes
  | timeout indication => exact h.timeout _
  | disconnected => exact h.disconnect
  | resume hc => exact h.move (by simp [hc]) (fun _ => by rw [hc]; rfl) (by simp)
  | quit hc => exact h.move (by simp [hc]) (fun _ => by rw [hc]; rfl) (by simp)
  | unrefGatt hc => exact h.move (by simp [hc]) (fun hn => by cases hn) (by simp)
  | cancel hc => exact h.cancel hc
  | unrefAtt hc => exact h.free hc
  | join hc => exact h.move (by simp [hc]) (fun hn => by cases hn) (by simp)

end Minipro.Link
