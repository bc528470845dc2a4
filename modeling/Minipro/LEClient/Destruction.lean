import Minipro.LEClient.Barrier

namespace Minipro.Link
open Att Transition
variable {s t : State} {op : SendOp} {att : BtAtt}

def LinkUp : Event → Prop
  | .canWrite sent => sent = true
  | .timeout _ => False
  | .disconnected => False
  | _ => True

structure Settled (s : State) : Prop where
  partition : (commands s.passed ++ commands s.discarded ++ commands s.att.writeQueue).Perm s.accepted
  order : (commands s.passed ++ commands s.att.writeQueue).Sublist s.accepted

def Spares (s : State) : Event → Prop
  | .cancel => ∀ id ids, s.caller = .destroying (.cancelling (id :: ids)) →
      commands (s.att.cancel id).1.toList = []
  | .unrefAtt | .disconnected => commands s.att.writeQueue = []
  | _ => True

theorem pick_commands (h : s.att.Sorted) (hp : s.att.pickNextSendOp = some (op,att)) :
    commands s.att.writeQueue = commands [op] ++ commands att.writeQueue := by
  rcases BtAtt.pickNextSendOp_cases hp with ⟨ops,hw,rfl⟩ | ⟨ops,hw,-,hr,rfl⟩ | ⟨ops,hw,hi,rfl⟩
  · rw [hw,← commands_append]
    rfl
  · have ht := h.reqs op (by rw [hr]; exact List.mem_cons_self)
    rw [commands_singleton_nil.mpr (isCommand_of_type (by simp [ht]))]
    rfl
  · have ht := (h.inds op (by rw [hi]; exact List.mem_cons_self)).1
    rw [commands_singleton_nil.mpr (isCommand_of_type (by simp [ht]))]
    rfl

theorem traffic_att (s : State) (m : Send) :
    commands (s.traffic m).att.writeQueue = commands s.att.writeQueue ∧
      (s.traffic m).att.io = s.att.io := by
  simp only [State.traffic]
  split
  · next op att hs =>
    obtain ⟨-,-,-,-,hb,-⟩ := BtAtt.send_some hs
    obtain ⟨-,hio,-,hq,-⟩ := send_effect hs
    have hc : commands [op] = [] := commands_singleton_nil.mpr (by simp [isCommand,hb])
    exact ⟨by rw [hq,hc,List.append_nil],hio⟩
  · exact ⟨rfl,rfl⟩

theorem sent_att (att : BtAtt) (op : SendOp) :
    (att.sent op).writeQueue = att.writeQueue ∧ (att.sent op).io = att.io := by
  simp only [BtAtt.sent]
  split
  · exact ⟨rfl,rfl⟩
  · split <;> exact ⟨rfl,rfl⟩

theorem canWriteData_att {sent : Bool} (h : s.canWriteData sent = some t) :
    ∃ op att, s.att.pickNextSendOp = some (op,att) ∧ t.passed = s.passed ++ [op] ∧
      t.att.writeQueue = att.writeQueue ∧ t.att.io = att.io := by
  obtain ⟨⟨op,att⟩,hp,rfl⟩ := Option.map_eq_some_iff.mp h
  refine ⟨op,att,hp,?_⟩
  cases sent with
  | true => exact ⟨rfl,sent_att att op⟩
  | false => exact ⟨rfl,rfl,rfl⟩

theorem pick_io (hp : s.att.pickNextSendOp = some (op,att)) : att.io = s.att.io := by
  rcases BtAtt.pickNextSendOp_cases hp with ⟨ops,-,rfl⟩ | ⟨ops,-,-,-,rfl⟩ | ⟨ops,-,-,rfl⟩ <;> rfl

theorem timeout_att (att : BtAtt) (indication : Bool) :
    (att.timeout indication).writeQueue = att.writeQueue := by
  simp only [BtAtt.timeout]
  split <;> rfl

theorem traffic_discarded (s : State) (m : Send) : (s.traffic m).discarded = s.discarded := by
  simp only [State.traffic]
  split <;> rfl

theorem canWriteData_discarded {sent : Bool} (h : s.canWriteData sent = some t) :
    t.discarded = s.discarded := by
  obtain ⟨⟨op,att⟩,-,rfl⟩ := Option.map_eq_some_iff.mp h
  cases sent <;> rfl

theorem canReadData_discarded (s : State) (b : Bearer) (bytes : List UInt8) :
    (s.canReadData b bytes).discarded = s.discarded := by
  cases bytes with
  | nil => rfl
  | cons opcode pdu =>
    simp only [State.canReadData]
    split
    · simp only [State.handleRsp]
      split
      · rfl
      · split <;> rfl
    · simp only [State.handleConf]
      split <;> rfl
    · rfl

theorem cancel_commands (h : s.att.Sorted) (id : UInt32) :
    (commands (s.att.cancel id).1.toList ++ commands (s.att.cancel id).2.writeQueue).Perm
      (commands s.att.writeQueue) ∧
    (commands (s.att.cancel id).2.writeQueue).Sublist (commands s.att.writeQueue) := by
  have hnone {op : SendOp} (ht : op.type ≠ .cmd) :
      (commands [op] ++ commands s.att.writeQueue).Perm (commands s.att.writeQueue) := by
    rw [commands_singleton_nil.mpr (isCommand_of_type ht)]
    exact .refl _
  rcases s.att.cancel_cases id with
    ⟨hd,he | he | he⟩ | ⟨op,front,back,hd,⟨hq,he⟩ | ⟨hq,he⟩ | ⟨hq,he⟩⟩
  all_goals rw [hd,he]
  · exact ⟨.refl _,.refl _⟩
  · exact ⟨.refl _,.refl _⟩
  · exact ⟨.refl _,.refl _⟩
  · have ht := h.reqs op (by rw [hq]; exact List.mem_append_right _ List.mem_cons_self)
    exact ⟨hnone (by simp [ht]),.refl _⟩
  · have ht := (h.inds op (by rw [hq]; exact List.mem_append_right _ List.mem_cons_self)).1
    exact ⟨hnone (by simp [ht]),.refl _⟩
  · refine ⟨?_,?_⟩
    · rw [← commands_append,hq]
      have hmid : (op :: (front ++ back)).Perm (front ++ op :: back) := List.perm_middle.symm
      exact hmid.filter isCommand
    · rw [hq]
      exact (BtAtt.removed_sublist front back op).filter isCommand

theorem settled_queue (h : Settled s) {att : BtAtt} {dropped : List SendOp} {caller : Caller}
    (hp : (commands dropped ++ commands att.writeQueue).Perm (commands s.att.writeQueue))
    (ho : (commands att.writeQueue).Sublist (commands s.att.writeQueue)) :
    Settled { s with att := att, discarded := s.discarded ++ dropped, caller := caller } := by
  refine ⟨?_,(ho.append_left _).trans h.order⟩
  rw [commands_append,List.append_assoc,List.append_assoc]
  refine List.Perm.trans ?_ h.partition
  rw [List.append_assoc]
  exact (hp.append_left _).append_left _

theorem settled_kept (h : Settled s) (hp : t.passed = s.passed) (hd : t.discarded = s.discarded)
    (ha : t.accepted = s.accepted)
    (hq : commands t.att.writeQueue = commands s.att.writeQueue) : Settled t := by
  refine ⟨?_,?_⟩
  · rw [hp,hd,ha,hq]
    exact h.partition
  · rw [hp,ha,hq]
    exact h.order

theorem settled_discard (h : Settled s) {att : BtAtt} {caller : Caller}
    (hq : att.writeQueue = []) :
    Settled { s with
      att := att, discarded := s.discarded ++ s.att.writeQueue, caller := caller } := by
  refine settled_queue h ?_ ?_
  · rw [hq]
    exact .of_eq (List.append_nil _)
  · rw [hq]
    exact List.nil_sublist _

theorem settled_accept (h : Settled s) {att : BtAtt}
    (hq : commands att.writeQueue = commands s.att.writeQueue ++ commands [op]) :
    Settled { s with att := att, accepted := s.accepted ++ commands [op] } := by
  refine ⟨?_,?_⟩
  · rw [hq,← List.append_assoc]
    exact h.partition.append_right _
  · rw [hq,← List.append_assoc]
    exact h.order.append_right _

theorem settled_writeValue (h : Settled s) (w : WriteValue) (c : Conditions) :
    Settled (s.writeValue w c) := by
  simp only [State.writeValue]
  split
  · split
    next op att hs =>
      obtain ⟨-,-,-,hq,-⟩ := send_effect hs
      have ha := settled_accept h hq
      rwa [(command_listed hs).2] at ha
    next => exact h
  · split
    next op att hs =>
      obtain ⟨-,-,-,hq,-⟩ := send_effect hs
      rw [(request_unlisted hs).2,List.append_nil] at hq
      exact settled_kept h rfl rfl rfl hq
    next => exact settled_kept h rfl rfl rfl rfl

theorem settled_step (s : State) (e : Event) (t : State) (h : s.att.Sorted) (hset : Settled s)
    (hs : machine.step s e = some t) : Settled t := by
  cases steps_of_step hs with
  | writeValue w c => exact settled_writeValue hset w c
  | traffic m =>
    obtain ⟨-,ha,hp⟩ := traffic_kept s m
    exact settled_kept hset hp (traffic_discarded s m) ha (traffic_att s m).1
  | canWrite hio ht =>
    obtain ⟨-,ha⟩ := canWriteData_kept ht
    obtain ⟨op,att,hp,hpass,hw,-⟩ := canWriteData_att ht
    have hq := pick_commands h hp
    obtain ⟨hpart,hord⟩ := hset
    refine ⟨?_,?_⟩
    · rw [hpass,ha,hw,canWriteData_discarded ht,commands_append]
      refine List.Perm.trans ?_ hpart
      rw [hq]
      grind
    · rw [hpass,ha,hw,commands_append,List.append_assoc,← hq]
      exact hord
  | canRead b bytes hio =>
    obtain ⟨-,ha,hp,hw,-⟩ := canReadData_kept s b bytes
    exact settled_kept hset hp (canReadData_discarded s b bytes) ha (by rw [hw])
  | timeout indication => exact settled_kept hset rfl rfl rfl (by rw [timeout_att])
  | disconnected => exact settled_discard hset rfl
  | resume => exact settled_kept hset rfl rfl rfl rfl
  | quit => exact settled_kept hset rfl rfl rfl rfl
  | unrefGatt => exact settled_kept hset rfl rfl rfl rfl
  | cancel =>
    obtain ⟨hp,ho⟩ := cancel_commands h _
    exact settled_queue hset hp ho
  | unrefAtt => exact settled_discard hset rfl
  | join => exact settled_kept hset rfl rfl rfl rfl

theorem writeValue_io (s : State) (w : WriteValue) (c : Conditions) :
    (s.writeValue w c).att.io = s.att.io := by
  simp only [State.writeValue]
  split
  · split
    · next hs => exact (send_effect hs).2.1
    · rfl
  · split
    · next hs => exact (send_effect hs).2.1
    · rfl

theorem linked_step (s : State) (e : Event) (t : State) (he : LinkUp e)
    (h : s.caller.holdsClient → s.att.io) (hs : machine.step s e = some t) :
    t.caller.holdsClient → t.att.io := by
  cases steps_of_step hs with
  | writeValue w c hc =>
    intro _
    rw [writeValue_io]
    exact h (by rw [hc]; rfl)
  | traffic m =>
    rw [(traffic_kept s _).1,(traffic_att s _).2]
    exact h
  | canWrite hio ht =>
    obtain ⟨op,att,hp,-,-,hatt⟩ := canWriteData_att ht
    rw [keeps_holdsClient (canWriteData_kept ht).1,hatt,pick_io hp]
    exact h
  | canRead b bytes _ =>
    obtain ⟨hk,-,-,-,hio⟩ := canReadData_kept s b bytes
    rw [keeps_holdsClient hk,hio]
    exact h
  | timeout indication => exact he.elim
  | disconnected => exact he.elim
  | resume hc => exact fun _ => h (by rw [hc]; rfl)
  | quit hc => exact fun _ => h (by rw [hc]; rfl)
  | unrefGatt hc => exact fun hh => by cases hh
  | cancel hc => exact fun hh => by cases hh
  | unrefAtt hc => exact fun hh => by cases hh
  | join hc => exact fun hh => by cases hh

theorem fresh_settled (h : Fresh s) : Settled s := by
  have hq : commands s.att.writeQueue = [] := by
    apply List.filter_eq_nil_iff.mpr
    intro op hop
    simp [isCommand,h.own op (.inr (.inr hop))]
  refine ⟨?_,?_⟩
  · rw [h.passed,h.discarded,h.accepted,hq]
    exact .refl _
  · rw [h.passed,h.accepted,hq]
    exact .refl _

def Caller.leaving : Caller → Bool
  | .destroying .quit => false
  | .destroying _ => true
  | _ => false

structure Left (u s : State) : Prop where
  leaving : s.caller.leaving
  accepted : s.accepted = u.accepted
  passed : commands u.passed <+: commands s.passed
  closed : s.caller = .destroying .attReleased ∨ s.caller = .destroying .joined → s.att.io = false

theorem keeps_leaving {c c' : Caller} (h : c.Keeps c') (hl : c.leaving) : c' = c := by
  rcases h with rfl | ⟨rc,rfl⟩
  · rfl
  · cases c with
    | waiting => cases hl
    | _ => rfl

theorem left_step {u : State} (s : State) (e : Event) (t : State) (h : Left u s)
    (hs : machine.step s e = some t) : Left u t := by
  have hl := h.leaving
  cases steps_of_step hs with
  | writeValue w c hc =>
    rw [hc] at hl
    cases hl
  | traffic m =>
    obtain ⟨hc,ha,hp⟩ := traffic_kept s m
    refine ⟨hc ▸ hl,ha.trans h.accepted,hp ▸ h.passed,?_⟩
    rw [hc,(traffic_att s m).2]
    exact h.closed
  | canWrite hio ht =>
    obtain ⟨hk,ha⟩ := canWriteData_kept ht
    obtain ⟨op,att,hpick,hpass,-,hatt⟩ := canWriteData_att ht
    have hc := keeps_leaving hk hl
    refine ⟨hc ▸ hl,ha.trans h.accepted,?_,?_⟩
    · rw [hpass,commands_append]
      exact h.passed.trans (List.prefix_append _ _)
    · rw [hc,hatt,pick_io hpick]
      exact h.closed
  | canRead b bytes hio =>
    obtain ⟨hk,ha,hp,-,hi⟩ := canReadData_kept s b bytes
    have hc := keeps_leaving hk hl
    refine ⟨hc ▸ hl,ha.trans h.accepted,hp ▸ h.passed,?_⟩
    rw [hc,hi]
    exact h.closed
  | timeout indication =>
    refine ⟨hl,h.accepted,h.passed,fun hc => ?_⟩
    have hi := h.closed hc
    cases indication <;> exact hi
  | disconnected => exact ⟨hl,h.accepted,h.passed,fun _ => rfl⟩
  | resume hc =>
    rw [hc] at hl
    cases hl
  | quit hc =>
    rw [hc] at hl
    cases hl
  | unrefGatt hc =>
    rw [hc] at hl
    cases hl
  | cancel => exact ⟨rfl,h.accepted,h.passed,fun hc => by simp [State.cancel] at hc⟩
  | unrefAtt => exact ⟨rfl,h.accepted,h.passed,fun _ => rfl⟩
  | join hc => exact ⟨rfl,h.accepted,h.passed,fun _ => h.closed (.inl hc)⟩

theorem step_discards {s : State} {e : Event} {t : State} (hs : machine.step s e = some t) :
    ∃ dropped, t.discarded = s.discarded ++ dropped ∧ (commands dropped = [] ↔ Spares s e) := by
  have hnone (hd : t.discarded = s.discarded) (h : Spares s e) :
      ∃ dropped, t.discarded = s.discarded ++ dropped ∧ (commands dropped = [] ↔ Spares s e) :=
    ⟨[],by rw [hd,List.append_nil],iff_of_true rfl h⟩
  cases steps_of_step hs with
  | writeValue w c =>
    refine hnone ?_ trivial
    simp only [State.writeValue]
    split <;> split <;> rfl
  | traffic m => exact hnone (traffic_discarded s m) trivial
  | canWrite hio ht => exact hnone (canWriteData_discarded ht) trivial
  | canRead b bytes hio => exact hnone (canReadData_discarded s b bytes) trivial
  | disconnected => exact ⟨_,rfl,.rfl⟩
  | cancel hc =>
    refine ⟨_,rfl,fun hn id ids hc' => ?_,fun hn => hn _ _ hc⟩
    cases hc.symm.trans hc'
    exact hn
  | unrefAtt => exact ⟨_,rfl,.rfl⟩
  | timeout indication => exact hnone rfl trivial
  | resume => exact hnone rfl trivial
  | quit => exact hnone rfl trivial
  | unrefGatt => exact hnone rfl trivial
  | join => exact hnone rfl trivial

theorem spared_iff {v : State} {after : List Event} (h : commands v.discarded = [])
    (ht : machine.run v after = some t) :
    commands t.discarded = [] ↔ machine.Along Spares v after := by
  refine machine.run_iff_along (fun _ => True) (fun s => commands s.discarded = []) Spares
    (fun _ _ _ _ _ => trivial) ?_ ?_ trivial h ht
  · intro s e t _ hn hs
    obtain ⟨dropped,hd,hiff⟩ := step_discards hs
    rw [hd,commands_append,hn,List.nil_append]
    exact hiff
  · intro s e t _ hn hs hc
    obtain ⟨dropped,hd,-⟩ := step_discards hs
    rw [hd,commands_append] at hc
    exact hn (List.append_eq_nil_iff.mp hc).1

theorem settled_run (hs : Fresh s) {ls : List Event} (hr : machine.run s ls = some t) :
    Ordered t ∧ Settled t :=
  machine.run_invariant (fun s => Ordered s ∧ Settled s)
    (fun s e t h ht => ⟨ordered_step s e t h.1 ht,settled_step s e t h.1.sorted h.2 ht⟩)
    ⟨fresh_ordered hs,fresh_settled hs⟩ hr

theorem left_unrefGatt {u v : State} (hv : machine.step u .unrefGatt = some v) :
    u.caller.holdsClient ∧ v.discarded = u.discarded ∧ Left u v := by
  cases steps_of_step hv with
  | unrefGatt hc =>
    exact ⟨by rw [hc]; rfl,rfl,⟨rfl,rfl,List.prefix_rfl,fun hc => by simp at hc⟩⟩

theorem sent_at_destruction {s u v t : State} (hs : Fresh s) {before after : List Event}
    (hup : ∀ e ∈ before, LinkUp e) (hu : machine.run s before = some u)
    (hv : machine.step u .unrefGatt = some v) (ht : machine.run v after = some t)
    (hj : t.caller = .destroying .joined) :
    t.accepted = commands u.passed ++ commands u.att.writeQueue ∧
    ∃ late, commands t.passed = commands u.passed ++ late ∧
      late.Sublist (commands u.att.writeQueue) ∧
      (late ++ commands t.discarded).Perm (commands u.att.writeQueue) ∧
      (commands t.passed = t.accepted ↔ machine.Along Spares v after) := by
  obtain ⟨hh,hdisc,hleft⟩ := left_unrefGatt hv
  have hio : u.att.io :=
    machine.run_invariant_of LinkUp (fun s => s.caller.holdsClient → s.att.io) linked_step hup
      (fun _ => hs.linked) hu hh
  obtain ⟨hou,hsu⟩ := settled_run hs hu
  have hacc := hou.conserved hio hh
  have hnone : commands u.discarded = [] := by
    have hl := hsu.partition.length_eq
    rw [hacc] at hl
    simp only [List.length_append] at hl
    exact List.length_eq_zero_iff.mp (by omega)
  have hrun : machine.run s (before ++ .unrefGatt :: after) = some t := by
    rw [machine.run_append,hu,Option.bind_some,machine.run_cons,hv,Option.bind_some,ht]
  obtain ⟨hot,hst⟩ := settled_run hs hrun
  have hlt : Left u t := machine.run_invariant (Left u) left_step hleft ht
  have hq : t.att.writeQueue = [] := hot.unlinked (hlt.closed (.inr hj))
  obtain ⟨late,hlate⟩ := hlt.passed
  obtain ⟨hpart,hord⟩ := hst
  have hqc : commands t.att.writeQueue = [] := by
    rw [hq]
    rfl
  rw [hqc,List.append_nil,hlt.accepted,hacc,← hlate] at hpart hord
  rw [List.append_assoc,List.perm_append_left_iff] at hpart
  rw [List.append_sublist_append_left] at hord
  refine ⟨hlt.accepted.trans hacc,late,hlate.symm,hord,hpart,?_⟩
  rw [← spared_iff (hdisc ▸ hnone) ht,hlt.accepted,hacc,← hlate,List.append_cancel_left_eq]
  have hlen := hpart.length_eq
  rw [List.length_append] at hlen
  constructor
  · intro he
    rw [he] at hlen
    exact List.length_eq_zero_iff.mp (by omega)
  · intro hd
    rw [hd,List.length_nil,Nat.add_zero] at hlen
    exact hord.eq_of_length hlen

theorem sent_at_destruction_overtaken :
    ∃ v t, machine.run established
        [.writeValue (MiniPro.call .little (.drive 0 0)) ⟨1,true,none⟩,
          .writeValue (MiniPro.call .little .exitRemoteControlMode) ⟨1,true,none⟩,.quit,
          .unrefGatt] = some v ∧
      machine.run v [.cancel,.canWrite true,.cancel,.unrefAtt,.join] = some t ∧
      t.accepted.length = 2 ∧ commands t.passed = t.accepted.tail ∧
      (commands t.passed = t.accepted ↔
        machine.Along Spares v [.cancel,.canWrite true,.cancel,.unrefAtt,.join]) := by
  refine ⟨_,_,rfl,rfl,rfl,rfl,?_⟩
  have hu : machine.run established
      [.writeValue (MiniPro.call .little (.drive 0 0)) ⟨1,true,none⟩,
        .writeValue (MiniPro.call .little .exitRemoteControlMode) ⟨1,true,none⟩,.quit] =
        some _ := rfl
  obtain ⟨-,late,-,-,-,hiff⟩ := sent_at_destruction fresh_established (by simp [LinkUp]) hu rfl
    (rfl : machine.run _ [.cancel,.canWrite true,.cancel,.unrefAtt,.join] = some _) rfl
  exact hiff

theorem queued_drive_discarded :
    ¬ ∀ (s t : State) (ls : List Event), Fresh s → (∀ e ∈ ls, LinkUp e) →
      machine.run s ls = some t → t.caller = .destroying .joined →
      commands t.passed = t.accepted := by
  intro h
  have hd := h established _
    [.writeValue (MiniPro.call .little (.drive 0 0)) ⟨1,true,none⟩,.quit,.unrefGatt,.cancel,
      .unrefAtt,.join]
    fresh_established (by simp [LinkUp]) rfl rfl
  cases hd

end Minipro.Link
