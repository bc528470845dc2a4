import Minipro.Bluez.Att

namespace Minipro.Att

inductive Issuer where
  | caller
  | bearer
deriving DecidableEq, Repr

structure SendOp where
  id : UInt32 := 0
  opcode : UInt8
  bytes : List UInt8
  issuer : Issuer
  callback : Bool
deriving DecidableEq, Repr

def SendOp.type (op : SendOp) : OpType := getOpType op.opcode

def SendOp.cancel (op : SendOp) : SendOp := { op with callback := false }

structure BtAtt where
  io : Bool
  mtu : Nat
  localSign : Bool
  nextSendId : UInt32
  reqQueue : List SendOp
  indQueue : List SendOp
  writeQueue : List SendOp
  pendingReq : Option SendOp
  pendingInd : Option SendOp
deriving DecidableEq, Repr

structure Send where
  opcode : UInt8
  pdu : List UInt8
  issuer : Issuer
  callback : Bool
  allocates : Bool
  signature : Option (List UInt8)

namespace BtAtt

def signed (att : BtAtt) (opcode : UInt8) : Bool := att.localSign ∧ opcode &&& 0x80 ≠ 0

def encodePdu (att : BtAtt) (s : Send) : Option (List UInt8) :=
  if (1 + (if att.signed s.opcode then 12 else 0) + s.pdu.length) % 65536 > att.mtu then none
  else if ¬ s.allocates then none
  else if ¬ att.signed s.opcode then some (s.opcode :: s.pdu)
  else s.signature.map fun signature => s.opcode :: s.pdu ++ signature

def createAttSendOp (att : BtAtt) (s : Send) : Option SendOp :=
  let type := getOpType s.opcode
  if type = .unknown then none
  else if s.callback ∧ type ≠ .req ∧ type ≠ .ind then none
  else if ¬ s.callback ∧ (type = .req ∨ type = .ind) then none
  else (att.encodePdu s).map fun bytes =>
    { opcode := s.opcode, bytes := bytes, issuer := s.issuer, callback := s.callback }

def enqueue (att : BtAtt) (op : SendOp) : BtAtt :=
  if op.type = .req then { att with reqQueue := att.reqQueue ++ [op] }
  else if op.type = .ind then { att with indQueue := att.indQueue ++ [op] }
  else { att with writeQueue := att.writeQueue ++ [op] }

def send (att : BtAtt) (s : Send) : Option (SendOp × BtAtt) :=
  if ¬ att.io then none
  else (att.createAttSendOp s).map fun op =>
    let id := if att.nextSendId < 1 then 1 else att.nextSendId
    let op := { op with id := id }
    (op,{ att with nextSendId := id+1 }.enqueue op)

def pickNextSendOp (att : BtAtt) : Option (SendOp × BtAtt) :=
  match att.writeQueue with
  | op :: ops => some (op,{ att with writeQueue := ops })
  | [] => match att.pendingReq,att.reqQueue with
    | none,op :: ops => some (op,{ att with reqQueue := ops })
    | _,_ => match att.pendingInd,att.indQueue with
      | none,op :: ops => some (op,{ att with indQueue := ops })
      | _,_ => none

def sent (att : BtAtt) (op : SendOp) : BtAtt :=
  if op.type = .req then { att with pendingReq := some op }
  else if op.type = .ind then { att with pendingInd := some op }
  else att

def retry (att : BtAtt) (op : SendOp) : BtAtt :=
  { att with pendingReq := none, reqQueue := op :: att.reqQueue }

def timeout (att : BtAtt) (indication : Bool) : BtAtt :=
  if indication then { att with pendingInd := none } else { att with pendingReq := none }

def cancelAll (att : BtAtt) : BtAtt :=
  { att with
    reqQueue := []
    indQueue := []
    writeQueue := []
    pendingReq := att.pendingReq.map SendOp.cancel
    pendingInd := att.pendingInd.map SendOp.cancel }

def disconnect (att : BtAtt) : BtAtt := { att with io := false }.cancelAll

def queueRemoveIf (ops : List SendOp) (id : UInt32) : Option (SendOp × List SendOp) :=
  (ops.find? fun op => op.id = id).map fun op => (op,ops.eraseP fun op => op.id = id)

def cancel (att : BtAtt) (id : UInt32) : Option SendOp × BtAtt :=
  if id = 0 then (none,att)
  else if att.pendingReq.any fun op => op.id = id then
    (none,{ att with pendingReq := att.pendingReq.map SendOp.cancel })
  else if att.pendingInd.any fun op => op.id = id then
    (none,{ att with pendingInd := att.pendingInd.map SendOp.cancel })
  else match queueRemoveIf att.reqQueue id with
    | some (op,ops) => (some op,{ att with reqQueue := ops })
    | none => match queueRemoveIf att.indQueue id with
      | some (op,ops) => (some op,{ att with indQueue := ops })
      | none => match queueRemoveIf att.writeQueue id with
        | some (op,ops) => (some op,{ att with writeQueue := ops })
        | none => (none,att)

-- The requests of the GATT client whose operations bt_att still holds.
def pendingRequests (att : BtAtt) : List UInt32 :=
  ((att.pendingReq.toList ++ att.reqQueue ++ att.writeQueue).filter
    fun op => op.issuer = .caller).map SendOp.id

def free (att : BtAtt) : BtAtt := { att.disconnect with pendingReq := none, pendingInd := none }

structure Sorted (att : BtAtt) : Prop where
  writes : ∀ op ∈ att.writeQueue, op.type ≠ .req ∧ op.type ≠ .ind ∧ op.callback = false
  reqs : ∀ op ∈ att.reqQueue, op.type = .req
  inds : ∀ op ∈ att.indQueue, op.type = .ind ∧ op.issuer = .bearer
  pending : ∀ op ∈ att.pendingReq, op.type = .req

variable {att att' : BtAtt} {op : SendOp}

theorem createAttSendOp_some {s : Send} (h : att.createAttSendOp s = some op) :
    op.opcode = s.opcode ∧ op.issuer = s.issuer ∧ op.callback = s.callback ∧
      (op.callback ↔ op.type = .req ∨ op.type = .ind) ∧ att.encodePdu s = some op.bytes := by
  simp only [createAttSendOp] at h
  split at h
  · cases h
  split at h
  · cases h
  split at h
  · cases h
  · next hc hn =>
    obtain ⟨bytes,hb,rfl⟩ := Option.map_eq_some_iff.mp h
    refine ⟨rfl,rfl,rfl,?_,hb⟩
    constructor
    · intro hs
      by_contra ht
      exact hc ⟨hs,not_or.mp ht⟩
    · intro ht
      by_contra hs
      exact hn ⟨hs,ht⟩

theorem send_some {s : Send} (h : att.send s = some (op,att')) :
    att.io ∧ ∃ id, att' = { att with nextSendId := id }.enqueue op ∧ op.opcode = s.opcode ∧
      op.issuer = s.issuer ∧ op.callback = s.callback ∧
      (op.callback ↔ op.type = .req ∨ op.type = .ind) ∧ att.encodePdu s = some op.bytes := by
  simp only [send] at h
  split at h
  · cases h
  · next hio =>
    obtain ⟨op',hop,he⟩ := Option.map_eq_some_iff.mp h
    cases he
    obtain ⟨ho,hi,hc,ht,hb⟩ := createAttSendOp_some hop
    exact ⟨not_not.mp hio,_,rfl,ho,hi,hc,ht,hb⟩

theorem pickNextSendOp_cases (h : att.pickNextSendOp = some (op,att')) :
    (∃ ops, att.writeQueue = op :: ops ∧ att' = { att with writeQueue := ops }) ∨
    (∃ ops, att.writeQueue = [] ∧ att.pendingReq = none ∧ att.reqQueue = op :: ops ∧
      att' = { att with reqQueue := ops }) ∨
    (∃ ops, att.writeQueue = [] ∧ att.indQueue = op :: ops ∧
      att' = { att with indQueue := ops }) := by
  simp only [pickNextSendOp] at h
  split at h
  · next ops hw =>
    cases h
    exact .inl ⟨_,hw,rfl⟩
  · next hw =>
    split at h
    · next hp hr =>
      cases h
      exact .inr (.inl ⟨_,hw,hp,hr,rfl⟩)
    · split at h
      · next hi =>
        cases h
        exact .inr (.inr ⟨_,hw,hi,rfl⟩)
      · cases h

@[simp] theorem enqueue_io (att : BtAtt) (op : SendOp) : (att.enqueue op).io = att.io := by
  simp only [enqueue]
  split
  · rfl
  · split <;> rfl

@[simp] theorem enqueue_pendingReq (att : BtAtt) (op : SendOp) :
    (att.enqueue op).pendingReq = att.pendingReq := by
  simp only [enqueue]
  split
  · rfl
  · split <;> rfl

theorem enqueue_reqQueue (att : BtAtt) (op : SendOp) :
    (att.enqueue op).reqQueue = att.reqQueue ++ if op.type = .req then [op] else [] := by
  simp only [enqueue]
  split
  · rfl
  · split <;> simp

theorem enqueue_writeQueue (att : BtAtt) (op : SendOp) :
    (att.enqueue op).writeQueue =
      att.writeQueue ++ if op.type = .req ∨ op.type = .ind then [] else [op] := by
  simp only [enqueue]
  split
  · next h => simp [h]
  · next h =>
    split
    · next hi => simp [hi]
    · next hi => simp [h,hi]

theorem sorted_enqueue (h : att.Sorted) (hc : op.callback ↔ op.type = .req ∨ op.type = .ind)
    (hi : op.type = .ind → op.issuer = .bearer) : (att.enqueue op).Sorted := by
  simp only [enqueue]
  split
  · next hr =>
    refine ⟨h.writes,?_,h.inds,h.pending⟩
    simpa [or_imp,forall_and,hr] using h.reqs
  split
  · next hn =>
    refine ⟨h.writes,h.reqs,?_,h.pending⟩
    simpa [or_imp,forall_and,hn,hi hn] using h.inds
  · next hr hn =>
    refine ⟨?_,h.reqs,h.inds,h.pending⟩
    have hf : op.callback = false := by simpa [hr,hn] using hc
    simpa [or_imp,forall_and,hr,hn,hf] using h.writes

theorem sorted_send (h : att.Sorted) {s : Send} (hs : att.send s = some (op,att'))
    (hi : op.type = .ind → op.issuer = .bearer) : att'.Sorted := by
  obtain ⟨-,id,rfl,-,-,-,hc,-⟩ := send_some hs
  have hid : { att with nextSendId := id }.Sorted := ⟨h.writes,h.reqs,h.inds,h.pending⟩
  exact sorted_enqueue hid hc hi

theorem sorted_sent (h : att.Sorted) (op : SendOp) : (att.sent op).Sorted := by
  simp only [sent]
  split
  · next hr => exact ⟨h.writes,h.reqs,h.inds,by simpa using hr⟩
  split
  · exact ⟨h.writes,h.reqs,h.inds,h.pending⟩
  · exact h

theorem sorted_pick (h : att.Sorted) (hp : att.pickNextSendOp = some (op,att')) : att'.Sorted := by
  obtain ⟨hw,hr,hi,hn⟩ := h
  rcases pickNextSendOp_cases hp with ⟨ops,he,rfl⟩ | ⟨ops,-,-,he,rfl⟩ | ⟨ops,-,he,rfl⟩
  · exact ⟨fun o ho => hw o (he ▸ List.mem_cons_of_mem op ho),hr,hi,hn⟩
  · exact ⟨hw,fun o ho => hr o (he ▸ List.mem_cons_of_mem op ho),hi,hn⟩
  · exact ⟨hw,hr,fun o ho => hi o (he ▸ List.mem_cons_of_mem op ho),hn⟩

theorem pick_req (h : att.Sorted) (hp : att.pickNextSendOp = some (op,att'))
    (ht : op.type = .req) : att'.pendingReq = none := by
  rcases pickNextSendOp_cases hp with ⟨ops,he,rfl⟩ | ⟨ops,-,hn,-,rfl⟩ | ⟨ops,-,he,rfl⟩
  · exact absurd ht (h.writes op (he ▸ List.mem_cons_self)).1
  · exact hn
  · rw [(h.inds op (he ▸ List.mem_cons_self)).1] at ht
    cases ht

theorem sorted_retry (h : att.Sorted) (ho : op.type = .req) : (att.retry op).Sorted := by
  refine ⟨h.writes,?_,h.inds,by simp [retry]⟩
  simpa [retry,ho] using h.reqs

theorem sorted_clearReq (h : att.Sorted) : { att with pendingReq := none }.Sorted :=
  ⟨h.writes,h.reqs,h.inds,by simp⟩

theorem sorted_disconnect (h : att.Sorted) : att.disconnect.Sorted := by
  refine ⟨by simp [disconnect,cancelAll],by simp [disconnect,cancelAll],
    by simp [disconnect,cancelAll],?_⟩
  intro op ho
  obtain ⟨op',hp,rfl⟩ := Option.map_eq_some_iff.mp ho
  exact h.pending op' hp

theorem queueRemoveIf_some {ops rest : List SendOp} {id : UInt32}
    (h : queueRemoveIf ops id = some (op,rest)) :
    ∃ front back, ops = front ++ op :: back ∧ rest = front ++ back := by
  obtain ⟨o,hf,he⟩ := Option.map_eq_some_iff.mp h
  obtain ⟨rfl,rfl⟩ := Prod.mk.inj he
  obtain ⟨hid,front,back,hops,hn⟩ := List.find?_eq_some_iff_append.mp hf
  refine ⟨front,back,hops,?_⟩
  rw [hops,List.eraseP_append_right _ fun a ha => by simpa using hn a ha,
    List.eraseP_cons_of_pos (by simpa using hid)]

theorem cancel_cases (att : BtAtt) (id : UInt32) :
    ((att.cancel id).1 = none ∧ ((att.cancel id).2 = att ∨
      (att.cancel id).2 = { att with pendingReq := att.pendingReq.map SendOp.cancel } ∨
      (att.cancel id).2 = { att with pendingInd := att.pendingInd.map SendOp.cancel })) ∨
    ∃ op front back, (att.cancel id).1 = some op ∧
      (att.reqQueue = front ++ op :: back ∧
          (att.cancel id).2 = { att with reqQueue := front ++ back } ∨
        att.indQueue = front ++ op :: back ∧
          (att.cancel id).2 = { att with indQueue := front ++ back } ∨
        att.writeQueue = front ++ op :: back ∧
          (att.cancel id).2 = { att with writeQueue := front ++ back }) := by
  simp only [cancel]
  split
  next => exact .inl ⟨rfl,.inl rfl⟩
  split
  next => exact .inl ⟨rfl,.inr (.inl rfl)⟩
  split
  next => exact .inl ⟨rfl,.inr (.inr rfl)⟩
  split
  next op ops h =>
    obtain ⟨front,back,hq,rfl⟩ := queueRemoveIf_some h
    exact .inr ⟨op,front,back,rfl,.inl ⟨hq,rfl⟩⟩
  next =>
    split
    next op ops h =>
      obtain ⟨front,back,hq,rfl⟩ := queueRemoveIf_some h
      exact .inr ⟨op,front,back,rfl,.inr (.inl ⟨hq,rfl⟩)⟩
    next =>
      split
      next op ops h =>
        obtain ⟨front,back,hq,rfl⟩ := queueRemoveIf_some h
        exact .inr ⟨op,front,back,rfl,.inr (.inr ⟨hq,rfl⟩)⟩
      next => exact .inl ⟨rfl,.inl rfl⟩

theorem removed_sublist (front back : List SendOp) (op : SendOp) :
    (front ++ back).Sublist (front ++ op :: back) :=
  (List.sublist_cons_self op back).append_left front

theorem sorted_cancel (h : att.Sorted) (id : UInt32) : (att.cancel id).2.Sorted := by
  rcases att.cancel_cases id with ⟨-,he | he | he⟩ | ⟨op,front,back,-,⟨hq,he⟩ | ⟨hq,he⟩ | ⟨hq,he⟩⟩
  all_goals rw [he]
  · exact h
  · refine ⟨h.writes,h.reqs,h.inds,?_⟩
    intro op ho
    obtain ⟨op',hp,rfl⟩ := Option.map_eq_some_iff.mp ho
    exact h.pending op' hp
  · exact ⟨h.writes,h.reqs,h.inds,h.pending⟩
  · exact ⟨h.writes,fun o ho => h.reqs o (hq ▸ (removed_sublist front back op).subset ho),h.inds,
      h.pending⟩
  · exact ⟨h.writes,h.reqs,fun o ho => h.inds o (hq ▸ (removed_sublist front back op).subset ho),
      h.pending⟩
  · exact ⟨fun o ho => h.writes o (hq ▸ (removed_sublist front back op).subset ho),h.reqs,h.inds,
      h.pending⟩

end BtAtt
end Minipro.Att
