import Minipro.Bluez.ServiceChanged

namespace Minipro.ServiceChanged
open GattDb GattHelpers GattClient Keyed Transition
open GattNotify (ServiceChangedOp changedRange svcChngdHandle svcChngdUuid)

variable {c t u : Client} {e : Event} {op : ServiceChangedOp} {sent : Bool} {r : Registration}
  {handle : UInt16} {arrived : List ServiceChangedOp} {ls ms : List Event} {db : Db}

inductive Phase (c : Client) : Prop where
  | initialising (hr : c.ready = false) (hs : c.inSvcChngd = false) (hh : c.handler = none)
      (op : DiscoveryOp) (stage : Stage) (hd : c.discovery = some ⟨.init,op,stage⟩)
  | failed (hr : c.ready = false) (hs : c.inSvcChngd = false) (hh : c.handler = none)
      (hd : c.discovery = none) (he : c.db.services = [])
  | idle (hr : c.ready = true) (hs : c.inSvcChngd = false) (hd : c.discovery = none)
  | rediscovering (hr : c.ready = true) (hs : c.inSvcChngd = true) (range : ServiceChangedOp)
      (op : DiscoveryOp) (stage : Stage) (hd : c.discovery = some ⟨.serviceChanged range,op,stage⟩)

theorem Phase.serving (h : Phase c) (hr : c.ready = true) :
    c.inSvcChngd = false ∧ c.discovery = none ∨
    c.inSvcChngd = true ∧ ∃ range op stage,
      c.discovery = some ⟨.serviceChanged range,op,stage⟩ := by
  cases h with
  | initialising hn => exact nomatch hr.symm.trans hn
  | failed hn => exact nomatch hr.symm.trans hn
  | idle _ hs hd => exact .inl ⟨hs,hd⟩
  | rediscovering _ hs range op stage hd => exact .inr ⟨hs,range,op,stage,hd⟩

theorem Phase.ready (h : Phase c) (hh : c.handler ≠ none) : c.ready = true := by
  cases h with
  | initialising _ _ hn => exact absurd hn hh
  | failed _ _ hn => exact absurd hn hh
  | idle hr => exact hr
  | rediscovering hr => exact hr

def Client.inFlight (c : Client) : List ServiceChangedOp :=
  match c.discovery with
  | some ⟨.serviceChanged op,_,_⟩ => [op]
  | _ => []

def Client.accounted (c : Client) : List ServiceChangedOp :=
  c.changes ++ c.inFlight ++ c.svcChngdQueue

structure Accounted (c : Client) (arrived : List ServiceChangedOp) : Prop where
  phase : Phase c
  perm : (c.accounted ++ c.refused).Perm arrived
  ordered : c.refused = [] → c.accounted = arrived ∧ (c.inSvcChngd = false → c.svcChngdQueue = [])

theorem Accounted.listening (h : Accounted c arrived) (hr : c.ready = true) (id : UInt32)
    (handler : Option UInt16) (enabling : Bool) :
    Accounted (c.listening id handler enabling) arrived := by
  refine ⟨?_,h.perm,h.ordered⟩
  rcases h.phase.serving hr with ⟨hs,hd⟩ | ⟨hs,range,dop,stage,hd⟩
  · exact .idle hr hs hd
  · exact .rediscovering hr hs range dop stage hd

theorem accounted_process (hr : c.ready = true) (hs : c.inSvcChngd = false)
    (hd : c.discovery = none)
    (hp : (c.changes ++ [op] ++ c.svcChngdQueue ++ c.refused).Perm arrived)
    (ho : c.refused = [] → c.changes ++ [op] ++ c.svcChngdQueue = arrived) :
    Accounted (c.processServiceChanged op sent) arrived := by
  obtain ⟨handler,he⟩ := remove_eq c op
  rw [Client.processServiceChanged,he]
  split
  · exact ⟨.rediscovering hr rfl op _ _ rfl,hp,fun h => ⟨ho h,fun hn => by cases hn⟩⟩
  · refine ⟨.idle hr hs hd,?_,fun h => ?_⟩
    · refine List.Perm.trans ?_ hp
      simp only [Client.accounted,Client.inFlight,Client.clearRange,Client.listening,hd]
      grind
    · exact absurd h (by simp)

theorem Accounted.clearRange (h : Accounted c arrived) (hr : c.ready = true)
    (op : ServiceChangedOp) : Accounted (c.clearRange op) arrived := by
  refine ⟨?_,h.perm,h.ordered⟩
  rcases h.phase.serving hr with ⟨hs,hd⟩ | ⟨hs,range,dop,stage,hd⟩
  · exact .idle hr hs hd
  · exact .rediscovering hr hs range dop stage hd

theorem accounted_queued (hr : c.ready = true) (hs : c.inSvcChngd = false)
    (hd : c.discovery = none) (hp : (c.changes ++ c.svcChngdQueue ++ c.refused).Perm arrived)
    (ho : c.refused = [] → c.changes ++ c.svcChngdQueue = arrived) :
    Accounted (c.processQueued r sent) arrived := by
  rw [Client.processQueued]
  split
  next hq =>
    have hc : Accounted c arrived := by
      refine ⟨.idle hr hs hd,?_,fun h => ⟨?_,fun _ => hq⟩⟩
      · simpa [Client.accounted,Client.inFlight,hd] using hp
      · simpa [Client.accounted,Client.inFlight,hd] using ho h
    obtain ⟨id,handler,enabling,he⟩ := register_eq c r
    rw [he]
    exact hc.listening hr id handler enabling
  next next rest hq =>
    rw [hq] at hp ho
    refine accounted_process hr hs hd ?_ fun h => ?_
    · simpa using hp
    · simpa using ho h

theorem process_ready (c : Client) (op : ServiceChangedOp) (sent : Bool) :
    (c.processServiceChanged op sent).ready = c.ready := by
  obtain ⟨handler,he⟩ := remove_eq c op
  rw [Client.processServiceChanged,he]
  split
  · rfl
  · rfl

theorem queued_ready (c : Client) (r : Registration) (sent : Bool) :
    (c.processQueued r sent).ready = c.ready := by
  rw [Client.processQueued]
  split
  · obtain ⟨id,handler,enabling,he⟩ := register_eq c r
    rw [he]
    rfl
  · exact process_ready _ _ sent

theorem accounted_unref (h : Accounted c arrived) (hr : c.ready = true) (success : Bool) :
    Accounted (c.discoveryOpUnref (.serviceChanged op) success) arrived := by
  rw [Client.discoveryOpUnref]
  split
  · exact h
  · exact h.clearRange hr op

theorem clear_services (db : Db) : db.clear.services = [] := by
  simp [Db.clear,Db.destroy]

theorem init_eq (c : Client) (r : Registration) : ∃ id handler enabling done,
    c.initComplete true r = ({ c.listening id handler enabling with ready := done },done) ∧
      (done = true ∨ handler = c.handler) := by
  simp only [Client.initComplete,if_true,Client.registerServiceChanged]
  split
  · exact ⟨_,_,_,_,rfl,.inl rfl⟩
  · split
    · exact ⟨_,_,_,_,rfl,.inl rfl⟩
    · split
      · exact ⟨_,_,_,_,rfl,.inr rfl⟩
      · exact ⟨_,_,_,_,rfl,.inl rfl⟩

theorem initialised_unref {done : Bool} (hr : c.ready = done) (hs : c.inSvcChngd = false)
    (hd : c.discovery = none) (hh : done = true ∨ c.handler = none)
    (hp : (c.changes ++ [] ++ c.svcChngdQueue ++ c.refused).Perm arrived)
    (ho : c.refused = [] → c.changes ++ [] ++ c.svcChngdQueue = arrived ∧
      (c.inSvcChngd = false → c.svcChngdQueue = [])) :
    Accounted (c.discoveryOpUnref .init done) arrived := by
  have ha : c.accounted = c.changes ++ [] ++ c.svcChngdQueue := by
    rw [Client.accounted,Client.inFlight,hd]
  rw [← ha] at hp ho
  rw [Client.discoveryOpUnref]
  split
  next hdone => exact ⟨.idle (hr.trans hdone) hs hd,hp,ho⟩
  next hdone =>
    have hn : c.ready = false := hr.trans (Bool.not_eq_true _ ▸ hdone)
    exact ⟨.failed hn hs (hh.resolve_left hdone) hd (clear_services _),hp,ho⟩

theorem accounted_init (hs : c.inSvcChngd = false) (hh : c.handler = none)
    (hd : c.discovery = none) (success : Bool)
    (hp : (c.changes ++ [] ++ c.svcChngdQueue ++ c.refused).Perm arrived)
    (ho : c.refused = [] → c.changes ++ [] ++ c.svcChngdQueue = arrived ∧
      (c.inSvcChngd = false → c.svcChngdQueue = [])) :
    Accounted ((c.initComplete success r).1.discoveryOpUnref .init (c.initComplete success r).2)
      arrived := by
  cases success with
  | false => exact initialised_unref (c := { c with ready := false }) rfl hs hd (.inr hh) hp ho
  | true =>
    obtain ⟨id,handler,enabling,done,he,hdone⟩ := init_eq c r
    rw [he]
    exact initialised_unref (c := { c.listening id handler enabling with ready := done }) rfl hs hd
      (hdone.imp_right (·.trans hh)) hp ho

theorem Accounted.initialised (h : Accounted c arrived) (hr : c.ready = false)
    (hs : c.inSvcChngd = false) (hh : c.handler = none) {dop : DiscoveryOp} {stage : Stage}
    (hd : c.discovery = some ⟨.init,dop,stage⟩) {v : Discovering}
    (ht : c.discovered .init v r sent = some t) : Accounted t arrived := by
  have hp := h.perm
  have ho := h.ordered
  simp only [Client.accounted,Client.inFlight,hd] at hp ho
  simp only [Client.discovered] at ht
  split at ht
  · obtain rfl := Option.some.inj ht
    exact ⟨.initialising hr hs hh _ _ rfl,hp,ho⟩
  · next success attEcode _ =>
    obtain rfl := Option.some.inj ht
    exact accounted_init (c := { c with db := v.db,discovery := none }) hs hh rfl success hp ho
  · cases ht

theorem Accounted.rediscovered (h : Accounted c arrived) (hr : c.ready = true)
    (hs : c.inSvcChngd = true) {dop : DiscoveryOp} {stage : Stage}
    (hd : c.discovery = some ⟨.serviceChanged op,dop,stage⟩) {v : Discovering}
    (ht : c.discovered (.serviceChanged op) v r sent = some t) : Accounted t arrived := by
  have hp := h.perm
  have ho := fun hn => (h.ordered hn).1
  simp only [Client.accounted,Client.inFlight,hd] at hp ho
  simp only [Client.discovered] at ht
  split at ht
  · obtain rfl := Option.some.inj ht
    exact ⟨.rediscovering hr hs op _ _ rfl,hp,
      fun hn => ⟨ho hn,fun hf => by cases hs.symm.trans hf⟩⟩
  · next success attEcode _ =>
    obtain rfl := Option.some.inj ht
    have hq : Accounted (({ c with db := v.db,discovery := none } : Client).serviceChangedComplete
        op success attEcode r sent) arrived :=
      accounted_queued (c := { c with
        db := _,discovery := none,inSvcChngd := false,changes := c.changes ++ [op] }) hr rfl rfl hp ho
    exact accounted_unref hq ((queued_ready _ r sent).trans hr) success
  · cases ht

theorem Accounted.reported (h : Accounted c arrived) {d : Discovery} (hd : c.discovery = some d)
    {v : Discovering} (ht : c.discovered d.purpose v r sent = some t) : Accounted t arrived := by
  cases h.phase with
  | initialising hr hs hh dop stage hn =>
    cases hn.symm.trans hd
    exact h.initialised hr hs hh hd ht
  | failed _ _ _ hn => exact nomatch hn.symm.trans hd
  | idle _ _ hn => exact nomatch hn.symm.trans hd
  | rediscovering hr hs range dop stage hn =>
    cases hn.symm.trans hd
    exact h.rediscovered hr hs hd ht

theorem Accounted.indicated (h : Accounted c arrived) (value : List UInt8) (hr : c.ready = true) :
    Accounted (c.serviceChangedCb value sent) (arrived ++ (changedRange value).toList) := by
  rw [Client.serviceChangedCb]
  cases hv : changedRange value with
  | none => simpa using h
  | some op =>
    simp only [Option.toList_some]
    rcases h.phase.serving hr with ⟨hs,hd⟩ | ⟨hs,range,dop,stage,hd⟩
    · rw [if_pos (by simp [hs])]
      have hp := h.perm
      have ho := h.ordered
      simp only [Client.accounted,Client.inFlight,hd,List.append_nil] at hp ho
      refine accounted_process hr hs hd ?_ fun hn => ?_
      · refine List.Perm.trans ?_ (hp.append_right [op])
        grind
      · obtain ⟨he,hq⟩ := ho hn
        rw [hq hs,List.append_nil] at he
        rw [hq hs,List.append_nil,he]
    · rw [if_neg (by simp [hs])]
      refine ⟨.rediscovering hr hs range dop stage hd,?_,
        fun hn => ⟨?_,fun hf => by cases hs.symm.trans hf⟩⟩
      · refine List.Perm.trans ?_ (h.perm.append_right [op])
        simp only [Client.accounted,Client.inFlight]
        grind
      · rw [← (h.ordered hn).1]
        simp only [Client.accounted,Client.inFlight,List.append_assoc]

-- The ranges of the indications for handle, and of those that reach service_changed_cb.
def Event.indicated (handle : UInt16) : Event → List ServiceChangedOp
  | .indication valueHandle value _ =>
    if valueHandle = handle then (changedRange value).toList else []
  | _ => []

def Event.heard (c : Client) (e : Event) : List ServiceChangedOp :=
  c.handler.elim [] fun handle => e.indicated handle

def indicated (handle : UInt16) (ls : List Event) : List ServiceChangedOp :=
  ls.flatMap (Event.indicated handle)

def heard : Client → List Event → List ServiceChangedOp
  | _, [] => []
  | c, e :: ls => e.heard c ++ (machine.step c e).elim [] fun t => heard t ls

theorem heard_concat (hr : machine.run c ls = some t) (e : Event) :
    heard c (ls ++ [e]) = heard c ls ++ e.heard t := by
  induction ls generalizing c with
  | nil =>
    obtain rfl := Option.some.inj hr
    rw [List.nil_append,heard]
    cases hs : machine.step c e with
    | none => simp [heard,hs]
    | some u => simp [heard,hs]
  | cons l ls ih =>
    obtain ⟨u,hu,hr⟩ := Option.bind_eq_some_iff.mp hr
    rw [List.cons_append,heard,heard,hu,Option.elim_some,Option.elim_some,ih hr,List.append_assoc]

theorem Accounted.step (h : Accounted c arrived) (ht : machine.step c e = some t) :
    Accounted t (arrived ++ e.heard c) := by
  cases e with
  | report rep r sent =>
    obtain ⟨d,hd,ht⟩ := Option.bind_eq_some_iff.mp ht
    obtain ⟨v,_,ht⟩ := Option.bind_eq_some_iff.mp ht
    have hn : (Event.report rep r sent).heard c = [] := by
      cases hc : c.handler <;> simp [Event.heard,Event.indicated,hc]
    rw [hn,List.append_nil]
    exact h.reported hd ht
  | registered refused attEcode =>
    obtain ⟨⟨_,hh⟩,ht⟩ := Option.ite_none_right_eq_some.mp ht
    obtain rfl := Option.some.inj ht
    obtain ⟨handle,hh⟩ := Option.isSome_iff_exists.mp hh
    have hn : (Event.registered refused attEcode).heard c = [] := by
      simp [Event.heard,Event.indicated,hh]
    obtain ⟨id,handler,he⟩ := answered_eq c refused attEcode
    rw [hn,List.append_nil,he]
    exact h.listening (h.phase.ready (by simp [hh])) id handler false
  | indication valueHandle value sent =>
    obtain rfl := Option.some.inj ht
    rw [Client.notifyCb]
    split
    next hh =>
      have hv : (Event.indication valueHandle value sent).heard c = (changedRange value).toList := by
        simp [Event.heard,Event.indicated,hh]
      rw [hv]
      exact h.indicated value (h.phase.ready (by simp [hh]))
    next hh =>
      have hv : (Event.indication valueHandle value sent).heard c = [] := by
        cases hc : c.handler with
        | none => simp [Event.heard,hc]
        | some handle =>
          have hne : valueHandle ≠ handle := fun he => hh (he ▸ hc)
          simp [Event.heard,Event.indicated,hc,hne]
      rw [hv,List.append_nil]
      exact h

theorem accounted_run (hr : machine.run (init db) ls = some c) :
    Accounted c (heard (init db) ls) := by
  refine (machine.run_history (fun ls c => machine.run (init db) ls = some c ∧
    Accounted c (heard (init db) ls)) ?_ ?_ hr).2
  · rintro ls c e t ⟨hc,h⟩ ht
    refine ⟨?_,?_⟩
    · rw [machine.run_append,hc,Option.bind_some,machine.run_cons,ht]
      rfl
    · rw [heard_concat hc]
      exact h.step ht
  · exact ⟨rfl,.initialising rfl rfl rfl _ _ rfl,.refl _,fun _ => ⟨rfl,fun _ => rfl⟩⟩

def Client.listens (c : Client) : UInt32 × Option UInt16 := (c.svcChngdIndId,c.handler)

-- The ranges that process_service_changed has been called for.
def Client.processed (c : Client) : List ServiceChangedOp := c.changes ++ c.inFlight ++ c.refused

-- What a step that processes the ranges ops makes of the client's own registration.
inductive Listens (old : UInt32 × Option UInt16) (ops : List ServiceChangedOp) (e : Event)
    (t : Client) : Prop where
  | kept (hc : ∀ handle, old.2 = some handle → ∀ op ∈ ops, covers op handle = false)
      (hl : t.listens = old)
  | registered (id : UInt32) (handle : UInt16) (h0 : old.1 = 0) (hid : id ≠ 0)
      (hl : t.listens = (id,some handle))
  | pruned (op : ServiceChangedOp) (handle : UInt16) (hm : op ∈ ops)
      (hh : old.2 = some handle) (hc : covers op handle) (hl : t.listens = (old.1,none))
  | refused (attEcode : UInt8) (he : e = .registered true attEcode) (hh : old.2 ≠ none)
      (hl : t.handler = none)

def Steps (c : Client) (e : Event) (t : Client) : Prop := ∃ ops,
  t.processed.Perm (c.processed ++ ops) ∧ Listens c.listens ops e t

variable {old : UInt32 × Option UInt16}

theorem Listens.still (hl : t.listens = old) : Listens old [] e t :=
  .kept (fun _ _ _ h => by cases h) hl

theorem Steps.still (hp : t.processed = c.processed) (hl : t.listens = c.listens) : Steps c e t :=
  ⟨[],by rw [hp,List.append_nil],.still hl⟩

theorem Steps.from (h : Steps c e t) (hp : c.processed = u.processed)
    (hl : c.listens = u.listens) : Steps u e t := by
  rwa [Steps,hp,hl] at h

theorem Steps.to (h : Steps c e t) (hp : u.processed = t.processed) (hl : u.listens = t.listens) :
    Steps c e u := by
  obtain ⟨ops,hperm,h⟩ := h
  refine ⟨ops,hp ▸ hperm,?_⟩
  cases h with
  | kept hc h => exact .kept hc (hl.trans h)
  | registered id handle h0 hid h => exact .registered id handle h0 hid (hl.trans h)
  | pruned op handle hm hh hc h => exact .pruned op handle hm hh hc (hl.trans h)
  | refused attEcode he hh h => exact .refused attEcode he hh ((congrArg Prod.snd hl).trans h)

theorem register_steps (c : Client) (r : Registration) (e : Event) :
    Steps c e (c.registerServiceChanged r).1 := by
  rw [Client.registerServiceChanged]
  split
  next => exact .still rfl rfl
  next h0 =>
    split
    next => exact .still rfl rfl
    next handle _ =>
      split
      next => exact .still rfl rfl
      next hid =>
        exact ⟨[],by rw [List.append_nil]; rfl,.registered r.id handle (not_not.mp h0) hid rfl⟩

theorem remove_listens (c : Client) (op : ServiceChangedOp) (e : Event)
    (ht : t.listens = (c.removeNotify op).listens) : Listens c.listens [op] e t := by
  rw [Client.removeNotify] at ht
  split at ht
  next hcov =>
    obtain ⟨handle,hh,hc⟩ := (Option.any_eq_true _ _).mp hcov
    exact .pruned op handle (List.mem_singleton_self op) hh hc ht
  next hcov =>
    refine .kept (fun handle hh x hx => ?_) ht
    obtain rfl := List.mem_singleton.mp hx
    have hh : c.handler = some handle := hh
    simpa [hh] using hcov

theorem process_steps (hd : c.discovery = none) (op : ServiceChangedOp) (sent : Bool) (e : Event) :
    Steps c e (c.processServiceChanged op sent) := by
  obtain ⟨handler,he⟩ := remove_eq c op
  have hl : (c.processServiceChanged op sent).listens = (c.removeNotify op).listens := by
    rw [Client.processServiceChanged]
    split
    · rfl
    · rfl
  refine ⟨[op],?_,remove_listens c op e hl⟩
  rw [Client.processServiceChanged,he]
  split
  · simp only [Client.processed,Client.inFlight,Client.clearRange,Client.listening,hd,
      List.append_nil,List.append_assoc]
    exact List.perm_append_comm.append_left c.changes
  · simp only [Client.processed,Client.inFlight,Client.clearRange,Client.listening,hd,
      List.append_nil,List.append_assoc]
    exact .refl _

theorem queued_steps (hd : c.discovery = none) (r : Registration) (sent : Bool) (e : Event) :
    Steps c e (c.processQueued r sent) := by
  rw [Client.processQueued]
  split
  next => exact register_steps c r e
  next next rest _ =>
    exact (process_steps (c := { c with svcChngdQueue := rest }) hd next sent e).from rfl rfl

theorem unref_steps (h : Steps c e t) (purpose : Purpose) (success : Bool) :
    Steps c e (t.discoveryOpUnref purpose success) := by
  rw [Client.discoveryOpUnref]
  split
  · exact h
  · cases purpose with
    | init => exact h.to rfl rfl
    | serviceChanged op => exact h.to rfl rfl

theorem discovered_steps {purpose : Purpose} {dop : DiscoveryOp} {stage : Stage}
    (hd : c.discovery = some ⟨purpose,dop,stage⟩) {v : Discovering} (e : Event)
    (ht : c.discovered purpose v r sent = some t) : Steps c e t := by
  rw [Client.discovered] at ht
  split at ht
  next =>
    obtain rfl := Option.some.inj ht
    refine .still ?_ rfl
    simp only [Client.processed,Client.inFlight,hd]
    cases purpose with
    | init => rfl
    | serviceChanged op => rfl
  next success attEcode _ =>
    obtain rfl := Option.some.inj ht
    refine unref_steps ?_ purpose _
    cases purpose with
    | init =>
      have hp : ({ c with db := v.db,discovery := none } : Client).processed = c.processed := by
        simp only [Client.processed,Client.inFlight,hd]
      cases success with
      | false => exact .still hp rfl
      | true =>
        exact ((register_steps { c with db := v.db,discovery := none } r e).from hp rfl).to rfl rfl
    | serviceChanged op =>
      refine (queued_steps (c := { c with
        db := _,discovery := none,inSvcChngd := false,changes := c.changes ++ [op] }) rfl r sent
          e).from ?_ rfl
      simp only [Client.processed,Client.inFlight,hd,List.append_nil]
  next => cases ht

theorem heard_of_handler (hh : c.handler = some handle) (e : Event) :
    e.heard c = e.indicated handle := by
  rw [Event.heard,hh,Option.elim_some]

theorem step_steps (h : Accounted c arrived) (ht : machine.step c e = some t) : Steps c e t := by
  cases e with
  | report rep r sent =>
    obtain ⟨⟨purpose,dop,stage⟩,hd,ht⟩ := Option.bind_eq_some_iff.mp ht
    obtain ⟨v,_,ht⟩ := Option.bind_eq_some_iff.mp ht
    exact discovered_steps hd (.report rep r sent) ht
  | registered refused attEcode =>
    obtain ⟨⟨_,hh⟩,ht⟩ := Option.ite_none_right_eq_some.mp ht
    obtain rfl := Option.some.inj ht
    cases refused with
    | false => exact .still rfl rfl
    | true =>
      refine ⟨[],?_,.refused attEcode rfl (Option.isSome_iff_ne_none.mp hh) ?_⟩
      · obtain ⟨id,handler,he⟩ := answered_eq c true attEcode
        rw [he,List.append_nil]
        exact .refl _
      · rw [Client.enableCccCallback,if_pos rfl,Client.serviceChangedRegisterCb]
        split
        · rfl
        · rfl
  | indication valueHandle value sent =>
    obtain rfl := Option.some.inj ht
    rw [Client.notifyCb]
    split
    next hh =>
      rw [Client.serviceChangedCb]
      split
      next => exact .still rfl rfl
      next op _ =>
        split
        next hs =>
          rcases h.phase.serving (h.phase.ready (by simp [hh])) with ⟨_,hd⟩ | ⟨hs',_⟩
          · exact process_steps hd op sent _
          · exact absurd hs' hs
        next => exact .still rfl rfl
    next => exact .still rfl rfl

theorem run_processed (h : Accounted c arrived) (hr : machine.run c ms = some t) :
    ∃ ops, t.processed.Perm (c.processed ++ ops) := by
  induction ms generalizing c arrived with
  | nil =>
    obtain rfl := Option.some.inj hr
    exact ⟨[],by rw [List.append_nil]⟩
  | cons e ms ih =>
    obtain ⟨u,hu,hr⟩ := Option.bind_eq_some_iff.mp hr
    obtain ⟨ops,hp,_⟩ := step_steps h hu
    obtain ⟨ops',hp'⟩ := ih (h.step hu) hr
    exact ⟨ops ++ ops',by
      rw [← List.append_assoc]
      exact hp'.trans (hp.append_right ops')⟩

def Named (c : Client) : Prop := c.handler ≠ none → c.svcChngdIndId ≠ 0

theorem named_step (h : Named c) (ht : Steps c e t) : Named t := by
  intro hh
  obtain ⟨ops,_,hl⟩ := ht
  cases hl with
  | kept _ hl =>
    obtain ⟨hid,hhandler⟩ := Prod.mk.inj hl
    rw [hid]
    exact h (hhandler ▸ hh)
  | registered id handle _ hid hl => rwa [(Prod.mk.inj hl).1]
  | pruned op handle _ _ _ hl => exact absurd (Prod.mk.inj hl).2 hh
  | refused attEcode _ _ hl => exact absurd hl hh

-- register_service_changed registers anew only once a discovery has completed, and not at all while
-- svc_chngd_ind_id is set.
def Client.Deaf (c : Client) : Prop :=
  c.handler = none ∧ (c.svcChngdIndId ≠ 0 ∨ c.discovery = none)

theorem Client.Deaf.heard (h : c.Deaf) (e : Event) : e.heard c = [] := by
  rw [Event.heard,h.1,Option.elim_none]

theorem deaf_step (ha : Accounted c arrived) (h : c.Deaf) (ht : machine.step c e = some t) :
    t.Deaf := by
  obtain ⟨hh,hid | hd⟩ := h
  · obtain ⟨ops,_,hl⟩ := step_steps ha ht
    cases hl with
    | kept _ hl =>
      obtain ⟨hid',hh'⟩ := Prod.mk.inj hl
      exact ⟨hh'.trans hh,.inl (by rwa [hid'])⟩
    | registered _ _ h0 => exact absurd h0 hid
    | pruned _ _ _ hs => exact nomatch hh.symm.trans hs
    | refused _ _ hs => exact absurd hh hs
  · cases e with
    | report rep r sent => simp [machine,hd] at ht
    | registered refused attEcode => simp [machine,hh] at ht
    | indication valueHandle value sent =>
      obtain rfl := Option.some.inj ht
      rw [Client.notifyCb,if_neg (by simp [hh])]
      exact ⟨hh,.inr hd⟩

theorem deaf_heard (ha : Accounted c arrived) (h : c.Deaf) (ms : List Event) : heard c ms = [] := by
  induction ms generalizing c arrived with
  | nil => rfl
  | cons e ms ih =>
    rw [heard,h.heard,List.nil_append]
    cases ht : machine.step c e with
    | none => rfl
    | some t => exact ih (ha.step ht) (deaf_step ha h ht)

theorem deaf_run (ha : Accounted c arrived) (h : c.Deaf) (hr : machine.run c ms = some t) :
    t.Deaf := by
  refine (machine.run_invariant (fun c => (∃ arrived, Accounted c arrived) ∧ c.Deaf) ?_
    ⟨⟨arrived,ha⟩,h⟩ hr).2
  rintro c e t ⟨⟨arrived,ha⟩,h⟩ ht
  exact ⟨⟨_,ha.step ht⟩,deaf_step ha h ht⟩

-- The handler hears every indication of its handle for as long as no range that covers it has been
-- processed, and the client none from then on.
def Attends (c : Client) (handle : UInt16) (ms : List Event) (t : Client) : Prop := ∃ ops,
  t.processed.Perm (c.processed ++ ops) ∧
    (t.handler = some handle ∧ heard c ms = indicated handle ms ∧
        (∀ op ∈ ops, covers op handle = false) ∨
      t.Deaf ∧ ∃ op ∈ ops, covers op handle)

theorem attends_run (ha : Accounted c arrived) (hn : Named c) (hh : c.handler = some handle)
    (hr : machine.run c ms = some t) (hok : ∀ attEcode, Event.registered true attEcode ∉ ms) :
    Attends c handle ms t := by
  induction ms generalizing c arrived with
  | nil =>
    obtain rfl := Option.some.inj hr
    exact ⟨[],by rw [List.append_nil],.inl ⟨hh,rfl,fun _ h => by cases h⟩⟩
  | cons e ms ih =>
    obtain ⟨u,hu,hr⟩ := Option.bind_eq_some_iff.mp hr
    have hs : Steps c e u := step_steps ha hu
    obtain ⟨ops,hp,hl⟩ := step_steps ha hu
    cases hl with
    | kept hc hl =>
      obtain ⟨hid,hhandler⟩ := Prod.mk.inj hl
      obtain ⟨ops',hp',hlater⟩ := ih (ha.step hu) (named_step hn hs) (hhandler.trans hh) hr
        fun a hm => hok a (List.mem_cons_of_mem e hm)
      refine ⟨ops ++ ops',?_,?_⟩
      · rw [← List.append_assoc]
        exact hp'.trans (hp.append_right ops')
      · rcases hlater with ⟨ht,hheard,hcov⟩ | ⟨hdeaf,op,hop,hcov⟩
        · refine .inl ⟨ht,?_,fun op hop => ?_⟩
          · rw [heard,hu,Option.elim_some,hheard,heard_of_handler hh,indicated,indicated,
              List.flatMap_cons]
          · exact (List.mem_append.mp hop).elim (hc handle hh op) (hcov op)
        · exact .inr ⟨hdeaf,op,List.mem_append_right ops hop,hcov⟩
    | registered id handle' h0 => exact absurd h0 (hn (by simp [hh]))
    | pruned op handle' hm hh' hcov hl =>
      obtain rfl := Option.some.inj (hh.symm.trans hh')
      obtain ⟨hid,hnone⟩ := Prod.mk.inj hl
      have hdeaf : u.Deaf := ⟨hnone,.inl (hid ▸ hn (by simp [hh]))⟩
      obtain ⟨ops',hp'⟩ := run_processed (ha.step hu) hr
      refine ⟨ops ++ ops',?_,.inr ⟨deaf_run (ha.step hu) hdeaf hr,op,
        List.mem_append_left ops' hm,hcov⟩⟩
      rw [← List.append_assoc]
      exact hp'.trans (hp.append_right ops')
    | refused attEcode he => exact absurd (he ▸ List.mem_cons_self) (hok attEcode)

theorem named_run (hr : machine.run (init db) ls = some c) : Named c := by
  refine (machine.run_invariant (fun c => (∃ arrived, Accounted c arrived) ∧ Named c) ?_
    ⟨⟨_,accounted_run (machine.run_nil (init db))⟩,fun h => absurd rfl h⟩ hr).2
  rintro c e t ⟨⟨arrived,ha⟩,h⟩ ht
  exact ⟨⟨_,ha.step ht⟩,named_step h (step_steps ha ht)⟩

theorem service_changes_accounted (hr : machine.run (init db) ls = some c) :
    (c.accounted ++ c.refused).Perm (heard (init db) ls) ∧
    (c.accounted = heard (init db) ls ↔ c.refused = []) ∧
    (c.refused = [] → c.discovery = none → c.svcChngdQueue = []) ∧
    (c.Deaf → ∀ ms, heard c ms = []) ∧
    ∀ handle ms t, c.handler = some handle → machine.run c ms = some t →
      (∀ attEcode, Event.registered true attEcode ∉ ms) → Attends c handle ms t := by
  have h := accounted_run hr
  refine ⟨h.perm,⟨fun he => ?_,fun hn => (h.ordered hn).1⟩,fun hn hd => (h.ordered hn).2 ?_,
    deaf_heard h,fun handle ms t hh => attends_run h (named_run hr) hh⟩
  · have hl := h.perm.length_eq
    rw [← he,List.length_append] at hl
    exact List.length_eq_zero_iff.mp (by omega)
  · cases h.phase with
    | initialising _ hs => exact hs
    | failed _ hs => exact hs
    | idle _ hs => exact hs
    | rediscovering _ _ _ _ _ hd' => exact nomatch hd.symm.trans hd'

-- A server whose one service holds the Service Changed characteristic, discovered and registered for.
def started : List Event :=
  let idle : Registration := ⟨0,false⟩
  [.report (.services ⟨true,0,some [⟨1,5,(Uuid.uuid16 0x1801).toUuid128⟩],true⟩) idle true,
    .report (.services ⟨false,errorAttributeNotFound,none,true⟩) idle true,
    .report (.included ⟨false,errorAttributeNotFound,none,true⟩) idle true,
    .report (.characteristics ⟨true,0,some [⟨2,5,3,0x20,svcChngdUuid.toUuid128⟩],true⟩) idle true,
    .report (.descriptors ⟨true,0,some [⟨4,(Uuid.uuid16 0x2902).toUuid128⟩],true⟩) ⟨1,true⟩ true,
    .registered false 0]

def silencing : List Event := [.indication 3 [6,0,9,0] true,.indication 3 [1,0,5,0] true,
  .report (.services ⟨false,errorAttributeNotFound,none,true⟩) ⟨0,false⟩ true,
  .indication 3 [6,0,9,0] true]

theorem service_changes_accounted_silenced :
    ∃ c t, machine.run (init .new) started = some c ∧ machine.run c silencing = some t ∧
      c.handler = some 3 ∧ indicated 3 silencing = [⟨6,9⟩,⟨1,5⟩,⟨6,9⟩] ∧
      heard (init .new) (started ++ silencing) = [⟨6,9⟩,⟨1,5⟩] ∧ t.accounted = [⟨6,9⟩,⟨1,5⟩] ∧
      (t.accounted ++ t.refused).Perm (heard (init .new) (started ++ silencing)) ∧
      Attends c 3 silencing t ∧ ∀ ms, heard t ms = [] := by
  have hs : (machine.run (init .new) started).map Client.handler = some (some 3) := by decide
  have hh : heard (init .new) (started ++ silencing) = [⟨6,9⟩,⟨1,5⟩] := by decide
  have ht : (machine.run (init .new) (started ++ silencing)).map
      (fun t => (t.accounted,t.handler,t.svcChngdIndId)) = some ([⟨6,9⟩,⟨1,5⟩],none,1) := by decide
  obtain ⟨c,hc,h3⟩ := Option.map_eq_some_iff.mp hs
  obtain ⟨t,hrun,he⟩ := Option.map_eq_some_iff.mp ht
  obtain ⟨hacc,he⟩ := Prod.mk.inj he
  obtain ⟨hnone,hid⟩ := Prod.mk.inj he
  have hct : machine.run c silencing = some t := by
    rwa [machine.run_append,hc,Option.bind_some] at hrun
  obtain ⟨_,_,_,_,hattends⟩ := service_changes_accounted hc
  obtain ⟨hperm,_,_,hdeaf,_⟩ := service_changes_accounted hrun
  refine ⟨c,t,hc,hct,h3,by decide,hh,hacc,hperm,hattends 3 silencing t h3 hct ?_,
    hdeaf ⟨hnone,.inl (by rw [hid]; decide)⟩⟩
  intro attEcode hm
  simp [silencing] at hm

theorem listeners_agree (hr : machine.run (init .new) ls = some c) :
    (∀ a, c.db.notices.count (.serviceAdded a) =
      c.db.notices.count (.serviceRemoved a) + c.db.stands a) ∧
    (c.discovery = none → c.ready = false → c.db.services = []) := by
  constructor
  · refine (machine.run_invariant (fun c => c.db.Fresh ∧ c.db.Balanced) ?_
      ⟨Db.fresh_new,fun _ => rfl⟩ hr).2
    exact fun _ _ _ h ht => (evolves_step ht).announced h.1 h.2
  · intro hd hn
    cases (accounted_run hr).phase with
    | initialising _ _ _ _ _ hd' => exact nomatch hd.symm.trans hd'
    | failed _ _ _ _ he => exact he
    | idle hr => exact nomatch hn.symm.trans hr
    | rediscovering hr => exact nomatch hn.symm.trans hr

theorem listeners_agree_cleared :
    ∃ c, machine.run (init .new) (started ++ [.indication 3 [2,0,9,0] true]) = some c ∧
      c.db.notices = [.serviceAdded 0,.serviceRemoved 0] ∧
      (∀ a, c.db.notices.count (.serviceAdded a) =
        c.db.notices.count (.serviceRemoved a) + c.db.stands a) ∧
      (c.discovery = none → c.ready = false → c.db.services = []) := by
  have hs : (machine.run (init .new) (started ++ [.indication 3 [2,0,9,0] true])).map
      (fun c => c.db.notices) = some [.serviceAdded 0,.serviceRemoved 0] := by decide
  obtain ⟨c,hc,he⟩ := Option.map_eq_some_iff.mp hs
  exact ⟨c,hc,he,listeners_agree hc⟩

end Minipro.ServiceChanged
