import Minipro.Bluez.DiscoveryStore

namespace Minipro.GattClient
open GattDb GattHelpers Keyed Transition

variable {db t : Db} {a b : Address} {s : Service} {curSvc : Option Address} {sent : Bool}
  {ecode : UInt8} {op : DiscoveryOp} {u v : Discovering} {r : Report}

def Live (db : Db) (a : Address) : Prop := a ∈ db.services.map Service.address

def SameServices (db t : Db) : Prop :=
  t.services.map Service.address = db.services.map Service.address

theorem live_find (h : Live db a) : ∃ s, db.find a = some s := by
  cases hf : db.find a with
  | some s => exact ⟨s,rfl⟩
  | none =>
    obtain ⟨s,hs,ha⟩ := List.mem_map.mp h
    exact absurd ha (find_none_iff.mp hf s hs)

theorem find_live (h : db.find a = some s) : Live db a := by
  obtain ⟨hs,rfl⟩ := mem_of_find h
  exact List.mem_map_of_mem hs

theorem SameServices.live (h : SameServices db t) : Live t a ↔ Live db a := by
  rw [Live,Live,h]

theorem replace_same (db : Db) (s : Service) : SameServices db (db.replace s) :=
  replace_keys s db.services

theorem amendCurrent_live (h : ∀ a ∈ curSvc, Live db a)
    (f : Service → Option (Attribute × Service)) :
    amendCurrent db curSvc f = some none ∨
      ∃ x t, amendCurrent db curSvc f = some (some (x,t)) ∧ SameServices db t := by
  cases curSvc with
  | none => exact .inl rfl
  | some a =>
    obtain ⟨s,hs⟩ := live_find (h a rfl)
    simp only [amendCurrent,hs,Option.map_some]
    cases f s with
    | none => exact .inl rfl
    | some x => exact .inr ⟨x.1,_,rfl,replace_same db x.2⟩

theorem addIncludes_live (h : ∀ a ∈ curSvc, Live db a) (is : List FoundIncluded) :
    ∃ t b, addIncludes curSvc db is = some (t,b) ∧ SameServices db t := by
  induction is generalizing db with
  | nil => exact ⟨db,true,rfl,rfl⟩
  | cons i is ih =>
    simp only [addIncludes]
    cases db.getAttribute i.first with
    | none => exact ⟨db,false,rfl,rfl⟩
    | some included =>
      rcases amendCurrent_live h fun s => s.addIncluded included.1 with ha | ⟨x,t,ha,hs⟩
      · exact ⟨db,false,by simp only [ha],rfl⟩
      · simp only [ha]
        split
        · exact ⟨t,false,rfl,hs⟩
        · obtain ⟨v,b,hv,hsv⟩ := ih fun a ha => hs.live.mpr (h a ha)
          exact ⟨v,b,hv,hsv.trans hs⟩

theorem insertDescriptors_live (h : ∀ a ∈ curSvc, Live db a) (ds : List FoundDescriptor) :
    ∃ t b, insertDescriptors curSvc db ds = some (t,b) ∧ SameServices db t := by
  induction ds generalizing db with
  | nil => exact ⟨db,true,rfl,rfl⟩
  | cons d ds ih =>
    simp only [insertDescriptors]
    rcases amendCurrent_live h fun s => s.gattDbInsertDescriptor d.handle (.uuid128 d.uuid) with
      ha | ⟨x,t,ha,hs⟩
    · exact ⟨db,false,by simp only [ha],rfl⟩
    · simp only [ha]
      split
      · exact ⟨t,false,rfl,hs⟩
      · obtain ⟨v,b,hv,hsv⟩ := ih fun a ha => hs.live.mpr (h a ha)
        exact ⟨v,b,hv,hsv.trans hs⟩

theorem discoverDescs_live (sent : Bool) (h : ∀ a ∈ curSvc, Live db a) (cs : List FoundCharacteristic) :
    ∃ t pending next, discoverDescs curSvc sent db cs = some (t,pending,next) ∧
      SameServices db t := by
  induction cs generalizing db with
  | nil => exact ⟨db,[],.finished,rfl,rfl⟩
  | cons c cs ih =>
    simp only [discoverDescs]
    rcases amendCurrent_live h fun s =>
        s.gattDbInsertCharacteristic c.value (.uuid128 c.uuid) c.properties with ha | ⟨x,t,ha,hs⟩
    · exact ⟨db,cs,.failed,by simp only [ha],rfl⟩
    · simp only [ha]
      split
      · exact ⟨t,cs,.failed,rfl,hs⟩
      · split
        · obtain ⟨v,pending,next,hv,hsv⟩ := ih fun a ha => hs.live.mpr (h a ha)
          exact ⟨v,pending,next,hv,hsv.trans hs⟩
        · split
          · exact ⟨t,cs,_,rfl,hs⟩
          · exact ⟨t,cs,.failed,rfl,hs⟩

theorem activate_live (h : ∀ a ∈ curSvc, Live db a) :
    ∃ t, activate db curSvc = some t ∧ SameServices db t := by
  cases curSvc with
  | none => exact ⟨db,rfl,rfl⟩
  | some a =>
    obtain ⟨s,hs⟩ := live_find (h a rfl)
    refine ⟨db.setActive s true,by simp [activate,hs],?_⟩
    simp only [Db.setActive]
    split
    · exact rfl
    · exact replace_same db _

def settled : Stage → Prop
  | .awaiting .primary | .awaiting .secondary | .freed => False
  | _ => True

structure Safe (u : Discovering) : Prop where
  reads : settled u.stage
  pending : ∀ a ∈ u.op.pendingSvcs, Live u.db a
  queued : ∀ a ∈ u.op.tmpQueue, Live u.db a
  current : ∀ a ∈ u.op.curSvc, Live u.db a

theorem none_live : ∀ a ∈ ([] : List Address), Live db a := fun _ ha => nomatch ha

theorem no_current : ∀ a ∈ (none : Option Address), Live db a := by simp

theorem current_live (h : Live db a) : ∀ b ∈ some a, Live db b := fun _ hb =>
  Option.some.inj hb ▸ h

theorem proceed_safe {req : DiscoveryReq} (hr : settled (.awaiting req))
    (hp : ∀ a ∈ op.pendingSvcs, Live db a) (hq : ∀ a ∈ op.tmpQueue, Live db a)
    (hc : ∀ a ∈ op.curSvc, Live db a) : Safe (proceed db op req sent ecode) := by
  refine ⟨?_,hp,hq,hc⟩
  simp only [proceed]
  split
  · exact hr
  · trivial

theorem complete_safe (hp : ∀ a ∈ op.pendingSvcs, Live db a) (hq : ∀ a ∈ op.tmpQueue, Live db a)
    (hc : ∀ a ∈ op.curSvc, Live db a) (success : Bool) :
    Safe ⟨db,op,.complete success ecode⟩ := ⟨trivial,hp,hq,hc⟩

theorem nextIncluded_safe (pending : List Address) (hp : ∀ a ∈ pending, Live db a)
    (hq : ∀ a ∈ op.tmpQueue, Live db a) (hc : ∀ a ∈ op.curSvc, Live db a) :
    Safe (nextIncluded sent ecode db op pending) := by
  induction pending generalizing op with
  | nil =>
    simp only [nextIncluded]
    split
    next => exact ⟨trivial,none_live,hq,hc⟩
    next a rest htmp =>
      rw [htmp] at hq
      obtain ⟨s,hs⟩ := live_find (hq a List.mem_cons_self)
      simp only [hs]
      refine proceed_safe trivial ?_ ?_ ?_
      · exact fun b hb => hq b (List.mem_cons_of_mem a hb)
      · exact none_live
      · exact current_live (hq a List.mem_cons_self)
  | cons a pending ih =>
    have ha := hp a List.mem_cons_self
    have hrest : ∀ b ∈ pending, Live db b := fun b hb => hp b (List.mem_cons_of_mem a hb)
    have hq' : ∀ b ∈ op.tmpQueue ++ [a], Live db b := by
      intro b hb
      rcases List.mem_append.mp hb with hb | hb
      · exact hq b hb
      · exact List.mem_singleton.mp hb ▸ ha
    obtain ⟨s,hs⟩ := live_find ha
    simp only [nextIncluded,hs]
    split
    · exact ih hrest hq' (current_live ha)
    · refine proceed_safe trivial ?_ ?_ ?_
      · exact hrest
      · exact hq'
      · exact current_live ha

theorem nextService_safe (pending : List Address) (hp : ∀ a ∈ pending, Live db a)
    (hq : ∀ a ∈ op.tmpQueue, Live db a) (hc : ∀ a ∈ op.curSvc, Live db a) :
    Safe (nextService sent ecode op db pending) := by
  induction pending generalizing db with
  | nil =>
    obtain ⟨t,ht,hs⟩ := activate_live hc
    rw [nextService]
    simp only [ht]
    exact ⟨trivial,none_live,fun a ha => hs.live.mpr (hq a ha),fun a ha => hs.live.mpr (hc a ha)⟩
  | cons a pending ih =>
    obtain ⟨t,ht,hs⟩ := activate_live hc
    have ha := hs.live.mpr (hp a List.mem_cons_self)
    have hrest : ∀ b ∈ pending, Live t b := fun b hb =>
      hs.live.mpr (hp b (List.mem_cons_of_mem a hb))
    have hq' : ∀ b ∈ op.tmpQueue, Live t b := fun b hb => hs.live.mpr (hq b hb)
    obtain ⟨s,hfind⟩ := live_find ha
    rw [nextService]
    simp only [ht,hfind]
    split
    · exact ih hrest hq' fun b hb => hs.live.mpr (hc b hb)
    · refine proceed_safe trivial ?_ ?_ ?_
      · exact hrest
      · exact hq'
      · exact current_live ha

theorem continueDescs_safe (hp : ∀ a ∈ op.pendingSvcs, Live db a)
    (hq : ∀ a ∈ op.tmpQueue, Live db a) (hc : ∀ a ∈ op.curSvc, Live db a) :
    Safe (continueDescs sent ecode db op) := by
  obtain ⟨t,pending,next,ht,hs⟩ := discoverDescs_live sent hc op.pendingChrcs
  have hp' : ∀ a ∈ op.pendingSvcs, Live t a := fun a ha => hs.live.mpr (hp a ha)
  have hq' : ∀ a ∈ op.tmpQueue, Live t a := fun a ha => hs.live.mpr (hq a ha)
  have hc' : ∀ a ∈ op.curSvc, Live t a := fun a ha => hs.live.mpr (hc a ha)
  simp only [continueDescs,ht]
  cases next with
  | failed => exact ⟨trivial,hp',hq',hc'⟩
  | finished => exact nextService_safe op.pendingSvcs hp' hq' hc'
  | discovering start last => exact ⟨trivial,hp',hq',hc'⟩

theorem last_of_length {first last : UInt16} (h1 : s.start = first)
    (h2 : s.numHandles = last - first + 1) : s.last = last := by
  rw [Service.last,h1,h2]
  grind

structure Kept (db t : Db) (a : Address) (found : FoundService) : Prop where
  fresh : t.Fresh
  stored : ∃ s, t.find a = some s ∧ s.start = found.first ∧ s.last = found.last
  spared : ∀ b s, db.find b = some s → ¬ s.matchRange found.first found.last → t.find b = some s

theorem insertService_kept {u : Uuid} {primary : Bool} {found : FoundService} (hf : db.Fresh)
    (h : db.insertService found.first u primary (found.last - found.first + 1) = some (a,t)) :
    Kept db t a found ∧ ∀ b s, db.find b = some s → t.find b = some s := by
  rcases Db.insertService_inserts h with ⟨s,hs,hd,rfl,rfl⟩ | ⟨n,front,back,hins,rfl,h1,h2⟩
  · simp only [Db.describes,decide_eq_true_eq] at hd
    obtain ⟨_,_,hnum,hstart⟩ := hd
    exact ⟨⟨hf,⟨s,hf.find_mem hs,hstart,last_of_length hstart hnum⟩,fun _ _ h _ => h⟩,fun _ _ h => h⟩
  · have hold : ∀ b s, db.find b = some s → t.find b = some s := by
      intro b s hb
      have hne : b ≠ db.allocated := fun hba =>
        hf.unused s (mem_of_find hb).1 ((mem_of_find hb).2.trans hba)
      rw [hins.find hf b,if_neg hne]
      exact hb
    refine ⟨⟨hins.fresh hf,⟨n,?_,h1,last_of_length h1 h2⟩,fun b s hb _ => hold b s hb⟩,hold⟩
    rw [hins.find hf,if_pos rfl]

theorem clearRange_spared {first last : UInt16} (hf : db.Fresh) (hb : db.find b = some s)
    (hm : ¬ s.matchRange first last) : (db.clearRange first last).find b = some s := by
  simp only [Db.clearRange]
  split
  · exact hb
  · rw [hf.destroy_find,hb]
    simp [Option.filter,hm]

theorem clearRange_fresh {first last : UInt16} (hf : db.Fresh) :
    (db.clearRange first last).Fresh := by
  simp only [Db.clearRange]
  split
  · exact hf
  · exact hf.destroy _

theorem storeService_kept {primary : Bool} {found : FoundService} (hf : db.Fresh)
    (h : storeService db primary found = (t,some a)) : Kept db t a found := by
  simp only [storeService] at h
  split at h
  next a' t' hi =>
    obtain ⟨rfl,ha⟩ := Prod.mk.inj h
    obtain rfl := Option.some.inj ha
    exact (insertService_kept hf hi).1
  next =>
    have hfc : (db.clearRange found.first found.last).Fresh := clearRange_fresh hf
    split at h
    next a' t' hi =>
      obtain ⟨rfl,ha⟩ := Prod.mk.inj h
      obtain rfl := Option.some.inj ha
      obtain ⟨⟨hft,hst,_⟩,hold⟩ := insertService_kept hfc hi
      exact ⟨hft,hst,fun b s hb hm => hold b s (clearRange_spared hf hb hm)⟩
    next => simp at h

theorem storeService_refused {primary : Bool} {found : FoundService}
    (h : storeService db primary found = (t,none)) :
    t = db.clearRange found.first found.last := by
  simp only [storeService] at h
  split at h
  next => simp at h
  next =>
    split at h
    next => simp at h
    next => exact (Prod.mk.inj h).1.symm

def Apart (f g : FoundService) : Prop := ¬ (f.first ≤ g.last ∧ g.first ≤ f.last)

def Stored (db : Db) (found : List FoundService) (a : Address) : Prop :=
  ∃ f ∈ found, ∃ s, db.find a = some s ∧ s.start = f.first ∧ s.last = f.last

theorem Stored.live {found : List FoundService} (h : Stored db found a) : Live db a := by
  obtain ⟨f,_,s,hs,_⟩ := h
  exact find_live hs

theorem Stored.spared {found : List FoundService} {f : FoundService} (h : Stored db found a)
    (hap : ∀ g ∈ found, Apart g f)
    (hold : ∀ b s, db.find b = some s → ¬ s.matchRange f.first f.last → t.find b = some s) :
    Stored t found a := by
  obtain ⟨g,hg,s,hs,h1,h2⟩ := h
  refine ⟨g,hg,s,hold a s hs ?_,h1,h2⟩
  simp only [Service.matchRange,h1,h2,decide_eq_true_eq]
  exact hap g hg

theorem Stored.append {found : List FoundService} (h : Stored db found a)
    (more : List FoundService) : Stored db (found ++ more) a := by
  obtain ⟨f,hf,hs⟩ := h
  exact ⟨f,List.mem_append_left more hf,hs⟩

theorem storeServices_stored (primary : Bool) (found known : List FoundService)
    (pending : List Address) (hf : db.Fresh) (hap : (known ++ found).Pairwise Apart)
    (hs : ∀ a ∈ pending, Stored db known a) :
    ∃ t more b, storeServices primary db pending found = (t,more,b) ∧ t.Fresh ∧
      ∀ a ∈ more, Stored t (known ++ found) a := by
  induction found generalizing db pending known with
  | nil => exact ⟨db,pending,true,rfl,hf,fun a ha => (hs a ha).append []⟩
  | cons f fs ih =>
    have hfirst : ∀ g ∈ known, Apart g f := fun g hg =>
      (List.pairwise_append.mp hap).2.2 g hg f List.mem_cons_self
    simp only [storeServices]
    rcases hst : storeService db primary f with ⟨t,_ | a⟩
    · have ht := storeService_refused hst
      refine ⟨t,pending,false,rfl,ht ▸ clearRange_fresh hf,fun a ha => ?_⟩
      have hold := (hs a ha).spared hfirst fun b s hb hm => clearRange_spared hf hb hm
      exact ht ▸ hold.append (f :: fs)
    · obtain ⟨hft,⟨s,hfind,h1,h2⟩,hold⟩ := storeService_kept hf hst
      have hnew : ∀ b ∈ pending ++ [a], Stored t (known ++ [f]) b := by
        intro b hb
        rcases List.mem_append.mp hb with hb | hb
        · exact ((hs b hb).spared hfirst hold).append [f]
        · obtain rfl := List.mem_singleton.mp hb
          exact ⟨f,by simp,s,hfind,h1,h2⟩
      rw [List.append_cons] at hap ⊢
      simp only
      split
      · exact ih (known ++ [f]) pending hft hap fun b hb => hnew b (List.mem_append_left [a] hb)
      · exact ih (known ++ [f]) (pending ++ [a]) hft hap hnew

theorem discoverIncluded_safe {success : Bool} (hp : ∀ a ∈ op.pendingSvcs, Live db a)
    (hq : ∀ a ∈ op.tmpQueue, Live db a) (hc : ∀ a ∈ op.curSvc, Live db a) :
    Safe (discoverIncluded sent success ecode db op) := by
  simp only [discoverIncluded]
  split
  next => exact complete_safe hp hq hc true
  next a pending hpend =>
    rw [hpend] at hp
    have ha := hp a List.mem_cons_self
    obtain ⟨s,hs⟩ := live_find ha
    simp only [hs]
    refine ⟨by simp only; split <;> trivial,?_,?_,current_live ha⟩
    · exact fun b hb => hp b (List.mem_cons_of_mem a hb)
    · intro b hb
      rcases List.mem_append.mp hb with hb | hb
      · exact hq b hb
      · exact List.mem_singleton.mp hb ▸ ha

theorem discoverInclCb_safe (h : Safe u) (o : Outcome FoundIncluded) :
    Safe (discoverInclCb u.db u.op o) := by
  simp only [discoverInclCb]
  split
  · split
    · exact nextIncluded_safe u.op.pendingSvcs h.pending h.queued h.current
    · exact complete_safe h.pending h.queued h.current false
  · split
    next _ i rest _ _ =>
      obtain ⟨t,b,ht,hs⟩ := addIncludes_live h.current (i :: rest)
      have hp : ∀ a ∈ u.op.pendingSvcs, Live t a := fun a ha => hs.live.mpr (h.pending a ha)
      have hq : ∀ a ∈ u.op.tmpQueue, Live t a := fun a ha => hs.live.mpr (h.queued a ha)
      have hcur : ∀ a ∈ u.op.curSvc, Live t a := fun a ha => hs.live.mpr (h.current a ha)
      simp only [ht]
      cases b with
      | false => exact complete_safe hp hq hcur false
      | true => exact nextIncluded_safe u.op.pendingSvcs hp hq hcur
    next => exact complete_safe h.pending h.queued h.current false

theorem discoverChrcsCb_safe (h : Safe u) (o : Outcome FoundCharacteristic) :
    Safe (discoverChrcsCb u.db u.op o) := by
  simp only [discoverChrcsCb]
  split
  · split
    · exact nextService_safe u.op.pendingSvcs h.pending h.queued h.current
    · exact complete_safe h.pending h.queued h.current false
  · split
    next => exact continueDescs_safe h.pending h.queued h.current
    next => exact complete_safe h.pending h.queued h.current false

theorem discoverDescsCb_safe (h : Safe u) (o : Outcome FoundDescriptor) :
    Safe (discoverDescsCb u.db u.op o) := by
  simp only [discoverDescsCb]
  split
  · split
    · exact continueDescs_safe h.pending h.queued h.current
    · exact complete_safe h.pending h.queued h.current false
  · split
    next d rest _ =>
      obtain ⟨t,b,ht,hs⟩ := insertDescriptors_live h.current (d :: rest)
      have hp : ∀ a ∈ u.op.pendingSvcs, Live t a := fun a ha => hs.live.mpr (h.pending a ha)
      have hq : ∀ a ∈ u.op.tmpQueue, Live t a := fun a ha => hs.live.mpr (h.queued a ha)
      have hcur : ∀ a ∈ u.op.curSvc, Live t a := fun a ha => hs.live.mpr (h.current a ha)
      simp only [ht]
      cases b with
      | false => exact complete_safe hp hq hcur false
      | true => exact continueDescs_safe hp hq hcur
    next => exact complete_safe h.pending h.queued h.current false

def Report.foundServices : Report → List FoundService
  | .services o => o.result.getD []
  | _ => []

def reported (ls : List Report) : List FoundService := ls.flatMap Report.foundServices

inductive Guarded (found : List FoundService) : Discovering → Prop where
  | primary (db : Db) (hf : db.Fresh) : Guarded found (.begin db)
  | secondary (db : Db) (pending : List Address) (hf : db.Fresh)
      (hs : ∀ a ∈ pending, Stored db found a) :
      Guarded found ⟨db,{ discoveryOpCreate with pendingSvcs := pending },.awaiting .secondary⟩
  | later (u : Discovering) (h : Safe u) : Guarded found u

theorem discoverSecondary_guarded {found : List FoundService} {success : Bool}
    {pending : List Address} (hf : db.Fresh) (hs : ∀ a ∈ pending, Stored db found a) :
    Guarded found (discoverSecondary sent success ecode db
      { discoveryOpCreate with pendingSvcs := pending }) := by
  have hsafe (b : Bool) : Safe ⟨db,{ discoveryOpCreate with pendingSvcs := pending },
      .complete b ecode⟩ :=
    complete_safe (fun a ha => (hs a ha).live) none_live no_current b
  simp only [discoverSecondary,proceed]
  split
  · exact .later _ (hsafe success)
  · cases sent with
    | false => exact .later _ (hsafe false)
    | true => exact .secondary db pending hf hs

theorem discoverPrimaryCb_guarded {found : List FoundService} (o : Outcome FoundService)
    (hf : db.Fresh) (hap : (found ++ o.result.getD []).Pairwise Apart) :
    Guarded (found ++ o.result.getD []) (discoverPrimaryCb db discoveryOpCreate o) := by
  simp only [discoverPrimaryCb]
  split
  · exact discoverSecondary_guarded hf (by simp)
  · cases ho : o.result with
    | none =>
      exact .later _ (complete_safe none_live none_live no_current false)
    | some fs =>
      rw [ho,Option.getD_some] at hap
      obtain ⟨t,more,b,ht,hft,hs⟩ := storeServices_stored true fs found [] hf hap
        (by simp)
      have ht' : storeServices true db discoveryOpCreate.pendingSvcs fs = (t,more,b) := ht
      simp only [ht',Option.getD_some]
      cases b with
      | false =>
        exact .later _ (complete_safe (fun a ha => (hs a ha).live) none_live
          no_current false)
      | true => exact discoverSecondary_guarded hft hs

theorem discoverSecondaryCb_safe {found : List FoundService} {pending : List Address}
    (o : Outcome FoundService) (hf : db.Fresh)
    (hap : (found ++ o.result.getD []).Pairwise Apart)
    (hs : ∀ a ∈ pending, Stored db found a) :
    Safe (discoverSecondaryCb db { discoveryOpCreate with pendingSvcs := pending } o) := by
  have hp : ∀ a ∈ pending, Live db a := fun a ha => (hs a ha).live
  simp only [discoverSecondaryCb]
  split
  · split
    · exact discoverIncluded_safe hp none_live no_current
    · exact complete_safe hp none_live no_current false
  · cases ho : o.result with
    | none => exact complete_safe hp none_live no_current false
    | some fs =>
      rw [ho,Option.getD_some] at hap
      obtain ⟨t,more,b,ht,_,hst⟩ := storeServices_stored false fs found pending hf hap hs
      have hmore : ∀ a ∈ more, Live t a := fun a ha => (hst a ha).live
      simp only [ht]
      cases b with
      | false => exact complete_safe hmore none_live no_current false
      | true => exact discoverIncluded_safe hmore none_live no_current

theorem Safe.step_safe (h : Safe u) (hv : u.step r = some v) : Safe v := by
  have hreads := h.reads
  simp only [Discovering.step] at hv
  split at hv
  next hs => rw [hs] at hreads; exact hreads.elim
  next hs => rw [hs] at hreads; exact hreads.elim
  next o _ => exact Option.some.inj hv ▸ discoverInclCb_safe h o
  next o _ => exact Option.some.inj hv ▸ discoverChrcsCb_safe h o
  next o _ => exact Option.some.inj hv ▸ discoverDescsCb_safe h o
  next => exact nomatch hv

theorem Guarded.step {found : List FoundService} (h : Guarded found u)
    (hap : (found ++ r.foundServices).Pairwise Apart) (hv : u.step r = some v) :
    Guarded (found ++ r.foundServices) v := by
  cases h with
  | primary db hf =>
    cases r with
    | services o => exact Option.some.inj hv ▸ discoverPrimaryCb_guarded o hf hap
    | _ => exact nomatch hv
  | secondary db pending hf hs =>
    cases r with
    | services o => exact Option.some.inj hv ▸ .later _ (discoverSecondaryCb_safe o hf hap hs)
    | _ => exact nomatch hv
  | later _ h => exact .later v (h.step_safe hv)

theorem Guarded.not_freed {found : List FoundService} (h : Guarded found u) :
    u.stage ≠ .freed := by
  cases h with
  | primary => simp [Discovering.begin]
  | secondary => simp
  | later _ h =>
    intro hs
    have hreads := h.reads
    rw [hs] at hreads
    exact hreads

theorem run_guarded {ls : List Report} (hf : db.Fresh) (hap : (reported ls).Pairwise Apart)
    (hr : Discovering.machine.run (.begin db) ls = some v) : Guarded (reported ls) v := by
  refine Discovering.machine.run_history
    (fun ls u => (reported ls).Pairwise Apart → Guarded (reported ls) u) ?_
    (fun _ => .primary db hf) hr hap
  intro ls u r v ih hv hap
  simp only [reported,List.flatMap_append,List.flatMap_singleton] at hap ⊢
  exact (ih (List.pairwise_append.mp hap).1).step hap hv

section
variable {first last : UInt16} {uuid : Uuid} {primary : Bool}

theorem end_of_length (first last : UInt16) : first + (last - first + 1) - 1 = last := by
  grind

theorem insertService_overlap (hs : db.services = [s]) (hh : s.holds first ∨ s.holds last)
    (hd : ¬ Db.describes s first uuid primary (last - first + 1)) :
    db.insertService first uuid primary (last - first + 1) = none := by
  have hloc : Db.findInsertLoc first last [s] = .clash s := by
    simp only [Db.findInsertLoc]
    rcases hh with h | h
    · rw [if_pos h]
    · rw [if_pos h,ite_self]
  simp only [Db.insertService,end_of_length,hs,hloc,if_neg hd]
  exact dite_eq_right_iff.mpr fun _ => rfl

theorem insertService_beside (uuid : Uuid) (primary : Bool) (hs : db.services = [s]) (h0 : 0 < first) (hle : first ≤ last)
    (hh : ¬ (s.holds first ∨ s.holds last)) :
    ∃ t, db.insertService first uuid primary (last - first + 1) = some (db.allocated,t) := by
  cases hloc : Db.findInsertLoc first last [s] with
  | clash r =>
    obtain ⟨hr,hin⟩ := Db.findInsertLoc_clash hloc
    exact absurd (List.mem_singleton.mp hr ▸ hin) hh
  | gap front back =>
    simp only [Db.insertService,end_of_length,hs,hloc,dif_pos (span_valid h0 hle)]
    exact ⟨_,rfl⟩

end

section
variable {f g : FoundService}

def Proper (f : FoundService) : Prop := 0 < f.first ∧ f.first ≤ f.last

theorem nothing_stored (hs : db.services = []) (b : Address) : db.find b = none := by
  rw [Db.find,find_none_iff,hs]
  simp

theorem first_stored (hf : db.Fresh) (hs : db.services = []) (hp : Proper f) :
    ∃ t n, storeService db true f = (t,some db.allocated) ∧ t.Fresh ∧
      t.services = [n] ∧ n.address = db.allocated ∧ n.active = false ∧
      n.start = f.first ∧ n.last = f.last ∧ n.declaration.uuid = primaryServiceUuid := by
  have ho : db.Ordered := ⟨by simp [hs],by simp [hs]⟩
  obtain ⟨t,n,front,back,hi,hins,_,hlast,_,hdecl⟩ :=
    insertService_free (.uuid128 f.uuid) true hp.1 hp.2 (by simp [hs]) ho
  have hnil := hins.before.symm.trans hs
  obtain ⟨rfl,rfl⟩ := List.append_eq_nil_iff.mp hnil
  refine ⟨t,n,?_,hins.fresh hf,hins.after,hins.address,hins.inactive,?_,hlast,?_⟩
  · simp only [storeService,hi]
  · rw [Service.start,hdecl]
  · rw [hdecl]
    rfl

theorem holds_matchRange {first last : UInt16} (hle : first ≤ last)
    (hh : s.holds first ∨ s.holds last) : s.matchRange first last := by
  rw [Service.holds_iff,Service.holds_iff] at hh
  have h := UInt16.le_iff_toNat_le.mp hle
  rw [Service.matchRange_iff]
  omega

theorem clearRange_only {first last : UInt16} (hs : db.services = [s]) (hle : first ≤ last)
    (hm : s.matchRange first last) : (db.clearRange first last).services = [] := by
  have hlt : ¬ last < first := UInt16.not_lt.mpr hle
  rw [Db.clearRange,if_neg hlt]
  simp [Db.destroy,hs,hm]

theorem second_stored (hf : db.Fresh) (hs : db.services = [s])
    (hd : s.declaration.uuid = primaryServiceUuid) (hp : Proper g) :
    ∃ t b, storeService db false g = (t,some b) ∧
      (t.find b).any Service.active = false ∧
      (t.find s.address = none ↔ s.holds g.first ∨ s.holds g.last) := by
  have hmem : s ∈ db.services := hs ▸ List.mem_cons_self
  have hne : db.allocated ≠ s.address := fun h => hf.unused s hmem h.symm
  by_cases hh : s.holds g.first ∨ s.holds g.last
  · have hdesc : ¬ Db.describes s g.first (.uuid128 g.uuid) false (g.last - g.first + 1) := by
      have hkind : Uuid.same primaryServiceUuid secondaryServiceUuid = false := by decide
      simp [Db.describes,hd,hkind]
    have hnone := insertService_overlap hs hh hdesc
    have hclear := clearRange_only hs hp.2 (holds_matchRange hp.2 hh)
    have ho : (db.clearRange g.first g.last).Ordered := ⟨by simp [hclear],by simp [hclear]⟩
    obtain ⟨t,n,front,back,hi,hins,_⟩ :=
      insertService_free (.uuid128 g.uuid) false hp.1 hp.2 (by simp [hclear]) ho
    have hfc : (db.clearRange g.first g.last).Fresh := clearRange_fresh hf
    have hnext : (db.clearRange g.first g.last).allocated = db.allocated := by
      simp only [Db.clearRange]
      split <;> rfl
    rw [hnext] at hi
    refine ⟨t,db.allocated,?_,?_,iff_of_true ?_ hh⟩
    · simp only [storeService,hnone,hi]
    · rw [hins.find hfc,hnext,if_pos rfl,Option.any_some,hins.inactive]
    · rw [hins.find hfc,hnext,if_neg hne.symm]
      exact nothing_stored hclear s.address
  · obtain ⟨t,ht⟩ := insertService_beside (.uuid128 g.uuid) false hs hp.1 hp.2 hh
    rcases Db.insertService_inserts ht with ⟨r,hr,hdesc,ha,rfl⟩ | ⟨n,front,back,hins,ha,_⟩
    · exact absurd (List.mem_singleton.mp (hs ▸ hr) ▸ ha) hne
    · refine ⟨t,db.allocated,?_,?_,iff_of_false ?_ hh⟩
      · simp only [storeService,ht]
      · rw [hins.find hf,if_pos rfl,Option.any_some,hins.inactive]
      · rw [hins.find hf,if_neg hne.symm,hf.find_mem hmem]
        simp

theorem storeServices_single {primary : Bool} {pending : List Address}
    (h : storeService db primary g = (t,some a)) (hi : (t.find a).any Service.active = false) :
    storeServices primary db pending [g] = (t,pending ++ [a],true) := by
  simp [storeServices,h,hi]

theorem discoverIncluded_freed_iff {success : Bool} {pending : List Address}
    (hp : op.pendingSvcs = a :: pending) :
    (discoverIncluded true success ecode db op).stage = .freed ↔ db.find a = none := by
  simp only [discoverIncluded,hp]
  cases db.find a with
  | none => simp
  | some s => simp

theorem freed_iff_overlap (hf : db.Fresh) (hs : db.services = []) (hp : Proper f) (hq : Proper g)
    (e e' : UInt8) :
    (Discovering.machine.run (.begin db)
        [.services ⟨true,e,some [f],true⟩,.services ⟨true,e',some [g],true⟩]).map
          Discovering.stage = some .freed ↔
      f.first ≤ g.first ∧ g.first ≤ f.last ∨ f.first ≤ g.last ∧ g.last ≤ f.last := by
  obtain ⟨t,n,ht,hft,hserv,haddr,hina,h1,h2,hkind⟩ := first_stored hf hs hp
  obtain ⟨v,b,hv,hact,hfind⟩ := second_stored hft hserv hkind hq
  have hmem : n ∈ t.services := hserv ▸ List.mem_cons_self
  have hone : storeServices true db discoveryOpCreate.pendingSvcs [f] = (t,[n.address],true) := by
    refine storeServices_single (haddr ▸ ht) ?_
    rw [hft.find_mem hmem,Option.any_some,hina]
  have htwo : storeServices false t [n.address] [g] = (v,[n.address,b],true) :=
    storeServices_single hv hact
  let op : DiscoveryOp := { discoveryOpCreate with pendingSvcs := [n.address] }
  have hfirst : discoverPrimaryCb db discoveryOpCreate ⟨true,e,some [f],true⟩ =
      ⟨t,op,.awaiting .secondary⟩ := by
    simp [discoverPrimaryCb,hone,discoverSecondary,proceed,op]
  have hsecond : discoverSecondaryCb t op ⟨true,e',some [g],true⟩ =
      discoverIncluded true true e' v { op with pendingSvcs := [n.address,b] } := by
    simp only [discoverSecondaryCb,op,htwo]
    rfl
  have hrun : Discovering.machine.run (.begin db)
      [.services ⟨true,e,some [f],true⟩,.services ⟨true,e',some [g],true⟩] =
      some (discoverIncluded true true e' v { op with pendingSvcs := [n.address,b] }) := by
    rw [← hsecond]
    simp only [Transition.Machine.run_cons,Discovering.machine,Discovering.begin,
      Discovering.step,hfirst,Option.bind_some,Transition.Machine.run_nil]
  rw [hrun,Option.map_some,Option.some.injEq,discoverIncluded_freed_iff rfl,hfind]
  simp only [Service.holds,h1,h2,decide_eq_true_eq]

theorem no_service_freed (hf : db.Fresh) :
    (∀ ls v, (reported ls).Pairwise Apart →
      Discovering.machine.run (.begin db) ls = some v → v.stage ≠ .freed) ∧
    (db.services = [] → ∀ f g e e', Proper f → Proper g →
      ((Discovering.machine.run (.begin db)
        [.services ⟨true,e,some [f],true⟩,.services ⟨true,e',some [g],true⟩]).map
          Discovering.stage = some .freed ↔
        f.first ≤ g.first ∧ g.first ≤ f.last ∨ f.first ≤ g.last ∧ g.last ≤ f.last)) :=
  ⟨fun _ _ hap hr => (run_guarded hf hap hr).not_freed,
    fun hs _ _ e e' hp hq => freed_iff_overlap hf hs hp hq e e'⟩

end

theorem no_service_freed_overlapping :
    let uuid : UInt128 := (Uuid.uuid16 0x1800).toUuid128
    (Discovering.machine.run (.begin Db.new) [.services ⟨true,0,some [⟨1,5,uuid⟩],true⟩,
      .services ⟨true,0,some [⟨5,9,uuid⟩],true⟩]).map Discovering.stage = some .freed := by
  intro uuid
  refine ((no_service_freed Db.fresh_new).2 rfl _ _ 0 0 ?_ ?_).mpr (.inl ?_)
  all_goals exact ⟨by decide,by decide⟩

end Minipro.GattClient
