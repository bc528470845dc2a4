import Minipro.Bluez.DiscoveryPhases
import Minipro.Bluez.ServedPrefix

namespace Minipro.GattClient
open GattDb GattHelpers Sweep Keyed Transition

variable {A : Type} {db t : Db} {a : Address} {s : Service} {d e : ServedService}
  {server : List ServedService} {done rest todo roster : Roster} {qs rs cs : List ServedCharacteristic}
  {c : ServedCharacteristic} {attrs : List Attribute} {p : Address × ServedService} {ecode : UInt8}
  {ls : List Report} {r : Report} {u v : Discovering}

inductive Answered (o : Outcome A) : List A → Prop
  | found (items : List A) (hs : o.success = true) (hr : o.result = some items) (hn : items ≠ []) :
      Answered o items
  | notFound (hs : o.success = false) (he : o.attEcode = errorAttributeNotFound) : Answered o []

def Reports (o : Outcome A) (items : List A) : Prop :=
  Answered o items ∨ (o.success = false ∧ o.attEcode = 0)

def inclusion : Extent FoundIncluded := ⟨fun i => i.handle.toNat,fun i => i.handle.toNat⟩

def serviceList (serviceType : UInt16) (ds : List ServedService) : List FoundService :=
  ((groups serviceType).inRange 1 0xffff (ds.map ServedService.group)).map (Group.found 0xffff)

def includeList (server : List ServedService) (start last : UInt16) : List FoundIncluded :=
  inclusion.within start.toNat last.toNat (server.flatMap ServedService.includes)

def declarationList (server : List ServedService) (start last : UInt16) :
    List FoundCharacteristic :=
  Characteristic.found last (declarations.inRange start last
    (server.flatMap fun d => d.characteristics.map ServedCharacteristic.declaration))

def descriptorList (server : List ServedService) (start last : UInt16) : List FoundDescriptor :=
  (information.inRange start last (server.flatMap ServedService.table)).map Descriptor.found

-- Only the descriptor discovery reports what it has got as a success when a follow-up is refused.
def honest (server : List ServedService) (u : Discovering) (r : Report) : Prop :=
  match u.stage, r with
  | .awaiting .primary, .services o => Reports o (serviceList primSvcUuid (primaries server))
  | .awaiting .secondary, .services o => Reports o (serviceList sndSvcUuid (secondaries server))
  | .awaiting (.included start last), .included o => Reports o (includeList server start last)
  | .awaiting (.characteristics start last), .characteristics o =>
      Reports o (declarationList server start last)
  | .awaiting (.descriptors start last), .descriptors o =>
      ∃ n, 0 < n ∧ Answered o ((descriptorList server start last).take n)
  | _, _ => False

def exhaustive (server : List ServedService) (u : Discovering) (r : Report) : Prop :=
  match u.stage, r with
  | .awaiting (.descriptors start last), .descriptors o =>
      Answered o (descriptorList server start last)
  | _, _ => True

theorem serviceList_eq {serviceType : UInt16} {ds : List ServedService}
    (hp : ∀ d ∈ ds, d.Proper) :
    serviceList serviceType ds = ds.map fun d => Group.found 0xffff d.group := by
  have hall : (groups serviceType).inRange 1 0xffff (ds.map ServedService.group) =
      ds.map ServedService.group := by
    refine Extent.within_eq_self fun g hg => ?_
    obtain ⟨d,hd,rfl⟩ := List.mem_map.mp hg
    exact ⟨UInt16.lt_iff_toNat_lt.mp (hp d hd).placed,Nat.le_of_lt_succ d.group.first.toNat_lt⟩
  rw [serviceList,hall,List.map_map]
  rfl

namespace Served
variable (h : Served server) (hd : d ∈ server)
include h hd

theorem includeList_eq : includeList server d.group.first d.group.last = d.includes := by
  have hin : ∀ e ∈ server, ∀ i ∈ e.includes,
      e.group.first.toNat ≤ i.handle.toNat ∧ i.handle.toNat ≤ e.group.last.toNat := by
    intro e he i hi
    have hm : i.stored ∈ e.attributes :=
      List.mem_append_left _ (List.mem_map_of_mem hi)
    have hb := (h.proper e he).bounded hm
    exact ⟨hb.1.le,hb.2⟩
  rw [includeList]
  refine (h.laid.within_flatMap inclusion ServedService.includes hin hd le_rfl le_rfl).trans ?_
  exact Extent.within_eq_self (hin d hd)

theorem declarationList_eq :
    declarationList server d.group.first d.group.last = found d.group.last d.characteristics := by
  have hin : ∀ e ∈ server, ∀ x ∈ e.characteristics.map ServedCharacteristic.declaration,
      e.group.first.toNat ≤ x.handle.toNat ∧ x.handle.toNat ≤ e.group.last.toNat := by
    intro e he x hx
    obtain ⟨c,hc,rfl⟩ := List.mem_map.mp hx
    have hm : (⟨c.declaration.handle,characteristicUuid,
        c.declaration.properties :: putLe16 c.value ++ c.uuid.toLe⟩ : Attribute) ∈ e.attributes :=
      List.mem_append_right _ (List.mem_flatMap.mpr ⟨c,hc,List.mem_append_left _ (by
        simp [ServedCharacteristic.declared])⟩)
    have hb := (h.proper e he).bounded hm
    exact ⟨hb.1.le,hb.2⟩
  have hw := h.laid.within_flatMap declarations.extent
    (fun d => d.characteristics.map ServedCharacteristic.declaration) hin hd le_rfl le_rfl
  rw [declarationList,found]
  exact congrArg (Characteristic.found d.group.last)
    (hw.trans (Extent.within_eq_self (hin d hd)))

theorem descriptorList_eq (hc : d.characteristics = qs ++ c :: rs) :
    descriptorList server (c.value + 1) (endOf d.group.last rs) =
      c.descriptors.map Descriptor.found := by
  have hp := h.proper d hd
  have hsplit := ServedService.Proper.table_split hc
  have hin : ∀ e ∈ server, ∀ x ∈ e.table,
      e.group.first.toNat ≤ x.handle.toNat ∧ x.handle.toNat ≤ e.group.last.toNat :=
    fun e he x hx => (h.proper e he).table_bounds hx
  obtain ⟨hv,hmax⟩ := hp.valued c (by rw [hc]; simp)
  have hval : (c.value + 1).toNat = c.value.toNat + 1 := succ_toNat (lt_of_ne_max hmax)
  obtain ⟨hmid,hafter,hend⟩ := hp.descriptors_between hc
  have hasc := hp.ascending
  rw [hsplit,List.map_append,List.map_append,List.pairwise_append,List.pairwise_append,
    List.map_append,List.pairwise_append] at hasc
  obtain ⟨⟨⟨_,hlast,hbefore⟩,_,_⟩,_,_⟩ := hasc
  have hw := h.laid.within_flatMap information.extent ServedService.table hin hd
    (a := (c.value + 1).toNat) (b := (endOf d.group.last rs).toNat) ?_ ?_
  · rw [descriptorList]
    refine congrArg (List.map Descriptor.found) (hw.trans ?_)
    rw [hsplit]
    refine Extent.within_middle (fun x hx => ?_) (fun x hx => ?_) hafter
    · rw [hval]
      refine Nat.lt_succ_of_le ?_
      rcases List.mem_append.mp hx with hx | hx
      · exact (hbefore x.handle.toNat (List.mem_map_of_mem hx) c.value.toNat (by simp)).le
      · simp only [List.map_cons,List.pairwise_cons] at hlast
        rcases List.mem_pair.mp hx with rfl | rfl
        · exact (hlast.1 c.value.toNat (by simp)).le
        · exact le_rfl
    · obtain ⟨h1,h2⟩ := hmid x hx
      exact ⟨by rw [hval]; exact h1,h2⟩
  · have hm : (⟨c.value,c.declaration.uuid⟩ : Descriptor) ∈ d.table := by
      rw [hsplit]
      simp
    rw [hval]
    exact Nat.le_succ_of_le (hin d hd _ hm).1
  · exact hend

end Served

theorem found_nil {stop : UInt16} : found stop cs = [] ↔ cs = [] := by
  cases cs with
  | nil => simp [found,Characteristic.found]
  | cons c cs => simp [found_cons]

theorem continueDescs_phase (qs cs : List ServedCharacteristic) (hproper : ∀ d ∈ server, d.Proper)
    (hr : Rostered db (done ++ (a,d) :: todo))
    (hs : (done ++ (a,d) :: todo).map Prod.snd = order server) (hd : ∀ p ∈ done, Finished db p)
    (hc : d.characteristics = qs ++ cs)
    (hf : Filled db a d (d.included ++ qs.flatMap ServedCharacteristic.attributes))
    (hp : ∀ p ∈ todo, Prepared db p)
    (hl : ls.length ≤ 2 + server.length + done.length + characteristicTotal (done.map Prod.snd) +
      qs.length) :
    Phase server (ls ++ [r]) (continueDescs r.sent ecode db
      ⟨todo.map Prod.fst,found d.group.last cs,[],some a⟩) := by
  have hmem : d ∈ server := by
    have : d ∈ order server := hs ▸ (by simp)
    exact (order_perm server).subset this
  have hspec := discoverDescs_spec r.sent hf (hproper d hmem) hc
  rw [continueDescs]
  generalize discoverDescs (some a) r.sent db (found d.group.last cs) = x at hspec
  have hdt : ∀ t, Amends db t a → ∀ p ∈ done, Finished t p := fun t ham p hpm =>
    (hd p hpm).amends ham (fst_ne hr.distinct (by simp [hpm]))
  have hpt : ∀ t, Amends db t a → ∀ p ∈ todo, Prepared t p := fun t ham p hpm =>
    ham.filled (fst_ne hr.distinct (by simp [hpm])) (hp p hpm)
  cases hspec with
  | finished t ham hft =>
    rw [List.append_cons] at hr hs
    refine nextService_phase [] todo hproper (hr.amends ham) hs (by simpa using hdt t ham) hft
      (hpt t ham) ?_ _
    have hlen := congrArg List.length hc
    rw [List.length_append] at hlen
    simp only [List.map_append,total_append,List.length_append,List.map_cons,List.map_nil,
      List.length_cons,List.length_nil]
    simp only [characteristicTotal,List.map_cons,List.map_nil,List.sum_cons,List.sum_nil] at hl ⊢
    omega
  | discovering t ps c rs hcs ham hft =>
    refine .descriptors t done a d todo (qs ++ ps) c rs (hr.amends ham) hs ?_ (hdt t ham) hft
      (hpt t ham) ?_
    · rw [hc,hcs,List.append_assoc]
    · rw [List.length_append,List.length_append,List.length_singleton]
      omega
  | failed hsent t pending => exact .refused _ _ _ (unsent_last hsent)

theorem discoverIncluded_phase {success : Bool} (hr : Rostered db roster) (hb : Bare db roster)
    (hs : roster.map Prod.snd = order server) (hn : roster ≠ []) (hl : ls.length = 1)
    (hsuccess : success = true → secondaries server ≠ []) :
    Phase server (ls ++ [r])
      (discoverIncluded r.sent success ecode db ⟨roster.map Prod.fst,[],[],none⟩) := by
  obtain ⟨⟨a,d⟩,todo,rfl⟩ := List.exists_cons_of_ne_nil hn
  obtain ⟨s,hfind,hh⟩ := hb (a,d) List.mem_cons_self
  simp only [discoverIncluded,List.map_cons,hfind,hh.start,hh.last]
  split
  next =>
    refine .included db [] a d todo hr hs (by simp) hb ?_
    rw [List.length_append,hl]
    rfl
  next hsent =>
    have hr : r.sent = false := by simpa using hsent
    cases success with
    | false => exact .refused _ _ _ (unsent_last hr)
    | true =>
      exact .unserved _ _ _ ⟨r,by simp,hr⟩ (hsuccess rfl) (by rw [List.length_append,hl]; rfl)

theorem discoverSecondary_phase (hr : Rostered db roster) (hb : Bare db roster)
    (hs : roster.map Prod.snd = primaries server) (hn : roster ≠ []) (hl : ls.length = 0) :
    Phase server (ls ++ [r])
      (discoverSecondary r.sent true ecode db ⟨roster.map Prod.fst,[],[],none⟩) := by
  have hp : roster.map Prod.fst ≠ [] := by simpa using hn
  simp only [discoverSecondary,if_neg hp,proceed]
  split
  next => exact .secondary db roster hr hb hs hn (by rw [List.length_append,hl]; rfl)
  next hsent => exact .refused _ _ _ (unsent_last (by simpa using hsent))

theorem rostered_nil (hf : db.Fresh) (hs : db.services = []) : Rostered db [] := by
  refine ⟨hf,?_,List.nodup_nil,by simp [hs]⟩
  rw [Db.Ordered,hs]
  exact ⟨by simp,List.Pairwise.nil⟩

theorem primary_phase (h : Served server) (hf : db.Fresh) (hs : db.services = [])
    (hl : ls.length = 0) {o : Outcome FoundService}
    (ho : Reports o (serviceList primSvcUuid (primaries server))) :
    Phase server (ls ++ [.services o]) (discoverPrimaryCb db discoveryOpCreate o) := by
  have hprim : ∀ d ∈ primaries server, d ∈ server ∧ d.primary = true := fun d hd =>
    List.mem_filter.mp hd
  rw [serviceList_eq fun d hd => h.proper d (hprim d hd).1] at ho
  have hnil := rostered_nil hf hs
  rcases ho with ho | hfail
  swap
  · simp only [discoverPrimaryCb,hfail.1,discoverSecondary,discoveryOpCreate]
    exact .refused _ _ _ (refused_last (.inr hfail))
  generalize hds : (primaries server).map (fun d => Group.found 0xffff d.group) = items at ho
  cases ho with
  | found items hsuc hres hne =>
    subst hds
    obtain ⟨t,more,ht,hsnd,hrt,hbt⟩ := storeServices_spec h.laid h.proper hnil
      (by simp [Bare]) (by simp) hprim (h.laid.nodup.filter _) []
    simp only [discoverPrimaryCb,hsuc,hres,discoveryOpCreate,ht]
    have hmore : more ≠ [] := by
      rintro rfl
      rw [← hsnd] at hne
      exact hne rfl
    exact discoverSecondary_phase (r := .services o) hrt hbt hsnd hmore hl
  | notFound hsuc he =>
    simp only [discoverPrimaryCb,hsuc,discoverSecondary,discoveryOpCreate]
    exact .absent db _ _ (List.map_eq_nil_iff.mp hds)

theorem secondary_phase (h : Served server) (hr : Rostered db roster) (hb : Bare db roster)
    (hs : roster.map Prod.snd = primaries server) (hn : roster ≠ []) (hl : ls.length = 1)
    {o : Outcome FoundService} (ho : Reports o (serviceList sndSvcUuid (secondaries server))) :
    Phase server (ls ++ [.services o])
      (discoverSecondaryCb db ⟨roster.map Prod.fst,[],[],none⟩ o) := by
  have hsec : ∀ d ∈ secondaries server, d ∈ server ∧ d.primary = false := fun d hd =>
    ⟨(List.mem_filter.mp hd).1,by simpa using (List.mem_filter.mp hd).2⟩
  rw [serviceList_eq fun d hd => h.proper d (hsec d hd).1] at ho
  rcases ho with ho | hfail
  swap
  · simp only [discoverSecondaryCb,hfail.1,hfail.2]
    exact .refused _ _ _ (refused_last (.inr hfail))
  generalize hds : (secondaries server).map (fun d => Group.found 0xffff d.group) = items at ho
  cases ho with
  | found items hsuc hres hne =>
    subst hds
    have hnd : (roster.map Prod.snd ++ secondaries server).Nodup := by
      rw [hs]
      exact (order_perm server).nodup_iff.mpr h.laid.nodup
    obtain ⟨t,more,ht,hsnd,hrt,hbt⟩ := storeServices_spec h.laid h.proper hr hb
      (fun p hp => (List.mem_filter.mp (hs ▸ List.mem_map_of_mem hp : p.2 ∈ primaries server)).1)
      hsec hnd (roster.map Prod.fst)
    simp only [discoverSecondaryCb,hsuc,hres,ht]
    rw [← List.map_append]
    refine discoverIncluded_phase (r := .services o) hrt hbt ?_ (by simp [hn]) hl
      fun _ hnil => hne (by rw [hnil]; rfl)
    rw [List.map_append,hs,hsnd]
    rfl
  | notFound hsuc he =>
    simp only [discoverSecondaryCb,hsuc,he]
    refine discoverIncluded_phase (r := .services o) hr hb ?_ hn hl (by simp)
    rw [hs,order,List.map_eq_nil_iff.mp hds,List.append_nil]

theorem included_phase (h : Served server) (hr : Rostered db (done ++ (a,d) :: todo))
    (hs : (done ++ (a,d) :: todo).map Prod.snd = order server) (hd : ∀ p ∈ done, Prepared db p)
    (hb : Bare db ((a,d) :: todo)) (hl : ls.length ≤ 2 + done.length) {o : Outcome FoundIncluded}
    (ho : Reports o (includeList server d.group.first d.group.last)) :
    Phase server (ls ++ [.included o])
      (discoverInclCb db ⟨todo.map Prod.fst,[],done.map Prod.fst ++ [a],some a⟩ o) := by
  have hin : ∀ p ∈ done ++ (a,d) :: todo, p.2 ∈ server := fun p hp =>
    (order_perm server).subset (hs ▸ List.mem_map_of_mem hp)
  have hds : d ∈ server := hin (a,d) (by simp)
  rw [h.includeList_eq hds] at ho
  have hfilled := hb (a,d) List.mem_cons_self
  have hfinish : ∀ t, Amends db t a → Filled t a d d.included →
      Phase server (ls ++ [.included o]) (nextIncluded o.sent o.attEcode t
        ⟨todo.map Prod.fst,[],done.map Prod.fst ++ [a],some a⟩ (todo.map Prod.fst)) := by
    intro t ham hft
    have hdist := hr.distinct
    have hstep : Phase server (ls ++ [.included o]) (nextIncluded o.sent o.attEcode t
        ⟨todo.map Prod.fst,[],(done ++ [(a,d)]).map Prod.fst,some a⟩ (todo.map Prod.fst)) :=
      nextIncluded_phase (r := .included o) (done ++ [(a,d)]) todo h.proper
      (by simpa using hr.amends ham) (by simpa using hs) (by simp)
      (fun p hp => by
        rcases List.mem_append.mp hp with hp | hp
        · exact ham.filled (fst_ne hdist (by simp [hp])) (hd p hp)
        · obtain rfl := List.mem_singleton.mp hp
          exact hft)
      (fun p hp => ham.filled (fst_ne hdist (by simp [hp])) (hb p (List.mem_cons_of_mem _ hp)))
      (by rw [List.length_append,List.length_singleton]; omega) (todo.map Prod.fst) (some a)
    simpa using hstep
  rcases ho with ho | hfail
  swap
  · simp only [discoverInclCb,hfail.1,hfail.2]
    exact .refused _ _ _ (refused_last (.inr hfail))
  generalize hit : d.includes = items at ho
  cases ho with
  | found items hsuc hres hne =>
    subst hit
    obtain ⟨i,is,hcons⟩ := List.exists_cons_of_ne_nil hne
    have hknown : ∀ i ∈ d.includes,
        ∃ e, Known db e ∧ e.group.first = i.first ∧ e.group.last = i.last := by
      intro i hi
      obtain ⟨e,he,h1⟩ := h.included d hds i hi
      refine ⟨e,?_,h1⟩
      have hm : e ∈ (done ++ (a,d) :: todo).map Prod.snd := hs ▸ (order_perm server).symm.subset he
      obtain ⟨p,hp,rfl⟩ := List.mem_map.mp hm
      rcases List.mem_append.mp hp with hp | hp
      · exact Filled.known (hd p hp)
      · exact Filled.known (hb p hp)
    obtain ⟨t,ht,ham,hft⟩ := addIncludes_spec [] d.includes hr.fresh hr.ordered hfilled
      (h.proper d hds) rfl hknown
    rw [hcons] at hres ht
    simp only [discoverInclCb,hsuc,hres,ht]
    exact hfinish t ham hft
  | notFound hsuc he =>
    simp only [discoverInclCb,hsuc,he]
    rw [← he]
    refine hfinish db (.refl db a) ?_
    rw [ServedService.included,hit]
    exact hfilled

theorem characteristics_phase (h : Served server) (hr : Rostered db (done ++ (a,d) :: todo))
    (hs : (done ++ (a,d) :: todo).map Prod.snd = order server) (hd : ∀ p ∈ done, Finished db p)
    (hp : ∀ p ∈ (a,d) :: todo, Prepared db p)
    (hl : ls.length ≤ 2 + server.length + done.length + characteristicTotal (done.map Prod.snd))
    {o : Outcome FoundCharacteristic}
    (ho : Reports o (declarationList server d.group.first d.group.last)) :
    Phase server (ls ++ [.characteristics o]) (discoverChrcsCb db ⟨todo.map Prod.fst,[],[],some a⟩ o) := by
  have hds : d ∈ server := (order_perm server).subset (hs ▸ (by simp))
  have hpd := hp (a,d) List.mem_cons_self
  have hpt : ∀ p ∈ todo, Prepared db p := fun p hpm => hp p (List.mem_cons_of_mem _ hpm)
  rw [h.declarationList_eq hds] at ho
  rcases ho with ho | hfail
  swap
  · simp only [discoverChrcsCb,hfail.1,hfail.2]
    exact .refused _ _ _ (refused_last (.inr hfail))
  generalize hit : found d.group.last d.characteristics = items at ho
  cases ho with
  | found items hsuc hres hne =>
    obtain ⟨c,cs,hcons⟩ := List.exists_cons_of_ne_nil hne
    subst hit
    rw [hcons] at hres
    simp only [discoverChrcsCb,hsuc,hres,List.nil_append]
    rw [← hcons]
    refine continueDescs_phase (r := .characteristics o) [] d.characteristics h.proper hr hs hd rfl
      ?_ hpt (by simpa using hl)
    simpa [Prepared] using hpd
  | notFound hsuc he =>
    have hnil := found_nil.mp hit
    simp only [discoverChrcsCb,hsuc,he]
    rw [← he]
    rw [List.append_cons] at hr hs
    refine nextService_phase (r := .characteristics o) [] todo h.proper hr hs (by simpa using hd) ?_
      hpt ?_ _
    · rw [ServedService.attributes,hnil,List.flatMap_nil,List.append_nil]
      exact hpd
    · simp only [List.map_append,total_append,List.length_append,List.map_cons,List.map_nil,
        List.length_cons,List.length_nil]
      omega

theorem descriptors_phase (h : Served server) (hr : Rostered db (done ++ (a,d) :: todo))
    (hs : (done ++ (a,d) :: todo).map Prod.snd = order server)
    (hc : d.characteristics = qs ++ c :: rs) (hd : ∀ p ∈ done, Finished db p)
    (hf : Filled db a d (d.included ++ qs.flatMap ServedCharacteristic.attributes ++ c.declared))
    (hp : ∀ p ∈ todo, Prepared db p)
    (hl : ls.length ≤ 3 + server.length + done.length + characteristicTotal (done.map Prod.snd) +
      qs.length) {o : Outcome FoundDescriptor}
    (ho : Answered o (descriptorList server (c.value + 1) (endOf d.group.last rs))) :
    Phase server (ls ++ [.descriptors o])
      (discoverDescsCb db ⟨todo.map Prod.fst,found d.group.last rs,[],some a⟩ o) := by
  have hds : d ∈ server := (order_perm server).subset (hs ▸ (by simp))
  rw [h.descriptorList_eq hds hc] at ho
  have hfinish : ∀ t, Amends db t a → Filled t a d (d.included ++
      qs.flatMap ServedCharacteristic.attributes ++ c.declared ++ c.described) →
      Phase server (ls ++ [.descriptors o]) (continueDescs o.sent o.attEcode t
        ⟨todo.map Prod.fst,found d.group.last rs,[],some a⟩) := by
    intro t ham hft
    refine continueDescs_phase (r := .descriptors o) (qs ++ [c]) rs h.proper (hr.amends ham) hs ?_
      (by rw [hc]; simp) ?_ ?_ ?_
    · exact fun p hpm => (hd p hpm).amends ham (fst_ne hr.distinct (by simp [hpm]))
    · simpa [ServedCharacteristic.attributes] using hft
    · exact fun p hpm => ham.filled (fst_ne hr.distinct (by simp [hpm])) (hp p hpm)
    · rw [List.length_append,List.length_singleton]
      omega
  generalize hit : c.descriptors.map Descriptor.found = items at ho
  cases ho with
  | found items hsuc hres hne =>
    subst hit
    obtain ⟨x,xs,hcons⟩ := List.exists_cons_of_ne_nil hne
    obtain ⟨t,ht,ham,hft⟩ := insertDescriptors_spec c.descriptors hf (h.proper d hds)
      (by rw [ServedService.Proper.attributes_split hc,List.append_assoc _ (c.descriptors.map _)]; rfl)
    rw [hcons] at hres ht
    simp only [discoverDescsCb,hsuc,hres,ht]
    exact hfinish t ham hft
  | notFound hsuc he =>
    simp only [discoverDescsCb,hsuc,he]
    rw [← he]
    refine hfinish db (.refl db a) ?_
    rw [ServedCharacteristic.described,List.map_eq_nil_iff.mp hit,List.map_nil,List.append_nil]
    exact hf

section Told
variable {cut : UInt16 → Nat}

theorem primaries_told : primaries (told cut server) = told cut (primaries server) :=
  List.filter_map

theorem secondaries_told : secondaries (told cut server) = told cut (secondaries server) :=
  List.filter_map

theorem order_told : order (told cut server) = told cut (order server) := by
  rw [order,primaries_told,secondaries_told,order,told,told,told,List.map_append]

theorem serviceList_told {serviceType : UInt16} {ds : List ServedService} :
    serviceList serviceType (told cut ds) = serviceList serviceType ds := by
  have hg : (told cut ds).map ServedService.group = ds.map ServedService.group := by
    rw [told,List.map_map]
    rfl
  rw [serviceList,hg,serviceList]

theorem includeList_told {start last : UInt16} :
    includeList (told cut server) start last = includeList server start last := by
  have hi : (told cut server).flatMap ServedService.includes =
      server.flatMap ServedService.includes := List.flatMap_map _ _ _
  rw [includeList,hi,includeList]

theorem declarationList_told {start last : UInt16} :
    declarationList (told cut server) start last = declarationList server start last := by
  have hd : ((told cut server).flatMap fun d =>
      d.characteristics.map ServedCharacteristic.declaration) =
        server.flatMap fun d => d.characteristics.map ServedCharacteristic.declaration := by
    rw [told,List.flatMap_map]
    refine congrArg (server.flatMap ·) (funext fun d => ?_)
    rw [ServedService.told,List.map_map]
    rfl
  rw [declarationList,hd,declarationList]

theorem total_told : characteristicTotal (told cut server) = characteristicTotal server := by
  rw [characteristicTotal,told,List.map_map,characteristicTotal]
  refine congrArg List.sum (List.map_congr_left fun d _ => ?_)
  exact List.length_map _

-- What a report tells of one characteristic changes nothing else of what the server has told.
theorem recut (h : Served server) (n : Nat)
    (hs : (done ++ (a,d) :: todo).map Prod.snd = order (told cut server))
    (hc : d.characteristics = qs ++ c :: rs) :
    ∃ d' ∈ server, ∃ qs' c' rs', d'.characteristics = qs' ++ c' :: rs' ∧ d = d'.told cut ∧
      c = c'.told cut ∧ rs = rs'.map (ServedCharacteristic.told cut) ∧
      (done ++ (a,d'.told (Function.update cut c.value n)) :: todo).map Prod.snd =
        order (told (Function.update cut c.value n) server) ∧
      (d'.told (Function.update cut c.value n)).characteristics =
        qs ++ c'.told (Function.update cut c.value n) :: rs := by
  rw [order_told,told,List.map_append,List.map_cons] at hs
  obtain ⟨ds,es,hse,hds,hes⟩ := List.map_eq_append_iff.mp hs.symm
  obtain ⟨d',es,rfl,rfl : d'.told cut = d,hte⟩ := List.map_eq_cons_iff.mp hes
  obtain ⟨qs',cs,hce,rfl,hcs⟩ := List.map_eq_append_iff.mp hc
  obtain ⟨c',rs',rfl,rfl,rfl⟩ := List.map_eq_cons_iff.mp hcs
  have hm (e : ServedService) (he : e ∈ ds ++ d' :: es) : e ∈ server :=
    (order_perm server).subset (hse ▸ he)
  have hd' : d' ∈ server := hm d' (by simp)
  have hnd : (ds ++ d' :: es).Nodup := hse ▸ (order_perm server).nodup_iff.mpr h.laid.nodup
  have hcd : c' ∈ d'.characteristics := by simp [hce]
  have hother (e : ServedService) (he : e ∈ ds ++ es) :
      e.told cut = e.told (Function.update cut c'.value n) := by
    refine ServedService.told_congr fun x hx => (Function.update_of_ne ?_ n cut).symm
    have hne : e ≠ d' := fun heq => (List.nodup_middle.mp hnd |> List.nodup_cons.mp).1 (heq ▸ he)
    refine h.value_apart (hm e ?_) hd' hne hx hcd
    rcases List.mem_append.mp he with he | he
    · exact List.mem_append_left _ he
    · exact List.mem_append_right _ (List.mem_cons_of_mem _ he)
  have hrest (x : ServedCharacteristic) (hx : x ∈ qs' ++ rs') :
      x.told (Function.update cut c'.value n) = x.told cut :=
    ServedCharacteristic.told_congr
      (Function.update_of_ne ((h.proper d' hd').value_ne hce hx) n cut)
  refine ⟨d',hd',qs',c',rs',hce,rfl,rfl,rfl,?_,?_⟩
  · rw [order_told,told,hse,List.map_append,List.map_append,List.map_cons,List.map_cons,← hds,← hte]
    have h1 : ds.map (ServedService.told cut) = ds.map (ServedService.told _) :=
      List.map_congr_left fun e he => hother e (List.mem_append_left _ he)
    have h2 : es.map (ServedService.told cut) = es.map (ServedService.told _) :=
      List.map_congr_left fun e he => hother e (List.mem_append_right _ he)
    rw [h1,h2]
    rfl
  · change d'.characteristics.map _ = _
    rw [hce,List.map_append,List.map_cons]
    have h1 : qs'.map (ServedCharacteristic.told _) = qs'.map (ServedCharacteristic.told cut) :=
      List.map_congr_left fun x hx => hrest x (List.mem_append_left _ hx)
    have h2 : rs'.map (ServedCharacteristic.told _) = rs'.map (ServedCharacteristic.told cut) :=
      List.map_congr_left fun x hx => hrest x (List.mem_append_right _ hx)
    exact congrArg₂ (· ++ _ :: ·) h1 h2

end Told

theorem taken_whole {o : Outcome A} {items : List A} {n : Nat} (hn : 0 < n)
    (h : Answered o (items.take n)) (hw : Answered o items) : items.length ≤ n := by
  generalize hx : items.take n = xs at h
  cases h with
  | found xs hs hr hne =>
    cases hw with
    | found items hs' hr' hne' =>
      obtain rfl : xs = items := Option.some.inj (hr.symm.trans hr')
      exact List.take_eq_self_iff _ |>.mp hx
    | notFound hs' he' => exact Nat.zero_le n
  | notFound hs he =>
    rcases List.take_eq_nil_iff.mp hx with h0 | rfl
    · omega
    · exact Nat.zero_le n

theorem endOf_told {cut : UInt16 → Nat} (stop : UInt16) (cs : List ServedCharacteristic) :
    endOf stop (cs.map (ServedCharacteristic.told cut)) = endOf stop cs := by
  cases cs <;> rfl

theorem Whole.update {cut : UInt16 → Nat} (h : Served server) (hw : Whole cut server)
    (hd : d ∈ server) (hc : c ∈ d.characteristics) {n : Nat} (hn : c.descriptors.length ≤ n) :
    Whole (Function.update cut c.value n) server := by
  intro e he x hx
  rcases eq_or_ne x.value c.value with hv | hv
  · obtain rfl := h.value_unique he hd hx hc hv
    rw [Function.update_self]
    exact hn
  · rw [Function.update_of_ne hv]
    exact hw e he x hx

theorem descriptors_told {cut : UInt16 → Nat} (h : Served server)
    (hr : Rostered db (done ++ (a,d) :: todo))
    (hs : (done ++ (a,d) :: todo).map Prod.snd = order (told cut server))
    (hc : d.characteristics = qs ++ c :: rs) (hd : ∀ p ∈ done, Finished db p)
    (hf : Filled db a d (d.included ++ qs.flatMap ServedCharacteristic.attributes ++ c.declared))
    (hp : ∀ p ∈ todo, Prepared db p)
    (hl : ls.length ≤ 3 + (told cut server).length + done.length +
      characteristicTotal (done.map Prod.snd) + qs.length)
    {o : Outcome FoundDescriptor} {n : Nat} (hn : 0 < n)
    (ho : Answered o ((descriptorList server (c.value + 1) (endOf d.group.last rs)).take n)) :
    ∃ cut', Phase (told cut' server) (ls ++ [.descriptors o])
      (discoverDescsCb db ⟨todo.map Prod.fst,found d.group.last rs,[],some a⟩ o) ∧
      ((∀ handle, 0 < cut handle) → ∀ handle, 0 < cut' handle) ∧
      (Answered o (descriptorList server (c.value + 1) (endOf d.group.last rs)) →
        Whole cut server → Whole cut' server) := by
  obtain ⟨d',hd',qs',c',rs',hc',rfl,rfl,rfl,hs',hcs⟩ := recut h n hs hc
  have hlist : descriptorList server (c'.value + 1) (endOf d'.group.last
      (rs'.map (ServedCharacteristic.told cut))) = c'.descriptors.map Descriptor.found := by
    rw [endOf_told]
    exact h.descriptorList_eq hd' hc'
  obtain ⟨s,hfind,hh⟩ := hf
  refine ⟨Function.update cut c'.value n,?_,fun hpos handle => ?_,fun hw hwhole => ?_⟩
  · refine descriptors_phase (h.told _) ⟨hr.fresh,hr.ordered,by simpa [Distinct] using hr.distinct,
      by simpa using hr.only⟩ hs' hcs hd ⟨s,hfind,hh.declaration,hh.last,hh.attributes⟩ hp
      (by simpa [told] using hl) ?_
    have hlist' := (h.told (Function.update cut c'.value n)).descriptorList_eq
      (List.mem_map_of_mem hd') hcs
    refine (congrArg (Answered o) ?_).mp ho
    refine (congrArg (List.take n) hlist).trans (Eq.trans ?_ hlist'.symm)
    have hcut : Function.update cut (c'.told cut).value n c'.value = n := Function.update_self ..
    rw [← List.map_take,ServedCharacteristic.told,hcut]
  · rw [Function.update_apply]
    split
    · exact hn
    · exact hpos handle
  · have hlen := taken_whole hn ho hw
    rw [show descriptorList server ((c'.told cut).value + 1) (endOf (d'.told cut).group.last
      (rs'.map (ServedCharacteristic.told cut))) = _ from hlist,List.length_map] at hlen
    exact hwhole.update h hd' (by simp [hc']) hlen

theorem honest_step {cut : UInt16 → Nat} (h : Served server) (hu : Phase (told cut server) ls u)
    (hh : honest server u r) (hv : u.step r = some v) :
    ∃ cut', Phase (told cut' server) (ls ++ [r]) v ∧
      ((∀ handle, 0 < cut handle) → ∀ handle, 0 < cut' handle) ∧
      (exhaustive server u r → Whole cut server → Whole cut' server) := by
  have ht : Served (told cut server) := h.told cut
  cases hu with
  | primary db hf hs hl =>
    cases r with
    | services o =>
      cases hv
      refine ⟨cut,primary_phase ht hf hs hl ?_,id,fun _ hw => hw⟩
      rw [primaries_told,serviceList_told]
      exact hh
    | included o => simp [Discovering.step] at hv
    | characteristics o => simp [Discovering.step] at hv
    | descriptors o => simp [Discovering.step] at hv
  | secondary db roster hr hb hs hn hl =>
    cases r with
    | services o =>
      cases hv
      refine ⟨cut,secondary_phase ht hr hb hs hn hl ?_,id,fun _ hw => hw⟩
      rw [secondaries_told,serviceList_told]
      exact hh
    | included o => simp [Discovering.step] at hv
    | characteristics o => simp [Discovering.step] at hv
    | descriptors o => simp [Discovering.step] at hv
  | included db done a d todo hr hs hd hb hl =>
    cases r with
    | services o => simp [Discovering.step] at hv
    | included o =>
      cases hv
      refine ⟨cut,included_phase ht hr hs hd hb hl ?_,id,fun _ hw => hw⟩
      rw [includeList_told]
      exact hh
    | characteristics o => simp [Discovering.step] at hv
    | descriptors o => simp [Discovering.step] at hv
  | characteristics db done a d todo hr hs hd hp hl =>
    cases r with
    | services o => simp [Discovering.step] at hv
    | included o => simp [Discovering.step] at hv
    | characteristics o =>
      cases hv
      refine ⟨cut,characteristics_phase ht hr hs hd hp hl ?_,id,fun _ hw => hw⟩
      rw [declarationList_told]
      exact hh
    | descriptors o => simp [Discovering.step] at hv
  | descriptors db done a d todo qs c rs hr hs hc hd hf hp hl =>
    cases r with
    | services o => simp [Discovering.step] at hv
    | included o => simp [Discovering.step] at hv
    | characteristics o => simp [Discovering.step] at hv
    | descriptors o =>
      cases hv
      obtain ⟨n,hn,ho⟩ := hh
      exact descriptors_told h hr hs hc hd hf hp hl hn ho
  | mirrored db op ecode hm => simp [Discovering.step] at hv
  | absent db op ecode hs => simp [Discovering.step] at hv
  | refused db op ecode hr => simp [Discovering.step] at hv
  | unserved db op ecode hr hs hl => simp [Discovering.step] at hv

theorem Phase.length_lt (hu : Phase server ls u) (hv : u.step r = some v) :
    ls.length < 2 + 2 * server.length + characteristicTotal server := by
  have hsplit : ∀ (done : Roster) a d todo, (done ++ (a,d) :: todo).map Prod.snd = order server →
      done.length + 1 ≤ server.length ∧ characteristicTotal (done.map Prod.snd) +
        d.characteristics.length ≤ characteristicTotal server := by
    intro done a d todo hs
    have hlen := congrArg List.length hs
    rw [List.length_map,(order_perm server).length_eq,List.length_append,List.length_cons] at hlen
    refine ⟨by omega,?_⟩
    rw [← order_total server,← hs,List.map_append,total_append,List.map_cons]
    simp only [characteristicTotal,List.map_cons,List.sum_cons]
    omega
  cases hu with
  | primary db hf hs hl => omega
  | secondary db roster hr hb hs hn hl => omega
  | included db done a d todo hr hs hd hb hl =>
    have := hsplit done a d todo hs
    omega
  | characteristics db done a d todo hr hs hd hp hl =>
    have := hsplit done a d todo hs
    omega
  | descriptors db done a d todo qs c rs hr hs hc hd hf hp hl =>
    have := hsplit done a d todo hs
    rw [hc,List.length_append,List.length_cons] at this
    omega
  | mirrored db op ecode hm => simp [Discovering.step] at hv
  | absent db op ecode hs => simp [Discovering.step] at hv
  | refused db op ecode hr => simp [Discovering.step] at hv
  | unserved db op ecode hr hs hl => simp [Discovering.step] at hv

theorem answer_exists (items : List A) : ∃ o : Outcome A, Answered o items ∧ o.sent = true := by
  cases items with
  | nil => exact ⟨⟨false,errorAttributeNotFound,none,true⟩,.notFound rfl rfl,rfl⟩
  | cons x xs => exact ⟨⟨true,0,some (x :: xs),true⟩,.found _ rfl rfl (by simp),rfl⟩

theorem Phase.continues {told : List ServedService} (hu : Phase told ls u) :
    (∃ success ecode, u.stage = .complete success ecode) ∨
      ∃ r v, honest server u r ∧ exhaustive server u r ∧ r.sent = true ∧ u.step r = some v := by
  cases hu with
  | primary db hf hs hl =>
    obtain ⟨o,ho,hsent⟩ := answer_exists (serviceList primSvcUuid (primaries server))
    exact .inr ⟨.services o,_,.inl ho,trivial,hsent,rfl⟩
  | secondary db roster hr hb hs hn hl =>
    obtain ⟨o,ho,hsent⟩ := answer_exists (serviceList sndSvcUuid (secondaries server))
    exact .inr ⟨.services o,_,.inl ho,trivial,hsent,rfl⟩
  | included db done a d todo hr hs hd hb hl =>
    obtain ⟨o,ho,hsent⟩ := answer_exists (includeList server d.group.first d.group.last)
    exact .inr ⟨.included o,_,.inl ho,trivial,hsent,rfl⟩
  | characteristics db done a d todo hr hs hd hp hl =>
    obtain ⟨o,ho,hsent⟩ := answer_exists (declarationList server d.group.first d.group.last)
    exact .inr ⟨.characteristics o,_,.inl ho,trivial,hsent,rfl⟩
  | descriptors db done a d todo qs c rs hr hs hc hd hf hp hl =>
    obtain ⟨o,ho,hsent⟩ := answer_exists
      (descriptorList server (c.value + 1) (endOf d.group.last rs))
    refine .inr ⟨.descriptors o,_,⟨(descriptorList server (c.value + 1)
      (endOf d.group.last rs)).length + 1,Nat.succ_pos _,?_⟩,ho,hsent,rfl⟩
    rw [List.take_of_length_le (Nat.le_succ _)]
    exact ho
  | mirrored db op ecode hm => exact .inl ⟨_,_,rfl⟩
  | absent db op ecode hs => exact .inl ⟨_,_,rfl⟩
  | refused db op ecode hr => exact .inl ⟨_,_,rfl⟩
  | unserved db op ecode hr hs hl => exact .inl ⟨_,_,rfl⟩

structure Discovered (server : List ServedService) (db : Db) (ls : List Report)
    (u : Discovering) : Prop where
  run : Discovering.machine.run (.begin db) ls = some u
  told : ∃ cut, Phase (told cut server) ls u ∧ (∀ handle, 0 < cut handle) ∧
    (Discovering.machine.Along (exhaustive server) (.begin db) ls → Whole cut server)

theorem discovered_run (h : Served server) (hf : db.Fresh) (hs : db.services = [])
    (ha : Discovering.machine.Along (honest server) (.begin db) ls)
    (hr : Discovering.machine.run (.begin db) ls = some v) : Discovered server db ls v := by
  let total := ((server.flatMap ServedService.characteristics).map fun c => c.descriptors.length).sum
  have hall : Whole (fun _ => total + 1) server := fun d hd c hc => by
    have hle : c.descriptors.length ≤ total :=
      List.le_sum_of_mem (List.mem_map_of_mem (List.mem_flatMap.mpr ⟨d,hd,hc⟩))
    exact hle.trans (Nat.le_succ _)
  refine Discovering.machine.along_history (Discovered server db) (honest server) ?_
    ⟨rfl,_,.primary db hf hs rfl,fun _ => Nat.succ_pos _,fun _ => hall⟩ ha hr
  rintro ls u r v ⟨hu,cut,hphase,hpos,hwhole⟩ hh hv
  obtain ⟨cut',hphase',hpos',hwhole'⟩ := honest_step h hphase hh hv
  refine ⟨?_,cut',hphase',hpos' hpos,fun hx => ?_⟩
  · rw [Machine.run_append,hu,Option.bind_some,Machine.run_cons,
      show Discovering.machine.step u r = some v from hv]
    rfl
  · obtain ⟨hx,hr⟩ := (Discovering.machine.along_concat _ hu r).mp hx
    exact hwhole' hr (hwhole hx)

theorem reports_bounded (h : Served server) (hf : db.Fresh) (hs : db.services = [])
    (ha : Discovering.machine.Along (honest server) (.begin db) ls)
    (hr : Discovering.machine.run (.begin db) ls = some v) :
    ls.length ≤ 2 + 2 * server.length + characteristicTotal server := by
  rcases List.eq_nil_or_concat ls with rfl | ⟨ls,r,rfl⟩
  · exact Nat.zero_le _
  · rw [List.concat_eq_append] at ha hr ⊢
    obtain ⟨u,hu,hv⟩ := Discovering.machine.run_concat hr
    have hau := ((Discovering.machine.along_concat _ hu r).mp ha).1
    obtain ⟨cut,hphase,-,-⟩ := (discovered_run h hf hs hau hu).told
    have hlt := hphase.length_lt hv
    rw [total_told,told,List.length_map] at hlt
    rw [List.length_append,List.length_singleton]
    exact hlt

theorem discovered_verdict (h : Discovered server db ls v) :
    (∃ r w, honest server v r ∧ exhaustive server v r ∧ r.sent = true ∧ v.step r = some w) ∨
      (∃ ecode, v.stage = .complete true ecode ∧
        ((∃ cut, (∀ handle, 0 < cut handle) ∧ Mirrors (told cut server) v.db ∧
          (Discovering.machine.Along (exhaustive server) (.begin db) ls →
            told cut server = server)) ∨
        ls.length = 2 ∧ secondaries server ≠ [] ∧ ∃ r ∈ ls, r.sent = false)) ∨
      ∃ ecode, v.stage = .complete false ecode ∧
        (primaries server = [] ∨ ∃ r ∈ ls, r.refused) := by
  obtain ⟨-,cut,hv,hpos,hwhole⟩ := h
  rcases hv.continues with ⟨success,ecode,hstage⟩ | hmore
  · cases hv with
    | mirrored db op ecode hm =>
      exact .inr (.inl ⟨ecode,rfl,.inl ⟨cut,hpos,hm,fun hx => told_of_whole (hwhole hx)⟩⟩)
    | absent db op ecode hs =>
      rw [primaries_told,told,List.map_eq_nil_iff] at hs
      exact .inr (.inr ⟨ecode,rfl,.inl hs⟩)
    | refused db op ecode hx => exact .inr (.inr ⟨ecode,rfl,.inr hx⟩)
    | unserved db op ecode hx hs hl =>
      rw [secondaries_told,told,Ne,List.map_eq_nil_iff] at hs
      exact .inr (.inl ⟨ecode,rfl,.inr ⟨hl,hs,hx⟩⟩)
    | _ => simp at hstage
  · exact .inl hmore

theorem discovery_mirrors_server (h : Served server) (hf : db.Fresh) (hs : db.services = [])
    (ha : Discovering.machine.Along (honest server) (.begin db) ls)
    (hr : Discovering.machine.run (.begin db) ls = some v) :
    ls.length ≤ 2 + 2 * server.length + characteristicTotal server ∧
    ((∃ r w, honest server v r ∧ exhaustive server v r ∧ r.sent = true ∧ v.step r = some w) ∨
      (∃ ecode, v.stage = .complete true ecode ∧
        ((∃ cut, (∀ handle, 0 < cut handle) ∧ Mirrors (told cut server) v.db ∧
          (Discovering.machine.Along (exhaustive server) (.begin db) ls →
            told cut server = server)) ∨
        ls.length = 2 ∧ secondaries server ≠ [] ∧ ∃ r ∈ ls, r.sent = false)) ∨
      ∃ ecode, v.stage = .complete false ecode ∧
        (primaries server = [] ∨ ∃ r ∈ ls, r.refused)) :=
  ⟨reports_bounded h hf hs ha hr,discovered_verdict (discovered_run h hf hs ha hr)⟩

theorem along_extend {ok : Discovering → Report → Prop} (ms : List Report) (stage : Stage)
    {m : Report}
    (hrun : (Discovering.machine.run (.begin db) ms).map Discovering.stage = some stage)
    (hm : ∀ u, u.stage = stage → ok u m) (ha : Discovering.machine.Along ok (.begin db) ms) :
    Discovering.machine.Along ok (.begin db) (ms ++ [m]) := by
  obtain ⟨u,hu,hstage⟩ := Option.map_eq_some_iff.mp hrun
  exact (Discovering.machine.along_concat _ hu m).mpr ⟨ha,hm u hstage⟩

theorem discovery_mirrors_server_one :
    let config : Descriptor := ⟨4,.uuid16 0x2902⟩
    let report : ServedCharacteristic := ⟨⟨2,0x10,3,.uuid16 0x2a4d⟩,[config]⟩
    let server : List ServedService := [⟨⟨1,5,.uuid16 0x1812⟩,true,[],[report]⟩]
    let ls : List Report := [.services ⟨true,0,some (serviceList primSvcUuid server),true⟩,
      .services ⟨false,errorAttributeNotFound,none,true⟩,
      .included ⟨false,errorAttributeNotFound,none,true⟩,
      .characteristics ⟨true,0,some (declarationList server 1 5),true⟩,
      .descriptors ⟨true,0,some (descriptorList server 4 5),true⟩]
    ∃ v, Discovering.machine.run (.begin Db.new) ls = some v ∧ Mirrors server v.db := by
  intro config report server ls
  have hserved : Served server := by
    refine ⟨⟨by decide,by decide⟩,?_,by decide⟩
    intro d hd
    obtain rfl := List.mem_singleton.mp hd
    exact ⟨by decide,by decide,by decide,by decide,by decide,by decide⟩
  have hstage : (Discovering.machine.run (.begin Db.new) ls).map Discovering.stage =
      some (.complete true 0) := by decide
  have ha : Discovering.machine.Along (fun u r => honest server u r ∧ exhaustive server u r)
      (.begin Db.new) ls := by
    refine along_extend (ls.take 4) (.awaiting (.descriptors 4 5)) (by decide)
      (fun u hu => ?_) ?_
    · simp only [honest,exhaustive,hu]
      exact ⟨⟨1,Nat.one_pos,.found _ rfl rfl (by decide)⟩,.found _ rfl rfl (by decide)⟩
    refine along_extend (ls.take 3) (.awaiting (.characteristics 1 5)) (by decide)
      (fun u hu => ?_) ?_
    · simp only [honest,exhaustive,hu]
      exact ⟨.inl (.found _ rfl rfl (by decide)),trivial⟩
    refine along_extend (ls.take 2) (.awaiting (.included 1 5)) (by decide)
      (fun u hu => ?_) ?_
    · simp only [honest,exhaustive,hu]
      exact ⟨.inl (.notFound rfl rfl),trivial⟩
    refine along_extend (ls.take 1) (.awaiting .secondary) (by decide)
      (fun u hu => ?_) ?_
    · simp only [honest,exhaustive,hu]
      exact ⟨.inl (.notFound rfl rfl),trivial⟩
    · exact ⟨⟨.inl (.found _ rfl rfl (by decide)),trivial⟩,fun _ _ => trivial⟩
  obtain ⟨v,hv,hstage⟩ := Option.map_eq_some_iff.mp hstage
  refine ⟨v,hv,?_⟩
  have hh := Discovering.machine.along_mono (fun _ _ h => h.1) ha
  have hx := Discovering.machine.along_mono (fun _ _ h => h.2) ha
  rcases (discovery_mirrors_server hserved Db.fresh_new rfl hh hv).2 with
    ⟨r,w,_,_,_,hw⟩ | ⟨_,_,⟨cut,_,hm,hwhole⟩ | ⟨hlen,_⟩⟩ | ⟨_,hfalse,_⟩
  · simp [Discovering.step,hstage] at hw
  · exact hwhole hx ▸ hm
  · simp [ls] at hlen
  · simp [hstage] at hfalse

end Minipro.GattClient
