import Minipro.Bluez.DiscoveryRun
import Minipro.Bluez.IncludedComplete

namespace Minipro.GattClient
open GattDb GattHelpers Sweep Transition

variable {A B : Type}

-- What discovery_op_complete hands to the client.
def outcomeOf (read : Request → List A) (op : Request) (success : Bool) (ecode : UInt8)
    (sent : Bool) : Outcome A :=
  ⟨success,ecode,if success then some (read op) else none,sent⟩

def groupTable (ds : List ServedService) : List Group := ds.map ServedService.group

def declarationTable (server : List ServedService) : List Characteristic :=
  server.flatMap fun d => d.characteristics.map ServedCharacteristic.declaration

def attributeTable (server : List ServedService) : List Descriptor :=
  server.flatMap ServedService.table

def Completes (ℓ : Listing A) (items : List A) (start last : UInt16) (ls : List Reply) (op : Request)
    (success : Bool) (ecode : UInt8) : Prop :=
  ℓ.procedure.machine.Along (ℓ.compliant items) (begin start last) ls ∧
    ℓ.procedure.machine.run (begin start last) ls = some (.complete op success ecode)

def CompletesIncluded (items : List Included) (start last : UInt16) (ls : List Reply) (op : Request)
    (success : Bool) (ecode : UInt8) : Prop :=
  Inclusion.machine.Along (Inclusion.compliant items) (.begin start last) ls ∧
    Inclusion.machine.run (.begin start last) ls = some (.complete op success ecode)

-- What the sub-procedures make of the server's answers; refusing: descriptor discovery may have had
-- a follow-up request refused.
inductive Produced (refusing : Bool) (server : List ServedService) : DiscoveryReq → Report → Prop
  | primary {ls : List Reply} {op : Request} {success sent : Bool} {ecode : UInt8}
      (h : Completes (groups primSvcUuid) (groupTable (primaries server)) 1 0xffff ls op success
        ecode) :
      Produced refusing server .primary (.services (outcomeOf services op success ecode sent))
  | secondary {ls : List Reply} {op : Request} {success sent : Bool} {ecode : UInt8}
      (h : Completes (groups sndSvcUuid) (groupTable (secondaries server)) 1 0xffff ls op success
        ecode) :
      Produced refusing server .secondary (.services (outcomeOf services op success ecode sent))
  | included {start last : UInt16} {ls : List Reply} {op : Request} {success sent : Bool}
      {ecode : UInt8} (items : List Included)
      (hi : items.map Included.found = server.flatMap ServedService.includes)
      (h : CompletesIncluded items start last ls op success ecode) :
      Produced refusing server (.included start last)
        (.included (outcomeOf includedServices op success ecode sent))
  | characteristics {start last : UInt16} {ls : List Reply} {op : Request} {success sent : Bool}
      {ecode : UInt8}
      (h : Completes declarations (declarationTable server) start last ls op success ecode) :
      Produced refusing server (.characteristics start last)
        (.characteristics (outcomeOf characteristics op success ecode sent))
  | descriptors {start last : UInt16} {ls : List Reply} {op : Request} {success sent : Bool}
      {ecode : UInt8}
      (h : Completes information (attributeTable server) start last ls op success ecode)
      (hs : refusing = false → ∀ r ∈ ls, r.sent) :
      Produced refusing server (.descriptors start last)
        (.descriptors (outcomeOf descriptors op success ecode sent))

def produced (refusing : Bool) (server : List ServedService) (u : Discovering) (r : Report) : Prop :=
  ∃ req, u.stage = .awaiting req ∧ Produced refusing server req r

-- An include tells the UUID of the service that it names.
def Truthful (server : List ServedService) : Prop := ∀ d ∈ server, ∀ i ∈ d.includes, ∀ e ∈ server,
  e.group.first = i.first → i.uuid = e.group.uuid.toUuid128

variable {server : List ServedService} {db : Db} {u v : Discovering} {r : Report} {ℓ : Listing A}
  {items found : List A} {start last : UInt16} {uuid : Option Uuid} {op : Request}
  {success sent refusing : Bool} {ecode : UInt8} {cut : Prop} {ls : List Reply} {req : DiscoveryReq}

theorem Completes.outcome (hℓ : ℓ.Lawful) (hl : ℓ.Laid items)
    (h : Completes ℓ items start last ls op success ecode) :
    ∃ found, ℓ.Outcome items start last none op success ecode
      (ℓ.procedure.Cut (begin start last) ls) found := by
  obtain ⟨ha,hr⟩ := h
  obtain ⟨-,⟨op',success',ecode',found,he,hout⟩ | ⟨r,t,-,hs⟩⟩ := Listing.sweep_ends hℓ hl ha hr
  · obtain ⟨rfl,rfl,rfl⟩ := Discovery.complete.inj he
    exact ⟨found,hout⟩
  · cases hs

theorem completes_exists (hℓ : ℓ.Lawful) (hl : ℓ.Laid items) (start last : UInt16) :
    ∃ ls op success ecode, Completes ℓ items start last ls op success ecode ∧ ∀ r ∈ ls, r.sent := by
  have hend : ∀ ls t, ℓ.procedure.machine.Along (ℓ.accepting items) (begin start last) ls →
      ℓ.procedure.machine.run (begin start last) ls = some t →
      ls.length ≤ (ℓ.inRange start last items).length + 1 ∧
        ((∃ op success ecode, t = .complete op success ecode) ∨
          ∃ r u, ℓ.accepting items t r ∧ ℓ.procedure.machine.step t r = some u) := by
    intro ls t ha hr
    have hc := ℓ.procedure.machine.along_mono (fun _ _ h => h.1) ha
    obtain ⟨hlen,⟨op,success,ecode,_,he,_⟩ | hmore⟩ := Listing.sweep_ends hℓ hl hc hr
    · exact ⟨hlen,.inl ⟨op,success,ecode,he⟩⟩
    · exact ⟨hlen,.inr hmore⟩
  obtain ⟨ls,t,ha,hr,op,success,ecode,rfl⟩ := ℓ.procedure.machine.exists_end hend
  exact ⟨ls,op,success,ecode,⟨ℓ.procedure.machine.along_mono (fun _ _ h => h.1) ha,hr⟩,
    ℓ.procedure.machine.along_labels (fun _ _ h => h.2) ha hr⟩

theorem completesIncluded_exists {items : List Included} (hl : inclusions.Laid items)
    (hc : Inclusion.Coherent items) (start last : UInt16) :
    ∃ ls op success ecode, CompletesIncluded items start last ls op success ecode := by
  have hend : ∀ ls t, Inclusion.machine.Along (Inclusion.compliant items) (.begin start last) ls →
      Inclusion.machine.run (.begin start last) ls = some t →
      ls.length ≤ 2 * (inclusions.inRange start last items).length + 1 ∧
        ((∃ op success ecode, t = .complete op success ecode) ∨
          ∃ r u, Inclusion.compliant items t r ∧ Inclusion.machine.step t r = some u) := by
    intro ls t ha hr
    have h := Inclusion.reached_run hl hc ha hr
    rcases h.answerable hl hc with hdone | ⟨r,u,hr,hs⟩
    · exact ⟨h.length,.inl hdone⟩
    · exact ⟨h.length,.inr ⟨r,u,hr.1,hs⟩⟩
  obtain ⟨ls,t,ha,hr,op,success,ecode,rfl⟩ := Inclusion.machine.exists_end hend
  exact ⟨ls,op,success,ecode,ha,hr⟩

theorem reports_of_outcome (h : ℓ.Outcome items start last uuid op success ecode cut found)
    (hreach : ℓ.procedure.reached) (hrefuse : ℓ.procedure.refused = false)
    {read : Request → List B} {value : List A → List B} (hread : read op = value found)
    (hv : ∀ xs, value xs = [] ↔ xs = []) :
    Reports (outcomeOf read op success ecode sent) (value (ℓ.inRange start last items)) := by
  cases h.verdict with
  | exhausted hf hb hs =>
    rw [← hf]
    cases success with
    | true => exact .inl (.found _ rfl (congrArg some hread) fun h0 => hs.mp rfl ((hv _).mp h0))
    | false =>
      have h0 : found = [] := by_contra fun hn => Bool.false_ne_true (hs.mpr hn)
      rw [(hv found).mpr h0]
      exact .inl (.notFound rfl rfl)
  | reached hf hb =>
    obtain ⟨x,hx,-⟩ := hb
    rw [← hf,hreach]
    refine .inl (.found _ rfl (congrArg some hread) fun h0 => ?_)
    exact List.ne_nil_of_mem hx ((hv found).mp h0)
  | refused hf hn hc => exact .inr ⟨hrefuse,rfl⟩

theorem descriptors_answered {items found : List Descriptor}
    (h : information.Outcome items start last none op success ecode cut found) :
    Answered (outcomeOf descriptors op success ecode sent) (found.map Descriptor.found) := by
  have hread : descriptors op = found.map Descriptor.found := descriptors_found h
  have hiff := h.success_iff rfl rfl
  by_cases hn : found = []
  · obtain rfl : success = false := by simpa [hn] using hiff
    subst hn
    refine .notFound rfl ?_
    generalize hs : false = success at h
    cases h.verdict with
    | exhausted _ _ _ => rfl
    | reached _ _ => exact absurd hs (by decide)
    | refused _ hne _ => exact absurd rfl hne
  · obtain rfl : success = true := hiff.mpr hn
    exact .found _ rfl (congrArg some hread) fun h0 => hn (List.map_eq_nil_iff.mp h0)

theorem found_taken {items found : List Descriptor}
    (h : information.Outcome items start last none op success ecode cut found) :
    ∃ n, 0 < n ∧ found = (information.inRange start last items).take n := by
  by_cases hn : found = []
  · refine ⟨1,Nat.one_pos,?_⟩
    cases h.verdict with
    | exhausted hf _ _ => rw [← hf,hn,List.take_nil]
    | reached hf _ => rw [← hf,hn,List.take_nil]
    | refused _ hne _ => exact absurd hn hne
  · exact ⟨found.length,List.length_pos_iff.mpr hn,List.prefix_iff_eq_take.mp h.partly⟩

theorem step_awaits (h : u.step r = some v) : ∃ req, u.stage = .awaiting req := by
  cases hs : u.stage with
  | awaiting req => exact ⟨req,rfl⟩
  | complete success ecode => simp [Discovering.step,hs] at h
  | freed => simp [Discovering.step,hs] at h

theorem Produced.taken (h : Produced refusing server req r) (hu : u.stage = .awaiting req) :
    ∃ w, u.step r = some w := by
  cases h with
  | primary h => exact ⟨_,by simp only [Discovering.step,hu]; rfl⟩
  | secondary h => exact ⟨_,by simp only [Discovering.step,hu]; rfl⟩
  | included items hi h => exact ⟨_,by simp only [Discovering.step,hu]; rfl⟩
  | characteristics h => exact ⟨_,by simp only [Discovering.step,hu]; rfl⟩
  | descriptors h hs => exact ⟨_,by simp only [Discovering.step,hu]; rfl⟩

namespace Served
variable (h : Served server)
include h

theorem groups_laid (serviceType : UInt16) (p : ServedService → Bool) :
    (groups serviceType).Laid (groupTable (server.filter p)) := by
  have hl := h.laid.sublist (List.filter_sublist (p := p))
  refine ⟨fun g hg => ?_,?_⟩
  · obtain ⟨d,hd,rfl⟩ := List.mem_map.mp hg
    exact hl.proper d hd
  · exact List.pairwise_map.mpr hl.apart

theorem attributes_laid : information.Laid (attributeTable server) := by
  refine h.laid.flatMap information.extent ServedService.table (fun d hd => ⟨fun _ _ => le_rfl,?_⟩)
    fun d hd x hx => (h.proper d hd).table_bounds hx
  exact List.pairwise_map.mp (h.proper d hd).ascending

theorem declarations_laid : declarations.Laid (declarationTable server) := by
  have hs (cs : List ServedCharacteristic) :
      (cs.map fun c => (⟨c.declaration.handle,characteristicUuid⟩ : Descriptor)).Sublist
        (cs.flatMap ServedCharacteristic.table) := by
    induction cs with
    | nil => exact List.Sublist.slnil
    | cons c cs ih => exact ((List.nil_sublist _).cons_cons _).append ih
  have hd (d : ServedService) : (d.characteristics.map fun c =>
      (⟨c.declaration.handle,characteristicUuid⟩ : Descriptor)).Sublist d.table :=
    (hs d.characteristics).trans (List.sublist_append_right _ _)
  refine h.laid.flatMap declarations.extent _ (fun d hm => ⟨fun _ _ => le_rfl,?_⟩) ?_
  · have hasc := (h.proper d hm).ascending.sublist ((hd d).map fun x => x.handle.toNat)
    rw [List.map_map] at hasc
    exact List.pairwise_map.mpr (List.pairwise_map.mp hasc)
  · intro d hm x hx
    obtain ⟨c,hc,rfl⟩ := List.mem_map.mp hx
    exact (h.proper d hm).table_bounds ((hd d).subset (List.mem_map_of_mem hc))

theorem includes_laid {items : List Included}
    (hi : items.map Included.found = server.flatMap ServedService.includes) :
    inclusions.Laid items := by
  have hd (d : ServedService) : (d.includes.map fun i =>
      (⟨i.handle,includedServiceUuid⟩ : Descriptor)).Sublist d.table :=
    (List.sublist_cons_self _ _).trans (List.sublist_append_left _ _)
  have hall : inclusion.Laid (items.map Included.found) := by
    rw [hi]
    refine h.laid.flatMap inclusion _ (fun d hm => ⟨fun _ _ => le_rfl,?_⟩) ?_
    · have hasc := (h.proper d hm).ascending.sublist ((hd d).map fun x => x.handle.toNat)
      rw [List.map_map] at hasc
      exact List.pairwise_map.mp hasc
    · intro d hm i hin
      exact (h.proper d hm).table_bounds ((hd d).subset
        (List.mem_map_of_mem (f := fun i => (⟨i.handle,includedServiceUuid⟩ : Descriptor)) hin))
  have hapart := List.pairwise_map.mp hall.apart
  exact ⟨fun _ _ => le_rfl,hapart⟩

theorem includes_coherent (ht : Truthful server) {items : List Included}
    (hi : items.map Included.found = server.flatMap ServedService.includes) :
    Inclusion.Coherent items := by
  have htold : ∀ i ∈ items, ∃ d ∈ server, i.found ∈ d.includes := fun i him =>
    List.mem_flatMap.mp (hi ▸ List.mem_map_of_mem him)
  intro i him j hjm hin hjn hij
  obtain ⟨d,hd,hdi⟩ := htold i him
  obtain ⟨d',hd',hdj⟩ := htold j hjm
  obtain ⟨e,he,hfirst,_⟩ := h.included d hd i.found hdi
  have h1 : i.uuid.toUuid128 = e.group.uuid.toUuid128 := ht d hd i.found hdi e he hfirst
  have h2 : j.uuid.toUuid128 = e.group.uuid.toUuid128 :=
    ht d' hd' j.found hdj e he (hfirst.trans hij)
  rw [i.toLe_eq hin,j.toLe_eq hjn,h1,h2]

theorem includes_reported {items : List Included}
    (hi : items.map Included.found = server.flatMap ServedService.includes)
    (ht : Truthful server) (ho : CompletesIncluded items start last ls op success ecode) :
    Reports (outcomeOf includedServices op success ecode sent) (includeList server start last) := by
  have hlist : includeList server start last =
      (inclusions.inRange start last items).map Included.found := by
    rw [includeList,← hi,Extent.within,List.filter_map]
    rfl
  obtain ⟨ha,hr⟩ := ho
  obtain ⟨hfound,hfailed⟩ :=
    (Inclusion.reached_run (h.includes_laid hi) (h.includes_coherent ht hi) ha hr).ended
  rw [hlist]
  cases success with
  | true =>
    obtain ⟨hn,hread⟩ := hfound rfl
    exact .inl (.found _ rfl (congrArg some hread) (by simpa using hn))
  | false =>
    rcases hfailed rfl with ⟨hw,he⟩ | ⟨he,-⟩
    · rw [hw]
      exact .inl (.notFound rfl he)
    · exact .inr ⟨rfl,he⟩

theorem produced_honest (ht : Truthful server) (hr : produced refusing server u r) :
    honest server u r := by
  obtain ⟨req,hu,hp⟩ := hr
  cases hp with
  | primary hc =>
    obtain ⟨found,hout⟩ := hc.outcome (groups_lawful primSvcUuid) (h.groups_laid _ _)
    simp only [honest,hu]
    exact reports_of_outcome hout rfl rfl (services_found hout) fun _ => List.map_eq_nil_iff
  | secondary hc =>
    obtain ⟨found,hout⟩ := hc.outcome (groups_lawful sndSvcUuid) (h.groups_laid _ _)
    simp only [honest,hu]
    exact reports_of_outcome hout rfl rfl (services_found hout) fun _ => List.map_eq_nil_iff
  | included items hi ho =>
    simp only [honest,hu]
    exact h.includes_reported hi ht ho
  | characteristics hc =>
    obtain ⟨found,hout⟩ := hc.outcome declarations_lawful h.declarations_laid
    simp only [honest,hu]
    refine reports_of_outcome hout rfl rfl (characteristics_found hout) fun xs => ?_
    cases xs <;> simp [Characteristic.found]
  | descriptors hc _ =>
    obtain ⟨found,hout⟩ := hc.outcome information_lawful h.attributes_laid
    obtain ⟨n,hn,htaken⟩ := found_taken hout
    simp only [honest,hu]
    refine ⟨n,hn,?_⟩
    rw [descriptorList,← List.map_take]
    exact htaken ▸ descriptors_answered hout

theorem produced_exhaustive (hr : produced false server u r) : exhaustive server u r := by
  obtain ⟨req,hu,hp⟩ := hr
  cases hp with
  | descriptors hc hs =>
    obtain ⟨found,hout⟩ := hc.outcome information_lawful h.attributes_laid
    have hwhole := hout.whole Procedure.Cut.unsent (hs rfl)
    simp only [exhaustive,hu]
    rw [descriptorList]
    exact hwhole ▸ descriptors_answered hout
  | _ => simp [exhaustive,hu]

theorem produced_exists (refusing : Bool) (ht : Truthful server) (req : DiscoveryReq) :
    ∃ r, Produced refusing server req r ∧ r.sent = true := by
  cases req with
  | primary =>
    have hl : (groups primSvcUuid).Laid (groupTable (primaries server)) := h.groups_laid _ _
    obtain ⟨ls,op,success,ecode,hc,_⟩ := completes_exists (groups_lawful primSvcUuid) hl 1 0xffff
    exact ⟨.services (outcomeOf services op success ecode true),.primary hc,rfl⟩
  | secondary =>
    have hl : (groups sndSvcUuid).Laid (groupTable (secondaries server)) := h.groups_laid _ _
    obtain ⟨ls,op,success,ecode,hc,_⟩ := completes_exists (groups_lawful sndSvcUuid) hl 1 0xffff
    exact ⟨.services (outcomeOf services op success ecode true),.secondary hc,rfl⟩
  | included start last =>
    let items : List Included := (server.flatMap ServedService.includes).map fun i =>
      ⟨i.handle,i.first,i.last,.uuid128 i.uuid⟩
    have hi : items.map Included.found = server.flatMap ServedService.includes := by
      rw [List.map_map]
      exact List.map_id _
    obtain ⟨ls,op,success,ecode,hc⟩ := completesIncluded_exists (h.includes_laid hi)
      (h.includes_coherent ht hi) start last
    exact ⟨.included (outcomeOf includedServices op success ecode true),.included items hi hc,rfl⟩
  | characteristics start last =>
    obtain ⟨ls,op,success,ecode,hc,_⟩ :=
      completes_exists declarations_lawful h.declarations_laid start last
    exact ⟨.characteristics (outcomeOf characteristics op success ecode true),.characteristics hc,rfl⟩
  | descriptors start last =>
    obtain ⟨ls,op,success,ecode,hc,hall⟩ :=
      completes_exists information_lawful h.attributes_laid start last
    exact ⟨.descriptors (outcomeOf descriptors op success ecode true),.descriptors hc fun _ => hall,rfl⟩

end Served

theorem discovery_mirrors_procedures (refusing : Bool) (h : Served server) (ht : Truthful server)
    (hf : db.Fresh) (hs : db.services = []) {ls : List Report}
    (ha : Discovering.machine.Along (produced refusing server) (.begin db) ls)
    (hr : Discovering.machine.run (.begin db) ls = some v) :
    ls.length ≤ 2 + 2 * server.length + characteristicTotal server ∧
    ((∃ r w, produced refusing server v r ∧ r.sent = true ∧ v.step r = some w) ∨
      (∃ ecode, v.stage = .complete true ecode ∧
        ((∃ cut, (∀ handle, 0 < cut handle) ∧ Mirrors (told cut server) v.db ∧
          (refusing = false → told cut server = server)) ∨
        ls.length = 2 ∧ secondaries server ≠ [] ∧ ∃ r ∈ ls, r.sent = false)) ∨
      ∃ ecode, v.stage = .complete false ecode ∧
        (primaries server = [] ∨ ∃ r ∈ ls, r.refused)) := by
  have ha' := Discovering.machine.along_mono (fun _ _ => h.produced_honest ht) ha
  refine ⟨reports_bounded h hf hs ha' hr,?_⟩
  rcases discovered_verdict (discovered_run h hf hs ha' hr) with
    ⟨r,w,_,_,_,hw⟩ | ⟨ecode,hstage,hm⟩ | hfailed
  · obtain ⟨req,hreq⟩ := step_awaits hw
    obtain ⟨r,hp,hsent⟩ := h.produced_exists refusing ht req
    obtain ⟨w,hw⟩ := hp.taken hreq
    exact .inl ⟨r,w,⟨req,hreq,hp⟩,hsent,hw⟩
  · refine .inr (.inl ⟨ecode,hstage,?_⟩)
    rcases hm with ⟨cut,hpos,hm,hwhole⟩ | hunserved
    · refine .inl ⟨cut,hpos,hm,fun hn => hwhole ?_⟩
      subst hn
      exact Discovering.machine.along_mono (fun _ _ => h.produced_exhaustive) ha
    · exact .inr hunserved
  · exact .inr (.inr hfailed)

theorem discovery_mirrors_procedures_one :
    let config : Descriptor := ⟨4,.uuid16 0x2902⟩
    let report : ServedCharacteristic := ⟨⟨2,0x10,3,.uuid16 0x2a4d⟩,[config]⟩
    let server : List ServedService := [⟨⟨1,5,.uuid16 0x1812⟩,true,[],[report]⟩]
    let ls : List Report := [.services ⟨true,0x0a,some (serviceList primSvcUuid server),true⟩,
      .services ⟨false,0x0a,none,true⟩,.included ⟨false,0x0a,none,true⟩,
      .characteristics ⟨true,0x0a,some (declarationList server 1 5),true⟩,
      .descriptors ⟨true,0x0a,some (descriptorList server 4 5),true⟩]
    ∃ v, Discovering.machine.Along (produced false server) (.begin Db.new) ls ∧
      Discovering.machine.run (.begin Db.new) ls = some v ∧ Mirrors server v.db := by
  intro config report server ls
  have hserved : Served server := by
    refine ⟨⟨by decide,by decide⟩,?_,by decide⟩
    intro d hd
    obtain rfl := List.mem_singleton.mp hd
    exact ⟨by decide,by decide,by decide,by decide,by decide,by decide⟩
  have htruth : Truthful server := by
    unfold Truthful
    decide
  have hprimary : Produced false server .primary
      (.services ⟨true,0x0a,some (serviceList primSvcUuid server),true⟩) := by
    have hc : ∃ op, Completes (groups primSvcUuid) (groupTable (primaries server)) 1 0xffff
        [reply [0x11,6,1,0,5,0,0x12,0x18] true,reply [0x01,0x10,6,0,0x0a] true] op true 0x0a ∧
        services op = serviceList primSvcUuid server := by
      refine ⟨_,⟨⟨?_,fun t ht => ⟨?_,fun _ _ => trivial⟩⟩,rfl⟩,rfl⟩
      · exact Listing.compliant_found (groups primSvcUuid) (groupTable (primaries server)) _ []
          ⟨1,5,.uuid16 0x1812⟩ [] 6 _ _ (by decide) (by decide) (by decide)
      · cases ht
        exact Listing.Answers.notFound rfl (by decide)
    obtain ⟨op,hc,hs⟩ := hc
    exact hs ▸ .primary hc
  have hsecondary : Produced false server .secondary (.services ⟨false,0x0a,none,true⟩) := by
    have hc : Completes (groups sndSvcUuid) (groupTable (secondaries server)) 1 0xffff
        [reply [0x01,0x10,1,0,0x0a] true] { startHandle := 1, endHandle := 0xffff } false 0x0a :=
      ⟨⟨Listing.Answers.notFound rfl (by decide),fun _ _ => trivial⟩,rfl⟩
    exact .secondary hc
  have hincluded : Produced false server (.included 1 5) (.included ⟨false,0x0a,none,true⟩) := by
    have hc : CompletesIncluded [] 1 5 [reply [0x01,0x08,1,0,0x0a] true]
        { startHandle := 1, endHandle := 5 } false 0x0a :=
      ⟨⟨Listing.Answers.notFound rfl (by decide),fun _ _ => trivial⟩,rfl⟩
    exact .included [] rfl hc
  have hcharacteristics : Produced false server (.characteristics 1 5)
      (.characteristics ⟨true,0x0a,some (declarationList server 1 5),true⟩) := by
    have hc : ∃ op, Completes declarations (declarationTable server) 1 5
        [reply [0x09,7,2,0,0x10,3,0,0x4d,0x2a] true,reply [0x01,0x08,3,0,0x0a] true] op true 0x0a ∧
        characteristics op = declarationList server 1 5 := by
      refine ⟨_,⟨⟨?_,fun t ht => ⟨?_,fun _ _ => trivial⟩⟩,rfl⟩,rfl⟩
      · exact Listing.compliant_found declarations (declarationTable server) _ []
          report.declaration [] 7 _ _ (by decide) (by decide) (by decide)
      · cases ht
        exact Listing.Answers.notFound rfl (by decide)
    obtain ⟨op,hc,hs⟩ := hc
    exact hs ▸ .characteristics hc
  have hdescriptors : Produced false server (.descriptors 4 5)
      (.descriptors ⟨true,0x0a,some (descriptorList server 4 5),true⟩) := by
    have hc : ∃ op, Completes information (attributeTable server) 4 5
        [reply [0x05,1,4,0,0x02,0x29] true,reply [0x01,0x04,5,0,0x0a] true] op true 0x0a ∧
        descriptors op = descriptorList server 4 5 := by
      refine ⟨_,⟨⟨?_,fun t ht => ⟨?_,fun _ _ => trivial⟩⟩,rfl⟩,rfl⟩
      · exact Listing.compliant_found information (attributeTable server) _ [] config [] 4 _ _
          (by decide) (by decide) (by decide)
      · cases ht
        exact Listing.Answers.notFound rfl (by decide)
    obtain ⟨op,hc,hs⟩ := hc
    exact hs ▸ .descriptors hc (by decide)
  have ha : Discovering.machine.Along (produced false server) (.begin Db.new) ls := by
    refine along_extend (ls.take 4) (.awaiting (.descriptors 4 5)) (by decide)
      (fun u hu => ⟨_,hu,hdescriptors⟩) ?_
    refine along_extend (ls.take 3) (.awaiting (.characteristics 1 5)) (by decide)
      (fun u hu => ⟨_,hu,hcharacteristics⟩) ?_
    refine along_extend (ls.take 2) (.awaiting (.included 1 5)) (by decide)
      (fun u hu => ⟨_,hu,hincluded⟩) ?_
    refine along_extend (ls.take 1) (.awaiting .secondary) (by decide)
      (fun u hu => ⟨_,hu,hsecondary⟩) ?_
    exact ⟨⟨_,rfl,hprimary⟩,fun _ _ => trivial⟩
  have hstage : (Discovering.machine.run (.begin Db.new) ls).map Discovering.stage =
      some (.complete true 0x0a) := by decide
  obtain ⟨v,hv,hstage⟩ := Option.map_eq_some_iff.mp hstage
  refine ⟨v,ha,hv,?_⟩
  rcases (discovery_mirrors_procedures false hserved htruth Db.fresh_new rfl ha hv).2 with
    ⟨r,w,_,_,hw⟩ | ⟨_,_,⟨cut,_,hm,hwhole⟩ | ⟨hlen,_⟩⟩ | ⟨_,hfalse,_⟩
  · simp [Discovering.step,hstage] at hw
  · exact hwhole rfl ▸ hm
  · simp [ls] at hlen
  · simp [hstage] at hfalse

end Minipro.GattClient
