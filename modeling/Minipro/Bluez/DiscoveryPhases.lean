import Minipro.Bluez.DiscoveryStore

namespace Minipro.GattClient
open GattDb GattHelpers Sweep Keyed

abbrev Roster := List (Address × ServedService)

variable {db t : Db} {a : Address} {s : Service} {d e : ServedService} {server : List ServedService}
  {done rest todo roster : Roster} {qs rs : List ServedCharacteristic} {c : ServedCharacteristic}
  {attrs : List Attribute} {p : Address × ServedService} {ecode : UInt8} {ls : List Report} {r : Report}

def Report.sent : Report → Bool
  | .services o => o.sent
  | .included o => o.sent
  | .characteristics o => o.sent
  | .descriptors o => o.sent

-- Its next request was refused, or one of the requests that follow up its first one.
def Outcome.refused {A : Type} (o : Outcome A) : Prop :=
  o.sent = false ∨ (o.success = false ∧ o.attEcode = 0)

def Report.refused : Report → Prop
  | .services o => o.refused
  | .included o => o.refused
  | .characteristics o => o.refused
  | .descriptors o => o.refused

structure Mirrors (server : List ServedService) (db : Db) : Prop where
  ordered : db.Ordered
  stored : ∀ d ∈ server, ∃ s ∈ db.services, Holds s d d.attributes ∧
    (d.group.first < d.group.last → s.active)
  only : ∀ s ∈ db.services, ∃ d ∈ server, Holds s d d.attributes

def Finished (db : Db) (p : Address × ServedService) : Prop :=
  ∃ s, db.find p.1 = some s ∧ Holds s p.2 p.2.attributes ∧
    (p.2.group.first < p.2.group.last → s.active)

def Prepared (db : Db) (p : Address × ServedService) : Prop := Filled db p.1 p.2 p.2.included

def primaries (server : List ServedService) : List ServedService :=
  server.filter ServedService.primary

def secondaries (server : List ServedService) : List ServedService :=
  server.filter fun d => !d.primary

def order (server : List ServedService) : List ServedService := primaries server ++ secondaries server

def characteristicTotal (ds : List ServedService) : Nat :=
  (ds.map fun d => d.characteristics.length).sum

inductive Phase (server : List ServedService) (ls : List Report) : Discovering → Prop
  | primary (db : Db) (hf : db.Fresh) (hs : db.services = []) (hl : ls.length = 0) :
      Phase server ls ⟨db,discoveryOpCreate,.awaiting .primary⟩
  | secondary (db : Db) (roster : Roster) (hr : Rostered db roster) (hb : Bare db roster)
      (hs : roster.map Prod.snd = primaries server) (hn : roster ≠ []) (hl : ls.length = 1) :
      Phase server ls ⟨db,⟨roster.map Prod.fst,[],[],none⟩,.awaiting .secondary⟩
  | included (db : Db) (done : Roster) (a : Address) (d : ServedService) (todo : Roster)
      (hr : Rostered db (done ++ (a,d) :: todo))
      (hs : (done ++ (a,d) :: todo).map Prod.snd = order server)
      (hd : ∀ p ∈ done, Prepared db p) (hb : Bare db ((a,d) :: todo))
      (hl : ls.length ≤ 2 + done.length) :
      Phase server ls ⟨db,⟨todo.map Prod.fst,[],done.map Prod.fst ++ [a],some a⟩,
        .awaiting (.included d.group.first d.group.last)⟩
  | characteristics (db : Db) (done : Roster) (a : Address) (d : ServedService) (todo : Roster)
      (hr : Rostered db (done ++ (a,d) :: todo))
      (hs : (done ++ (a,d) :: todo).map Prod.snd = order server)
      (hd : ∀ p ∈ done, Finished db p) (hp : ∀ p ∈ (a,d) :: todo, Prepared db p)
      (hl : ls.length ≤ 2 + server.length + done.length + characteristicTotal (done.map Prod.snd)) :
      Phase server ls ⟨db,⟨todo.map Prod.fst,[],[],some a⟩,
        .awaiting (.characteristics d.group.first d.group.last)⟩
  | descriptors (db : Db) (done : Roster) (a : Address) (d : ServedService) (todo : Roster)
      (qs : List ServedCharacteristic) (c : ServedCharacteristic) (rs : List ServedCharacteristic)
      (hr : Rostered db (done ++ (a,d) :: todo))
      (hs : (done ++ (a,d) :: todo).map Prod.snd = order server)
      (hc : d.characteristics = qs ++ c :: rs) (hd : ∀ p ∈ done, Finished db p)
      (hf : Filled db a d
        (d.included ++ qs.flatMap ServedCharacteristic.attributes ++ c.declared))
      (hp : ∀ p ∈ todo, Prepared db p)
      (hl : ls.length ≤ 3 + server.length + done.length + characteristicTotal (done.map Prod.snd) +
        qs.length) :
      Phase server ls ⟨db,⟨todo.map Prod.fst,found d.group.last rs,[],some a⟩,
        .awaiting (.descriptors (c.value + 1) (endOf d.group.last rs))⟩
  | mirrored (db : Db) (op : DiscoveryOp) (ecode : UInt8) (hm : Mirrors server db) :
      Phase server ls ⟨db,op,.complete true ecode⟩
  | absent (db : Db) (op : DiscoveryOp) (ecode : UInt8) (hs : primaries server = []) :
      Phase server ls ⟨db,op,.complete false ecode⟩
  | refused (db : Db) (op : DiscoveryOp) (ecode : UInt8) (hr : ∃ r ∈ ls, r.refused) :
      Phase server ls ⟨db,op,.complete false ecode⟩
  | unserved (db : Db) (op : DiscoveryOp) (ecode : UInt8) (hr : ∃ r ∈ ls, r.sent = false)
      (hs : secondaries server ≠ []) (hl : ls.length = 2) :
      Phase server ls ⟨db,op,.complete true ecode⟩

theorem order_perm (server : List ServedService) : (order server).Perm server := by
  rw [order,primaries,secondaries]
  exact List.filter_append_perm ServedService.primary server

theorem order_total (server : List ServedService) :
    characteristicTotal (order server) = characteristicTotal server :=
  ((order_perm server).map _).sum_eq

theorem total_append (ds es : List ServedService) :
    characteristicTotal (ds ++ es) = characteristicTotal ds + characteristicTotal es := by
  simp [characteristicTotal]

theorem Rostered.amends (h : Rostered db roster) (ha : Amends db t a) : Rostered t roster where
  fresh := ha.fresh h.fresh
  ordered := ha.ordered h.fresh h.ordered
  distinct := h.distinct
  only s hs := by
    have hm := List.mem_map_of_mem (f := Service.address) hs
    rw [ha.addresses] at hm
    obtain ⟨r,hr,he⟩ := List.mem_map.mp hm
    exact he ▸ h.only r hr

theorem Finished.amends (h : Finished db p) (ha : Amends db t a) (hp : p.1 ≠ a) : Finished t p := by
  obtain ⟨s,hs,hh⟩ := h
  exact ⟨s,(ha.frame _ hp).trans hs,hh⟩

theorem single_empty (hp : d.Proper) (h : d.group.first = d.group.last) :
    d.included = [] ∧ d.attributes = [] := by
  have hroom := hp.room
  rw [h] at hroom
  have h0 : d.attributes = [] := List.length_eq_zero_iff.mp (by omega)
  exact ⟨(List.append_eq_nil_iff.mp h0).1,h0⟩

theorem refused_last (hr : r.refused) : ∃ x ∈ ls ++ [r], x.refused := ⟨r,by simp,hr⟩

theorem refused_of_unsent (hr : r.sent = false) : r.refused := by
  cases r with
  | services o => exact .inl hr
  | included o => exact .inl hr
  | characteristics o => exact .inl hr
  | descriptors o => exact .inl hr

theorem unsent_last (hr : r.sent = false) : ∃ x ∈ ls ++ [r], x.refused :=
  refused_last (refused_of_unsent hr)

theorem nextIncluded_phase (done todo : Roster) (hproper : ∀ d ∈ server, d.Proper)
    (hr : Rostered db (done ++ todo)) (hs : (done ++ todo).map Prod.snd = order server)
    (hne : done ++ todo ≠ []) (hd : ∀ p ∈ done, Prepared db p) (hb : Bare db todo)
    (hl : ls.length + 1 ≤ 2 + done.length) (pendingSvcs : List Address) (curSvc : Option Address) :
    Phase server (ls ++ [r])
      (nextIncluded r.sent ecode db ⟨pendingSvcs,[],done.map Prod.fst,curSvc⟩ (todo.map Prod.fst)) := by
  induction todo generalizing done pendingSvcs curSvc with
  | nil =>
    cases done with
    | nil => exact absurd rfl hne
    | cons p rest =>
      obtain ⟨b,e⟩ := p
      obtain ⟨s,hfind,hh⟩ := hd (b,e) List.mem_cons_self
      simp only [List.map_nil,nextIncluded,List.map_cons,hfind,hh.start,hh.last,proceed]
      split
      next =>
        rw [List.append_nil] at hr hs
        refine .characteristics db [] b e rest hr hs (by simp) hd ?_
        have hlen := congrArg List.length hs
        rw [List.length_map,(order_perm server).length_eq] at hlen
        rw [List.length_append,List.length_singleton,← hlen]
        simp only [List.length_nil,List.map_nil,characteristicTotal,List.sum_nil]
        omega
      next hsent => exact .refused _ _ _ (unsent_last (by simpa using hsent))
  | cons p todo ih =>
    obtain ⟨b,e⟩ := p
    obtain ⟨s,hfind,hh⟩ := hb (b,e) List.mem_cons_self
    simp only [List.map_cons,nextIncluded,hfind,hh.start,hh.last]
    split
    next heq =>
      have hmem : e ∈ server := by
        have : e ∈ order server := hs ▸ (by simp)
        exact (order_perm server).subset this
      have hinc := (single_empty (hproper e hmem) heq).1
      have hstep := ih (done ++ [(b,e)]) (by simpa using hr) (by simpa using hs) (by simp)
        (by
          intro p hp
          rcases List.mem_append.mp hp with hp | hp
          · exact hd p hp
          · obtain rfl := List.mem_singleton.mp hp
            exact ⟨s,hfind,by rw [hinc]; exact hh⟩)
        (fun p hp => hb p (List.mem_cons_of_mem _ hp))
        (by rw [List.length_append,List.length_singleton]; omega) (todo.map Prod.fst) (some b)
      simpa using hstep
    next hneq =>
      simp only [proceed]
      split
      next =>
        refine .included db done b e todo hr hs hd hb ?_
        rw [List.length_append,List.length_singleton]
        exact hl
      next hsent => exact .refused _ _ _ (unsent_last (by simpa using hsent))

theorem activate_spec (hf : db.Fresh) (h : Filled db a d attrs) :
    ∃ t, activate db (some a) = some t ∧ Amends db t a ∧
      ∃ s, t.find a = some s ∧ Holds s d attrs ∧ s.active := by
  obtain ⟨s,hs,hh⟩ := h
  obtain ⟨hm,ha⟩ := mem_of_find hs
  have hfind := Db.setActive_find hf hm true a
  rw [if_pos ha.symm] at hfind
  refine ⟨db.setActive s true,by simp [activate,hs],?_,s.setActive true,hfind,
    ⟨hh.declaration,hh.last,hh.attributes⟩,rfl⟩
  simp only [Db.setActive]
  split
  · exact .refl db a
  · exact .replace hs rfl rfl rfl rfl rfl

theorem Finished.of_active (h : t.find a = some s) (hh : Holds s d d.attributes) (ha : s.active) :
    Finished t (a,d) := ⟨s,h,hh,fun _ => ha⟩

theorem mirrors_of (hr : Rostered db roster) (hs : roster.map Prod.snd = order server)
    (hf : ∀ p ∈ roster, Finished db p) : Mirrors server db where
  ordered := hr.ordered
  stored d hd := by
    have hm : d ∈ roster.map Prod.snd := hs ▸ (order_perm server).symm.subset hd
    obtain ⟨p,hp,rfl⟩ := List.mem_map.mp hm
    obtain ⟨s,hfind,hh⟩ := hf p hp
    exact ⟨s,(mem_of_find hfind).1,hh⟩
  only s hm := by
    obtain ⟨p,hp,hpa⟩ := List.mem_map.mp (hr.only s hm)
    obtain ⟨r,hfind,hh,_⟩ := hf p hp
    rw [hpa,hr.fresh.find_mem hm] at hfind
    obtain rfl := Option.some.inj hfind
    exact ⟨p.2,(order_perm server).subset (hs ▸ List.mem_map_of_mem hp),hh⟩

theorem fst_ne (hd : Distinct Prod.fst (done ++ (a,d) :: todo)) (hp : p ∈ done ++ todo) :
    p.1 ≠ a := (Distinct.insert_iff.mp hd).1 p hp

theorem nextService_phase (rest todo : Roster) (hproper : ∀ d ∈ server, d.Proper)
    (hr : Rostered db (done ++ (a,d) :: rest ++ todo))
    (hs : (done ++ (a,d) :: rest ++ todo).map Prod.snd = order server)
    (hd : ∀ p ∈ done ++ rest, Finished db p) (hf : Filled db a d d.attributes)
    (hp : ∀ p ∈ todo, Prepared db p)
    (hl : ls.length + 1 ≤ 2 + server.length + (done ++ (a,d) :: rest).length +
      characteristicTotal ((done ++ (a,d) :: rest).map Prod.snd))
    (pendingSvcs : List Address) :
    Phase server (ls ++ [r])
      (nextService r.sent ecode ⟨pendingSvcs,[],[],some a⟩ db (todo.map Prod.fst)) := by
  induction todo generalizing db rest pendingSvcs with
  | nil =>
    obtain ⟨t,ht,ham,s,hfind,hh,hact⟩ := activate_spec hr.fresh hf
    rw [List.append_nil] at hr hs
    rw [List.map_nil,nextService]
    simp only [ht]
    have hall : ∀ p ∈ done ++ (a,d) :: rest, Finished t p := by
      intro p hpm
      rcases List.mem_append.mp hpm with h | h
      · exact (hd p (by simp [h])).amends ham (fst_ne hr.distinct (by simp [h]))
      · rcases List.mem_cons.mp h with rfl | h
        · exact .of_active hfind hh hact
        · exact (hd p (by simp [h])).amends ham (fst_ne hr.distinct (by simp [h]))
    exact .mirrored t _ ecode (mirrors_of (hr.amends ham) hs hall)
  | cons q todo ih =>
    obtain ⟨b,e⟩ := q
    obtain ⟨t,ht,ham,s,hfind,hh,hact⟩ := activate_spec hr.fresh hf
    have hdist : Distinct Prod.fst (done ++ (a,d) :: (rest ++ (b,e) :: todo)) := by
      simpa using hr.distinct
    have hdt : ∀ p ∈ done ++ rest, Finished t p := fun p hpm =>
      (hd p hpm).amends ham (fst_ne hdist (by
        rcases List.mem_append.mp hpm with h | h <;> simp [h]))
    have hpt : ∀ p ∈ (b,e) :: todo, Prepared t p := fun p hpm =>
      ham.filled (fst_ne hdist (by
        rcases List.mem_cons.mp hpm with h | h <;> simp [h])) (hp p hpm)
    obtain ⟨x,hx,hxe⟩ := hpt (b,e) List.mem_cons_self
    rw [List.map_cons,nextService]
    simp only [ht,hx,hxe.start,hxe.last]
    split
    next heq =>
      have hmem : e ∈ server := by
        have : e ∈ order server := hs ▸ (by simp)
        exact (order_perm server).subset this
      obtain ⟨h1,h2⟩ := single_empty (hproper e hmem) heq
      refine ih (rest ++ [(b,e)]) (by simpa using hr.amends ham) (by simpa using hs) ?_
        ⟨s,hfind,hh⟩ (fun p hpm => hpt p (List.mem_cons_of_mem _ hpm)) ?_ _
      · intro p hpm
        rw [← List.append_assoc] at hpm
        rcases List.mem_append.mp hpm with h | h
        · exact hdt p h
        · obtain rfl := List.mem_singleton.mp h
          exact ⟨x,hx,by rw [h2,← h1]; exact hxe,fun hlt => absurd heq (UInt16.ne_of_lt hlt)⟩
      · refine hl.trans ?_
        simp only [List.map_append,List.map_cons,total_append,List.length_append,List.length_cons]
        simp [characteristicTotal]
        omega
    next hneq =>
      simp only [proceed]
      split
      next =>
        refine .characteristics t (done ++ (a,d) :: rest) b e todo (hr.amends ham) hs ?_ hpt ?_
        · intro p hpm
          rcases List.mem_append.mp hpm with h | h
          · exact hdt p (by simp [h])
          · rcases List.mem_cons.mp h with rfl | h
            · exact .of_active hfind hh hact
            · exact hdt p (by simp [h])
        · rw [List.length_append,List.length_singleton]
          exact hl
      next hsent => exact .refused _ _ _ (unsent_last (by simpa using hsent))

end Minipro.GattClient
