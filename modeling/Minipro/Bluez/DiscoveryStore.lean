import Minipro.Bluez.DiscoveryMirror

namespace Minipro.GattClient
open GattDb GattHelpers Sweep Keyed

variable {db t : Db} {a : Address} {s : Service} {d e : ServedService} {server ds : List ServedService}
  {roster more : List (Address × ServedService)} {u : Uuid} {primary : Bool} {first last : UInt16}

theorem numHandles_toNat (h0 : 0 < first) (hle : first ≤ last) :
    (last - first + 1).toNat + first.toNat = last.toNat + 1 := by
  have h1 := UInt16.lt_iff_toNat_lt.mp h0
  have h2 := UInt16.le_iff_toNat_le.mp hle
  have h3 := last.toNat_lt
  rw [UInt16.toNat_add,UInt16.toNat_sub_of_le _ _ hle]
  simp at h1 ⊢
  omega

theorem span_valid (h0 : 0 < first) (hle : first ≤ last) :
    0 < first ∧ 0 < (last - first + 1).toNat ∧
      first.toNat + (last - first + 1).toNat ≤ 65536 := by
  have hnum := numHandles_toNat h0 hle
  have h2 := UInt16.le_iff_toNat_le.mp hle
  have h3 := last.toNat_lt
  exact ⟨h0,by omega,by omega⟩

theorem insertService_free (u : Uuid) (primary : Bool) (h0 : 0 < first) (hle : first ≤ last)
    (hfree : ∀ s ∈ db.services, s.last.toNat < first.toNat ∨ last.toNat < s.start.toNat)
    (ho : db.Ordered) :
    ∃ t n front back, db.insertService first u primary (last - first + 1) = some (db.allocated,t) ∧
      Db.Inserts db t n front back ∧ t.Ordered ∧ n.last = last ∧ n.attributes = [] ∧
      n.declaration =
        ⟨first,if primary then primaryServiceUuid else secondaryServiceUuid,u.toLe⟩ := by
  have hnum := numHandles_toNat h0 hle
  have h1 := UInt16.lt_iff_toNat_lt.mp h0
  have hv := span_valid h0 hle
  let n := Service.create db.allocated u first primary (last - first + 1) hv.1 hv.2.1 hv.2.2
  have hn : n.last = last := by
    have hlast := n.last_toNat
    rw [show n.start = first from rfl,show n.numHandles = last - first + 1 from rfl] at hlast
    exact UInt16.toNat_inj.mp (by omega)
  have hend : first + (last - first + 1) - 1 = last := hn
  cases hloc : Db.findInsertLoc first last db.services with
  | clash s =>
    obtain ⟨hs,hh⟩ := Db.findInsertLoc_clash hloc
    rw [Service.holds_iff,Service.holds_iff] at hh
    have hf := hfree s hs
    have hsl := s.start_le_last
    omega
  | gap front back =>
    have hloc' : Db.findInsertLoc first (first + (last - first + 1) - 1) db.services =
        .gap front back := by rw [hend]; exact hloc
    refine ⟨{ db with
        services := front ++ n :: back
        nextHandle :=
          UInt16.ofNat (max (first.toNat + (last - first + 1).toNat) db.nextHandle.toNat)
        allocated := db.allocated + 1 },n,front,back,?_,
      ⟨(Db.findInsertLoc_gap hloc).1,rfl,rfl,rfl,rfl,rfl⟩,?_,hn,rfl,rfl⟩
    · simp only [Db.insertService,dif_pos hv,hloc']
      rfl
    · refine (Db.ordered_gap_iff ho hloc').mpr fun s hs he => ?_
      have hf := hfree s hs
      have hsl := s.start_le_last
      have he1 := UInt16.lt_iff_toNat_lt.mp he.1
      have he2 := he.2
      omega

structure Rostered (db : Db) (roster : List (Address × ServedService)) : Prop where
  fresh : db.Fresh
  ordered : db.Ordered
  distinct : Distinct Prod.fst roster
  only : ∀ s ∈ db.services, s.address ∈ roster.map Prod.fst

def Bare (db : Db) (roster : List (Address × ServedService)) : Prop :=
  ∀ p ∈ roster, Filled db p.1 p.2 []

theorem store_free (hl : served.Laid server) (hp : ∀ d ∈ server, d.Proper)
    (hr : Rostered db roster) (hb : Bare db roster) (hm : ∀ p ∈ roster, p.2 ∈ server)
    (hd : d ∈ server) (hn : d ∉ roster.map Prod.snd) (hprim : d.primary = primary) :
    ∃ t, storeService db primary (Group.found 0xffff d.group) = (t,some db.allocated) ∧
      (t.find db.allocated).any Service.active = false ∧
      Rostered t (roster ++ [(db.allocated,d)]) ∧ Bare t (roster ++ [(db.allocated,d)]) := by
  have hfree : ∀ s ∈ db.services,
      s.last.toNat < d.group.first.toNat ∨ d.group.last.toNat < s.start.toNat := by
    intro s hs
    obtain ⟨⟨b,e⟩,hbe,rfl⟩ := List.mem_map.mp (hr.only s hs)
    obtain ⟨r,hfind,hh⟩ := hb _ hbe
    obtain rfl : s = r := Option.some.inj ((hr.fresh.find_mem hs).symm.trans hfind)
    have hne : e ≠ d := fun h => hn (h ▸ List.mem_map_of_mem (f := Prod.snd) hbe)
    rw [hh.last,hh.start]
    exact hl.apart_of_ne (hm _ hbe) hd hne
  obtain ⟨t,n,front,back,hi,hins,hto,hlast,hattr,hdecl⟩ :=
    insertService_free d.uuid primary (hp d hd).placed (hp d hd).spans hfree
      hr.ordered
  have hclip : clippedTo 0xffff d.group.last = d.group.last := by
    rw [clippedTo]
    split
    next h => exact h.symm
    next => rfl
  have hfind := hins.find hr.fresh
  have hun : ∀ p ∈ roster, p.1 ≠ db.allocated := by
    intro p hpr hpa
    obtain ⟨r,hfr,_⟩ := hb p hpr
    exact hr.fresh.unused r (mem_of_find hfr).1 ((mem_of_find hfr).2.trans hpa)
  refine ⟨t,?_,?_,⟨hins.fresh hr.fresh,hto,?_,?_⟩,?_⟩
  · simp only [storeService,Group.found,hclip]
    rw [show (Uuid.uuid128 d.group.uuid.toUuid128) = d.uuid from rfl,hi]
  · rw [hfind,if_pos rfl,Option.any_some,hins.inactive]
  · refine Distinct.insert_iff.mpr ⟨?_,by rw [List.append_nil]; exact hr.distinct⟩
    rw [List.append_nil]
    exact hun
  · intro s hs
    rw [List.map_append]
    rcases hins.mem_iff.mp hs with rfl | hs
    · exact List.mem_append_right _ (by simp [hins.address])
    · exact List.mem_append_left _ (hr.only s hs)
  · intro p hpr
    rcases List.mem_append.mp hpr with hpr | hpr
    · obtain ⟨r,hfr,hh⟩ := hb p hpr
      exact ⟨r,by rw [hfind,if_neg (hun p hpr)]; exact hfr,hh⟩
    · obtain rfl := List.mem_singleton.mp hpr
      refine ⟨n,by rw [hfind,if_pos rfl],?_,hlast,hattr⟩
      rw [hdecl,← hprim]
      rfl

theorem storeServices_spec (hl : served.Laid server) (hp : ∀ d ∈ server, d.Proper)
    (hr : Rostered db roster) (hb : Bare db roster) (hm : ∀ p ∈ roster, p.2 ∈ server)
    (hds : ∀ d ∈ ds, d ∈ server ∧ d.primary = primary) (hnd : (roster.map Prod.snd ++ ds).Nodup)
    (pending : List Address) :
    ∃ t more, storeServices primary db pending (ds.map fun d => Group.found 0xffff d.group) =
        (t,pending ++ more.map Prod.fst,true) ∧ more.map Prod.snd = ds ∧
      Rostered t (roster ++ more) ∧ Bare t (roster ++ more) := by
  induction ds generalizing db roster pending with
  | nil => exact ⟨db,[],by simp [storeServices],rfl,by simpa using hr,by simpa using hb⟩
  | cons d ds ih =>
    have hd := hds d List.mem_cons_self
    have hn : d ∉ roster.map Prod.snd := fun h =>
      (List.nodup_append.mp hnd).2.2 d h d List.mem_cons_self rfl
    obtain ⟨t,ht,hact,hrt,hbt⟩ := store_free hl hp hr hb hm hd.1 hn hd.2
    obtain ⟨v,more,hv,hsnd,hrv,hbv⟩ := ih hrt hbt
      (by
        intro p hpr
        rcases List.mem_append.mp hpr with h | h
        · exact hm p h
        · obtain rfl := List.mem_singleton.mp h
          exact hd.1)
      (fun x hx => hds x (List.mem_cons_of_mem d hx)) (by simpa using hnd)
      (pending ++ [db.allocated])
    refine ⟨v,(db.allocated,d) :: more,?_,by simp [hsnd],by simpa using hrv,by simpa using hbv⟩
    simp only [List.map_cons,storeServices,ht,hact]
    simpa using hv

end Minipro.GattClient
