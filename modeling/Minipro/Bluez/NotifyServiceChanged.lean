import Minipro.Bluez.NotifyRemoval

namespace Minipro.GattNotify
open Att GattClient GattDb Keyed References

variable {c t u : Client} {a b x y : Address} {d e : NotifyData} {ch f g : NotifyChrc}
  {w : CccWrite} {loans l : List Address} {start last : UInt16}

def gone (c : Client) (start last : UInt16) (a : Address) : Bool :=
  ((c.home a).bind c.chrcAt).any (Client.covers start last)

structure Removed (c t : Client) (start last : UInt16) (l : List Address) : Prop where
  cells : t.Cells []
  chrcs : t.notifyChrcs = c.notifyChrcs
  writes : t.writes = c.writes
  allocated : t.allocated = c.allocated
  listed : ∀ b, b ∈ t.notifyList ↔ b ∈ c.notifyList ∧ ¬ (b ∈ l ∧ gone c start last b)
  home : ∀ b ∈ t.owners, t.home b = c.home b
  reports : t.reports = c.reports
  returns : t.returns = c.returns
  kept : ∀ y f, c.chrcAt y = some f → Client.covers start last f = false → Kept c t y

theorem mem_unlisted (h : c.Cells loans) : b ∈ (unlisted c a).notifyList ↔ b ∈ c.notifyList ∧ b ≠ a := by
  rw [unlisted,List.Nodup.mem_erase_iff h.listed,and_comm]

theorem remove_one (hc : c.Cells []) (ha : a ∈ c.notifyList) (hg : gone c start last a) :
    ∃ t, (unlisted c a).unref a = .ok t ∧ Removed c t start last [a] := by
  obtain ⟨t,ht,hcells,hsame⟩ := (hc.lendListed ha).unref
  have hhome : ∀ b ∈ t.owners, t.home b = c.home b := by
    intro b hb
    rw [Client.owners,hsame.listed,hsame.writes] at hb
    exact hsame.home b (List.mem_append_left [] hb)
  refine ⟨t,ht,hcells,hsame.chrcs,hsame.writes,hsame.allocated,fun b => ?_,hhome,hsame.reports,
    hsame.returns,fun y f hy hf => ?_⟩
  · rw [hsame.listed,List.mem_singleton]
    refine (mem_unlisted hc).trans (and_congr_right fun _ => ⟨fun hne hba => hne hba.1,?_⟩)
    rintro hn rfl
    exact hn ⟨rfl,hg⟩
  · obtain ⟨x,g,hx,hgx⟩ := hc.homed a (listed_owner ha [])
    refine (apart_unlist hx y ?_).trans (hsame.kept y)
    rintro rfl
    rw [hy] at hgx
    obtain rfl := Option.some.inj hgx
    rw [gone,hx,Option.bind_some,hy,Option.any_some,hf] at hg
    cases hg

theorem gone_kept (h : Removed c t start last l) (hb : b ∈ t.owners) :
    gone t start last b = gone c start last b := by
  have hch : t.chrcAt = c.chrcAt := by
    funext x
    rw [Client.chrcAt,h.chrcs]
    rfl
  rw [gone,h.home b hb,hch,gone]

theorem remove_all (start last : UInt16) (l : List Address) (hc : c.Cells []) (hn : l.Nodup)
    (hl : ∀ a ∈ l, a ∈ c.notifyList) :
    ∃ t, l.foldlM (Client.removeNotify start last) c = .ok t ∧ Removed c t start last l := by
  induction l generalizing c with
  | nil =>
    exact ⟨c,rfl,hc,rfl,rfl,rfl,by simp,fun _ _ => rfl,rfl,rfl,
      fun y f _ _ => ⟨rfl,rfl,rfl,fun _ _ => rfl,fun _ _ => rfl,fun _ _ => rfl⟩⟩
  | cons a l ih =>
    obtain ⟨hna,hn⟩ := List.nodup_cons.mp hn
    have ha := hl a List.mem_cons_self
    obtain ⟨d,ch,hd⟩ := hc.reads (listed_owner ha [])
    have hg : gone c start last a = Client.covers start last ch := by
      rw [gone,hd.home,Option.bind_some,hd.at,Option.any_some]
    have hstep : c.removeNotify start last a =
        if Client.covers start last ch then (unlisted c a).unref a else .ok c := by
      simp only [Client.removeNotify,hd.data_ok,hd.chrc_ok,ok_bind]
      rfl
    rw [List.foldlM_cons,hstep]
    split
    next hcov =>
      obtain ⟨v,hv,hr⟩ := remove_one hc ha (hg.trans hcov)
      have hlv : ∀ b ∈ l, b ∈ v.notifyList := fun b hb =>
        (hr.listed b).mpr ⟨hl b (List.mem_cons_of_mem a hb),fun hba =>
          hna (List.mem_singleton.mp hba.1 ▸ hb)⟩
      obtain ⟨t,ht,hrt⟩ := ih hr.cells hn hlv
      refine ⟨t,by rw [hv]; exact ht,hrt.cells,hrt.chrcs.trans hr.chrcs,hrt.writes.trans hr.writes,
        hrt.allocated.trans hr.allocated,fun b => ?_,fun b hb => ?_,hrt.reports.trans hr.reports,
        hrt.returns.trans hr.returns,fun y f hy hf => ?_⟩
      · rw [hrt.listed,hr.listed,List.mem_singleton,List.mem_cons]
        constructor
        · rintro ⟨⟨hb,hne⟩,hnl⟩
          refine ⟨hb,?_⟩
          rintro ⟨hba | hbl,hgb⟩
          · exact hne ⟨hba,hgb⟩
          · exact hnl ⟨hbl,by
              rw [gone_kept hr (List.mem_append_left _ (hlv b hbl))]
              exact hgb⟩
        · rintro ⟨hb,hnl⟩
          refine ⟨⟨hb,fun hba => hnl ⟨.inl hba.1,hba.2⟩⟩,fun hbl => hnl ⟨.inr hbl.1,?_⟩⟩
          rw [← gone_kept hr (List.mem_append_left _ (hlv b hbl.1))]
          exact hbl.2
      · refine (hrt.home b hb).trans (hr.home b ?_)
        rw [Client.owners] at hb ⊢
        rcases List.mem_append.mp hb with hb | hb
        · exact List.mem_append_left _ ((hrt.listed b).mp hb).1
        · exact List.mem_append_right _ (hrt.writes ▸ hb)
      · exact (hr.kept y f hy hf).trans (hrt.kept y f ((hr.kept y f hy hf).chrc.trans hy) hf)
    next hcov =>
      obtain ⟨t,ht,hrt⟩ := ih hc hn fun b hb => hl b (List.mem_cons_of_mem a hb)
      refine ⟨t,ht,hrt.cells,hrt.chrcs,hrt.writes,hrt.allocated,fun b => ?_,hrt.home,hrt.reports,
        hrt.returns,hrt.kept⟩
      rw [hrt.listed,List.mem_cons]
      refine and_congr_right fun _ => not_congr ⟨fun h => ⟨.inr h.1,h.2⟩,?_⟩
      rintro ⟨rfl | hb,hgb⟩
      · exact absurd (hg.symm.trans hgb) hcov
      · exact ⟨hb,hgb⟩

structure Freed (c t : Client) (xs : List NotifyChrc) : Prop where
  cells : t.Cells []
  chrcAt : ∀ y, t.chrcAt y = if y ∈ xs.map NotifyChrc.address then none else c.chrcAt y
  datas : t.datas = c.datas
  listed : t.notifyList = c.notifyList
  writes : t.writes = c.writes
  allocated : t.allocated = c.allocated
  notices : t.notices = c.notices

theorem free_all (xs : List NotifyChrc) (hc : c.Cells [])
    (hx : ∀ ch ∈ xs, ch.regNotifyQueue = [] ∧ ∀ a ∈ c.owners, c.home a ≠ some ch.address) :
    ∃ t, xs.foldlM Client.notifyChrcFree c = .ok t ∧ Freed c t xs := by
  induction xs generalizing c with
  | nil => exact ⟨c,rfl,hc,by simp,rfl,rfl,rfl,rfl,rfl⟩
  | cons ch xs ih =>
    obtain ⟨hq,hout⟩ := hx ch List.mem_cons_self
    have hstep : c.notifyChrcFree ch = .ok (c.removeChrc ch.address) := by
      rw [Client.notifyChrcFree,hq]
      rfl
    have hcells : (c.removeChrc ch.address).Cells [] :=
      hc.removeChrc fun a ha => hout a (by simpa using ha)
    obtain ⟨t,ht,hf⟩ := ih hcells fun g hg => hx g (List.mem_cons_of_mem ch hg)
    refine ⟨t,by rw [List.foldlM_cons,hstep]; exact ht,hf.cells,fun y => ?_,hf.datas,hf.listed,
      hf.writes,hf.allocated,hf.notices⟩
    rw [hf.chrcAt,Client.chrcAt_removeChrc,Function.update_apply,List.map_cons]
    simp only [List.mem_cons]
    split
    next hy => rw [if_pos (.inr hy)]
    next hy =>
      split
      next hyc => rw [if_pos (.inl hyc)]
      next hyc => rw [if_neg (not_or.mpr ⟨hyc,hy⟩)]

theorem home_of_datas (h : t.datas = c.datas) : t.home = c.home := by
  funext b
  rw [Client.home,h,Client.home]

theorem att_of_datas (h : t.datas = c.datas) : t.att = c.att := by
  funext b
  rw [Client.att,h,Client.att]

theorem reports_of_notices (h : t.notices = c.notices) : t.reports = c.reports := by
  funext b
  rw [Client.reports,h]
  rfl

theorem returns_of_notices (h : t.notices = c.notices) : t.returns = c.returns := by
  funext b
  rw [Client.returns,h]
  rfl

theorem gone_of_home (hx : c.chrcAt ch.address = some ch)
    (hcov : Client.covers start last ch) (hh : c.home a = some ch.address) :
    gone c start last a := by
  rw [gone,hh,Option.bind_some,hx,Option.any_some]
  exact hcov

theorem unowned_covered (hi : Inv c) (hr : Removed c t start last c.notifyList)
    (hm : ch ∈ c.notifyChrcs) (hcov : Client.covers start last ch) (h0 : ch.cccWriteId = 0) :
    ch.regNotifyQueue = [] ∧ ∀ a ∈ t.owners, t.home a ≠ some ch.address := by
  have hat := hi.cells.at_mem hm
  obtain ⟨hw,hq,_⟩ := Joins.idle_members (hi.proper ch.address ch hat) h0
  refine ⟨hq,fun a ha hh => ?_⟩
  rw [hr.home a ha] at hh
  rw [Client.owners] at ha
  rcases List.mem_append.mp ha with ha | ha
  · obtain ⟨ha,hn⟩ := (hr.listed a).mp ha
    exact hn ⟨ha,gone_of_home hat hcov hh⟩
  · rw [hr.writes] at ha
    obtain ⟨w,hwm,rfl⟩ := List.mem_map.mp ha
    have hmem : w ∈ c.writesOn ch.address := mem_writesOn.mpr ⟨hwm,hh⟩
    rw [hw] at hmem
    cases hmem

theorem survives (hr : Removed c t start last l)
    (hf : Freed t u (t.notifyChrcs.filter (Client.covers start last))) (hy : u.chrcAt y = some ch) :
    c.chrcAt y = some ch ∧ Client.covers start last ch = false := by
  have hy' := (hf.chrcAt y).symm.trans hy
  split at hy'
  next => cases hy'
  next hn =>
    refine ⟨?_,?_⟩
    · rwa [Client.chrcAt,hr.chrcs] at hy'
    · by_contra hcov
      have hmem : ch ∈ t.notifyChrcs.filter (Client.covers start last) :=
        List.mem_filter.mpr ⟨(mem_of_find hy').1,by simpa using hcov⟩
      exact hn (Client.chrcAt_address hy' ▸ List.mem_map_of_mem hmem)

theorem removed_settled (hi : Inv c) (hr : Removed c t start last c.notifyList)
    (hfree : ∀ ch ∈ c.notifyChrcs, Client.covers start last ch → ch.cccWriteId = 0)
    (hb : b ∉ t.notifyList) : c.reports b = c.returns b := by
  by_cases hm : b ∈ c.notifyList
  · have hg : gone c start last b := by
      by_contra hng
      exact hb ((hr.listed b).mpr ⟨hm,fun h => hng h.2⟩)
    obtain ⟨d,ch,hd⟩ := listed_reads hi hm
    rw [gone,hd.home,Option.bind_some,hd.at,Option.any_some] at hg
    have h0 := hfree ch (mem_of_find hd.at).1 hg
    have ht := (hi.proper ch.address ch hd.at).tally b (mem_members.mpr ⟨hm,hd.home⟩)
    rwa [if_pos h0,Nat.add_zero] at ht
  · exact hi.unlisted b hm

theorem Freed.kept {xs : List NotifyChrc} (hf : Freed c t xs) (hy : t.chrcAt y = c.chrcAt y) :
    Kept c t y where
  chrc := hy
  members := members_of_home hf.listed (fun b _ => congrFun (home_of_datas hf.datas) b) y
  writes := writesOn_of_home hf.writes (fun w _ => congrFun (home_of_datas hf.datas) w.data) y
  att b _ := congrFun (att_of_datas hf.datas) b
  reports b _ := congrFun (reports_of_notices hf.notices) b
  returns b _ := congrFun (returns_of_notices hf.notices) b

theorem freed_inv (hi : Inv c) (hr : Removed c t start last c.notifyList)
    (hf : Freed t u (t.notifyChrcs.filter (Client.covers start last)))
    (hfree : ∀ ch ∈ c.notifyChrcs, Client.covers start last ch → ch.cccWriteId = 0) : Inv u := by
  have hrep : u.reports = c.reports := (reports_of_notices hf.notices).trans hr.reports
  have hret : u.returns = c.returns := (returns_of_notices hf.notices).trans hr.returns
  refine ⟨hf.cells,fun y ch hy => ?_,fun b hb => ?_,fun b => ?_,fun b hb => ?_⟩
  · obtain ⟨hcy,hcov⟩ := survives hr hf hy
    obtain rfl := Client.chrcAt_address hcy
    have hk := hr.kept ch.address ch hcy hcov
    have hu : u.chrcAt ch.address = t.chrcAt ch.address := hy.trans (hk.chrc.trans hcy).symm
    exact (hk.trans (hf.kept hu)).proper (hi.proper ch.address ch hcy)
  · rw [hrep,hret]
    exact removed_settled hi hr hfree (hf.listed ▸ hb)
  · rw [hret]
    exact hi.once b
  · rw [hret]
    exact hi.unborn b (hr.allocated ▸ hf.allocated ▸ hb)

structure Pruned (c t : Client) (start last : UInt16) : Prop where
  inv : Inv t
  carried : Carried c t
  listed : ∀ b, b ∈ t.notifyList ↔ b ∈ c.notifyList ∧ ¬ gone c start last b
  clear : ∀ ch ∈ t.notifyChrcs, Client.covers start last ch = false

theorem serviceChanged_spec (hi : Inv c) (start last : UInt16) (sent : Bool)
    (hfree : ∀ ch ∈ c.notifyChrcs, Client.covers start last ch → ch.cccWriteId = 0) :
    ∃ t, c.processServiceChanged start last sent = .ok t ∧ Pruned c t start last := by
  obtain ⟨v,hv,hr⟩ := remove_all start last c.notifyList hi.cells hi.cells.listed fun _ ha => ha
  have hclear : ∀ ch ∈ v.notifyChrcs.filter (Client.covers start last),
      ch.regNotifyQueue = [] ∧ ∀ a ∈ v.owners, v.home a ≠ some ch.address := by
    intro ch hch
    obtain ⟨hm,hcov⟩ := List.mem_filter.mp hch
    rw [hr.chrcs] at hm
    exact unowned_covered hi hr hm hcov (hfree ch hm hcov)
  obtain ⟨u,hu,hf⟩ := free_all _ hr.cells hclear
  let t := u.aside (u.db.clearRange start last) u.svcChngdIndId (u.inSvcChngd || sent)
    u.svcChngdQueue
  have ht : c.processServiceChanged start last sent = .ok t := by
    rw [Client.processServiceChanged,hv,ok_bind,hu]
    rfl
  refine ⟨t,ht,(freed_inv hi hr hf hfree).aside _ _ _ _,
    fun y ch hy => ⟨ch,(survives hr hf hy).1,.refl ch⟩,fun b => ?_,
    fun ch hm => (survives hr hf (hf.cells.at_mem hm)).2⟩
  rw [show t.notifyList = v.notifyList from hf.listed,hr.listed]
  exact and_congr_right fun hb => not_congr (and_iff_right hb)

end Minipro.GattNotify
