import Minipro.Bluez.NotifyRequests

namespace Minipro.GattNotify
open Att GattClient GattDb Keyed References

variable {c t u : Client} {a b x y : Address} {d e : NotifyData} {ch f g : NotifyChrc}
  {w : CccWrite} {loans : List Address} {attId id : UInt32}

def unlisted (c : Client) (a : Address) : Client := { c with notifyList := c.notifyList.erase a }

def parted (ch : NotifyChrc) : NotifyChrc := { ch with notifyCount := ch.notifyCount - 1 }

structure Leaves (c : Client) (a : Address) (d : NotifyData) (ch : NotifyChrc) : Prop where
  reads : c.Reads a d ch
  listed : a ∈ c.notifyList
  free : ch.cccWriteId = 0

def leaving (c : Client) (a : Address) (ch : NotifyChrc) : Client :=
  (unlisted c a).putChrc (parted ch)

theorem members_leaving (c : Client) (a : Address) (ch : NotifyChrc) :
    (leaving c a ch).members ch.address = (c.members ch.address).erase a :=
  members_erase c a ch.address

namespace Leaves

theorem chrcAt (h : Leaves c a d ch) : (leaving c a ch).chrcAt ch.address = some (parted ch) := by
  have hx : (unlisted c a).chrcAt (parted ch).address = some ch := h.reads.at
  refine (congrFun (Client.chrcAt_putChrc hx) ch.address).trans ?_
  exact Function.update_self _ _ _

theorem cells (h : Leaves c a d ch) (hi : Inv c) : (leaving c a ch).Cells [a] := by
  have hx : (unlisted c a).chrcAt (parted ch).address = some ch := h.reads.at
  exact (hi.cells.lendListed h.listed).putChrc hx

theorem apart (h : Leaves c a d ch) : Apart c (leaving c a ch) ch.address := by
  have hx : (unlisted c a).chrcAt (parted ch).address = some ch := h.reads.at
  exact (apart_unlist h.reads.home).trans (apart_putChrc hx)

theorem reads' (h : Leaves c a d ch) : (leaving c a ch).Reads a d (parted ch) :=
  ⟨h.reads.data,h.reads.chrcAddress ▸ h.chrcAt⟩

theorem mem (h : Leaves c a d ch) : a ∈ c.members ch.address := mem_members.mpr ⟨h.listed,h.reads.home⟩

theorem proper (h : Leaves c a d ch) (hi : Inv c) : Proper c ch := hi.proper ch.address ch h.reads.at

theorem count (h : Leaves c a d ch) (hi : Inv c) :
    0 < ch.notifyCount ∧ (parted ch).notifyCount = ((c.members ch.address).erase a).length := by
  have hc := (Joins.idle_members (h.proper hi) h.free).2.2
  have hp : 0 < (c.members ch.address).length := List.length_pos_of_mem h.mem
  have he := List.length_erase_of_mem h.mem
  have hd : (parted ch).notifyCount = ch.notifyCount - 1 := rfl
  omega

theorem unreported (h : Leaves c a d ch) (hi : Inv c) :
    ∀ b ∉ (leaving c a ch).notifyList, c.reports b = c.returns b := by
  intro b hb
  rcases eq_or_ne b a with rfl | hne
  · have ht := (h.proper hi).tally b h.mem
    rwa [if_pos h.free,Nat.add_zero] at ht
  · exact hi.unlisted b fun hm => hb ((List.mem_erase_of_ne hne).mpr hm)

theorem settles (h : Leaves c a d ch) (hi : Inv c) :
    Settles c (leaving c a ch) (parted ch) [a] := by
  obtain ⟨hw,hq,_⟩ := Joins.idle_members (h.proper hi) h.free
  have hn := h.count hi
  refine ⟨h.cells hi,h.apart,h.chrcAt,⟨.idle h.free hw hq ?_,fun h0 b hb => ?_,fun hwr => ?_,
    fun b hb => ?_⟩,rfl⟩
  · rw [show (leaving c a ch).members (parted ch).address = _ from
      members_leaving c a ch]
    exact hn.2
  · have hm : b ∈ (c.members ch.address).erase a := members_leaving c a ch ▸ hb
    exact (h.proper hi).settled h0 b (List.mem_of_mem_erase hm)
  · rcases hwr with hwr | ⟨hcc,_⟩
    · exact absurd h.free hwr
    · exact (h.proper hi).writable (.inr ⟨hcc,hn.1.ne'⟩)
  · have hm : b ∈ (c.members ch.address).erase a := members_leaving c a ch ▸ hb
    exact (h.proper hi).tally b (List.mem_of_mem_erase hm)

theorem carries (h : Leaves c a d ch) (hi : Inv c) (hf : Alike ch f) : Carries ch f :=
  ⟨hf,fun _ _ => (h.count hi).1.ne'⟩

theorem released (h : Leaves c a d ch) (hi : Inv c) :
    ∃ t, (leaving c a ch).unref a = .ok t ∧ Outcome c t (parted ch) :=
  finish hi (h.settles hi) (h.unreported hi) rfl

theorem disabled (h : Leaves c a d ch) (hi : Inv c) (hl : (parted ch).notifyCount = 0)
    (hcc : ch.cccHandle ≠ 0) (ha : attId ≠ 0) :
    ∃ t, (leaving c a ch).notifyDataWriteCcc a false attId = .ok (t,true) ∧
      Outcome c t { parted ch with cccWriteId := attId } := by
  let f : NotifyChrc := { parted ch with cccWriteId := attId }
  have hs := h.settles hi
  obtain ⟨hw,hq,_⟩ := Joins.idle_members (h.proper hi) h.free
  have hn := (h.count hi).2
  have hm : (leaving c a ch).members ch.address = [] := by
    rw [members_leaving]
    exact List.eq_nil_of_length_eq_zero (by omega)
  obtain ⟨pdu,hpdu⟩ : ∃ pdu, enablePdu (parted ch) false = some pdu := ⟨_,rfl⟩
  obtain ⟨t,ht,hwt⟩ := write_accepted (h.cells hi).drop h.reads' hcc hpdu ha
  have hmt : t.members f.address = [] := by
    rw [members_of_home hwt.listed (fun b _ => congrFun hwt.home b)]
    exact hm
  have hwr : t.writesOn f.address = [⟨attId,false,a,pdu⟩] := by
    refine hwt.writes.trans ?_
    rw [show (leaving c a ch).writesOn (parted ch).address = [] from hw]
    rfl
  have hwritable := (h.proper hi).writable (.inr ⟨hcc,(h.count hi).1.ne'⟩)
  have hproper : Proper t f := by
    refine ⟨.disabling _ rfl hwr ⟨rfl,ha,hpdu⟩ hmt hq hl,fun h0 => absurd h0 ha,fun _ => hwritable,
      fun b hb => ?_⟩
    rw [hmt] at hb
    cases hb
  have hst : Settles c t f [] :=
    ⟨hwt.cells,hs.apart.trans hwt.apart,hwt.chrc,hproper,hwt.allocated⟩
  refine ⟨t,ht,hst.outcome hi (fun b hb => ?_) hwt.returns⟩
  rw [hwt.reports,hwt.returns]
  exact h.unreported hi b (hwt.listed ▸ hb)

theorem kept (h : Leaves c a d ch) (hi : Inv c) (hl : (parted ch).notifyCount = 0)
    (hcc : ch.cccHandle ≠ 0) :
    ∃ v t, (leaving c a ch).notifyDataWriteCcc a false 0 = .ok (v,false) ∧ v.unref a = .ok t ∧
      Outcome c t (parted ch) := by
  let e : NotifyData := { d with attId := 0,refCount := d.refCount + 1 }
  have hs := h.settles hi
  have hea : e.address = a := h.reads.address
  have hf : ({ parted ch with cccWriteId := 0 } : NotifyChrc) = parted ch :=
    congrArg (fun i => ({ parted ch with cccWriteId := i } : NotifyChrc)) h.free.symm
  have hm : Amends (leaving c a ch) { parted ch with cccWriteId := 0 } e d (parted ch) :=
    ⟨hea.symm ▸ h.reads',rfl,rfl⟩
  obtain ⟨hw,hq,_⟩ := Joins.idle_members (h.proper hi) h.free
  have hno : (leaving c a ch).members ch.address = [] := by
    rw [members_leaving]
    exact List.eq_nil_of_length_eq_zero (by have := (h.count hi).2; omega)
  have hp : Proper (ccWritten (leaving c a ch) d (parted ch) 0) (parted ch) :=
    phase_waits h.free ((hm.members_eq ch.address).trans hno) ((hm.writesOn_eq ch.address).trans hw)
      hq hl
  have hx : (ccWritten (leaving c a ch) d (parted ch) 0).chrcAt ch.address = some (parted ch) :=
    (congrFun hm.chrcAt_eq ch.address).trans ((Function.update_self _ _ _).trans (congrArg some hf))
  have hcells : (ccWritten (leaving c a ch) d (parted ch) 0).Cells [a] :=
    (hea ▸ hm.cells_acquired (h.cells hi) rfl).drop
  obtain ⟨t,ht,ho⟩ := finish hi ⟨hcells,hs.apart.trans hm.apart,hx,hp,rfl⟩ (h.unreported hi) rfl
  exact ⟨_,t,write_refused h.reads' hcc rfl,ht,ho⟩

theorem complete (h : Leaves c a d ch) (hi : Inv c) (attId : UInt32) :
    ∃ t f, (unlisted c a).completeUnregisterNotify a attId = .ok t ∧ Outcome c t f ∧
      Carries ch f := by
  have hd : (unlisted c a).Reads a d ch := ⟨h.reads.data,h.reads.chrc⟩
  have h0 : ¬ d.attId ≠ 0 := by
    rw [← h.reads.att]
    exact not_not.mpr ((h.proper hi).settled h.free a h.mem)
  have hu : (unlisted c a).completeUnregisterNotify a attId =
      if ch.notifyCount - 1 ≠ 0 ∨ ch.cccHandle = 0 then (leaving c a ch).unref a
      else (leaving c a ch).notifyDataWriteCcc a false attId >>= fun p =>
        if p.2 then .ok p.1 else p.1.unref a := by
    simp only [Client.completeUnregisterNotify,hd.data_ok,hd.chrc_ok,ok_bind,if_neg h0]
    rfl
  rw [hu]
  split
  next =>
    obtain ⟨t,ht,ho⟩ := h.released hi
    exact ⟨t,parted ch,ht,ho,h.carries hi ⟨rfl,rfl,rfl,rfl⟩⟩
  next hn =>
    obtain ⟨hl,hcc⟩ := not_or.mp hn
    rcases eq_or_ne attId 0 with rfl | ha
    · obtain ⟨v,t,hv,ht,ho⟩ := h.kept hi (not_not.mp hl) hcc
      rw [hv]
      exact ⟨t,parted ch,ht,ho,h.carries hi ⟨rfl,rfl,rfl,rfl⟩⟩
    · obtain ⟨t,ht,ho⟩ := h.disabled hi (not_not.mp hl) hcc ha
      rw [ht]
      exact ⟨t,_,rfl,ho,h.carries hi ⟨rfl,rfl,rfl,rfl⟩⟩

end Leaves

theorem findListed_ok (id : UInt32) (l : List Address) (h : ∀ a ∈ l, ∃ d ch, c.Reads a d ch) :
    ∃ r, c.findListed id l = .ok r ∧
      ∀ d, r = some d → d.address ∈ l ∧ d.id = id ∧ ∃ ch, c.Reads d.address d ch := by
  induction l with
  | nil => exact ⟨none,rfl,fun d hd => by cases hd⟩
  | cons a l ih =>
    obtain ⟨d,ch,hd⟩ := h a List.mem_cons_self
    have hstep : c.findListed id (a :: l) =
        if d.id = id then .ok (some d) else c.findListed id l := by
      simp only [Client.findListed,hd.data_ok,ok_bind]
    rw [hstep]
    split
    next hid =>
      refine ⟨some d,rfl,fun e he => ?_⟩
      obtain rfl := Option.some.inj he
      have hd' : c.Reads d.address d ch := hd.address.symm ▸ hd
      exact ⟨hd.address ▸ List.mem_cons_self,hid,ch,hd'⟩
    next =>
      obtain ⟨r,hr,hf⟩ := ih fun b hb => h b (List.mem_cons_of_mem a hb)
      refine ⟨r,hr,fun e he => ?_⟩
      obtain ⟨hm,hid,hread⟩ := hf e he
      exact ⟨List.mem_cons_of_mem a hm,hid,hread⟩

theorem listed_reads (hi : Inv c) (ha : a ∈ c.notifyList) : ∃ d ch, c.Reads a d ch :=
  hi.cells.reads (listed_owner ha [])

theorem unregister_eq (hd : c.Reads d.address d ch) (hf : c.findListed id c.notifyList = .ok (some d)) :
    c.unregisterNotify id attId =
      if ch.notifyCount ≤ 0 ∨ ch.cccWriteId ≠ 0 then .error .aborted
      else (unlisted c d.address).completeUnregisterNotify d.address attId := by
  have hch : (unlisted c d.address).chrc d.chrc = .ok ch := hd.chrc_ok
  rw [Client.unregisterNotify,hf]
  change ((unlisted c d.address).chrc d.chrc >>= fun ch =>
    if ch.notifyCount ≤ 0 ∨ ch.cccWriteId ≠ 0 then .error .aborted
    else (unlisted c d.address).completeUnregisterNotify d.address attId) = _
  rw [hch]
  rfl

theorem unregister_idle (hi : Inv c) (id attId : UInt32)
    (hfree : ∀ a ∈ c.notifyList, ∀ d ch, c.Reads a d ch → d.id = id → ch.cccWriteId = 0) :
    ∃ t, c.unregisterNotify id attId = .ok t ∧ Inv t ∧ Carried c t := by
  obtain ⟨r,hr,hf⟩ := findListed_ok id c.notifyList fun a => listed_reads hi
  cases r with
  | none =>
    refine ⟨c,?_,hi,fun x f hx => ⟨f,hx,.refl f⟩⟩
    rw [Client.unregisterNotify,hr]
    rfl
  | some d =>
    obtain ⟨hm,hid,ch,hd⟩ := hf d rfl
    have hl : Leaves c d.address d ch := ⟨hd,hm,hfree d.address hm d ch hd hid⟩
    obtain ⟨t,f,ht,ho,hcar⟩ := hl.complete hi attId
    have hpos := (hl.count hi).1
    refine ⟨t,?_,ho.inv,ho.carried hd.at hcar⟩
    rw [unregister_eq hd hr,if_neg]
    · exact ht
    · rintro (hn | hn)
      · omega
      · exact hn hl.free

theorem dropped_spec (hi : Inv c) (hw : w ∈ c.writes) :
    ∃ t ch, c.dropped w = .ok t ∧ Outcome c t ch ∧ c.chrcAt ch.address = some ch ∧
      Pending ch w ∧ ch.notifyCount = 0 := by
  obtain ⟨d,ch,ha⟩ := answered_of hi hw
  let v : Client := { c with writes := c.writes.erase w }
  have hm : ch.regNotifyQueue <:+ v.members ch.address := by
    rcases ha.members with ⟨_,hm⟩ | ⟨_,_,hq⟩
    · refine ⟨[w.data],?_⟩
      exact hm.symm
    · rw [hq]
      exact List.nil_suffix
  have hwr : v.writesOn ch.address = [] := ha.writesOn
  have hp : Proper v ch :=
    ⟨.stranded ha.busy hwr hm ha.count,fun h0 => absurd h0 ha.busy,ha.proper.writable,
      ha.proper.tally⟩
  have hs : Settles c v ch [w.data] :=
    ⟨hi.cells.lendWrite hw,apart_answered ha.reads.home,ha.reads.at,hp,rfl⟩
  obtain ⟨t,ht,ho⟩ := finish hi hs hi.unlisted rfl
  exact ⟨t,ch,ht,ho,ha.reads.at,ha.pending,ha.count⟩

theorem notified_inv (hi : Inv c) (a : Address) (value : List UInt8) :
    Inv (c.note (.notified a value)) := by
  have hrep : (c.note (.notified a value)).reports = c.reports := by
    funext b
    simp [Client.reports,Client.note]
  have hret : (c.note (.notified a value)).returns = c.returns := by
    funext b
    simp [Client.returns,Client.note]
  refine ⟨hi.cells.note _,fun y f hy => ?_,fun b hb => ?_,fun b => ?_,fun b hb => ?_⟩
  · obtain rfl := Client.chrcAt_address hy
    have hk : Kept c (c.note (.notified a value)) f.address :=
      ⟨rfl,rfl,rfl,fun _ _ => rfl,fun b _ => congrFun hrep b,fun b _ => congrFun hret b⟩
    exact hk.proper (hi.proper f.address f hy)
  · rw [hrep,hret]
    exact hi.unlisted b hb
  · rw [hret]
    exact hi.once b
  · rw [hret]
    exact hi.unborn b hb

end Minipro.GattNotify
