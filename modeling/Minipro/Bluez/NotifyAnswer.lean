import Minipro.Bluez.NotifySteps

namespace Minipro.GattNotify
open Att GattClient GattDb Keyed References

variable {c t u : Client} {a b x y : Address} {d e : NotifyData} {ch f g : NotifyChrc}
  {w : CccWrite} {loans : List Address} {attId : UInt32} {opcode : UInt8} {pdu : List UInt8}

-- released: c as it stands once the answered write has left the bearer and ccc_write_id is cleared.
structure Answered (c : Client) (w : CccWrite) (d : NotifyData) (ch : NotifyChrc) : Prop where
  reads : c.Reads w.data d ch
  pending : Pending ch w
  busy : ch.cccWriteId ≠ 0
  count : ch.notifyCount = 0
  writes : c.writesOn ch.address = [w]
  members : w.enable = true ∧ c.members ch.address = w.data :: ch.regNotifyQueue ∨
    w.enable = false ∧ c.members ch.address = [] ∧ ch.regNotifyQueue = []
  proper : Proper c ch

theorem answered_of (h : Inv c) (hw : w ∈ c.writes) : ∃ d ch, Answered c w d ch := by
  obtain ⟨d,ch,hd⟩ := h.cells.reads (write_owner hw [])
  have hp := h.proper ch.address ch hd.at
  have hm : w ∈ c.writesOn ch.address := mem_writesOn.mpr ⟨hw,hd.home⟩
  refine ⟨d,ch,?_⟩
  cases hp.phase with
  | idle h0 hws hq hn =>
    rw [hws] at hm
    cases hm
  | enabling v he hws hv hms hn =>
    rw [hws] at hm
    obtain rfl := List.mem_singleton.mp hm
    exact ⟨hd,hv,hv.id ▸ hv.sent,hn,hws,.inl ⟨he,hms⟩,hp⟩
  | disabling v he hws hv hms hq hn =>
    rw [hws] at hm
    obtain rfl := List.mem_singleton.mp hm
    exact ⟨hd,hv,hv.id ▸ hv.sent,hn,hws,.inr ⟨he,hms,hq⟩,hp⟩
  | stranded h0 hws hq hn =>
    rw [hws] at hm
    cases hm

def cleared (ch : NotifyChrc) : NotifyChrc := { ch with cccWriteId := 0 }

def acknowledged (c : Client) (w : CccWrite) (ch : NotifyChrc) : Client :=
  { c with writes := c.writes.erase w }.putChrc (cleared ch)

theorem acknowledged_chrcAt (hx : c.chrcAt ch.address = some ch) :
    (acknowledged c w ch).chrcAt ch.address = some (cleared ch) := by
  have hx' : ({ c with writes := c.writes.erase w } : Client).chrcAt (cleared ch).address = some ch := hx
  exact (congrFun (Client.chrcAt_putChrc hx') ch.address).trans (Function.update_self _ _ _)

theorem acknowledged_cells (hc : c.Cells []) (hw : w ∈ c.writes)
    (hx : c.chrcAt ch.address = some ch) : (acknowledged c w ch).Cells [w.data] := by
  have hx' : ({ c with writes := c.writes.erase w } : Client).chrcAt (cleared ch).address = some ch := hx
  exact (hc.lendWrite hw).putChrc hx'

theorem callback_guard (hn : ch.notifyCount = 0) (h0 : ch.cccWriteId ≠ 0) :
    ¬ (ch.notifyCount ≠ 0 ∨ ch.cccWriteId = 0) := by
  rintro (h | h)
  · exact h hn
  · exact h0 h

namespace Answered

theorem chrcAt (h : Answered c w d ch) :
    (acknowledged c w ch).chrcAt ch.address = some (cleared ch) := acknowledged_chrcAt h.reads.at

theorem cells (h : Answered c w d ch) (hc : c.Cells []) (hw : w ∈ c.writes) :
    (acknowledged c w ch).Cells [w.data] := acknowledged_cells hc hw h.reads.at

theorem guard (h : Answered c w d ch) : ¬ (ch.notifyCount ≠ 0 ∨ ch.cccWriteId = 0) :=
  callback_guard h.count h.busy

theorem apart (h : Answered c w d ch) : Apart c (acknowledged c w ch) ch.address := by
  have hx : ({ c with writes := c.writes.erase w } : Client).chrcAt (cleared ch).address = some ch :=
    h.reads.at
  exact (apart_answered h.reads.home).trans (apart_putChrc hx)

theorem writesOn (h : Answered c w d ch) : (acknowledged c w ch).writesOn ch.address = [] := by
  refine (writesOn_erase c w ch.address).trans ?_
  rw [h.writes]
  simp

theorem reads' (h : Answered c w d ch) : (acknowledged c w ch).Reads w.data d (cleared ch) :=
  ⟨h.reads.data,h.reads.chrcAddress ▸ h.chrcAt⟩

theorem writable (h : Answered c w d ch) : ch.cccHandle ≠ 0 ∧ (enablePdu ch true).isSome :=
  h.proper.writable (.inl h.busy)

theorem tally (h : Answered c w d ch) (ha : a ∈ c.members ch.address) :
    c.reports a + 1 = c.returns a := by
  have ht := h.proper.tally a ha
  rwa [if_neg h.busy] at ht

end Answered

structure Outcome (c t : Client) (f : NotifyChrc) : Prop where
  inv : Inv t
  apart : Apart c t f.address
  chrc : t.chrcAt f.address = some f

theorem Settles.outcome (hs : Settles c t f []) (h : Inv c)
    (hu : ∀ b ∉ t.notifyList, t.reports b = t.returns b) (hr : t.returns = c.returns) :
    Outcome c t f := by
  refine ⟨⟨hs.cells,hs.apart.proper h.proper hs.chrc hs.proper,hu,fun b => ?_,fun b hb => ?_⟩,
    hs.apart,hs.chrc⟩
  · rw [hr]
    exact h.once b
  · rw [hr]
    exact h.unborn b (hs.allocated ▸ hb)

theorem finish (h : Inv c) (hs : Settles c t f [a]) (hu : ∀ b ∉ t.notifyList, t.reports b = t.returns b)
    (hr : t.returns = c.returns) : ∃ u, t.unref a = .ok u ∧ Outcome c u f := by
  obtain ⟨u,hok,hcells,hsame⟩ := hs.cells.unref
  have hkept := hsame.kept f.address
  have hsu : Settles c u f [] :=
    ⟨hcells,hs.apart.trans fun y _ => hsame.kept y,hkept.chrc.trans hs.chrc,hkept.proper hs.proper,
      hsame.allocated.trans hs.allocated⟩
  refine ⟨u,hok,hsu.outcome h (fun b hb => ?_) (hsame.returns.trans hr)⟩
  rw [hsame.reports,hsame.returns]
  exact hu b (hsame.listed ▸ hb)

theorem disable_answer (h : Inv c) (hw : w ∈ c.writes) (ha : Answered c w d ch)
    (he : w.enable = false) :
    ∃ t f, c.answer w opcode pdu attId = .ok t ∧ Outcome c t f ∧ Alike ch f ∧
      f.notifyCount = 0 := by
  have hm : c.members ch.address = [] ∧ ch.regNotifyQueue = [] := by
    rcases ha.members with ⟨ht,_⟩ | ⟨_,hm⟩
    · rw [he] at ht
      cases ht
    · exact hm
  have hp : Proper (acknowledged c w ch) (cleared ch) :=
    phase_waits rfl hm.1 ha.writesOn hm.2 ha.count
  have hs : Settles c (acknowledged c w ch) (cleared ch) [w.data] :=
    ⟨ha.cells h.cells hw,ha.apart,ha.chrcAt,hp,rfl⟩
  obtain ⟨u,hu,ho⟩ := finish h hs h.unlisted rfl
  refine ⟨u,cleared ch,?_,ho,⟨rfl,rfl,rfl,rfl⟩,ha.count⟩
  have hd : ({ c with writes := c.writes.erase w } : Client).Reads w.data d ch :=
    ⟨ha.reads.data,ha.reads.chrc⟩
  have hcb : ({ c with writes := c.writes.erase w } : Client).disableCccCallback w.data attId =
      .ok (acknowledged c w ch) := by
    simp only [Client.disableCccCallback,hd.data_ok,hd.chrc_ok,ok_bind,if_neg ha.guard]
    exact congrArg (Client.retryQueued attId ch.address _ (acknowledged c w ch)) hm.2
  simp only [Client.answer,he,hcb,ok_bind]
  exact hu

theorem enable_refused (h : Inv c) (hw : w ∈ c.writes) (ha : Answered c w d ch)
    (he : w.enable = true) (hid : attId ≠ 0) (hop : opcode = opErrorRsp) :
    ∃ t f, c.answer w opcode pdu attId = .ok t ∧ Outcome c t f ∧ Alike ch f ∧
      f.notifyCount = 0 := by
  have hm : c.members ch.address = w.data :: ch.regNotifyQueue := by
    rcases ha.members with ⟨_,hm⟩ | ⟨hf,_⟩
    · exact hm
    · rw [he] at hf
      cases hf
  have hlist : w.data ∈ c.notifyList := (mem_members.mp (hm ▸ List.mem_cons_self)).1
  have hnodup : (w.data :: ch.regNotifyQueue).Nodup := hm ▸ h.cells.listed.filter _
  obtain ⟨indId,hcall⟩ := callback_eq
    { acknowledged c w ch with notifyList := c.notifyList.erase w.data } d (processError pdu)
  let v : Client := { acknowledged c w ch with
    notifyList := c.notifyList.erase w.data
    svcChngdIndId := indId }
  let n : Notice := .registered w.data (processError pdu)
  have hv : (v.note n).Cells [w.data] :=
    (((ha.cells h.cells hw).lendListed hlist).drop.aside _ indId _ _).note n
  have hrep (b : Address) : (v.note n).reports b = c.reports b + if w.data = b then 1 else 0 :=
    reports_registered v w.data b _
  have hret : (v.note n).returns = c.returns := returns_registered v w.data _
  have hhome : (acknowledged c w ch).home w.data = some ch.address := ha.reads.home
  have hv' : v.home w.data = some ch.address := ha.reads.home
  have haside : Apart { acknowledged c w ch with notifyList := c.notifyList.erase w.data } v
      ch.address := fun y _ => kept_aside _ _ indId _ _ y
  have hapart : Apart c (v.note n) ch.address :=
    ((ha.apart.trans (apart_unlist hhome)).trans haside).trans (apart_registered hv' _)
  have hwaits : Waits (v.note n) (cleared ch) := by
    refine ⟨ha.chrcAt,rfl,ha.count,?_,ha.writesOn,ha.writable.1,ha.writable.2,fun b hb => ?_⟩
    · refine (members_erase (acknowledged c w ch) w.data ch.address).trans ?_
      exact (congrArg (List.erase · w.data) hm).trans (List.erase_cons_head _ _)
    · have hne : w.data ≠ b := fun hb' => (List.nodup_cons.mp hnodup).1 (hb' ▸ hb)
      rw [hrep,hret,if_neg hne]
      exact ha.tally (hm ▸ List.mem_cons_of_mem _ hb)
  obtain ⟨t,f,ht,hs,hfa,hfn,hl,hrt,hrr⟩ := retry_next hv hwaits hid
  have hsettles : Settles c t f [w.data] :=
    ⟨hs.cells,(hfa.address ▸ hapart).trans hs.apart,hs.chrc,hs.proper,hs.allocated⟩
  have hun : ∀ b ∉ t.notifyList, t.reports b = t.returns b := by
    intro b hb
    rw [hrt,hrr,hrep,hret]
    rw [hl] at hb
    split
    next hb' => exact hb' ▸ ha.tally (hm ▸ List.mem_cons_self)
    next hb' =>
      refine h.unlisted b fun hmem => hb ?_
      exact (List.mem_erase_of_ne (Ne.symm hb')).mpr hmem
  obtain ⟨u,hu,ho⟩ := finish h hsettles hun (hrr.trans hret)
  refine ⟨u,f,?_,ho,⟨hfa.address,hfa.valueHandle,hfa.handle,hfa.properties⟩,hfn⟩
  have hcb : ({ c with writes := c.writes.erase w } : Client).enableCccCallback w.data opcode pdu
      attId = .ok t := by
    have hd : ({ c with writes := c.writes.erase w } : Client).Reads w.data d ch :=
      ⟨ha.reads.data,ha.reads.chrc⟩
    simp only [Client.enableCccCallback,hd.data_ok,hd.chrc_ok,ok_bind,
      if_neg ha.guard,if_pos hop]
    rw [ha.reads.address] at hcall
    exact (congrArg (Client.retryQueued attId ch.address id · ch.regNotifyQueue) hcall).trans ht
  simp only [Client.answer,he,if_true,hcb,ok_bind]
  exact hu

theorem enable_accepted (h : Inv c) (hw : w ∈ c.writes) (ha : Answered c w d ch)
    (he : w.enable = true) (hop : opcode ≠ opErrorRsp) :
    ∃ t f, c.answer w opcode pdu attId = .ok t ∧ Outcome c t f ∧ Alike ch f := by
  have hm : c.members ch.address = w.data :: ch.regNotifyQueue := by
    rcases ha.members with ⟨_,hm⟩ | ⟨hf,_⟩
    · exact hm
    · rw [he] at hf
      cases hf
  have hnodup : (w.data :: ch.regNotifyQueue).Nodup := hm ▸ h.cells.listed.filter _
  have hhome : ∀ b ∈ w.data :: ch.regNotifyQueue, c.home b = some ch.address := fun b hb =>
    (mem_members.mp (hm ▸ hb)).2
  obtain ⟨v,hv,hcv⟩ := complete_one (ha.cells h.cells hw) ha.reads'
  let g : NotifyChrc := { cleared ch with notifyCount := ch.notifyCount + 1,regNotifyQueue := [] }
  have hx : v.chrcAt g.address = some { cleared ch with notifyCount := ch.notifyCount + 1 } :=
    hcv.chrc
  have hg : (v.putChrc g).chrcAt g.address = some g := by
    rw [Client.chrcAt_putChrc hx,Function.update_self]
  have hq : ∀ b ∈ ch.regNotifyQueue, (v.putChrc g).home b = some g.address := fun b hb =>
    (congrFun hcv.home b).trans (hhome b (List.mem_cons_of_mem _ hb))
  obtain ⟨t,ht,hct⟩ := complete_all g ch.regNotifyQueue (hcv.cells.putChrc hx) hg hq
  let f : NotifyChrc := { g with notifyCount := g.notifyCount + ch.regNotifyQueue.length }
  have hlist : t.notifyList = c.notifyList := hct.listed.trans hcv.listed
  have hth : t.home = c.home := hct.home.trans hcv.home
  have hmt : t.members f.address = w.data :: ch.regNotifyQueue :=
    (members_of_home hlist (fun b _ => congrFun hth b) _).trans hm
  have hwt : t.writesOn f.address = [] := by
    refine Eq.trans ?_ ha.writesOn
    exact writesOn_of_home (hct.writes.trans hcv.writes)
      (fun w _ => congrFun (hct.home.trans hcv.home) w.data) ch.address
  have hret : t.returns = c.returns := hct.returns.trans hcv.returns
  have hrep (b : Address) : t.reports b = c.reports b + (w.data :: ch.regNotifyQueue).count b := by
    rw [hct.reports,List.count_cons]
    have h1 := hcv.reports b
    rw [List.count_singleton] at h1
    have h2 : (v.putChrc g).reports b = v.reports b := rfl
    have h3 : (acknowledged c w ch).reports b = c.reports b := rfl
    omega
  have hproper : Proper t f := by
    refine ⟨.idle rfl hwt rfl ?_,fun _ b hb => ?_,fun _ => ha.writable,fun b hb => ?_⟩
    · rw [hmt]
      simp [f,g,ha.count]
      omega
    · rw [hct.att]
      split
      next => rfl
      next hn =>
        have hb' : b = w.data := by
          rcases List.mem_cons.mp (hmt ▸ hb) with hb | hb
          · exact hb
          · exact absurd hb hn
        refine (hcv.att b).trans ?_
        rw [if_pos (List.mem_singleton.mpr hb')]
    · rw [hmt] at hb
      rw [hrep,hret,List.count_eq_one_of_mem hnodup hb]
      exact ha.tally (hm ▸ hb)
  have hput : Apart v (v.putChrc g) g.address := apart_putChrc hx
  have hapart : Apart c t f.address := ((ha.apart.trans hcv.apart).trans hput).trans hct.apart
  have hun : ∀ b ∉ t.notifyList, t.reports b = t.returns b := by
    intro b hb
    rw [hlist] at hb
    have hz : (w.data :: ch.regNotifyQueue).count b = 0 := by
      refine List.count_eq_zero_of_not_mem fun hmem => hb ?_
      exact (mem_members.mp (hm ▸ hmem)).1
    rw [hrep,hret,hz]
    exact h.unlisted b hb
  have hsettles : Settles c t f [w.data] :=
    ⟨hct.cells,hapart,hct.chrc,hproper,hct.allocated.trans hcv.allocated⟩
  obtain ⟨u,hu,ho⟩ := finish h hsettles hun hret
  refine ⟨u,f,?_,ho,⟨rfl,rfl,rfl,rfl⟩⟩
  have hcb : ({ c with writes := c.writes.erase w } : Client).enableCccCallback w.data opcode pdu
      attId = .ok t := by
    have hd : ({ c with writes := c.writes.erase w } : Client).Reads w.data d ch :=
      ⟨ha.reads.data,ha.reads.chrc⟩
    have hv' : (({ c with writes := c.writes.erase w } : Client).putChrc
        (cleared ch)).completeNotifyRequest w.data = .ok v := hv
    have hvx : v.chrc ch.address = .ok { cleared ch with notifyCount := ch.notifyCount + 1 } :=
      Client.chrc_ok hx
    simp only [Client.enableCccCallback,hd.data_ok,hd.chrc_ok,ok_bind,
      if_neg ha.guard,if_neg hop]
    rw [show ({ ch with cccWriteId := 0 } : NotifyChrc) = cleared ch from rfl,hv',ok_bind,hvx,ok_bind]
    exact ht
  simp only [Client.answer,he,if_true,hcb,ok_bind]
  exact hu

theorem answer_spec (opcode : UInt8) (pdu : List UInt8) (h : Inv c) (hw : w ∈ c.writes) (hid : attId ≠ 0) :
    ∃ t ch f, c.answer w opcode pdu attId = .ok t ∧ Outcome c t f ∧
      c.chrcAt f.address = some ch ∧ Alike ch f ∧ c.home w.data = some f.address ∧ Pending ch w ∧
      (f.notifyCount ≠ 0 → w.enable = true ∧ opcode ≠ opErrorRsp) := by
  obtain ⟨d,ch,ha⟩ := answered_of h hw
  have hat := ha.reads.at
  have hhome := ha.reads.home
  cases he : w.enable with
  | false =>
    obtain ⟨t,f,ht,ho,hf,hfn⟩ := disable_answer h hw ha he
    exact ⟨t,ch,f,ht,ho,hf.address ▸ hat,hf,hf.address ▸ hhome,ha.pending,fun hn => absurd hfn hn⟩
  | true =>
    by_cases hop : opcode = opErrorRsp
    · obtain ⟨t,f,ht,ho,hf,hfn⟩ := enable_refused h hw ha he hid hop
      exact ⟨t,ch,f,ht,ho,hf.address ▸ hat,hf,hf.address ▸ hhome,ha.pending,
        fun hn => absurd hfn hn⟩
    · obtain ⟨t,f,ht,ho,hf⟩ := enable_accepted h hw ha he hop
      exact ⟨t,ch,f,ht,ho,hf.address ▸ hat,hf,hf.address ▸ hhome,ha.pending,fun _ => ⟨rfl,hop⟩⟩

end Minipro.GattNotify
