import Minipro.Bluez.AttributeServer
import Minipro.Bluez.DiscoveryRange

namespace Minipro.GattHelpers
open Att ByteOrder Transition Records GattClient Sweep
variable {A : Type}

theorem discoveryOpComplete_zero (op : Request) (success : Bool) :
    discoveryOpComplete op success 0 = .complete op success 0 := by
  simp [discoveryOpComplete,errorAttributeNotFound]

namespace Procedure
variable {p : Procedure} {op op' : Request} {opcode : UInt8} {pdu : List UInt8} {s t : Discovery}
  {r : Reply} {ls : List Reply}

-- Had the follow-up request been sent, the procedure would go on.
def Refuses (p : Procedure) (s : Discovery) (r : Reply) : Prop :=
  r.sent = false ∧ ∃ op, p.machine.step s { r with sent := true } = some (.awaiting op)

def Cut (p : Procedure) (s : Discovery) (ls : List Reply) : Prop :=
  ∃ front r t, ls = front ++ [r] ∧ p.machine.run s front = some t ∧ p.Refuses t r

theorem advance_refused {cur : Result} {handle : UInt16}
    (h : p.advance op cur handle true = .awaiting op') :
    p.advance op cur handle false = .complete op' p.refused 0 := by
  obtain ⟨hs,hm,rfl⟩ := advance_awaiting h
  simp only [advance,if_neg (UInt16.not_lt.mpr hs),if_pos hm]
  exact discoveryOpComplete_zero _ _

theorem respond_refused (h : p.respond op opcode pdu true = .awaiting op') :
    p.respond op opcode pdu false = .complete op' p.refused 0 := by
  simp only [respond] at h ⊢
  split at h
  · exact absurd h discoveryOpComplete_ne
  next he =>
    rw [if_neg he]
    split at h
    · exact absurd h discoveryOpComplete_ne
    next hr =>
      rw [if_neg hr]
      cases hn : p.dataLength pdu with
      | none =>
        rw [hn] at h
        exact absurd h discoveryOpComplete_ne
      | some n =>
        rw [hn] at h
        exact advance_refused h

theorem Refuses.step (h : p.Refuses s r) :
    ∃ op, p.machine.step s r = some (.complete op p.refused 0) := by
  obtain ⟨b,answer,sent⟩ := r
  obtain ⟨rfl : sent = false,op',hs⟩ := h
  cases s with
  | complete op success ecode => cases hs
  | awaiting op =>
    obtain ⟨d,hd,hr⟩ := Option.map_eq_some_iff.mp hs
    exact ⟨op',Option.map_eq_some_iff.mpr ⟨d,hd,respond_refused hr⟩⟩

theorem Cut.complete (h : p.Cut s ls) (hr : p.machine.run s ls = some t) :
    ∃ op, t = .complete op p.refused 0 := by
  obtain ⟨front,r,u,rfl,hu,hc⟩ := h
  obtain ⟨op,hs⟩ := hc.step
  rw [Machine.run_append,hu,Option.bind_some,Machine.run_cons,hs] at hr
  exact ⟨op,(Option.some.inj hr).symm⟩

theorem Cut.unsent (h : p.Cut s ls) : ∃ r ∈ ls, r.sent = false := by
  obtain ⟨front,r,u,rfl,_,hr,_⟩ := h
  exact ⟨r,by simp,hr⟩

theorem Cut.success {success : Bool} {ecode : UInt8} (h : p.Cut s ls)
    (hr : p.machine.run s ls = some (.complete op success ecode)) : success = p.refused := by
  obtain ⟨op',he⟩ := h.complete hr
  exact (Discovery.complete.inj he).2.1

end Procedure

namespace Listing
variable (ℓ : Listing A) (items : List A) (start last : UInt16) (uuid : Option Uuid)

inductive Verdict (found : List A) (cut : Prop) : Bool → UInt8 → Prop
  | exhausted {success : Bool} (hf : found = ℓ.inRange start last items)
      (hb : ∀ x ∈ found, ℓ.last x < last) (hs : success ↔ found ≠ []) :
      Verdict found cut success errorAttributeNotFound
  | reached (hf : found = ℓ.inRange start last items) (hb : ∃ x ∈ found, ¬ ℓ.last x < last) :
      Verdict found cut ℓ.procedure.reached 0
  | refused (hf : found <+: ℓ.inRange start last items) (hn : found ≠ []) (hc : cut) :
      Verdict found cut ℓ.procedure.refused 0

structure Progress (op : Request) (found : List A) : Prop where
  covers : ℓ.extent.Covers items start.toNat last.toNat found op.startHandle.toNat
  holds : paging.Rows op.results (found.map ℓ.row)
  opcodes : ∀ r ∈ op.results, r.opcode = ℓ.procedure.rsp
  stop : op.endHandle = last
  uuid : op.uuid = uuid
  before : ∀ x ∈ found, ℓ.last x < last

structure Outcome (op : Request) (success : Bool) (ecode : UInt8) (cut : Prop) (found : List A) :
    Prop where
  holds : paging.Rows op.results ((found.map (ℓ.report last)).map ℓ.row)
  opcodes : ∀ r ∈ op.results, r.opcode = ℓ.procedure.rsp
  stop : op.endHandle = last
  uuid : op.uuid = uuid
  verdict : ℓ.Verdict items start last found cut success ecode

variable {ℓ items start last uuid} {op op' : Request} {found ps rs : List A} {x : A} {n : Nat}
  {r : Reply} {t : Discovery} {ls : List Reply}

theorem lt_max {handle : UInt16} (h : handle < last) : handle ≠ 0xffff := by
  rintro rfl
  have h1 := UInt16.lt_iff_toNat_lt.mp h
  have h2 := last.toNat_lt
  have h3 : (0xffff : UInt16).toNat = 65535 := rfl
  omega

theorem Lawful.report_before (hℓ : ℓ.Lawful) (h : ∀ x ∈ found, ℓ.last x < last) :
    found.map (ℓ.report last) = found := by
  refine (List.map_congr_left fun x hx => ?_).trans (List.map_id found)
  exact hℓ.unclipped last x fun hc => lt_max (h x hx) hc.2.1

theorem Outcome.mono {success : Bool} {ecode : UInt8} {cut cut' : Prop}
    (h : ℓ.Outcome items start last uuid op success ecode cut found) (hc : cut → cut') :
    ℓ.Outcome items start last uuid op success ecode cut' found := by
  obtain ⟨hholds,hops,hstop,huuid,hv⟩ := h
  refine ⟨hholds,hops,hstop,huuid,?_⟩
  cases hv with
  | exhausted hf hb hs => exact .exhausted hf hb hs
  | reached hf hb => exact .reached hf hb
  | refused hf hn h => exact .refused hf hn (hc h)

theorem Progress.begins : ℓ.Progress items start last uuid
    { startHandle := start, endHandle := last, uuid := uuid } [] where
  covers := Extent.covers_start items start.toNat last.toNat
  holds := .nil
  opcodes := by simp
  stop := rfl
  uuid := rfl
  before := by simp

theorem request_range (ℓ : Listing A) (op : Request) (hs : op.endHandle = last) {a b : UInt16}
    (hq : ℓ.procedure.request op = putLe16 a ++ putLe16 b ++ ℓ.procedure.sought) :
    a = op.startHandle ∧ b = last := by
  rw [Procedure.request,hs] at hq
  have h1 := List.append_inj_left hq (by simp)
  have h2 := List.append_inj' h1 (by simp)
  exact ⟨(putLe16_injective h2.1).symm,(putLe16_injective h2.2).symm⟩

theorem holds_page {x : A} (hn : ∀ y ∈ ps ++ [x], (ℓ.row y).length = n) (hp : 0 < n) :
    paging.Holds ⟨ℓ.procedure.rsp,((ps ++ [x]).map ℓ.row).flatten,n⟩ ((ps ++ [x]).map ℓ.row) where
  flat := rfl
  wide := row_lengths hn
  positive := hp
  any := by simp

theorem last_handle (hℓ : ℓ.Lawful) (hn : ∀ y ∈ ps ++ [x], (ℓ.row y).length = n) :
    let pdu := ℓ.lead n ++ ((ps ++ [x]).map ℓ.row).flatten
    le16At pdu (pdu.length - n + ℓ.procedure.handleAt) = ℓ.last x := by
  intro pdu
  have hx : (ℓ.row x).length = n := hn x (by simp)
  have hs : pdu = (ℓ.lead n ++ (ps.map ℓ.row).flatten) ++ ℓ.row x := by simp [pdu]
  have hl : pdu.length - n = (ℓ.lead n ++ (ps.map ℓ.row).flatten).length := by
    rw [hs,List.length_append,hx]
    omega
  rw [hl,hs,le16At_append,hℓ.handle]

theorem clip_rows (hℓ : ℓ.Lawful) (hn : ∀ y ∈ ps ++ [x], (ℓ.row y).length = n)
    (hc : ℓ.procedure.clips) (hx : ℓ.last x = 0xffff) (stop : UInt16) :
    (Result.clip stop ⟨ℓ.procedure.rsp,((ps ++ [x]).map ℓ.row).flatten,n⟩).pdu =
      ((ps ++ [ℓ.report stop x]).map ℓ.row).flatten := by
  have hr : (ℓ.row x).length = n := hn x (by simp)
  have hs : ((ps ++ [x]).map ℓ.row).flatten = (ps.map ℓ.row).flatten ++ ℓ.row x := by simp
  have hl : ((ps ++ [x]).map ℓ.row).flatten.length - n = (ps.map ℓ.row).flatten.length := by
    rw [hs,List.length_append,hr]
    omega
  have ht : ((ps ++ [x]).map ℓ.row).flatten.take ((ps.map ℓ.row).flatten.length + 2) =
      (ps.map ℓ.row).flatten ++ (ℓ.row x).take 2 := by
    rw [hs,List.take_length_add_append]
  have hd : ((ps ++ [x]).map ℓ.row).flatten.drop ((ps.map ℓ.row).flatten.length + 4) =
      (ℓ.row x).drop 4 := by
    rw [hs,List.drop_length_add_append]
  simp only [Result.clip,hl,ht,hd]
  rw [List.map_append,List.flatten_append,List.map_singleton,List.flatten_singleton,
    ← hℓ.clipped stop x hc hx]
  simp only [List.append_assoc]

theorem reported_page (hℓ : ℓ.Lawful) (hn : ∀ y ∈ ps ++ [x], (ℓ.row y).length = n) (hp : 0 < n)
    (hb : ∀ y ∈ ps, ℓ.last y < last) {cur cur' : Result}
    (hcur : cur = ⟨ℓ.procedure.rsp,((ps ++ [x]).map ℓ.row).flatten,n⟩)
    (hcur' : cur' = if ℓ.procedure.clips ∧ ℓ.last x = 0xffff ∧ ℓ.last x ≠ last then
      cur.clip last else cur) :
    paging.Holds cur' (((ps ++ [x]).map (ℓ.report last)).map ℓ.row) ∧
      cur'.opcode = ℓ.procedure.rsp := by
  have hm : (ps ++ [x]).map (ℓ.report last) = ps ++ [ℓ.report last x] := by
    rw [List.map_append,hℓ.report_before hb,List.map_singleton]
  subst hcur
  split at hcur'
  · next hc =>
    subst hcur'
    have hn' : ∀ y ∈ ps ++ [ℓ.report last x], (ℓ.row y).length = n := by
      intro y hy
      rcases List.mem_append.mp hy with hy | hy
      · exact hn y (by simp [hy])
      · rw [List.mem_singleton.mp hy,hℓ.reported]
        exact hn x (by simp)
    have hpage := holds_page hn' hp
    rw [hm]
    refine ⟨⟨?_,hpage.wide,hp,hpage.any⟩,rfl⟩
    exact clip_rows hℓ hn hc.1 hc.2.1 last
  · next hc =>
    subst hcur'
    rw [hm,hℓ.unclipped last x hc]
    exact ⟨holds_page hn hp,rfl⟩

theorem Progress.answered (hℓ : ℓ.Lawful) (hl : ℓ.Laid items)
    (h : ℓ.Progress items start last uuid op found)
    (hw : ℓ.inRange op.startHandle last items = ps ++ x :: rs)
    (hn : ∀ y ∈ ps ++ [x], (ℓ.row y).length = n) :
    let d := ℓ.procedure.respond op ℓ.procedure.rsp
      (ℓ.lead n ++ ((ps ++ [x]).map ℓ.row).flatten) r.sent
    (∃ op', d = .awaiting op' ∧ ℓ.Progress items start last uuid op' (found ++ (ps ++ [x]))) ∨
    ∃ op' success ecode, d = .complete op' success ecode ∧
      ℓ.Outcome items start last uuid op' success ecode (r.sent = false ∧ ∃ op'',
        ℓ.procedure.respond op ℓ.procedure.rsp (ℓ.lead n ++ ((ps ++ [x]).map ℓ.row).flatten) true =
          .awaiting op'') (found ++ (ps ++ [x])) := by
  have hpos : 0 < n := by
    have h1 := hℓ.fits x
    rw [hn x (by simp)] at h1
    omega
  have hlen := hℓ.length n (ps ++ [x]) (by simp) hn
  have hlast := last_handle hℓ hn
  have hcov := h.covers.advance hl hw
  have hmem := Extent.mem_within.mp (by simp [hw] : x ∈ ℓ.inRange op.startHandle last items)
  have hlo : op.startHandle ≤ ℓ.last x := by
    rw [UInt16.le_iff_toNat_le]
    exact hmem.2.1.trans (hl.proper x hmem.1)
  have hps : ∀ y ∈ ps, ℓ.last y < last := by
    intro y hy
    obtain ⟨qs,zs,hq⟩ := List.append_of_mem hy
    have hw' : ℓ.inRange op.startHandle last items = qs ++ y :: (zs ++ x :: rs) := by
      rw [hw,hq]
      simp
    exact UInt16.lt_iff_toNat_lt.mpr (hl.more hw' (y := x) (by simp))
  have hpage : paging.Holds ⟨ℓ.procedure.rsp,((ps ++ [x]).map ℓ.row).flatten,n⟩
      ((ps ++ [x]).map ℓ.row) := holds_page hn hpos
  have hdrop : (ℓ.lead n ++ ((ps ++ [x]).map ℓ.row).flatten).drop ℓ.procedure.header =
      ((ps ++ [x]).map ℓ.row).flatten := List.drop_left' (hℓ.header n)
  intro d
  have hresp (sent : Bool) : ℓ.procedure.respond op ℓ.procedure.rsp
      (ℓ.lead n ++ ((ps ++ [x]).map ℓ.row).flatten) sent = ℓ.procedure.advance op
        ⟨ℓ.procedure.rsp,((ps ++ [x]).map ℓ.row).flatten,n⟩ (ℓ.last x) sent := by
    rw [respond_list rfl hℓ.succeeds hlen hlast sent,hdrop]
  have hd : d = ℓ.procedure.advance op _ (ℓ.last x) r.sent := hresp r.sent
  rw [hd,Procedure.advance,if_neg (UInt16.not_lt.mpr hlo),h.stop]
  have hop : ∀ c ∈ op.results ++ [(⟨ℓ.procedure.rsp,((ps ++ [x]).map ℓ.row).flatten,n⟩ : Result)],
      c.opcode = ℓ.procedure.rsp := by
    simpa [or_imp,forall_and] using h.opcodes
  rcases lt_or_ge (ℓ.last x).toNat last.toNat with hlt | hge
  · have hlt' := UInt16.lt_iff_toNat_lt.mpr hlt
    have hb : ∀ y ∈ found ++ (ps ++ [x]), ℓ.last y < last := by
      intro y hy
      simp only [List.mem_append,List.mem_singleton] at hy
      rcases hy with hy | hy | rfl
      · exact h.before y hy
      · exact hps y hy
      · exact hlt'
    have hrows := h.holds.concat hpage
    rw [← List.map_append] at hrows
    have hmore := hℓ.before _ _ hlt'
    rw [if_pos hmore]
    rcases Bool.eq_false_or_eq_true r.sent with hs | hs
    · rw [if_pos hs]
      refine .inl ⟨_,rfl,⟨?_,hrows,hop,h.stop,h.uuid,hb⟩⟩
      change ℓ.extent.Covers _ _ _ _ (ℓ.last x + 1).toNat
      rw [succ_toNat hlt']
      exact hcov
    · rw [if_neg (by simp [hs]),discoveryOpComplete_zero]
      refine .inr ⟨_,_,_,rfl,⟨?_,hop,h.stop,h.uuid,?_⟩⟩
      · rw [hℓ.report_before hb]
        exact hrows
      · have hf : found ++ (ps ++ [x]) <+: ℓ.inRange start last items := ⟨_,hcov.2⟩
        have hgo := (hresp true).trans (advance_more hlo (h.stop.symm ▸ hmore))
        exact .refused hf (by simp) ⟨hs,_,hgo⟩
  · have hnl : ¬ ℓ.last x < last := fun h => absurd (UInt16.lt_iff_toNat_lt.mp h) (by omega)
    have hrs : rs = [] := by
      refine List.eq_nil_iff_forall_not_mem.mpr fun y hy => ?_
      exact absurd (hl.more hw hy) (by change ¬ (ℓ.last x).toNat < _; omega)
    have hfirst : ℓ.first x ≤ last := UInt16.le_iff_toNat_le.mpr hmem.2.2
    rw [hℓ.stops x last hfirst hnl,if_neg Bool.false_ne_true]
    obtain ⟨hpage',hop'⟩ := reported_page hℓ hn hpos hps rfl rfl
    refine .inr ⟨_,_,_,discoveryOpComplete_zero _ _,⟨?_,?_,h.stop,h.uuid,?_⟩⟩
    · have hrows := h.holds.concat hpage'
      rw [← hℓ.report_before h.before,← List.map_append,← List.map_append] at hrows
      exact hrows
    · intro c hc
      rcases List.mem_append.mp hc with hc | hc
      · exact h.opcodes c hc
      · rw [List.mem_singleton.mp hc]
        exact hop'
    · have hf : found ++ (ps ++ [x]) = ℓ.inRange start last items := by
        have hc := hcov.found_all (hrs ▸ hl.advance hw)
        exact hc
      exact .reached hf ⟨x,by simp,hnl⟩

theorem Progress.notFound (hℓ : ℓ.Lawful) (h : ℓ.Progress items start last uuid op found)
    (hw : ℓ.inRange op.startHandle last items = []) {pdu : List UInt8}
    (hp : processError pdu = errorAttributeNotFound) (sent : Bool) (cut : Prop) :
    ∃ success ecode, ℓ.procedure.respond op opErrorRsp pdu sent = .complete op success ecode ∧
      ℓ.Outcome items start last uuid op success ecode cut found := by
  have hr : op.results ≠ [] ↔ found ≠ [] := (h.holds.nil_iff.trans List.map_eq_nil_iff).not
  have he : ℓ.procedure.respond op opErrorRsp pdu sent =
      discoveryOpComplete op false errorAttributeNotFound := by simp [Procedure.respond,hp]
  refine ⟨_,_,he,⟨?_,h.opcodes,h.stop,h.uuid,?_⟩⟩
  · rw [hℓ.report_before h.before]
    exact h.holds
  · exact .exhausted (h.covers.found_all hw) h.before (by simp [hr])

theorem Progress.step (hℓ : ℓ.Lawful) (hl : ℓ.Laid items)
    (h : ℓ.Progress items start last uuid op found)
    (ha : ℓ.compliant items (.awaiting op) r) :
    (∃ op' more, ℓ.procedure.machine.step (.awaiting op) r = some (.awaiting op') ∧ more ≠ [] ∧
      ℓ.Progress items start last uuid op' (found ++ more)) ∨
    ∃ op' success ecode more, ℓ.procedure.machine.step (.awaiting op) r =
      some (.complete op' success ecode) ∧
        ℓ.Outcome items start last uuid op' success ecode (ℓ.procedure.Refuses (.awaiting op) r)
          (found ++ more) := by
  obtain ⟨b,answer,sent⟩ := r
  cases ha with
  | @notFound a z hq hw =>
    obtain ⟨rfl,rfl⟩ := request_range ℓ op h.stop hq
    obtain ⟨d,hd,ho,hp⟩ := deliver_error (show errorAttributeNotFound ≠ errorInsufficientEncryption by
      decide) (by decide) b ℓ.procedure.req (low op.startHandle) (high op.startHandle)
    have he : processError d.pdu = errorAttributeNotFound := by
      rw [hp]
      rfl
    obtain ⟨success,ecode,hr,hout⟩ := h.notFound hℓ hw he sent (ℓ.procedure.Refuses (.awaiting op)
      ⟨b,.received (opErrorRsp :: ℓ.procedure.req :: putLe16 op.startHandle ++
        [errorAttributeNotFound]),sent⟩)
    refine .inr ⟨op,success,ecode,[],?_,by simpa using hout⟩
    simp only [Procedure.machine]
    change (deliver b ℓ.procedure.req (.received [opErrorRsp,ℓ.procedure.req,low op.startHandle,
      high op.startHandle,errorAttributeNotFound])).map _ = _
    rw [hd,Option.map_some,ho,hr]
  | @found a z ps x rs n hq hw hn =>
    obtain ⟨rfl,rfl⟩ := request_range ℓ op h.stop hq
    obtain ⟨d,hd,ho,hp⟩ := deliver_rsp hℓ.response hℓ.succeeds hℓ.pairs hℓ.asks b
      (ℓ.lead n ++ ((ps ++ [x]).map ℓ.row).flatten)
    have hs (sent : Bool) : ℓ.procedure.machine.step (.awaiting op)
        ⟨b,.received (ℓ.procedure.rsp :: (ℓ.lead n ++ ((ps ++ [x]).map ℓ.row).flatten)),sent⟩ =
        some (ℓ.procedure.respond op ℓ.procedure.rsp
          (ℓ.lead n ++ ((ps ++ [x]).map ℓ.row).flatten) sent) := by
      simp only [Procedure.machine,hd,Option.map_some,ho,hp]
    rw [hs sent]
    rcases h.answered hℓ hl hw hn (r := ⟨b,.sendFailed,sent⟩) with ⟨op',he,hp'⟩ |
      ⟨op',success,ecode,he,hout⟩
    · exact .inl ⟨op',_,congrArg some he,by simp,hp'⟩
    · refine .inr ⟨op',success,ecode,_,congrArg some he,hout.mono ?_⟩
      rintro ⟨hn,op'',hgo⟩
      exact ⟨hn,op'',(hs true).trans (congrArg some hgo)⟩

theorem compliant_run (hℓ : ℓ.Lawful) (hl : ℓ.Laid items)
    (ha : ℓ.procedure.machine.Along (ℓ.compliant items) (begin start last uuid) ls)
    (hr : ℓ.procedure.machine.run (begin start last uuid) ls = some t) :
    (∃ op found, t = .awaiting op ∧ ℓ.Progress items start last uuid op found ∧
      ls.length ≤ found.length) ∨
    ∃ op success ecode found, t = .complete op success ecode ∧
      ℓ.Outcome items start last uuid op success ecode
        (ℓ.procedure.Cut (begin start last uuid) ls) found ∧ ls.length ≤ found.length + 1 := by
  induction ls using List.reverseRecOn generalizing t with
  | nil =>
    cases hr
    exact .inl ⟨_,[],rfl,.begins,le_rfl⟩
  | append_singleton ls r ih =>
    obtain ⟨u,hu,ht⟩ := ℓ.procedure.machine.run_concat hr
    obtain ⟨hls,hc⟩ := (ℓ.procedure.machine.along_concat _ hu r).mp ha
    rcases ih hls hu with ⟨op,found,rfl,hp,hlen⟩ | ⟨op,success,ecode,found,rfl,_⟩
    · rcases hp.step hℓ hl hc with ⟨op',more,hs,hm,hp'⟩ | ⟨op',success,ecode,more,hs,hout⟩
      · obtain rfl := Option.some.inj (hs.symm.trans ht)
        refine .inl ⟨op',_,rfl,hp',?_⟩
        have hpos := List.length_pos_iff.mpr hm
        rw [List.length_append,List.length_append,List.length_singleton]
        omega
      · obtain rfl := Option.some.inj (hs.symm.trans ht)
        refine .inr ⟨op',success,ecode,_,rfl,hout.mono fun h => ⟨ls,r,_,rfl,hu,h⟩,?_⟩
        rw [List.length_append,List.length_append,List.length_singleton]
        omega
    · cases ht

theorem compliant_found (ℓ : Listing A) (items : List A) (op : Request) (ps : List A) (x : A)
    (rs : List A) (n : Nat) (b : Bearer) {bytes : List UInt8} (sent : Bool)
    (hw : ℓ.inRange op.startHandle op.endHandle items = ps ++ x :: rs)
    (hn : ∀ y ∈ ps ++ [x], (ℓ.row y).length = n)
    (hb : bytes = ℓ.procedure.rsp :: (ℓ.lead n ++ ((ps ++ [x]).map ℓ.row).flatten)) :
    ℓ.compliant items (.awaiting op) ⟨b,.received bytes,sent⟩ := by
  subst hb
  exact .found ps x rs n rfl hw hn

theorem compliant_reply (ℓ : Listing A) (items : List A) (op : Request) :
    ∃ r, ℓ.accepting items (.awaiting op) r := by
  rcases hw : ℓ.inRange op.startHandle op.endHandle items with _ | ⟨x,rs⟩
  · exact ⟨⟨⟨0,false,false⟩,_,true⟩,.notFound rfl hw,rfl⟩
  · exact ⟨⟨⟨0,false,false⟩,_,true⟩,compliant_found ℓ items op [] x rs
      (ℓ.row x).length _ true hw (by simp) rfl,rfl⟩

structure Reported (window found : List A) (success : Bool) (ls : List Reply) (cut : Prop) :
    Prop where
  partly : found <+: window
  wholly : success → found = window ∧ window ≠ []
  surely : (∀ r ∈ ls, r.sent) → found = window ∧ (success ↔ window ≠ [])
  failed : cut → success = false

namespace Outcome
variable {success : Bool} {ecode : UInt8} {cut : Prop}
  (h : ℓ.Outcome items start last uuid op success ecode cut found)
include h

theorem partly : found <+: ℓ.inRange start last items := by
  cases h.verdict with
  | exhausted hf _ _ => rw [hf]
  | reached hf _ => rw [hf]
  | refused hf _ _ => exact hf

theorem reported (hreach : ℓ.procedure.reached) (hrefuse : ℓ.procedure.refused = false)
    (hs : cut → ∃ r ∈ ls, r.sent = false) (hv : cut → success = ℓ.procedure.refused) :
    Reported (ℓ.inRange start last items) found success ls cut := by
  refine ⟨h.partly,?_,?_,fun hc => (hv hc).trans hrefuse⟩
  · intro hsucc
    cases h.verdict with
    | exhausted hf _ hiff => exact ⟨hf,hf ▸ hiff.mp hsucc⟩
    | reached hf hb =>
      obtain ⟨x,hx,_⟩ := hb
      exact ⟨hf,hf ▸ List.ne_nil_of_mem hx⟩
    | refused _ _ _ => simp [hrefuse] at hsucc
  · intro hall
    cases h.verdict with
    | exhausted hf _ hiff => exact ⟨hf,hf ▸ hiff⟩
    | reached hf hb =>
      obtain ⟨x,hx,_⟩ := hb
      exact ⟨hf,by simpa [hreach] using hf ▸ List.ne_nil_of_mem hx⟩
    | refused _ _ hcut =>
      obtain ⟨r,hr,hf⟩ := hs hcut
      simp [hall r hr] at hf

theorem success_iff (hreach : ℓ.procedure.reached) (hrefuse : ℓ.procedure.refused) :
    success ↔ found ≠ [] := by
  cases h.verdict with
  | exhausted _ _ hiff => exact hiff
  | reached _ hb =>
    obtain ⟨x,hx,_⟩ := hb
    simpa [hreach] using List.ne_nil_of_mem hx
  | refused _ hn _ => simpa [hrefuse] using hn

theorem whole (hs : cut → ∃ r ∈ ls, r.sent = false) (hall : ∀ r ∈ ls, r.sent) :
    found = ℓ.inRange start last items := by
  cases h.verdict with
  | exhausted hf _ _ => exact hf
  | reached hf _ => exact hf
  | refused _ _ hcut =>
    obtain ⟨r,hr,hf⟩ := hs hcut
    simp [hall r hr] at hf

end Outcome

theorem sweep_ends (hℓ : ℓ.Lawful) (hl : ℓ.Laid items)
    (ha : ℓ.procedure.machine.Along (ℓ.compliant items) (begin start last uuid) ls)
    (hr : ℓ.procedure.machine.run (begin start last uuid) ls = some t) :
    ls.length ≤ (ℓ.inRange start last items).length + 1 ∧
      ((∃ op success ecode found, t = .complete op success ecode ∧
        ℓ.Outcome items start last uuid op success ecode
          (ℓ.procedure.Cut (begin start last uuid) ls) found) ∨
      ∃ r u, ℓ.accepting items t r ∧ ℓ.procedure.machine.step t r = some u) := by
  rcases compliant_run hℓ hl ha hr with ⟨op,found,rfl,hp,hlen⟩ |
    ⟨op,success,ecode,found,rfl,hout,hlen⟩
  · have hf := hp.covers.length_le
    refine ⟨?_,.inr ?_⟩
    · simp only [inRange]
      omega
    · obtain ⟨r,hr⟩ := compliant_reply ℓ items op
      rcases hp.step hℓ hl hr.1 with ⟨_,_,h,_⟩ | ⟨_,_,_,_,h,_⟩
      · exact ⟨r,_,hr,h⟩
      · exact ⟨r,_,hr,h⟩
  · have hle := hout.partly.length_le
    exact ⟨by omega,.inl ⟨op,success,ecode,found,rfl,hout⟩⟩

end Listing

open Listing

theorem uuidAt_suffix {front suffix tail : List UInt8} {n : Nat} (h : suffix.length = n) :
    uuidAt (front ++ suffix ++ tail) front.length n =
      (Uuid.convertUuidLe suffix).getD ⟨List.replicate 16 0,rfl⟩ := by
  rw [uuidAt,List.append_assoc,List.drop_left' rfl,List.take_left' h]

theorem uuidAt_toLe {front tail : List UInt8} {n k : Nat} (u : Uuid) (hk : front.length = k)
    (h : u.toLe.length = n) : uuidAt (front ++ u.toLe ++ tail) k n = u.toUuid128 := by
  rw [← hk,uuidAt_suffix h,Uuid.convertUuidLe_toLe,Option.getD_some]

def Group.found (stop : UInt16) (g : Group) : FoundService :=
  ⟨g.first,clippedTo stop g.last,g.uuid.toUuid128⟩

def Characteristic.found (stop : UInt16) : List Characteristic → List FoundCharacteristic
  | [] => []
  | c :: cs => ⟨c.handle,(cs.head?.map fun d => d.handle - 1).getD stop,c.value,c.properties,
      c.uuid.toUuid128⟩ :: Characteristic.found stop cs

def Descriptor.found (d : Descriptor) : FoundDescriptor := ⟨d.handle,d.uuid.toUuid128⟩

variable {ℓ : Listing A} {items found : List A} {op : Request} {start last : UInt16}
  {uuid : Option Uuid} {success : Bool} {ecode : UInt8} {cut : Prop}

theorem elementCount_rows {results : List Result} {rows : List (List UInt8)}
    (h : paging.Rows results rows) : elementCount results = rows.length := h.count

theorem collect_found {B : Type} (value : List UInt8 → List (List UInt8) → B)
    (h : ℓ.Outcome items start last uuid op success ecode cut found) {next : Iter → Option (B × Iter)}
    (hn : ∀ p qs pos row rows, paging.At ⟨p :: qs,pos⟩ (row :: rows) →
      p.opcode = ℓ.procedure.rsp → (∀ q ∈ p :: qs, ∃ x, (ℓ.row x).length = q.dataLen) →
        next ⟨p :: qs,pos⟩ = some (value row rows,paging.advance ⟨p :: qs,pos⟩))
    (he : next ⟨[],0⟩ = none) :
    Paging.collect next (elementCount op.results) ⟨op.results,0⟩ =
      Paging.readAll value ((found.map (ℓ.report last)).map ℓ.row) := by
  refine Paging.At.collect (fun p => p.opcode = ℓ.procedure.rsp ∧
    ∃ x, (ℓ.row x).length = p.dataLen) ?_ he h.holds.start ?_ (elementCount_rows h.holds).ge
  · intro c row rows hat hok
    obtain ⟨pages,pos⟩ := c
    obtain ⟨p,qs,_,rfl,_,_⟩ := hat.view
    exact hn p qs pos row rows hat (hok p List.mem_cons_self).1 fun q hq => (hok q hq).2
  · intro p hp
    obtain ⟨row,hr,hw⟩ := h.holds.widths p hp
    obtain ⟨x,_,rfl⟩ := List.mem_map.mp hr
    exact ⟨h.opcodes p hp,x,hw⟩

theorem uuidAt_left {row tail : List UInt8} {k n : Nat} (h : k ≤ row.length)
    (hn : row.length = n) :
    uuidAt (row ++ tail) k (n - k) = uuidAt row k (row.length - k) := by
  subst hn
  rw [uuidAt,uuidAt,List.drop_append_of_le_length h,List.take_append_of_le_length (by simp)]

theorem uuidAt_row {front : List UInt8} {k : Nat} (u : Uuid) (hk : front.length = k) :
    uuidAt (front ++ u.toLe) k ((front ++ u.toLe).length - k) = u.toUuid128 := by
  have h : uuidAt (front ++ u.toLe ++ []) k u.toLe.length = u.toUuid128 := uuidAt_toLe u hk rfl
  rw [List.append_nil] at h
  rw [List.length_append,hk,Nat.add_sub_cancel_left]
  exact h

def serviceRow (row : List UInt8) : FoundService :=
  ⟨le16At row 0,le16At row 2,uuidAt row 4 (row.length - 4)⟩

def descriptorRow (row : List UInt8) : FoundDescriptor :=
  ⟨le16At row 0,uuidAt row 2 (row.length - 2)⟩

def characteristicRow (stop : UInt16) (row : List UInt8) (rows : List (List UInt8)) :
    FoundCharacteristic :=
  ⟨le16At row 0,(rows.head?.map fun next => le16At next 0 - 1).getD stop,le16At row 3,row.getD 2 0,
    uuidAt row 5 (row.length - 5)⟩

theorem serviceRow_group (serviceType : UInt16) (g : Group) :
    serviceRow ((groups serviceType).row g) = ⟨g.first,g.last,g.uuid.toUuid128⟩ := by
  have h2 := le16At_append (putLe16 g.first) (putLe16 g.last ++ g.uuid.toLe) 0
  rw [le16At_putLe16,← List.append_assoc] at h2
  have h0 := le16At_putLe16 g.first (putLe16 g.last ++ g.uuid.toLe)
  rw [← List.append_assoc] at h0
  have hf : (putLe16 g.first ++ putLe16 g.last).length = 4 := rfl
  exact congr (congr (congrArg FoundService.mk h0) h2) (uuidAt_row g.uuid hf)

theorem descriptorRow_information (d : Descriptor) :
    descriptorRow (information.row d) = d.found :=
  congr (congrArg FoundDescriptor.mk (le16At_putLe16 d.handle d.uuid.toLe))
    (uuidAt_row d.uuid rfl)

theorem services_found {serviceType : UInt16} {items found : List Group}
    (h : (groups serviceType).Outcome items start last uuid op success ecode cut found) :
    services op = found.map (Group.found last) := by
  rw [services,collect_found (fun row _ => serviceRow row) h ?_ rfl,Paging.readAll_map,
    List.map_map,List.map_map]
  · refine List.map_congr_left fun g _ => ?_
    exact serviceRow_group serviceType _
  · intro p qs pos row rows hat ho hx
    obtain ⟨p',qs',tail,he,hd,hw⟩ := hat.view
    obtain ⟨rfl,rfl⟩ := List.cons.inj he
    obtain ⟨g,hg⟩ := hx p List.mem_cons_self
    change row.length = p.dataLen at hw
    have hlen : 4 ≤ row.length := by
      rw [hw,← hg]
      simp only [groups,List.length_append,putLe16_length]
      omega
    change p.opcode = opReadByGrpTypeRsp at ho
    change p.pdu.drop pos = row ++ tail at hd
    simp only [iterNextService,ho,if_true,hd,serviceRow]
    rw [le16At_left (by omega),le16At_left hlen,uuidAt_left hlen hw]

theorem descriptors_found {items found : List Descriptor}
    (h : information.Outcome items start last uuid op success ecode cut found) :
    descriptors op = found.map Descriptor.found := by
  rw [descriptors,collect_found (fun row _ => descriptorRow row) h ?_ rfl,
    Paging.readAll_map,List.map_map,List.map_map]
  · exact List.map_congr_left fun d _ => descriptorRow_information d
  · intro p qs pos row rows hat ho hx
    obtain ⟨p',qs',tail,he,hd,hw⟩ := hat.view
    obtain ⟨rfl,rfl⟩ := List.cons.inj he
    obtain ⟨d,hx⟩ := hx p List.mem_cons_self
    change row.length = p.dataLen at hw
    have hlen : 2 ≤ row.length := by
      rw [hw,← hx]
      simp only [information,List.length_append,putLe16_length]
      omega
    change p.opcode = opFindInfoRsp at ho
    change p.pdu.drop pos = row ++ tail at hd
    simp only [iterNextDescriptor,ho,ne_eq,not_true_eq_false,if_false,hd,descriptorRow]
    rw [le16At_left hlen,uuidAt_left hlen hw]

theorem ranges_found {serviceType : UInt16} {u : Uuid} {items found : List HandleRange}
    (h : (ranges serviceType u).Outcome items start last (some u) op success ecode cut found) :
    services op = found.map fun r => ⟨r.first,r.last,u.toUuid128⟩ := by
  have hrow (r : HandleRange) : le16At ((ranges serviceType u).row r) 2 = r.last :=
    (ranges_lawful serviceType u).handle r
  rw [services,collect_found (fun row _ => ⟨le16At row 0,le16At row 2,u.toUuid128⟩) h ?_ rfl,
    Paging.readAll_map,List.map_map,List.map_map]
  · refine List.map_congr_left fun r _ => ?_
    have h0 : le16At ((ranges serviceType u).row r) 0 = r.first := le16At_putLe16 _ _
    change FoundService.mk (le16At ((ranges serviceType u).row r) 0)
      (le16At ((ranges serviceType u).row r) 2) _ = _
    rw [h0,hrow]
  · intro p qs pos row rows hat ho hx
    obtain ⟨p',qs',tail,he,hd,hw⟩ := hat.view
    obtain ⟨rfl,rfl⟩ := List.cons.inj he
    obtain ⟨g,hg⟩ := hx p List.mem_cons_self
    change row.length = p.dataLen at hw
    have hlen : 4 ≤ row.length := by
      rw [hw,← hg]
      exact le_rfl
    have hne : ¬ opFindByTypeValRsp = opReadByGrpTypeRsp := by decide
    change p.opcode = opFindByTypeValRsp at ho
    change p.pdu.drop pos = row ++ tail at hd
    simp only [iterNextService,ho,if_neg hne,if_true,hd,h.uuid,Option.map_some]
    rw [le16At_left (by omega),le16At_left hlen]

theorem readAll_declarations (stop : UInt16) (cs : List Characteristic) :
    Paging.readAll (characteristicRow stop) (cs.map declarations.row) =
      Characteristic.found stop cs := by
  have h0 (c : Characteristic) : le16At (declarations.row c) 0 = c.handle := by
    simp only [declarations,List.append_assoc]
    exact le16At_putLe16 c.handle _
  induction cs with
  | nil => rfl
  | cons c cs ih =>
    have h3 : le16At (declarations.row c) 3 = c.value := by
      have h := le16At_append (putLe16 c.handle ++ [c.properties]) (putLe16 c.value ++ c.uuid.toLe) 0
      rw [le16At_putLe16,← List.append_assoc] at h
      exact h
    have h5 : uuidAt (declarations.row c) 5 ((declarations.row c).length - 5) =
        c.uuid.toUuid128 := uuidAt_row c.uuid rfl
    have h2 : (declarations.row c).getD 2 0 = c.properties := rfl
    rw [List.map_cons,Paging.readAll,ih,Characteristic.found]
    simp only [characteristicRow,h0,h2,h3,h5]
    cases cs <;> simp [h0]

theorem characteristics_found {items found : List Characteristic}
    (h : declarations.Outcome items start last none op success ecode cut found) :
    characteristics op = Characteristic.found last found := by
  rw [characteristics,collect_found (characteristicRow last) h ?_ rfl]
  · have hm : found.map (declarations.report last) = found := List.map_id _
    rw [hm,readAll_declarations]
  · intro p qs pos row rows hat ho hx
    have hnext := hat.advance
    obtain ⟨p',qs',tail,he,hd,hw⟩ := hat.view
    obtain ⟨rfl,rfl⟩ := List.cons.inj he
    obtain ⟨c,hc⟩ := hx p List.mem_cons_self
    change row.length = p.dataLen at hw
    have hlen : 5 ≤ row.length := by
      rw [hw,← hc]
      simp only [declarations,List.length_append,putLe16_length,List.length_singleton]
      omega
    have hk : ¬ (p.dataLen ≠ 21 ∧ p.dataLen ≠ 7) := by
      rw [← hc]
      rcases c.uuid.toLe_length with hl | hl <;> simp [declarations,hl]
    change p.opcode = opReadByTypeRsp at ho
    change p.pdu.drop pos = row ++ tail at hd
    have hg : ¬ (p.opcode ≠ opReadByTypeRsp ∨ op.uuid ≠ none ∨ (p.dataLen ≠ 21 ∧ p.dataLen ≠ 7)) := by
      simp [ho,h.uuid,hk]
    simp only [iterNextCharacteristic,if_neg hg,hd,characteristicRow,h.stop]
    rw [le16At_left (by omega),le16At_left hlen,uuidAt_left hlen hw,
      List.getD_append row tail _ 2 (by omega)]
    have hmem : ∀ q ∈ (paging.advance ⟨p :: qs,pos⟩).pages, ∃ d : Characteristic,
        (declarations.row d).length = q.dataLen := fun q hq => hx q (Paging.mem_advance hq)
    generalize paging.advance ⟨p :: qs,pos⟩ = c at hnext hmem
    obtain ⟨pages,at_⟩ := c
    cases rows with
    | nil =>
      cases hnext.empty
      rfl
    | cons next rows =>
      obtain ⟨s,ss,rest,rfl,hs,hn⟩ := hnext.view
      change s.pdu.drop at_ = next ++ rest at hs
      have hl : 2 ≤ next.length := by
        obtain ⟨d,hd⟩ := hmem s List.mem_cons_self
        change next.length = s.dataLen at hn
        rw [hn,← hd]
        simp only [declarations,List.length_append,putLe16_length]
        omega
      simp only [hs,List.head?_cons,Option.map_some,Option.getD_some]
      rw [le16At_left hl]

variable {ls : List Reply} {t : Discovery}

theorem services_discovered {serviceType : UInt16} {items : List Group}
    (hl : (groups serviceType).Laid items)
    (ha : (groups serviceType).procedure.machine.Along ((groups serviceType).compliant items)
      (begin start last) ls)
    (hr : (groups serviceType).procedure.machine.run (begin start last) ls = some t) :
    ls.length ≤ ((groups serviceType).inRange start last items).length + 1 ∧
      ((∃ op success ecode found, t = .complete op success ecode ∧
        Reported ((groups serviceType).inRange start last items) found success ls
          ((groups serviceType).procedure.Cut (begin start last) ls) ∧
        services op = found.map (Group.found last)) ∨
      ∃ r u, (groups serviceType).accepting items t r ∧
        (groups serviceType).procedure.machine.step t r = some u) := by
  obtain ⟨hlen,⟨op,success,ecode,found,rfl,hout⟩ | hmore⟩ :=
    sweep_ends (groups_lawful serviceType) hl ha hr
  · exact ⟨hlen,.inl ⟨op,success,ecode,found,rfl,
      hout.reported rfl rfl Procedure.Cut.unsent fun hc => hc.success hr,services_found hout⟩⟩
  · exact ⟨hlen,.inr hmore⟩

theorem services_discovered_clipped :
    let access : Group := ⟨1,11,.uuid16 0x1800⟩
    let profile : Group := ⟨12,0xffff,.uuid16 0x1801⟩
    let items := [access,profile]
    let ls := [reply [0x11,6,1,0,11,0,0x00,0x18] true,reply [0x11,6,12,0,0xff,0xff,0x01,0x18] true]
    ∃ op, (groups primSvcUuid).procedure.machine.run (begin 1 0x0fff) ls =
        some (.complete op true 0) ∧
      ls.length ≤ ((groups primSvcUuid).inRange 1 0x0fff items).length + 1 ∧
      services op = [access.found 0x0fff,profile.found 0x0fff] := by
  intro access profile items ls
  have hl : (groups primSvcUuid).Laid items := ⟨by decide,by decide⟩
  have ha : (groups primSvcUuid).procedure.machine.Along ((groups primSvcUuid).compliant items)
      (begin 1 0x0fff) ls := by
    refine ⟨?_,fun t ht => ⟨?_,fun _ _ => trivial⟩⟩
    · exact compliant_found (groups primSvcUuid) items _ [] access [profile] 6 _ _ (by decide)
        (by decide) (by decide)
    · cases ht
      exact compliant_found (groups primSvcUuid) items _ [] profile [] 6 _ _ (by decide) (by decide)
        (by decide)
  obtain ⟨hlen,⟨op,success,ecode,found,he,hrep,hfound⟩ | ⟨r,u,-,hs⟩⟩ :=
    services_discovered hl ha rfl
  · obtain ⟨rfl,rfl,rfl⟩ := Discovery.complete.inj he
    refine ⟨_,rfl,hlen,?_⟩
    rw [hfound,(hrep.surely (by decide)).1]
    rfl
  · cases hs

theorem services_by_uuid_discovered {serviceType : UInt16} {u : Uuid} {items : List HandleRange}
    (hl : (ranges serviceType u).Laid items)
    (ha : (ranges serviceType u).procedure.machine.Along ((ranges serviceType u).compliant items)
      (begin start last (some u)) ls)
    (hr : (ranges serviceType u).procedure.machine.run (begin start last (some u)) ls = some t) :
    ls.length ≤ ((ranges serviceType u).inRange start last items).length + 1 ∧
      ((∃ op success ecode found, t = .complete op success ecode ∧
        found <+: (ranges serviceType u).inRange start last items ∧
        ((∀ r ∈ ls, r.sent) → found = (ranges serviceType u).inRange start last items) ∧
        (success ↔ found = (ranges serviceType u).inRange start last items ∧ found ≠ [] ∧
          (∀ r ∈ found, r.last < last) ∧
          ¬ (ranges serviceType u).procedure.Cut (begin start last (some u)) ls) ∧
        services op = found.map fun r => ⟨r.first,r.last,u.toUuid128⟩) ∨
      ∃ r u', (ranges serviceType u).accepting items t r ∧
        (ranges serviceType u).procedure.machine.step t r = some u') := by
  obtain ⟨hlen,⟨op,success,ecode,found,rfl,hout⟩ | hmore⟩ :=
    sweep_ends (ranges_lawful serviceType u) hl ha hr
  · refine ⟨hlen,.inl ⟨op,success,ecode,found,rfl,hout.partly,hout.whole Procedure.Cut.unsent,?_,
      ranges_found hout⟩⟩
    have hcut (hsucc : success) : ¬ (ranges serviceType u).procedure.Cut _ ls := fun hc =>
      Bool.false_ne_true ((hc.success hr).symm.trans hsucc)
    cases hout.verdict with
    | exhausted hf hb hiff =>
      exact ⟨fun h => ⟨hf,hiff.mp h,hb,hcut h⟩,fun h => hiff.mpr h.2.1⟩
    | reached hf hb =>
      obtain ⟨x,hx,hn⟩ := hb
      exact ⟨fun h => (Bool.false_ne_true h).elim,fun h => absurd (h.2.2.1 x hx) hn⟩
    | refused _ _ hc =>
      exact ⟨fun h => (Bool.false_ne_true h).elim,fun h => absurd hc h.2.2.2⟩
  · exact ⟨hlen,.inr hmore⟩

theorem services_by_uuid_discovered_last :
    let access : HandleRange := ⟨1,4⟩
    let service : HandleRange := ⟨5,0xffff⟩
    let ls := [reply [0x07,1,0,4,0] true,reply [0x07,5,0,0xff,0xff] true]
    ∃ op, (ranges primSvcUuid (.uuid16 0x1801)).procedure.machine.run
        (begin 1 0xffff (some (.uuid16 0x1801))) ls = some (.complete op false 0) ∧
      ls.length ≤
        ((ranges primSvcUuid (.uuid16 0x1801)).inRange 1 0xffff [access,service]).length + 1 ∧
      services op = [access,service].map fun r =>
        ⟨r.first,r.last,(Uuid.uuid16 0x1801).toUuid128⟩ := by
  intro access service ls
  have hl : (ranges primSvcUuid (.uuid16 0x1801)).Laid [access,service] := ⟨by decide,by decide⟩
  have ha : (ranges primSvcUuid (.uuid16 0x1801)).procedure.machine.Along
      ((ranges primSvcUuid (.uuid16 0x1801)).compliant [access,service])
      (begin 1 0xffff (some (.uuid16 0x1801))) ls := by
    refine ⟨?_,fun t ht => ⟨?_,fun _ _ => trivial⟩⟩
    · exact compliant_found (ranges primSvcUuid (.uuid16 0x1801)) [access,service] _ [] access
        [service] 4 _ _ (by decide) (by decide) (by decide)
    · cases ht
      exact compliant_found (ranges primSvcUuid (.uuid16 0x1801)) [access,service] _ [] service [] 4 _ _
        (by decide) (by decide) (by decide)
  obtain ⟨hlen,⟨op,success,ecode,found,he,-,hall,-,hfound⟩ | ⟨r,u,-,hs⟩⟩ :=
    services_by_uuid_discovered hl ha rfl
  · obtain ⟨rfl,rfl,rfl⟩ := Discovery.complete.inj he
    refine ⟨_,rfl,hlen,?_⟩
    rw [hfound,hall (by decide)]
    rfl
  · cases hs

theorem characteristics_discovered {items : List Characteristic} (hl : declarations.Laid items)
    (ha : declarations.procedure.machine.Along (declarations.compliant items)
      (begin start last) ls)
    (hr : declarations.procedure.machine.run (begin start last) ls = some t) :
    ls.length ≤ (declarations.inRange start last items).length + 1 ∧
      ((∃ op success ecode found, t = .complete op success ecode ∧
        Reported (declarations.inRange start last items) found success ls
          (declarations.procedure.Cut (begin start last) ls) ∧
        characteristics op = Characteristic.found last found) ∨
      ∃ r u, declarations.accepting items t r ∧
        declarations.procedure.machine.step t r = some u) := by
  obtain ⟨hlen,⟨op,success,ecode,found,rfl,hout⟩ | hmore⟩ :=
    sweep_ends declarations_lawful hl ha hr
  · exact ⟨hlen,.inl ⟨op,success,ecode,found,rfl,
      hout.reported rfl rfl Procedure.Cut.unsent fun hc => hc.success hr,
      characteristics_found hout⟩⟩
  · exact ⟨hlen,.inr hmore⟩

theorem characteristics_discovered_single :
    let name : Characteristic := ⟨2,0x0a,3,.uuid16 0x2a00⟩
    let ls := [reply [0x09,7,2,0,0x0a,3,0,0x00,0x2a] true,reply [0x01,0x08,3,0,0x0a] true]
    ∃ op, declarations.procedure.machine.run (begin 1 11) ls = some (.complete op true 0x0a) ∧
      ls.length ≤ (declarations.inRange 1 11 [name]).length + 1 ∧
      characteristics op = [⟨2,11,3,0x0a,name.uuid.toUuid128⟩] := by
  intro name ls
  have hl : declarations.Laid [name] := ⟨by decide,by decide⟩
  have ha : declarations.procedure.machine.Along (declarations.compliant [name]) (begin 1 11) ls := by
    refine ⟨?_,fun t ht => ⟨?_,fun _ _ => trivial⟩⟩
    · exact compliant_found declarations [name] _ [] name [] 7 _ _ (by decide) (by decide)
        (by decide)
    · cases ht
      exact Answers.notFound rfl (by decide)
  obtain ⟨hlen,⟨op,success,ecode,found,he,hrep,hfound⟩ | ⟨r,u,-,hs⟩⟩ :=
    characteristics_discovered hl ha rfl
  · obtain ⟨rfl,rfl,rfl⟩ := Discovery.complete.inj he
    refine ⟨_,rfl,hlen,?_⟩
    rw [hfound,(hrep.surely (by decide)).1]
    rfl
  · cases hs

theorem descriptors_discovered {items : List Descriptor} (hl : information.Laid items)
    (ha : information.procedure.machine.Along (information.compliant items) (begin start last) ls)
    (hr : information.procedure.machine.run (begin start last) ls = some t) :
    ls.length ≤ (information.inRange start last items).length + 1 ∧
      ((∃ op success ecode found, t = .complete op success ecode ∧
        found <+: information.inRange start last items ∧ (success ↔ found ≠ []) ∧
        ((∀ r ∈ ls, r.sent) → found = information.inRange start last items) ∧
        (information.procedure.Cut (begin start last) ls → success) ∧
        descriptors op = found.map Descriptor.found) ∨
      ∃ r u, information.accepting items t r ∧
        information.procedure.machine.step t r = some u) := by
  obtain ⟨hlen,⟨op,success,ecode,found,rfl,hout⟩ | hmore⟩ :=
    sweep_ends information_lawful hl ha hr
  · exact ⟨hlen,.inl ⟨op,success,ecode,found,rfl,hout.partly,hout.success_iff rfl rfl,
      hout.whole Procedure.Cut.unsent,fun hc => hc.success hr,descriptors_found hout⟩⟩
  · exact ⟨hlen,.inr hmore⟩

theorem descriptors_discovered_refused :
    let config : Descriptor := ⟨5,.uuid16 0x2902⟩
    let report : Descriptor := ⟨6,.uuid16 0x2908⟩
    let ls := [reply [0x05,0x01,5,0,0x02,0x29] false]
    ∃ op, information.procedure.machine.run (begin 5 11) ls = some (.complete op true 0) ∧
      ls.length ≤ (information.inRange 5 11 [config,report]).length + 1 ∧
      descriptors op = [config.found] ∧
      [config] ≠ information.inRange 5 11 [config,report] := by
  intro config report ls
  have hl : information.Laid [config,report] := ⟨by decide,by decide⟩
  have ha : information.procedure.machine.Along (information.compliant [config,report])
      (begin 5 11) ls := by
    refine ⟨?_,fun _ _ => trivial⟩
    exact compliant_found information [config,report] _ [] config [report] 4 _ _ (by decide)
      (by decide) (by decide)
  exact ⟨_,rfl,(descriptors_discovered hl ha rfl).1,rfl,by decide⟩

end Minipro.GattHelpers
