import Minipro.Bluez.NotifyPhases

namespace Minipro.GattNotify
open Att GattDb Keyed References

variable {c t u : Client} {a b x y : Address} {d e : NotifyData} {ch f : NotifyChrc} {w : CccWrite}
  {loans : List Address} {attId : UInt32} {enable : Bool} {pdu : List UInt8}

@[simp] theorem ok_bind {A B : Type} (v : A) (k : A → Except Fault B) : (Except.ok v >>= k) = k v := rfl

-- The callback clears svc_chngd_ind_id when the client's own registration has failed.
theorem callback_eq (c : Client) (d : NotifyData) (attEcode : UInt8) : ∃ id : UInt32,
    c.callback d attEcode = { c with svcChngdIndId := id }.note (.registered d.address attEcode) := by
  rw [Client.callback]
  cases d.notify with
  | upper => exact ⟨c.svcChngdIndId,rfl⟩
  | serviceChanged =>
    simp only [Client.serviceChangedRegisterCb]
    split
    · exact ⟨c.svcChngdIndId,rfl⟩
    · exact ⟨0,rfl⟩

theorem callback_success (c : Client) (d : NotifyData) :
    c.callback d 0 = c.note (.registered d.address 0) := by
  rw [Client.callback]
  cases d.notify with
  | upper => rfl
  | serviceChanged => rfl

theorem complete_ok (hd : c.Reads a d ch) : c.completeNotifyRequest a =
    .ok (((c.putChrc { ch with notifyCount := ch.notifyCount + 1 }).putData
      { d with attId := 0 }).note (.registered a 0)) := by
  have hd' : ({ d with attId := 0 } : NotifyData).address = a := hd.address
  simp only [Client.completeNotifyRequest,hd.data_ok,hd.chrc_ok,ok_bind]
  rw [callback_success,hd']

-- The reference that the write holds is lost when the bearer refuses it.
def ccWritten (c : Client) (d : NotifyData) (ch : NotifyChrc) (attId : UInt32) : Client :=
  (c.putChrc { ch with cccWriteId := attId }).putData
    { d with attId := attId,refCount := d.refCount + 1 }

theorem write_refused (hd : c.Reads a d ch) (h0 : ch.cccHandle ≠ 0)
    (hp : enablePdu ch enable = some pdu) :
    c.notifyDataWriteCcc a enable 0 = .ok (ccWritten c d ch 0,false) := by
  rw [enablePdu] at hp
  simp only [Client.notifyDataWriteCcc,hd.data_ok,hd.chrc_ok,ok_bind,if_neg h0,hp,if_true]
  rfl

theorem write_sent (hd : c.Reads a d ch) (h0 : ch.cccHandle ≠ 0)
    (hp : enablePdu ch enable = some pdu) (ha : attId ≠ 0) :
    c.notifyDataWriteCcc a enable attId = .ok ({ ccWritten c d ch attId with
      writes := c.writes ++ [⟨attId,enable,a,pdu⟩] },true) := by
  rw [enablePdu] at hp
  simp only [Client.notifyDataWriteCcc,hd.data_ok,hd.chrc_ok,ok_bind,if_neg h0,hp,if_neg ha]
  rfl

structure Completes (c t : Client) (ch : NotifyChrc) (q loans : List Address) : Prop where
  cells : t.Cells loans
  apart : Apart c t ch.address
  chrc : t.chrcAt ch.address = some { ch with notifyCount := ch.notifyCount + q.length }
  listed : t.notifyList = c.notifyList
  writes : t.writes = c.writes
  allocated : t.allocated = c.allocated
  home : t.home = c.home
  att : ∀ b, t.att b = if b ∈ q then 0 else c.att b
  reports : ∀ b, t.reports b = c.reports b + q.count b
  returns : t.returns = c.returns

theorem complete_one (h : c.Cells loans) (hd : c.Reads a d ch) :
    ∃ t, c.completeNotifyRequest a = .ok t ∧ Completes c t ch [a] loans := by
  let f : NotifyChrc := { ch with notifyCount := ch.notifyCount + 1 }
  let e : NotifyData := { d with attId := 0 }
  have ha : e.address = a := hd.address
  have hm : Amends c f e d ch := ⟨ha.symm ▸ hd,rfl,rfl⟩
  have hh : ((c.putChrc f).putData e).home a = some ch.address := by
    rw [hm.home_eq]
    exact hd.home
  refine ⟨_,complete_ok hd,(hm.cells h le_rfl).note _,?_,?_,rfl,rfl,rfl,hm.home_eq,fun b => ?_,
    fun b => ?_,?_⟩
  · exact hm.apart.trans (apart_registered hh 0)
  · exact (congrFun hm.chrcAt_eq ch.address).trans (Function.update_self _ _ _)
  · refine (congrFun hm.att_eq b).trans ?_
    rw [Function.update_apply,ha]
    simp only [List.mem_singleton]
    rfl
  · rw [reports_registered,List.count_singleton]
    simp only [beq_iff_eq]
    rfl
  · rw [returns_registered]
    rfl

theorem complete_all (ch : NotifyChrc) (q : List Address) (h : c.Cells loans) (hx : c.chrcAt ch.address = some ch)
    (hq : ∀ a ∈ q, c.home a = some ch.address) :
    ∃ t, q.foldlM Client.completeNotifyRequest c = .ok t ∧ Completes c t ch q loans := by
  induction q generalizing c ch with
  | nil =>
    exact ⟨c,rfl,h,fun y _ => ⟨rfl,rfl,rfl,fun _ _ => rfl,fun _ _ => rfl,fun _ _ => rfl⟩,
      by simpa using hx,rfl,rfl,rfl,rfl,by simp,by simp,rfl⟩
  | cons a q ih =>
    obtain ⟨d,hd⟩ := Client.reads_of_home (hq a List.mem_cons_self) hx
    obtain ⟨t,ht,hc⟩ := complete_one h hd
    have hq' : ∀ b ∈ q, t.home b = some ch.address := fun b hb =>
      hc.home ▸ hq b (List.mem_cons_of_mem a hb)
    obtain ⟨u,hu,hcu⟩ := ih { ch with notifyCount := ch.notifyCount + 1 } hc.cells hc.chrc hq'
    refine ⟨u,?_,hcu.cells,hc.apart.trans hcu.apart,?_,hcu.listed.trans hc.listed,
      hcu.writes.trans hc.writes,hcu.allocated.trans hc.allocated,hcu.home.trans hc.home,
      fun b => ?_,fun b => ?_,hcu.returns.trans hc.returns⟩
    · rw [List.foldlM_cons,ht]
      exact hu
    · rw [hcu.chrc,List.length_cons]
      simp only [Option.some.injEq,NotifyChrc.mk.injEq,true_and,and_true]
      push_cast
      ring
    · by_cases hb : b ∈ q
      · simp [hcu.att,hb]
      · simp [hcu.att,hc.att,hb]
    · rw [hcu.reports,hc.reports,List.count_singleton,List.count_cons]
      omega

structure Writes (c t : Client) (ch : NotifyChrc) (w : CccWrite)
    (loans : List Address) : Prop where
  cells : t.Cells loans
  apart : Apart c t ch.address
  chrc : t.chrcAt ch.address = some { ch with cccWriteId := w.id }
  listed : t.notifyList = c.notifyList
  allocated : t.allocated = c.allocated
  home : t.home = c.home
  writes : t.writesOn ch.address = c.writesOn ch.address ++ [w]
  reports : t.reports = c.reports
  returns : t.returns = c.returns

theorem write_accepted (h : c.Cells loans) (hd : c.Reads a d ch) (h0 : ch.cccHandle ≠ 0)
    (hp : enablePdu ch enable = some pdu) (ha : attId ≠ 0) :
    ∃ t, c.notifyDataWriteCcc a enable attId = .ok (t,true) ∧
      Writes c t ch ⟨attId,enable,a,pdu⟩ loans := by
  let f : NotifyChrc := { ch with cccWriteId := attId }
  let e : NotifyData := { d with attId := attId,refCount := d.refCount + 1 }
  have hea : e.address = a := hd.address
  have hm : Amends c f e d ch := ⟨hea.symm ▸ hd,rfl,rfl⟩
  have hcells : ({ (c.putChrc f).putData e with writes := c.writes ++ [⟨attId,enable,a,pdu⟩] } :
      Client).Cells loans :=
    (hea ▸ hm.cells_acquired h rfl).addWrite
  have hhome : ((c.putChrc f).putData e).home a = some ch.address := by
    rw [hm.home_eq]
    exact hd.home
  refine ⟨_,write_sent hd h0 hp ha,hcells,?_,?_,rfl,rfl,hm.home_eq,?_,rfl,rfl⟩
  · exact hm.apart.trans (apart_written hhome)
  · exact (congrFun hm.chrcAt_eq ch.address).trans (Function.update_self _ _ _)
  · refine (writesOn_concat ((c.putChrc f).putData e) _ _).trans ?_
    rw [hm.writesOn_eq,if_pos hhome]

structure Settles (c t : Client) (f : NotifyChrc) (loans : List Address) : Prop where
  cells : t.Cells loans
  apart : Apart c t f.address
  chrc : t.chrcAt f.address = some f
  proper : Proper t f
  allocated : t.allocated = c.allocated

theorem phase_waits (h0 : ch.cccWriteId = 0) (hm : c.members ch.address = [])
    (hw : c.writesOn ch.address = []) (hq : ch.regNotifyQueue = []) (hn : ch.notifyCount = 0) :
    Proper c ch := by
  refine ⟨.idle h0 hw hq ?_,fun _ a ha => ?_,fun h => ?_,fun a ha => ?_⟩
  · rw [hm,hn]
    rfl
  · rw [hm] at ha
    cases ha
  · rcases h with h | ⟨_,h⟩
    · exact absurd h0 h
    · exact absurd hn h
  · rw [hm] at ha
    cases ha

structure Waits (c : Client) (ch : NotifyChrc) : Prop where
  chrc : c.chrcAt ch.address = some ch
  free : ch.cccWriteId = 0
  count : ch.notifyCount = 0
  members : c.members ch.address = ch.regNotifyQueue
  writes : c.writesOn ch.address = []
  handle : ch.cccHandle ≠ 0
  pdu : (enablePdu ch true).isSome
  tally : ∀ a ∈ ch.regNotifyQueue, c.reports a + 1 = c.returns a

structure Alike (ch f : NotifyChrc) : Prop where
  address : f.address = ch.address
  valueHandle : f.valueHandle = ch.valueHandle
  handle : f.cccHandle = ch.cccHandle
  properties : f.properties = ch.properties

theorem retry_next (h : c.Cells loans) (hw : Waits c ch) (ha : attId ≠ 0) :
    ∃ t f, Client.retryQueued attId ch.address id c ch.regNotifyQueue = .ok t ∧ Settles c t f loans ∧
      Alike ch f ∧ f.notifyCount = 0 ∧
      t.notifyList = c.notifyList ∧ t.reports = c.reports ∧ t.returns = c.returns := by
  cases hq : ch.regNotifyQueue with
  | nil =>
    have hp : Proper c ch := phase_waits hw.free (hw.members.trans hq) hw.writes hq hw.count
    have hs : Settles c c ch loans :=
      ⟨h,fun y _ => ⟨rfl,rfl,rfl,fun _ _ => rfl,fun _ _ => rfl,fun _ _ => rfl⟩,hw.chrc,hp,rfl⟩
    exact ⟨c,ch,rfl,hs,⟨rfl,rfl,rfl,rfl⟩,hw.count,rfl,rfl,rfl⟩
  | cons b rest =>
    let g : NotifyChrc := { ch with regNotifyQueue := rest }
    have hb : b ∈ c.members ch.address := by
      rw [hw.members,hq]
      exact List.mem_cons_self
    obtain ⟨d,hd⟩ := Client.reads_of_home (mem_members.mp hb).2 hw.chrc
    have hx : c.chrcAt g.address = some ch := hw.chrc
    have hg : (c.putChrc g).chrcAt ch.address = some g := by
      rw [Client.chrcAt_putChrc hx]
      exact Function.update_self _ _ _
    have hdg : (c.putChrc g).Reads b d g := ⟨hd.data,hd.chrcAddress ▸ hg⟩
    have hcg : (c.putChrc g).Cells loans := h.putChrc hx
    obtain ⟨pdu,hp⟩ := Option.isSome_iff_exists.mp hw.pdu
    obtain ⟨t,ht,hwt⟩ := write_accepted hcg hdg hw.handle hp ha
    let f : NotifyChrc := { g with cccWriteId := attId }
    have hm : t.members f.address = b :: rest := by
      rw [members_of_home hwt.listed (fun a _ => congrFun hwt.home a)]
      exact hw.members.trans hq
    have hwr : t.writesOn f.address = [⟨attId,true,b,pdu⟩] := by
      refine hwt.writes.trans ?_
      exact congrArg (· ++ [_]) hw.writes
    have hproper : Proper t f := by
      refine ⟨.enabling _ rfl hwr ⟨rfl,ha,hp⟩ hm hw.count,fun h0 => absurd h0 ha,
        fun _ => ⟨hw.handle,hw.pdu⟩,fun a hma => ?_⟩
      rw [hwt.reports,hwt.returns]
      rw [hm,← hq] at hma
      rw [if_neg ha]
      exact hw.tally a hma
    have hapart : Apart c t f.address := (apart_putChrc hx).trans hwt.apart
    refine ⟨t,f,?_,⟨hwt.cells,hapart,hwt.chrc,hproper,hwt.allocated⟩,⟨rfl,rfl,rfl,rfl⟩,hw.count,
      hwt.listed,hwt.reports,hwt.returns⟩
    simp only [Client.retryQueued,Client.chrc_ok hw.chrc,ok_bind]
    rw [show ({ ch with regNotifyQueue := rest } : NotifyChrc) = g from rfl,id,ht]
    rfl

end Minipro.GattNotify
