import Minipro.Bluez.NotifyAnswer

namespace Minipro.GattNotify
open Att GattClient GattDb Keyed References

variable {c t u : Client} {a b x y : Address} {d e : NotifyData} {ch f g : NotifyChrc}
  {w : CccWrite} {loans : List Address} {attId : UInt32}

def joined (c : Client) (d : NotifyData) (next : Int32) : Client :=
  { c with
    datas := c.datas ++ [d]
    notifyList := c.notifyList ++ [d.address]
    nextRegId := next
    allocated := d.address + 1 }

structure Joins (c : Client) (d : NotifyData) (ch : NotifyChrc) : Prop where
  fresh : d.address = c.allocated
  refs : d.refCount = 1
  att : d.attId = 0
  home : d.chrc = ch.address
  chrc : c.chrcAt ch.address = some ch

namespace Joins
variable (next : Int32)

theorem unused (h : Joins c d ch) (hc : c.Cells []) : c.home d.address = none := h.fresh ▸ hc.unused

theorem unlisted (h : Joins c d ch) (hc : c.Cells []) : d.address ∉ c.notifyList := fun ha =>
  Client.unowned hc (h.unused hc) (listed_owner ha [])

theorem home_eq (h : Joins c d ch) (hc : c.Cells []) :
    (joined c d next).home = Function.update c.home d.address (some d.chrc) :=
  Client.home_addData (h.unused hc)

theorem home_self (h : Joins c d ch) (hc : c.Cells []) :
    (joined c d next).home d.address = some ch.address := by
  rw [h.home_eq next hc,Function.update_self,h.home]

theorem cells (h : Joins c d ch) (hc : c.Cells []) : (joined c d next).Cells [] := by
  have hd := hc.addData h.fresh h.refs (h.home ▸ h.chrc)
  have hl := hd.addListed (h.unlisted hc)
  exact ⟨hl.chrcs,hl.dataBelow,hl.chrcBelow,hl.listed,hl.covered,hl.homed⟩

theorem reads (h : Joins c d ch) (hc : c.Cells []) : (joined c d next).Reads d.address d ch := by
  refine ⟨?_,?_⟩
  · refine (Client.concat_find (h.unused hc) d.address).trans ?_
    rw [if_pos rfl]
  · rw [h.home]
    exact h.chrc

theorem att_eq (h : Joins c d ch) (hc : c.Cells []) :
    (joined c d next).att = Function.update c.att d.address 0 :=
  (Client.att_addData (h.unused hc)).trans (by rw [h.att])

theorem members (h : Joins c d ch) (hc : c.Cells []) (y : Address) :
    (joined c d next).members y = c.members y ++ if ch.address = y then [d.address] else [] := by
  have hk : ∀ b ∈ c.notifyList, (c.addData d).home b = c.home b := by
    intro b hb
    have hne : b ≠ d.address := fun hbd => h.unlisted hc (hbd ▸ hb)
    rw [Client.home_addData (h.unused hc),Function.update_of_ne hne]
  refine (members_concat (c.addData d) d.address y).trans ?_
  rw [members_of_home (t := c.addData d) (c := c) rfl hk,Client.home_addData (h.unused hc),
    Function.update_self,h.home]
  simp only [Option.some.injEq]

theorem writesOn (h : Joins c d ch) (hc : c.Cells []) (y : Address) :
    (joined c d next).writesOn y = c.writesOn y := by
  refine writesOn_of_home (t := joined c d next) (c := c) rfl (fun w hw => ?_) y
  have hne : w.data ≠ d.address := fun hwd =>
    Client.unowned hc (h.unused hc) (hwd ▸ write_owner hw [])
  rw [h.home_eq next hc,Function.update_of_ne hne]

theorem apart (h : Joins c d ch) (hc : c.Cells []) : Apart c (joined c d next) ch.address := by
  intro y hy
  refine ⟨rfl,?_,h.writesOn next hc y,fun b hb => ?_,fun _ _ => rfl,fun _ _ => rfl⟩
  · rw [h.members next hc,if_neg hy.symm,List.append_nil]
  · have hne : b ≠ d.address := fun hbd => h.unlisted hc (hbd ▸ (mem_members.mp hb).1)
    rw [h.att_eq next hc,Function.update_of_ne hne]

theorem unreported (h : Joins c d ch) (hi : Inv c) :
    c.reports d.address = 0 ∧ c.returns d.address = 0 := by
  have hr := hi.unborn d.address (h.fresh ▸ le_rfl)
  exact ⟨(hi.unlisted d.address (h.unlisted hi.cells)).trans hr,hr⟩

theorem outcome (h : Joins c d ch) (hi : Inv c) (hs : Settles (joined c d next) t f [])
    (hf : f.address = ch.address) (hl : t.notifyList = c.notifyList ++ [d.address])
    (hrep : ∀ b ≠ d.address, t.reports b = c.reports b)
    (hret : ∀ b, t.returns b = c.returns b + if d.address = b then 1 else 0) : Outcome c t f := by
  have hapart : Apart c t f.address := (hf ▸ h.apart next hi.cells).trans hs.apart
  refine ⟨⟨hs.cells,hapart.proper hi.proper hs.chrc hs.proper,fun b hb => ?_,fun b => ?_,
    fun b hb => ?_⟩,hapart,hs.chrc⟩
  · rw [hl,List.mem_append,List.mem_singleton,not_or] at hb
    rw [hrep b hb.2,hret,if_neg (Ne.symm hb.2),Nat.add_zero]
    exact hi.unlisted b hb.1
  · rw [hret]
    split
    next hb => rw [← hb,(h.unreported hi).2]
    next => exact hi.once b
  · rw [hs.allocated] at hb
    have hlt : d.address < b := hb
    rw [hret,if_neg hlt.ne,hi.unborn b (h.fresh ▸ hlt.le)]

theorem waiting (h : Joins c d ch) (hi : Inv c) (h0 : ch.cccWriteId ≠ 0)
    (hen : ∀ w ∈ c.writesOn ch.address, w.enable = true) (id : UInt32) :
    Outcome c (((joined c d next).putChrc
        { ch with regNotifyQueue := ch.regNotifyQueue ++ [d.address] }).note
          (.returned d.address id))
      { ch with regNotifyQueue := ch.regNotifyQueue ++ [d.address] } := by
  let f : NotifyChrc := { ch with regNotifyQueue := ch.regNotifyQueue ++ [d.address] }
  have hp := hi.proper ch.address ch h.chrc
  have hx : (joined c d next).chrcAt f.address = some ch := h.chrc
  let v : Client := (joined c d next).putChrc f
  have hmv : (v.note (.returned d.address id)).members f.address =
      c.members ch.address ++ [d.address] := by
    refine (h.members next hi.cells ch.address).trans ?_
    rw [if_pos rfl]
  have hwv : (v.note (.returned d.address id)).writesOn f.address = c.writesOn ch.address :=
    h.writesOn next hi.cells ch.address
  have hret (b : Address) : (v.note (.returned d.address id)).returns b =
      c.returns b + if d.address = b then 1 else 0 := returns_returned v d.address b id
  have hrep : (v.note (.returned d.address id)).reports = c.reports :=
    reports_returned v d.address id
  have hproper : Proper (v.note (.returned d.address id)) f := by
    refine ⟨?_,fun h' => absurd h' h0,fun _ => hp.writable (.inl h0),fun b hb => ?_⟩
    · rw [hmv,hwv]
      cases hp.phase with
      | idle h' => exact absurd h' h0
      | enabling w he hw hpend hm hn =>
        refine .enabling w he hw ⟨hpend.id,hpend.sent,hpend.pdu⟩ ?_ hn
        rw [hm]
        rfl
      | disabling w he hw =>
        have ht := hen w (hw ▸ List.mem_singleton_self w)
        rw [he] at ht
        cases ht
      | stranded _ hw hq hn =>
        obtain ⟨l,hl⟩ := hq
        refine .stranded h0 hw ⟨l,?_⟩ hn
        rw [← hl,List.append_assoc]
    · rw [hmv,List.mem_append,List.mem_singleton] at hb
      rw [hrep,hret,if_neg h0]
      rcases hb with hb | rfl
      · have hne : d.address ≠ b := fun hdb =>
          h.unlisted hi.cells (hdb ▸ (mem_members.mp hb).1)
        have ht := hp.tally b hb
        rw [if_neg h0] at ht
        rw [if_neg hne,Nat.add_zero]
        exact ht
      · rw [if_pos rfl,(h.unreported hi).1,(h.unreported hi).2]
  have hhome : v.home d.address = some f.address := h.home_self next hi.cells
  have hs : Settles (joined c d next) (v.note (.returned d.address id)) f [] :=
    ⟨((h.cells next hi.cells).putChrc hx).note _,(apart_putChrc hx).trans (apart_returned hhome id),
      (congrFun (Client.chrcAt_putChrc hx) f.address).trans (Function.update_self _ _ _),hproper,rfl⟩
  exact h.outcome next hi hs rfl rfl (fun b _ => congrFun hrep b) hret

theorem idle_members (hp : Proper c ch) (h0 : ch.cccWriteId = 0) :
    c.writesOn ch.address = [] ∧ ch.regNotifyQueue = [] ∧
      ch.notifyCount = (c.members ch.address).length := by
  cases hp.phase with
  | idle _ hw hq hn => exact ⟨hw,hq,hn⟩
  | enabling w _ _ hpend => exact absurd (hpend.id ▸ h0) hpend.sent
  | disabling w _ _ hpend => exact absurd (hpend.id ▸ h0) hpend.sent
  | stranded h' => exact absurd h0 h'

theorem established (h : Joins c d ch) (hi : Inv c) (h0 : ch.cccWriteId = 0)
    (hn : 0 < ch.notifyCount ∨ ch.cccHandle = 0) (id : UInt32) :
    ∃ t f, (joined c d next).completeNotifyRequest d.address = .ok t ∧
      Outcome c (t.note (.returned d.address id)) f ∧ Alike ch f ∧
      (ch.cccHandle ≠ 0 → ch.notifyCount ≠ 0) := by
  have hp := hi.proper ch.address ch h.chrc
  obtain ⟨hw,hq,hc⟩ := idle_members hp h0
  obtain ⟨v,hv,hcv⟩ := complete_one (h.cells next hi.cells) (h.reads next hi.cells)
  let f : NotifyChrc := { ch with notifyCount := ch.notifyCount + [d.address].length }
  have hm : v.members f.address = c.members ch.address ++ [d.address] := by
    rw [members_of_home hcv.listed (fun b _ => congrFun hcv.home b),h.members next hi.cells,if_pos rfl]
  have hwv : v.writesOn f.address = [] := by
    rw [writesOn_of_home hcv.writes (fun w _ => congrFun hcv.home w.data),h.writesOn next hi.cells]
    exact hw
  have hret (b : Address) : (v.note (.returned d.address id)).returns b =
      c.returns b + if d.address = b then 1 else 0 :=
    (returns_returned v d.address b id).trans (by rw [hcv.returns]; rfl)
  have hrep (b : Address) : (v.note (.returned d.address id)).reports b =
      c.reports b + [d.address].count b := by
    rw [reports_returned,hcv.reports]
    rfl
  have hproper : Proper (v.note (.returned d.address id)) f := by
    refine ⟨.idle h0 hwv hq ?_,fun _ b hb => ?_,fun hwr => ?_,fun b hb => ?_⟩
    · rw [show (v.note (.returned d.address id)).members f.address = _ from hm,List.length_append,
        Nat.cast_add]
      exact congrArg (· + _) hc
    · have hb' : b ∈ c.members ch.address ++ [d.address] := hm ▸ hb
      refine (hcv.att b).trans ?_
      split
      next => rfl
      next hne =>
        rcases List.mem_append.mp hb' with hb' | hb'
        · have hbd : b ≠ d.address := fun hbd => hne (List.mem_singleton.mpr hbd)
          rw [h.att_eq next hi.cells,Function.update_of_ne hbd]
          exact hp.settled h0 b hb'
        · exact absurd hb' hne
    · rcases hwr with hwr | ⟨hcc,_⟩
      · exact absurd h0 hwr
      · rcases hn with hn | hn
        · exact hp.writable (.inr ⟨hcc,hn.ne'⟩)
        · exact absurd hn hcc
    · have hb' : b ∈ c.members ch.address ++ [d.address] := hm ▸ hb
      rw [hrep,hret,if_pos h0,List.count_singleton]
      rcases List.mem_append.mp hb' with hb' | hb'
      · have hne : d.address ≠ b := fun hdb =>
          h.unlisted hi.cells (hdb ▸ (mem_members.mp hb').1)
        have ht := hp.tally b hb'
        rw [if_pos h0] at ht
        simp only [beq_iff_eq,if_neg hne]
        exact ht
      · obtain rfl := List.mem_singleton.mp hb'
        rw [(h.unreported hi).1,(h.unreported hi).2]
        simp
  have hhome : v.home d.address = some f.address := by
    rw [hcv.home]
    exact h.home_self next hi.cells
  have hs : Settles (joined c d next) (v.note (.returned d.address id)) f [] :=
    ⟨hcv.cells.note _,hcv.apart.trans (apart_returned hhome id),hcv.chrc,hproper,hcv.allocated⟩
  refine ⟨v,f,hv,h.outcome next hi hs rfl hcv.listed (fun b hb => ?_) hret,⟨rfl,rfl,rfl,rfl⟩,
    fun hcc => ?_⟩
  · rw [hrep,List.count_singleton]
    simp [hb.symm]
  · rcases hn with hn | hn
    · exact hn.ne'
    · exact absurd hn hcc

theorem no_members (hp : Proper c ch) (h0 : ch.cccWriteId = 0) (hn : ¬ 0 < ch.notifyCount) :
    c.members ch.address = [] ∧ ch.notifyCount = 0 := by
  have hc := (idle_members hp h0).2.2
  have hl : (c.members ch.address).length = 0 := by omega
  exact ⟨List.eq_nil_of_length_eq_zero hl,by omega⟩

theorem sent {pdu : List UInt8} (h : Joins c d ch) (hi : Inv c) (h0 : ch.cccWriteId = 0)
    (hn : ¬ 0 < ch.notifyCount) (hcc : ch.cccHandle ≠ 0) (hpdu : enablePdu ch true = some pdu)
    (hid : attId ≠ 0) (id : UInt32) :
    ∃ t f, (joined c d next).notifyDataWriteCcc d.address true attId = .ok (t,true) ∧
      Outcome c (t.note (.returned d.address id)) f ∧ Alike ch f ∧ f.notifyCount = 0 := by
  have hp := hi.proper ch.address ch h.chrc
  obtain ⟨hw,hq,_⟩ := idle_members hp h0
  obtain ⟨hm,hc⟩ := no_members hp h0 hn
  obtain ⟨v,hv,hwv⟩ :=
    write_accepted (h.cells next hi.cells) (h.reads next hi.cells) hcc hpdu hid
  let f : NotifyChrc := { ch with cccWriteId := attId }
  have hmv : v.members f.address = [d.address] := by
    rw [members_of_home hwv.listed (fun b _ => congrFun hwv.home b),h.members next hi.cells,
      if_pos rfl,show f.address = ch.address from rfl,hm]
    rfl
  have hwr : v.writesOn f.address = [⟨attId,true,d.address,pdu⟩] := by
    refine hwv.writes.trans ?_
    rw [h.writesOn next hi.cells,hw]
    rfl
  have hret (b : Address) : (v.note (.returned d.address id)).returns b =
      c.returns b + if d.address = b then 1 else 0 :=
    (returns_returned v d.address b id).trans (by rw [hwv.returns]; rfl)
  have hrep : (v.note (.returned d.address id)).reports = c.reports :=
    (reports_returned v d.address id).trans hwv.reports
  have hproper : Proper (v.note (.returned d.address id)) f := by
    refine ⟨.enabling ⟨attId,true,d.address,pdu⟩ rfl hwr ⟨rfl,hid,hpdu⟩ ?_ hc,
      fun h' => absurd h' hid,fun _ => ⟨hcc,Option.isSome_of_mem hpdu⟩,fun b hb => ?_⟩
    · refine hmv.trans ?_
      rw [show f.regNotifyQueue = [] from hq]
    · have hb' : b ∈ [d.address] := hmv ▸ hb
      obtain rfl := List.mem_singleton.mp hb'
      rw [hrep,hret,if_neg hid,if_pos rfl,(h.unreported hi).1,(h.unreported hi).2]
  have hhome : v.home d.address = some f.address := by
    rw [hwv.home]
    exact h.home_self next hi.cells
  have hs : Settles (joined c d next) (v.note (.returned d.address id)) f [] :=
    ⟨hwv.cells.note _,hwv.apart.trans (apart_returned hhome id),hwv.chrc,hproper,hwv.allocated⟩
  exact ⟨v,f,hv,h.outcome next hi hs rfl hwv.listed (fun b _ => congrFun hrep b) hret,
    ⟨rfl,rfl,rfl,rfl⟩,hc⟩

structure Undone (c v : Client) (a : Address) : Prop where
  cells : v.Cells []
  listed : v.notifyList = c.notifyList ++ [a]
  writes : v.writes = c.writes
  chrcs : v.chrcAt = c.chrcAt
  allocated : v.allocated = a + 1
  home : ∀ b ≠ a, v.home b = c.home b
  att : ∀ b ≠ a, v.att b = c.att b
  reports : v.reports = c.reports
  returns : v.returns = c.returns

theorem undo {v : Client} (h : Joins c d ch) (hi : Inv c) (hv : Undone c v d.address) :
    Outcome c ({ v with notifyList := v.notifyList.erase d.address }.free d.address) ch := by
  let t : Client := { v with notifyList := v.notifyList.erase d.address }
  have hn := h.unlisted hi.cells
  have hout := Client.unowned hi.cells (h.unused hi.cells)
  have hl : t.notifyList = c.notifyList := by
    rw [show t.notifyList = v.notifyList.erase d.address from rfl,hv.listed,
      List.erase_append_right [d.address] hn]
    simp
  have howned : t.owners = c.owners := by
    rw [Client.owners,hl,show t.writes = c.writes from hv.writes]
    rfl
  have hmem : d.address ∈ v.notifyList := hv.listed ▸ by simp
  have hcells : (t.free d.address).Cells [] := by
    refine (hv.cells.lendListed hmem).drop.freed ?_
    rw [show ({ v with notifyList := v.notifyList.erase d.address } : Client).owners = c.owners from
      howned]
    exact hout
  have hkeep : ∀ b ≠ d.address, (t.free d.address).home b = c.home b := fun b hb => by
    rw [Client.home_free,Function.update_of_ne hb]
    exact hv.home b hb
  have hmembers (y : Address) : (t.free d.address).members y = c.members y :=
    members_of_home (t := t.free d.address) (c := c) hl
      (fun b hb => hkeep b fun hbd => hn (hbd ▸ hb)) y
  have hwrites (y : Address) : (t.free d.address).writesOn y = c.writesOn y :=
    writesOn_of_home (t := t.free d.address) (c := c) hv.writes
      (fun w hw => hkeep w.data fun hwd => hout (hwd ▸ write_owner hw [])) y
  have hkept : ∀ y, Kept c (t.free d.address) y := by
    intro y
    refine ⟨congrFun hv.chrcs y,hmembers y,hwrites y,fun b hb => ?_,
      fun b _ => congrFun hv.reports b,fun b _ => congrFun hv.returns b⟩
    · have hne : b ≠ d.address := fun hbd => hn (hbd ▸ (mem_members.mp hb).1)
      rw [Client.att_free,Function.update_of_ne hne]
      exact hv.att b hne
  refine ⟨⟨hcells,fun y f hy => ?_,fun b hb => ?_,fun b => ?_,fun b hb => ?_⟩,fun y _ => hkept y,
    (congrFun hv.chrcs ch.address).trans h.chrc⟩
  · have hy' : c.chrcAt y = some f := (congrFun hv.chrcs y).symm.trans hy
    obtain rfl := Client.chrcAt_address hy'
    exact (hkept f.address).proper (hi.proper f.address f hy')
  · refine (congrFun hv.reports b).trans (Eq.trans ?_ (congrFun hv.returns b).symm)
    exact hi.unlisted b (hl ▸ hb)
  · exact (congrFun hv.returns b).trans_le (hi.once b)
  · refine (congrFun hv.returns b).trans (hi.unborn b ?_)
    have hle : d.address + 1 ≤ b := hv.allocated ▸ hb
    rw [← h.fresh]
    exact (Nat.le_succ _).trans hle

theorem undone_joined (h : Joins c d ch) (hi : Inv c) : Undone c (joined c d next) d.address where
  cells := h.cells next hi.cells
  listed := rfl
  writes := rfl
  chrcs := rfl
  allocated := rfl
  home b hb := by rw [h.home_eq next hi.cells,Function.update_of_ne hb]
  att b hb := by rw [h.att_eq next hi.cells,Function.update_of_ne hb]
  reports := rfl
  returns := rfl

theorem undone_refused (h : Joins c d ch) (hi : Inv c) (h0 : ch.cccWriteId = 0) :
    Undone c (ccWritten (joined c d next) d ch 0) d.address := by
  have hd := h.reads next hi.cells
  have hm : Amends (joined c d next) { ch with cccWriteId := 0 }
      { d with attId := 0,refCount := d.refCount + 1 } d ch := ⟨hd,rfl,rfl⟩
  have hj := h.undone_joined next hi
  have hsame : ({ ch with cccWriteId := 0 } : NotifyChrc) = ch := by rw [← h0]
  refine ⟨(hm.cells_acquired hj.cells rfl).drop,rfl,rfl,?_,rfl,fun b hb => ?_,fun b hb => ?_,rfl,rfl⟩
  · refine hm.chrcAt_eq.trans ?_
    rw [hsame]
    exact Function.update_eq_self_iff.mpr h.chrc.symm
  · exact (congrFun hm.home_eq b).trans (hj.home b hb)
  · refine (congrFun hm.att_eq b).trans ?_
    rw [Function.update_of_ne hb]
    exact hj.att b hb

theorem refused (h : Joins c d ch) (hi : Inv c) (h0 : ch.cccWriteId = 0) (hcc : ch.cccHandle ≠ 0)
    (hno : enablePdu ch true = none ∨ attId = 0) :
    ∃ v, (joined c d next).notifyDataWriteCcc d.address true attId = .ok (v,false) ∧
      Outcome c ({ v with notifyList := v.notifyList.erase d.address }.free d.address) ch := by
  have hd := h.reads next hi.cells
  cases hpdu : enablePdu ch true with
  | none =>
    refine ⟨joined c d next,?_,h.undo hi (h.undone_joined next hi)⟩
    rw [enablePdu] at hpdu
    simp only [Client.notifyDataWriteCcc,hd.data_ok,hd.chrc_ok,ok_bind,if_neg hcc,hpdu]
  | some pdu =>
    rcases hno with hno | rfl
    · rw [hpdu] at hno
      cases hno
    · exact ⟨_,write_refused hd hcc hpdu,h.undo hi (h.undone_refused next hi h0)⟩

end Joins

structure Carries (ch f : NotifyChrc) : Prop where
  alike : Alike ch f
  backed : f.cccHandle ≠ 0 → f.notifyCount ≠ 0 → ch.notifyCount ≠ 0

theorem Outcome.refl (hi : Inv c) (hx : c.chrcAt ch.address = some ch) : Outcome c c ch :=
  ⟨hi,fun _ _ => ⟨rfl,rfl,rfl,fun _ _ => rfl,fun _ _ => rfl,fun _ _ => rfl⟩,hx⟩

-- What addNotify does once the handler is on the list.
def request (c : Client) (d : NotifyData) (ch : NotifyChrc) (attId : UInt32) :
    Except Fault (Client × UInt32) :=
  if ch.cccWriteId ≠ 0 then
    .ok ((c.putChrc { ch with regNotifyQueue := ch.regNotifyQueue ++ [d.address] }).note
      (.returned d.address d.id),d.id)
  else if 0 < ch.notifyCount ∨ ch.cccHandle = 0 then do
    let c ← c.completeNotifyRequest d.address
    .ok (c.note (.returned d.address d.id),d.id)
  else do
    let (c,sent) ← c.notifyDataWriteCcc d.address true attId
    if sent then .ok (c.note (.returned d.address d.id),d.id)
    else .ok ({ c with notifyList := c.notifyList.erase d.address }.free d.address,0)

theorem addNotify_eq (c : Client) (ch : NotifyChrc) (notify : Handler) (attId : UInt32)
    (hm : ch.notifyCount ≠ intMax) : ∃ id : Int32, c.addNotify ch notify attId =
      request (joined c ⟨c.allocated,id.toUInt32,0,1,ch.address,notify⟩ (id + 1))
        ⟨c.allocated,id.toUInt32,0,1,ch.address,notify⟩ ch attId := by
  refine ⟨if c.nextRegId < 1 then 1 else c.nextRegId,?_⟩
  rw [Client.addNotify,if_neg hm]
  rfl

theorem addNotify_spec (hi : Inv c) (hx : c.chrcAt ch.address = some ch)
    (hen : ∀ w ∈ c.writesOn ch.address, w.enable = true) (notify : Handler) (attId : UInt32) :
    ∃ t r f, c.addNotify ch notify attId = .ok (t,r) ∧ Outcome c t f ∧ Carries ch f := by
  have hsame : Carries ch ch := ⟨⟨rfl,rfl,rfl,rfl⟩,fun _ hn => hn⟩
  rcases eq_or_ne ch.notifyCount intMax with hmax | hmax
  · refine ⟨c,0,ch,?_,.refl hi hx,hsame⟩
    rw [Client.addNotify,if_pos hmax]
  · obtain ⟨id,hadd⟩ := addNotify_eq c ch notify attId hmax
    rw [hadd,request]
    let d : NotifyData := ⟨c.allocated,id.toUInt32,0,1,ch.address,notify⟩
    have hj : Joins c d ch := ⟨rfl,rfl,rfl,rfl,hx⟩
    rcases eq_or_ne ch.cccWriteId 0 with h0 | h0
    · simp only [h0,ne_eq,not_true_eq_false,if_false]
      by_cases hn : 0 < ch.notifyCount ∨ ch.cccHandle = 0
      · obtain ⟨t,f,ht,ho,hf,hb⟩ := hj.established (id + 1) hi h0 hn id.toUInt32
        rw [if_pos hn,ht]
        exact ⟨_,_,f,rfl,ho,hf,fun hcc _ => hb (hf.handle ▸ hcc)⟩
      · rw [if_neg hn]
        obtain ⟨hn0,hcc⟩ := not_or.mp hn
        by_cases hno : enablePdu ch true = none ∨ attId = 0
        · obtain ⟨v,hv,ho⟩ := hj.refused (id + 1) hi h0 hcc hno
          rw [hv]
          exact ⟨_,_,ch,rfl,ho,hsame⟩
        · obtain ⟨hp,ha⟩ := not_or.mp hno
          obtain ⟨pdu,hpdu⟩ := Option.ne_none_iff_exists'.mp hp
          obtain ⟨t,f,ht,ho,hf,hb⟩ := hj.sent (id + 1) hi h0 hn0 hcc hpdu ha id.toUInt32
          rw [ht]
          exact ⟨_,_,f,rfl,ho,hf,fun _ hfn => absurd hb hfn⟩
    · simp only [h0,ne_eq,not_false_eq_true,if_true]
      exact ⟨_,_,_,rfl,hj.waiting (id + 1) hi h0 hen id.toUInt32,⟨rfl,rfl,rfl,rfl⟩,fun _ hn => hn⟩

theorem chrcAt_new (hi : Inv c) (ha : ch.address = c.allocated) : c.chrcAt ch.address = none := by
  by_contra hn
  exact lt_irrefl _ (ha ▸ hi.cells.chrcBelow ch.address hn)

structure Created (c : Client) (ch : NotifyChrc) : Prop where
  address : ch.address = c.allocated
  count : ch.notifyCount = 0
  queue : ch.regNotifyQueue = []
  writeId : ch.cccWriteId = 0

theorem homeless (hi : Inv c) (hn : c.chrcAt x = none) (ha : a ∈ c.owners) : c.home a ≠ some x := by
  intro hx
  obtain ⟨y,f,hy,hf⟩ := hi.cells.homed a (List.mem_append_left [] ha)
  obtain rfl := Option.some.inj (hx.symm.trans hy)
  rw [hn] at hf
  cases hf

theorem Created.writesOn (hc : Created c ch) (hi : Inv c) :
    (c.addChrc ch).writesOn ch.address = [] := by
  refine List.filter_eq_nil_iff.mpr fun w hw hh => ?_
  have hw' : w.data ∈ c.owners := List.mem_append_right _ (List.mem_map_of_mem hw)
  exact homeless hi (chrcAt_new hi hc.address) hw' (of_decide_eq_true hh)

theorem Created.outcome (hc : Created c ch) (hi : Inv c) : Outcome c (c.addChrc ch) ch := by
  have hn := chrcAt_new hi hc.address
  have hx : (c.addChrc ch).chrcAt ch.address = some ch := by
    rw [Client.chrcAt_addChrc hn,Function.update_self]
  have hm : (c.addChrc ch).members ch.address = [] := by
    refine List.filter_eq_nil_iff.mpr fun a ha hh => ?_
    exact homeless hi hn (List.mem_append_left _ ha) (of_decide_eq_true hh)
  have hapart : Apart c (c.addChrc ch) ch.address := by
    intro y hy
    refine ⟨?_,rfl,rfl,fun _ _ => rfl,fun _ _ => rfl,fun _ _ => rfl⟩
    rw [Client.chrcAt_addChrc hn,Function.update_of_ne hy]
  have hp : Proper (c.addChrc ch) ch := phase_waits hc.writeId hm (hc.writesOn hi) hc.queue hc.count
  refine ⟨⟨hi.cells.addChrc hc.address,hapart.proper hi.proper hx hp,hi.unlisted,hi.once,
    fun b hb => hi.unborn b ?_⟩,hapart,hx⟩
  have hlt : ch.address + 1 ≤ b := hb
  rw [← hc.address]
  exact (Nat.le_succ _).trans hlt

theorem create_created {db : Db} {handle : UInt16}
    (h : notifyChrcCreate db c.allocated handle = some ch) :
    Created c ch ∧ ch.valueHandle = handle := by
  obtain ⟨⟨s,attr⟩,_,h⟩ := Option.bind_eq_some_iff.mp h
  obtain ⟨_,_,rfl⟩ := Option.map_eq_some_iff.mp h
  exact ⟨⟨rfl,rfl,rfl,rfl⟩,rfl⟩

def Carried (c t : Client) : Prop := ∀ x f, t.chrcAt x = some f →
  ∃ ch, c.chrcAt x = some ch ∧ Carries ch f

theorem Carries.refl (ch : NotifyChrc) : Carries ch ch := ⟨⟨rfl,rfl,rfl,rfl⟩,fun _ hn => hn⟩

theorem Outcome.carried (ho : Outcome c t f) (hx : c.chrcAt ch.address = some ch)
    (hf : Carries ch f) : Carried c t := by
  intro y g hg
  rcases eq_or_ne y f.address with rfl | hy
  · rw [ho.chrc] at hg
    obtain rfl := Option.some.inj hg
    exact ⟨ch,hf.alike.address ▸ hx,hf⟩
  · exact ⟨g,(ho.apart y hy).chrc ▸ hg,.refl g⟩

def sharing (c : Client) (handle : UInt16) : Option NotifyChrc :=
  c.notifyChrcs.find? fun ch => ch.valueHandle = handle

def created (c : Client) (handle : UInt16) : Option NotifyChrc :=
  (sharing c handle).elim (notifyChrcCreate c.db c.allocated handle) fun _ => none

theorem registerNotify_spec (hi : Inv c) (handle : UInt16) (notify : Handler) (attId : UInt32)
    (hen : ∀ ch, sharing c handle = some ch → ∀ w ∈ c.writesOn ch.address, w.enable = true) :
    ∃ t r, c.registerNotify handle notify attId = .ok (t,r) ∧ Inv t ∧
      Carried ((created c handle).elim c c.addChrc) t := by
  cases hs : sharing c handle with
  | some ch =>
    have hx : c.chrcAt ch.address = some ch := hi.cells.at_mem (List.mem_of_find?_eq_some hs)
    obtain ⟨t,r,f,ht,ho,hf⟩ := addNotify_spec hi hx (hen ch hs) notify attId
    refine ⟨t,r,?_,ho.inv,?_⟩
    · rw [sharing] at hs
      rw [Client.registerNotify,hs]
      exact ht
    · rw [created,hs]
      exact ho.carried hx hf
  | none =>
    have hr : c.registerNotify handle notify attId =
        (notifyChrcCreate c.db c.allocated handle).elim (.ok (c,0)) fun ch =>
          { c with notifyChrcs := c.notifyChrcs ++ [ch],allocated := c.allocated + 1 }.addNotify ch
            notify attId := by
      rw [sharing] at hs
      rw [Client.registerNotify,hs]
      cases notifyChrcCreate c.db c.allocated handle with
      | none => rfl
      | some ch => rfl
    rw [hr,created,hs,Option.elim_none]
    cases hn : notifyChrcCreate c.db c.allocated handle with
    | none => exact ⟨c,0,rfl,hi,fun x f hf => ⟨f,hf,.refl f⟩⟩
    | some ch =>
      obtain ⟨hc,_⟩ := create_created hn
      have ho := hc.outcome hi
      obtain ⟨t,r,f,ht,hot,hf⟩ := addNotify_spec ho.inv ho.chrc
        (fun w hw => absurd (hc.writesOn hi ▸ hw) List.not_mem_nil) notify attId
      refine ⟨t,r,?_,hot.inv,hot.carried ho.chrc hf⟩
      rw [Client.addChrc,hc.address] at ht
      exact ht

end Minipro.GattNotify
