import Minipro.Bluez.NotifyCells

namespace Minipro.GattNotify
open GattDb Keyed References

namespace Client

def members (c : Client) (x : Address) : List Address :=
  c.notifyList.filter fun a => c.home a = some x

def writesOn (c : Client) (x : Address) : List CccWrite :=
  c.writes.filter fun w => c.home w.data = some x

end Client

open Client

def enablePdu (ch : NotifyChrc) (enable : Bool) : Option (List UInt8) :=
  Notifications.notifyDataWriteCcc ch.cccHandle ch.properties enable

structure Pending (ch : NotifyChrc) (w : CccWrite) : Prop where
  id : ch.cccWriteId = w.id
  sent : w.id ≠ 0
  pdu : enablePdu ch w.enable = some w.pdu

inductive Phase (ch : NotifyChrc) (ms : List Address) (ws : List CccWrite) : Prop where
  | idle (h0 : ch.cccWriteId = 0) (hw : ws = []) (hq : ch.regNotifyQueue = [])
      (hn : ch.notifyCount = ms.length)
  | enabling (w : CccWrite) (he : w.enable = true) (hw : ws = [w]) (hp : Pending ch w)
      (hm : ms = w.data :: ch.regNotifyQueue) (hn : ch.notifyCount = 0)
  | disabling (w : CccWrite) (he : w.enable = false) (hw : ws = [w]) (hp : Pending ch w)
      (hm : ms = []) (hq : ch.regNotifyQueue = []) (hn : ch.notifyCount = 0)
  | stranded (h0 : ch.cccWriteId ≠ 0) (hw : ws = []) (hq : ch.regNotifyQueue <:+ ms)
      (hn : ch.notifyCount = 0)

-- settled: complete_unregister_notify cancels the write that an att_id names.
structure Proper (c : Client) (ch : NotifyChrc) : Prop where
  phase : Phase ch (c.members ch.address) (c.writesOn ch.address)
  settled : ch.cccWriteId = 0 → ∀ a ∈ c.members ch.address, c.att a = 0
  writable : ch.cccWriteId ≠ 0 ∨ ch.cccHandle ≠ 0 ∧ ch.notifyCount ≠ 0 →
    ch.cccHandle ≠ 0 ∧ (enablePdu ch true).isSome
  tally : ∀ a ∈ c.members ch.address,
    c.reports a + (if ch.cccWriteId = 0 then 0 else 1) = c.returns a

structure Inv (c : Client) : Prop where
  cells : c.Cells []
  proper : ∀ x ch, c.chrcAt x = some ch → Proper c ch
  unlisted : ∀ a ∉ c.notifyList, c.reports a = c.returns a
  once : ∀ a, c.returns a ≤ 1
  unborn : ∀ a, c.allocated ≤ a → c.returns a = 0

theorem Inv.aside {c : Client} (h : Inv c) (db : Db) (id : UInt32) (busy : Bool)
    (queue : List ServiceChangedOp) : Inv (c.aside db id busy queue) where
  cells := h.cells.aside db id busy queue
  proper x ch hx := by
    have hp := h.proper x ch hx
    exact ⟨hp.phase,hp.settled,hp.writable,hp.tally⟩
  unlisted := h.unlisted
  once := h.once
  unborn := h.unborn

structure Kept (c t : Client) (y : Address) : Prop where
  chrc : t.chrcAt y = c.chrcAt y
  members : t.members y = c.members y
  writes : t.writesOn y = c.writesOn y
  att : ∀ a ∈ c.members y, t.att a = c.att a
  reports : ∀ a ∈ c.members y, t.reports a = c.reports a
  returns : ∀ a ∈ c.members y, t.returns a = c.returns a

def Apart (c t : Client) (x : Address) : Prop := ∀ y ≠ x, Kept c t y

variable {c t u : Client} {a b x y : Address} {d e : NotifyData} {ch f : NotifyChrc} {w : CccWrite}
  {loans : List Address}

theorem Kept.trans (h : Kept c t y) (h' : Kept t u y) : Kept c u y where
  chrc := h'.chrc.trans h.chrc
  members := h'.members.trans h.members
  writes := h'.writes.trans h.writes
  att a ha := (h'.att a (h.members ▸ ha)).trans (h.att a ha)
  reports a ha := (h'.reports a (h.members ▸ ha)).trans (h.reports a ha)
  returns a ha := (h'.returns a (h.members ▸ ha)).trans (h.returns a ha)

theorem Kept.proper (h : Kept c t ch.address) (hp : Proper c ch) : Proper t ch where
  phase := by
    rw [h.members,h.writes]
    exact hp.phase
  settled h0 a ha := by
    rw [h.members] at ha
    rw [h.att a ha]
    exact hp.settled h0 a ha
  writable := hp.writable
  tally a ha := by
    rw [h.members] at ha
    rw [h.reports a ha,h.returns a ha]
    exact hp.tally a ha

theorem Apart.trans (h : Apart c t x) (h' : Apart t u x) : Apart c u x :=
  fun y hy => (h y hy).trans (h' y hy)

theorem Apart.proper (ha : Apart c t x) (hp : ∀ y ch, c.chrcAt y = some ch → Proper c ch)
    (hx : t.chrcAt x = some f) (hf : Proper t f) :
    ∀ y ch, t.chrcAt y = some ch → Proper t ch := by
  intro y ch hy
  rcases eq_or_ne y x with rfl | hne
  · rw [hx] at hy
    exact Option.some.inj hy ▸ hf
  · rw [(ha y hne).chrc] at hy
    obtain rfl := chrcAt_address hy
    exact (ha ch.address hne).proper (hp ch.address ch hy)

theorem members_of_home (hl : t.notifyList = c.notifyList)
    (h : ∀ a ∈ c.notifyList, t.home a = c.home a) (y : Address) : t.members y = c.members y := by
  rw [Client.members,Client.members,hl]
  exact List.filter_congr fun a ha => by rw [h a ha]

theorem writesOn_of_home (hw : t.writes = c.writes)
    (h : ∀ w ∈ c.writes, t.home w.data = c.home w.data) (y : Address) :
    t.writesOn y = c.writesOn y := by
  rw [Client.writesOn,Client.writesOn,hw]
  exact List.filter_congr fun w hw => by rw [h w hw]

theorem mem_members : a ∈ c.members x ↔ a ∈ c.notifyList ∧ c.home a = some x := by
  simp [Client.members]

theorem mem_writesOn : w ∈ c.writesOn x ↔ w ∈ c.writes ∧ c.home w.data = some x := by
  simp [Client.writesOn]

theorem listed_owner (h : a ∈ c.notifyList) (loans : List Address) : a ∈ c.owners ++ loans :=
  List.mem_append_left _ (List.mem_append_left _ h)

theorem write_owner (h : w ∈ c.writes) (loans : List Address) : w.data ∈ c.owners ++ loans :=
  List.mem_append_left _ (List.mem_append_right _ (List.mem_map_of_mem h))

theorem Client.Same.kept (h : c.Same t loans) (y : Address) : Kept c t y where
  chrc := by rw [chrcAt,chrcAt,h.chrcs]
  members := members_of_home h.listed (fun a ha => h.home a (listed_owner ha loans)) y
  writes := writesOn_of_home h.writes (fun w hw => h.home w.data (write_owner hw loans)) y
  att a ha := h.att a (listed_owner (List.mem_of_mem_filter ha) loans)
  reports a _ := congrFun h.reports a
  returns a _ := congrFun h.returns a

theorem members_erase (c : Client) (a y : Address) :
    ({ c with notifyList := c.notifyList.erase a } : Client).members y = (c.members y).erase a :=
  List.erase_filter.symm

theorem writesOn_erase (c : Client) (w : CccWrite) (y : Address) :
    ({ c with writes := c.writes.erase w } : Client).writesOn y = (c.writesOn y).erase w :=
  List.erase_filter.symm

theorem kept_aside (c : Client) (db : Db) (id : UInt32) (busy : Bool)
    (queue : List ServiceChangedOp) (y : Address) : Kept c (c.aside db id busy queue) y :=
  ⟨rfl,rfl,rfl,fun _ _ => rfl,fun _ _ => rfl,fun _ _ => rfl⟩

theorem apart_unlist (h : c.home a = some x) :
    Apart c { c with notifyList := c.notifyList.erase a } x := by
  intro y hy
  refine ⟨rfl,?_,rfl,fun _ _ => rfl,fun _ _ => rfl,fun _ _ => rfl⟩
  rw [members_erase]
  refine List.erase_of_not_mem fun ha => hy ?_
  exact Option.some.inj ((mem_members.mp ha).2.symm.trans h)

theorem apart_answered (h : c.home w.data = some x) :
    Apart c { c with writes := c.writes.erase w } x := by
  intro y hy
  refine ⟨rfl,rfl,?_,fun _ _ => rfl,fun _ _ => rfl,fun _ _ => rfl⟩
  rw [writesOn_erase]
  refine List.erase_of_not_mem fun hw => hy ?_
  exact Option.some.inj ((mem_writesOn.mp hw).2.symm.trans h)

theorem writesOn_concat (c : Client) (w : CccWrite) (y : Address) :
    ({ c with writes := c.writes ++ [w] } : Client).writesOn y =
      c.writesOn y ++ if c.home w.data = some y then [w] else [] := by
  refine (List.filter_append c.writes [w]).trans ?_
  change c.writesOn y ++ [w].filter (fun w => c.home w.data = some y) = _
  rw [List.filter_singleton,Bool.cond_eq_ite]
  simp only [decide_eq_true_eq]

theorem members_concat (c : Client) (a y : Address) :
    ({ c with notifyList := c.notifyList ++ [a] } : Client).members y =
      c.members y ++ if c.home a = some y then [a] else [] := by
  refine (List.filter_append c.notifyList [a]).trans ?_
  change c.members y ++ [a].filter (fun a => c.home a = some y) = _
  rw [List.filter_singleton,Bool.cond_eq_ite]
  simp only [decide_eq_true_eq]

theorem apart_written (h : c.home w.data = some x) :
    Apart c { c with writes := c.writes ++ [w] } x := by
  intro y hy
  refine ⟨rfl,rfl,?_,fun _ _ => rfl,fun _ _ => rfl,fun _ _ => rfl⟩
  rw [writesOn_concat,if_neg fun hh => hy (Option.some.inj (hh.symm.trans h)),List.append_nil]

theorem apart_putChrc {g : NotifyChrc} (h : c.chrcAt f.address = some g) :
    Apart c (c.putChrc f) f.address := by
  intro y hy
  refine ⟨?_,rfl,rfl,fun _ _ => rfl,fun _ _ => rfl,fun _ _ => rfl⟩
  rw [chrcAt_putChrc h,Function.update_of_ne hy]

theorem reports_registered (c : Client) (a b : Address) (code : UInt8) :
    (c.note (.registered a code)).reports b = c.reports b + if a = b then 1 else 0 := by
  simp [Client.reports,Client.note,List.countP_append,List.countP_singleton]

theorem returns_registered (c : Client) (a : Address) (code : UInt8) :
    (c.note (.registered a code)).returns = c.returns := by
  funext b
  simp [Client.returns,Client.note]

theorem reports_returned (c : Client) (a : Address) (id : UInt32) :
    (c.note (.returned a id)).reports = c.reports := by
  funext b
  simp [Client.reports,Client.note]

theorem returns_returned (c : Client) (a b : Address) (id : UInt32) :
    (c.note (.returned a id)).returns b = c.returns b + if a = b then 1 else 0 := by
  simp [Client.returns,Client.note,List.countP_append,List.countP_singleton]

theorem members_ne (h : c.home a = some x) (hy : y ≠ x) (hb : b ∈ c.members y) : a ≠ b := by
  rintro rfl
  exact hy (Option.some.inj ((mem_members.mp hb).2.symm.trans h))

theorem apart_registered (h : c.home a = some x) (code : UInt8) :
    Apart c (c.note (.registered a code)) x := by
  intro y hy
  refine ⟨rfl,rfl,rfl,fun _ _ => rfl,fun b hb => ?_,fun b _ => ?_⟩
  · rw [reports_registered,if_neg (members_ne h hy hb),Nat.add_zero]
  · rw [returns_registered]

theorem apart_returned (h : c.home a = some x) (id : UInt32) :
    Apart c (c.note (.returned a id)) x := by
  intro y hy
  refine ⟨rfl,rfl,rfl,fun _ _ => rfl,fun b _ => ?_,fun b hb => ?_⟩
  · rw [reports_returned]
  · rw [returns_returned,if_neg (members_ne h hy hb),Nat.add_zero]

-- A characteristic and one of its handlers are changed, but not where they belong.
structure Amends (c : Client) (f : NotifyChrc) (e : NotifyData) (d : NotifyData) (ch : NotifyChrc) :
    Prop where
  reads : c.Reads e.address d ch
  chrc : f.address = ch.address
  home : e.chrc = d.chrc

namespace Amends

theorem found (h : Amends c f e d ch) :
    find NotifyData.address e.address (c.putChrc f).datas = some d := h.reads.data

theorem home_eq (h : Amends c f e d ch) : ((c.putChrc f).putData e).home = c.home :=
  home_putData h.found h.home

theorem att_eq (h : Amends c f e d ch) :
    ((c.putChrc f).putData e).att = Function.update c.att e.address e.attId :=
  att_putData h.found

theorem chrcAt_eq (h : Amends c f e d ch) :
    ((c.putChrc f).putData e).chrcAt = Function.update c.chrcAt ch.address (some f) :=
  (chrcAt_putChrc (h.chrc ▸ h.reads.at)).trans (by rw [h.chrc])

theorem members_eq (h : Amends c f e d ch) (y : Address) :
    ((c.putChrc f).putData e).members y = c.members y :=
  members_of_home (t := (c.putChrc f).putData e) (c := c) rfl
    (fun a _ => congrFun h.home_eq a) y

theorem writesOn_eq (h : Amends c f e d ch) (y : Address) :
    ((c.putChrc f).putData e).writesOn y = c.writesOn y :=
  writesOn_of_home (t := (c.putChrc f).putData e) (c := c) rfl
    (fun w _ => congrFun h.home_eq w.data) y

theorem apart (h : Amends c f e d ch) : Apart c ((c.putChrc f).putData e) ch.address := by
  intro y hy
  refine ⟨?_,h.members_eq y,h.writesOn_eq y,fun b hb => ?_,fun _ _ => rfl,fun _ _ => rfl⟩
  · rw [h.chrcAt_eq,Function.update_of_ne hy]
  · rw [h.att_eq,Function.update_of_ne]
    intro hbe
    have hh := (mem_members.mp hb).2
    rw [hbe,h.reads.home] at hh
    exact hy (Option.some.inj hh).symm

theorem cells (h : Amends c f e d ch) (hc : c.Cells loans) (hr : d.refCount ≤ e.refCount) :
    ((c.putChrc f).putData e).Cells loans :=
  (hc.putChrc (h.chrc ▸ h.reads.at)).putData h.found h.home hr

theorem cells_acquired (h : Amends c f e d ch) (hc : c.Cells loans)
    (hr : e.refCount = d.refCount + 1) :
    ((c.putChrc f).putData e).Cells (e.address :: loans) := by
  have hx : c.chrcAt f.address = some ch := h.chrc ▸ h.reads.at
  have hf : (c.putChrc f).chrcAt d.chrc = some f := by
    rw [chrcAt_putChrc hx,h.chrc,h.reads.chrcAddress,Function.update_self]
  exact (hc.putChrc hx).acquire ⟨h.reads.data,hf⟩ rfl h.home hr

end Amends

end Minipro.GattNotify
