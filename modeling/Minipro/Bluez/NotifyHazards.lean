import Minipro.Bluez.NotifyRun

namespace Minipro.GattNotify
open Att GattClient GattDb Keyed Transition

variable {c t u : Client} {a b x y : Address} {d e : NotifyData} {ch f g : NotifyChrc}
  {w : CccWrite} {db : Db} {ls : List Event} {attId id : UInt32} {start last : UInt16}

structure Shrinks (c t : Client) : Prop where
  writes : t.writes = c.writes
  home : ∀ b y, t.home b = some y → c.home b = some y
  chrcAt : ∀ y, t.chrcAt y = none ∨ t.chrcAt y = c.chrcAt y

theorem Shrinks.refl (c : Client) : Shrinks c c := ⟨rfl,fun _ _ h => h,fun _ => .inr rfl⟩

theorem Shrinks.trans (h : Shrinks c t) (h' : Shrinks t u) : Shrinks c u where
  writes := h'.writes.trans h.writes
  home b y hb := h.home b y (h'.home b y hb)
  chrcAt y := by
    rcases h'.chrcAt y with hn | he
    · exact .inl hn
    · rcases h.chrcAt y with hn | he'
      · exact .inl (he.trans hn)
      · exact .inr (he.trans he')

theorem notification_frees_iff (hr : Client.machine.run (.ok (Client.new db)) ls = some (.ok c))
    (ha : Client.machine.Along Obeyed (.ok (Client.new db)) ls) {value : List UInt8}
    (op : ServiceChangedOp) (hv : changedRange value = some op) (hb : c.inSvcChngd = false)
    (hq : Quiet c op) (valueHandle : UInt16) (sent : Bool) :
    (c.notifyCb valueHandle value sent = .error .freed ↔ ¬ Intact c valueHandle op) ∧
      ((∃ t, c.notifyCb valueHandle value sent = .ok t) ↔ Intact c valueHandle op) := by
  obtain ⟨_,hc,hi⟩ := inv_run hr ha
  obtain rfl := Except.ok.inj hc
  by_cases hn : Intact c valueHandle op
  · obtain ⟨t,ht,_⟩ := notification_spec hi valueHandle value sent fun op' hop => by
      obtain rfl := Option.some.inj (hv.symm.trans hop)
      exact .inr ⟨fun _ _ _ => hq,hn⟩
    refine ⟨iff_of_false (fun he => ?_) (not_not.mpr hn),iff_of_true ⟨t,ht⟩ hn⟩
    rw [ht] at he
    cases he
  · have he : c.notifyCb valueHandle value sent = .error .freed :=
      notification_frees hi hv hb hq hn
    refine ⟨iff_of_true he hn,iff_of_false (fun ⟨t,ht⟩ => ?_) hn⟩
    rw [he] at ht
    cases ht

def crowding : List Event :=
  [.discovered true 1,.answer ⟨1,true,1,[4,0,2,0]⟩ opWriteRsp [] 9,.registerNotify 3 0,
    .registerNotify 7 2,.answer ⟨2,true,4,[8,0,1,0]⟩ opWriteRsp [] 9]

def crowded : Client :=
  ⟨changingServices,[⟨0,3,4,0x20,2,[],0⟩,⟨3,7,8,0x10,1,[],0⟩],
    [⟨1,1,0,1,0,.serviceChanged⟩,⟨2,2,0,1,0,.upper⟩,⟨4,3,0,1,3,.upper⟩],[1,2,4],4,5,[],
    [.returned 1 1,.registered 1 0,.registered 2 0,.returned 2 2,.returned 4 3,.registered 4 0],
    1,false,[]⟩

theorem crowding_run :
    Client.machine.run (.ok (Client.new changingServices)) crowding = some (.ok crowded) := rfl

theorem crowding_obeyed :
    Client.machine.Along Obeyed (.ok (Client.new changingServices)) crowding := by
  refine discovered_obeyed (obeyed_cons (show (9 : UInt32) ≠ 0 by decide) rfl ?_)
  refine obeyed_cons (fun ch hs w hw => ?_) rfl (obeyed_cons (fun ch hs => ?_) rfl
    ⟨fun _ _ => show (9 : UInt32) ≠ 0 by decide,fun _ _ => trivial⟩)
  · cases hs
    cases hw
  · cases hs

theorem notification_frees_crowded :
    crowded.notifyCb 3 [1,0,4,0] true = .error .freed ∧ ¬ Intact crowded 3 ⟨1,4⟩ := by
  have hq : ∀ ch ∈ crowded.notifyChrcs, Client.covers 1 4 ch → ch.cccWriteId = 0 := by decide
  have hf : crowded.notifyCb 3 [1,0,4,0] true = .error .freed := rfl
  exact ⟨hf,(notification_frees_iff crowding_run crowding_obeyed ⟨1,4⟩ rfl rfl hq 3 true).1.mp hf⟩

structure Passes (c t : Client) (f : NotifyChrc) : Prop where
  cells : t.Cells []
  chrc : t.chrcAt f.address = some f
  listed : t.notifyList = c.notifyList
  home : ∀ b ∈ t.owners, t.home b = c.home b
  returns : t.returns = c.returns

theorem Passes.finish {v : Client} (hv : v.Cells [a]) (hx : v.chrcAt f.address = some f)
    (hl : v.notifyList = c.notifyList) (hh : v.home = c.home) (hr : v.returns = c.returns) :
    ∃ t, v.unref a = .ok t ∧ Passes c t f ∧ t.writes = v.writes ∧ t.reports = v.reports := by
  obtain ⟨t,ht,hc,hs⟩ := hv.unref
  refine ⟨t,ht,⟨hc,?_,hs.listed.trans hl,fun b hb => ?_,hs.returns.trans hr⟩,hs.writes,hs.reports⟩
  · rw [Client.chrcAt,hs.chrcs]
    exact hx
  · rw [Client.owners,hs.listed,hs.writes] at hb
    rw [hs.home b (List.mem_append_left [] hb),hh]

structure Owed (c : Client) (w : CccWrite) (ch : NotifyChrc) : Prop where
  cells : c.Cells []
  write : w ∈ c.writes
  home : c.home w.data = some ch.address
  chrc : c.chrcAt ch.address = some ch
  count : ch.notifyCount = 0
  busy : ch.cccWriteId ≠ 0

namespace Owed

theorem guard (h : Owed c w ch) : ¬ (ch.notifyCount ≠ 0 ∨ ch.cccWriteId = 0) :=
  callback_guard h.count h.busy

end Owed

end Minipro.GattNotify
