import Minipro.Bluez.NotifyDelivery

namespace Minipro.GattNotify
open Att GattClient GattDb Keyed References Transition

variable {c t u : Client} {a b x y : Address} {d e : NotifyData} {ch f g : NotifyChrc}
  {w : CccWrite} {db : Db} {s : Except Fault Client} {ls : List Event} {attId id : UInt32}

-- disable_ccc_callback loses a request queued behind it, enable_ccc_callback one whose write is
-- refused.
def Disciplined (c : Client) : Event → Prop
  | .registerNotify handle _ => Joinable c handle
  | .unregisterNotify id _ =>
    ∀ a ∈ c.notifyList, ∀ d ch, c.Reads a d ch → d.id = id → ch.cccWriteId = 0
  | .answer _ _ _ attId => attId ≠ 0
  | .notification valueHandle value _ =>
    ∀ op, changedRange value = some op → c.inSvcChngd = true ∨ Guarded c valueHandle op
  | .discovered sent attId =>
    (∀ handle, registering c (.discovered sent attId) = some handle → Joinable c handle) ∧
      ∀ op, c.svcChngdQueue.head? = some op → Quiet c op
  | _ => True

def Obeyed (s : Except Fault Client) (e : Event) : Prop := ∀ c, s = .ok c → Disciplined c e

theorem inv_new (db : Db) : Inv (Client.new db) where
  cells := ⟨List.nodup_nil,fun _ h => absurd rfl h,fun _ h => absurd rfl h,List.nodup_nil,
    fun _ => Nat.zero_le _,fun _ h => by cases h⟩
  proper _ _ h := by cases h
  unlisted _ _ := rfl
  once _ := Nat.zero_le 1
  unborn _ _ := rfl

theorem handle_inv {l : Event} (hi : Inv c) (hd : Disciplined c l) (he : c.enabled l) :
    ∃ t, c.handle l = .ok t ∧ Inv t := by
  cases l with
  | registerNotify handle attId =>
    obtain ⟨t,id,ht,hit,_⟩ := registerNotify_spec hi handle .upper attId hd
    refine ⟨t,?_,hit⟩
    rw [Client.handle,ht]
    rfl
  | unregisterNotify id attId =>
    obtain ⟨t,ht,hit,_⟩ := unregister_idle hi id attId hd
    exact ⟨t,ht,hit⟩
  | answer w opcode pdu attId =>
    obtain ⟨t,_,_,ht,ho,_⟩ := answer_spec opcode pdu hi (of_decide_eq_true he) hd
    exact ⟨t,ht,ho.inv⟩
  | dropped w performed =>
    obtain ⟨t,_,ht,ho,_⟩ := dropped_spec hi (of_decide_eq_true he)
    exact ⟨t,ht,ho.inv⟩
  | notification valueHandle value sent =>
    obtain ⟨t,ht,hit,_⟩ := notification_spec hi valueHandle value sent hd
    exact ⟨t,ht,hit⟩
  | stored db => exact ⟨_,rfl,hi.aside db _ _ _⟩
  | discovered sent attId =>
    obtain ⟨t,ht,hit,_⟩ := discovered_spec hi sent attId hd.1 hd.2
    exact ⟨t,ht,hit⟩

theorem inv_run (hr : Client.machine.run (.ok (Client.new db)) ls = some s)
    (ha : Client.machine.Along Obeyed (.ok (Client.new db)) ls) : ∃ c, s = .ok c ∧ Inv c := by
  refine Client.machine.along_invariant (fun s => ∃ c, s = .ok c ∧ Inv c) Obeyed ?_
    ⟨_,rfl,inv_new db⟩ ha hr
  rintro _ l s ⟨c,rfl,hi⟩ hd hs
  obtain ⟨he,hs⟩ := Option.ite_none_right_eq_some.mp hs
  obtain ⟨t,ht,hit⟩ := handle_inv hi (hd c rfl) he
  exact ⟨t,(Option.some.inj hs).symm.trans ht,hit⟩

theorem along_cons {ok : Except Fault Client → Event → Prop} {l : Event} (hd : ok (.ok c) l)
    (hs : Client.machine.step (.ok c) l = some (.ok t)) (h : Client.machine.Along ok (.ok t) ls) :
    Client.machine.Along ok (.ok c) (l :: ls) := by
  refine ⟨hd,fun u hu => ?_⟩
  rw [hs] at hu
  obtain rfl := Option.some.inj hu
  exact h

theorem obeyed_cons {l : Event} (hd : Disciplined c l)
    (hs : Client.machine.step (.ok c) l = some (.ok t))
    (h : Client.machine.Along Obeyed (.ok t) ls) :
    Client.machine.Along Obeyed (.ok c) (l :: ls) := by
  refine along_cons (fun u hu => ?_) hs h
  obtain rfl := Except.ok.inj hu
  exact hd

theorem Proper.counts (h : Proper c ch) : (c.writesOn ch.address).length ≤ 1 ∧
    ch.notifyCount = if ch.cccWriteId = 0 then ((c.members ch.address).length : Int) else 0 := by
  cases h.phase with
  | idle h0 hw _ hn =>
    rw [hw,if_pos h0]
    exact ⟨Nat.zero_le 1,hn⟩
  | enabling w _ hw hp _ hn =>
    rw [hw,if_neg (hp.id ▸ hp.sent)]
    exact ⟨le_rfl,hn⟩
  | disabling w _ hw hp _ _ hn =>
    rw [hw,if_neg (hp.id ▸ hp.sent)]
    exact ⟨le_rfl,hn⟩
  | stranded h0 hw _ hn =>
    rw [hw,if_neg h0]
    exact ⟨Nat.zero_le 1,hn⟩

theorem registrations_counted (hr : Client.machine.run (.ok (Client.new db)) ls = some s)
    (ha : Client.machine.Along Obeyed (.ok (Client.new db)) ls) :
    ∃ c, s = .ok c ∧ ∀ ch ∈ c.notifyChrcs,
      (c.writesOn ch.address).length ≤ 1 ∧
      ch.notifyCount = if ch.cccWriteId = 0 then ((c.members ch.address).length : Int) else 0 := by
  obtain ⟨c,rfl,hi⟩ := inv_run hr ha
  exact ⟨c,rfl,fun ch hm => (hi.proper ch.address ch (hi.cells.at_mem hm)).counts⟩

def changingServices : Db :=
  { Db.new with
    services := [{
      address := 0
      active := true
      numHandles := 4
      declaration := ⟨1,primaryServiceUuid,[0x01,0x18]⟩
      attributes := [⟨2,characteristicUuid,[0x20,3,0,0x05,0x2a]⟩,⟨3,svcChngdUuid,[]⟩,
        ⟨4,clientCharacCfgUuid,[]⟩]
      placed := by decide
      ends := by decide
      fits := by decide },{
      address := 1
      active := true
      numHandles := 4
      declaration := ⟨5,primaryServiceUuid,[0x0d,0x18]⟩
      attributes := [⟨6,characteristicUuid,[0x10,7,0,0x37,0x2a]⟩,⟨7,.uuid16 0x2a37,[]⟩,
        ⟨8,clientCharacCfgUuid,[]⟩]
      placed := by decide
      ends := by decide
      fits := by decide }]
    allocated := 2 }

def changing : List Event :=
  [.discovered true 1,.answer ⟨1,true,1,[4,0,2,0]⟩ opWriteRsp [] 9,.registerNotify 7 2,
    .registerNotify 7 0,.answer ⟨2,true,3,[8,0,1,0]⟩ opWriteRsp [] 9,
    .notification 3 [5,0,8,0] true]

def changed : Client :=
  ⟨changingServices.clearRange 5 8,[⟨0,3,4,0x20,1,[],0⟩],[⟨1,1,0,1,0,.serviceChanged⟩],[1],4,5,[],
    [.returned 1 1,.registered 1 0,.returned 3 2,.returned 4 3,.registered 3 0,.registered 4 0,
      .notified 1 [5,0,8,0],.destroyed 3,.destroyed 4],1,true,[]⟩

theorem changing_run :
    Client.machine.run (.ok (Client.new changingServices)) changing = some (.ok changed) := rfl

def listening : Client :=
  ⟨changingServices,[⟨0,3,4,0x20,1,[],0⟩,⟨2,7,8,0x10,2,[],0⟩],
    [⟨1,1,0,1,0,.serviceChanged⟩,⟨3,2,0,1,2,.upper⟩,⟨4,3,0,1,2,.upper⟩],[1,3,4],4,5,[],
    [.returned 1 1,.registered 1 0,.returned 3 2,.returned 4 3,.registered 3 0,.registered 4 0],
    1,false,[]⟩

theorem listening_guarded : Guarded listening 3 ⟨5,8⟩ := by
  have hq : ∀ ch ∈ listening.notifyChrcs, Client.covers 5 8 ch → ch.cccWriteId = 0 := by decide
  have hown : ∀ a ∈ listening.notifyList, reenters listening 3 a → ¬ gone listening 5 8 a := by decide
  refine ⟨fun _ _ _ => hq,fun front a rest hs _ hr hg => ?_⟩
  exact absurd hg (hown a (by rw [hs]; simp) hr)

def subscribing : Client :=
  ⟨changingServices,[⟨0,3,4,0x20,0,[],1⟩],[⟨1,1,1,2,0,.serviceChanged⟩],[1],2,2,
    [⟨1,true,1,[4,0,2,0]⟩],[.returned 1 1],1,false,[]⟩

theorem discovered_obeyed (h : Client.machine.Along Obeyed (.ok subscribing) ls) :
    Client.machine.Along Obeyed (.ok (Client.new changingServices)) (.discovered true 1 :: ls) := by
  refine obeyed_cons ⟨fun handle hr ch hs => ?_,fun op ho => ?_⟩ rfl h
  · cases hr
    cases hs
  · cases ho

theorem changing_obeyed :
    Client.machine.Along Obeyed (.ok (Client.new changingServices)) changing := by
  refine discovered_obeyed (obeyed_cons (show (9 : UInt32) ≠ 0 by decide) rfl ?_)
  refine obeyed_cons (fun ch hs => ?_) rfl ?_
  · cases hs
  refine obeyed_cons (fun ch hs w hw => ?_) rfl ?_
  · cases hs
    obtain rfl := List.mem_singleton.mp hw
    rfl
  refine obeyed_cons (t := listening) (show (9 : UInt32) ≠ 0 by decide) rfl
    ⟨fun c hc op ho => .inr ?_,fun _ _ => trivial⟩
  obtain rfl := Except.ok.inj hc
  obtain rfl := Option.some.inj ho
  exact listening_guarded

theorem registrations_counted_changing :
    ∃ c : Client, Except.ok changed = (Except.ok c : Except Fault Client) ∧
      ∀ ch ∈ c.notifyChrcs, (c.writesOn ch.address).length ≤ 1 ∧
        ch.notifyCount = if ch.cccWriteId = 0 then ((c.members ch.address).length : Int) else 0 :=
  registrations_counted changing_run changing_obeyed

def Waiting (c : Client) (a : Address) : Prop :=
  a ∈ c.notifyList ∧ ∃ ch, (c.home a).bind c.chrcAt = some ch ∧ ch.cccWriteId ≠ 0

theorem reported_unless_waiting (hi : Inv c) (a : Address) : c.returns a ≤ 1 ∧
    (Waiting c a → c.returns a = 1 ∧ c.reports a = 0) ∧
    (¬ Waiting c a → c.reports a = c.returns a) := by
  have h1 := hi.once a
  by_cases hm : a ∈ c.notifyList
  · obtain ⟨d,ch,hd⟩ := listed_reads hi hm
    have hb : (c.home a).bind c.chrcAt = some ch := by
      rw [hd.home,Option.bind_some,hd.at]
    have ht := (hi.proper ch.address ch hd.at).tally a (mem_members.mpr ⟨hm,hd.home⟩)
    refine ⟨h1,?_,fun hw => ?_⟩
    · rintro ⟨_,g,hg,h0⟩
      rw [hb] at hg
      obtain rfl := Option.some.inj hg
      rw [if_neg h0] at ht
      omega
    · have h0 : ch.cccWriteId = 0 := by
        by_contra h0
        exact hw ⟨hm,ch,hb,h0⟩
      rwa [if_pos h0] at ht
  · exact ⟨h1,fun hw => absurd hw.1 hm,fun _ => hi.unlisted a hm⟩

theorem registrations_reported_once (hr : Client.machine.run (.ok (Client.new db)) ls = some s)
    (ha : Client.machine.Along Obeyed (.ok (Client.new db)) ls) :
    ∃ c, s = .ok c ∧ ∀ a, c.returns a ≤ 1 ∧
      (Waiting c a → c.returns a = 1 ∧ c.reports a = 0) ∧
      (¬ Waiting c a → c.reports a = c.returns a) := by
  obtain ⟨c,rfl,hi⟩ := inv_run hr ha
  exact ⟨c,rfl,reported_unless_waiting hi⟩

theorem registrations_reported_once_changing :
    ∃ c : Client, Except.ok changed = (Except.ok c : Except Fault Client) ∧
      ∀ a, c.returns a ≤ 1 ∧ (Waiting c a → c.returns a = 1 ∧ c.reports a = 0) ∧
        (¬ Waiting c a → c.reports a = c.returns a) :=
  registrations_reported_once changing_run changing_obeyed

def Busy (c : Client) (id : UInt32) : Prop := ∃ d ch,
  c.findListed id c.notifyList = .ok (some d) ∧ c.Reads d.address d ch ∧ ch.cccWriteId ≠ 0

theorem unregister_busy (hb : Busy c id) (attId : UInt32) :
    c.unregisterNotify id attId = .error .aborted := by
  obtain ⟨d,ch,hr,hd,h0⟩ := hb
  rw [unregister_eq hd hr,if_pos (.inr h0)]

theorem unregister_free (hi : Inv c) (hb : ¬ Busy c id) (attId : UInt32) :
    ∃ t, c.unregisterNotify id attId = .ok t := by
  obtain ⟨r,hr,hf⟩ := findListed_ok id c.notifyList fun a => listed_reads hi
  cases r with
  | none =>
    refine ⟨c,?_⟩
    rw [Client.unregisterNotify,hr]
    rfl
  | some d =>
    obtain ⟨hm,_,ch,hd⟩ := hf d rfl
    have h0 : ch.cccWriteId = 0 := by
      by_contra h0
      exact hb ⟨d,ch,hr,hd,h0⟩
    have hl : Leaves c d.address d ch := ⟨hd,hm,h0⟩
    obtain ⟨t,_,ht,_⟩ := hl.complete hi attId
    have hpos := (hl.count hi).1
    refine ⟨t,?_⟩
    rw [unregister_eq hd hr,if_neg]
    · exact ht
    · rintro (hn | hn)
      · omega
      · exact hn h0

theorem unregister_aborts_iff (hr : Client.machine.run (.ok (Client.new db)) ls = some (.ok c))
    (ha : Client.machine.Along Obeyed (.ok (Client.new db)) ls) (id attId : UInt32) :
    (c.unregisterNotify id attId = .error .aborted ↔ Busy c id) ∧
      ((∃ t, c.unregisterNotify id attId = .ok t) ↔ ¬ Busy c id) := by
  obtain ⟨_,hc,hi⟩ := inv_run hr ha
  obtain rfl := Except.ok.inj hc
  by_cases hb : Busy c id
  · have he := unregister_busy hb attId
    refine ⟨iff_of_true he hb,iff_of_false (fun ⟨t,ht⟩ => ?_) (not_not.mpr hb)⟩
    rw [he] at ht
    cases ht
  · obtain ⟨t,ht⟩ := unregister_free hi hb attId
    refine ⟨iff_of_false (fun he => ?_) hb,iff_of_true ⟨t,ht⟩ hb⟩
    rw [ht] at he
    cases he

def oneCharacteristic : Db :=
  { Db.new with
    services := [{
      address := 0
      active := true
      numHandles := 4
      declaration := ⟨1,primaryServiceUuid,[0x00,0x18]⟩
      attributes := [⟨2,characteristicUuid,[0x10,3,0,0x01,0x2a]⟩,⟨3,.uuid16 0x2a01,[]⟩,
        ⟨4,clientCharacCfgUuid,[]⟩]
      placed := by decide
      ends := by decide
      fits := by decide }] }

def oneEnabling : Client :=
  ⟨oneCharacteristic,[⟨0,3,4,0x10,0,[],1⟩],[⟨1,1,1,2,0,.upper⟩],[1],2,2,
    [⟨1,true,1,[4,0,1,0]⟩],[.returned 1 1],0,false,[]⟩

theorem oneEnabling_run :
    Client.machine.run (.ok (Client.new oneCharacteristic)) [.registerNotify 3 1] =
      some (.ok oneEnabling) := rfl

theorem register_obeyed (h : Client.machine.Along Obeyed (.ok oneEnabling) ls) :
    Client.machine.Along Obeyed (.ok (Client.new oneCharacteristic)) (.registerNotify 3 1 :: ls) := by
  refine obeyed_cons (t := oneEnabling) (fun ch hs => ?_) rfl h
  cases hs

theorem unregister_aborts_enabling :
    (oneEnabling.unregisterNotify 1 0 = .error .aborted ↔ Busy oneEnabling 1) ∧
      ((∃ t, oneEnabling.unregisterNotify 1 0 = .ok t) ↔ ¬ Busy oneEnabling 1) :=
  unregister_aborts_iff oneEnabling_run (register_obeyed trivial) 1 0

end Minipro.GattNotify
