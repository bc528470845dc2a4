import Minipro.Bluez.NotifyRun

namespace Minipro.GattNotify
open Att GattClient GattDb Keyed Transition Notifications Link

variable {c t u : Client} {a b x y : Address} {ch f g : NotifyChrc} {w : CccWrite} {db : Db}
  {ls : List Event} {srv : Server} {pdu : List UInt8}

def served (srv : Server) : Event → Server
  | .answer w opcode _ _ => if opcode = opErrorRsp then srv else srv.receive (opWriteReq :: w.pdu)
  | .dropped w performed => if performed then srv.receive (opWriteReq :: w.pdu) else srv
  | _ => srv

def Separate (c : Client) : Prop := ∀ x y f g, c.chrcAt x = some f → c.chrcAt y = some g →
  f.cccHandle = g.cccHandle → f.cccHandle ≠ 0 → x = y

def Backed (c : Client) (srv : Server) : Prop := ∀ x ch, c.chrcAt x = some ch →
  ch.cccHandle ≠ 0 → ch.notifyCount ≠ 0 →
    enablePdu ch true = some (putLe16 ch.cccHandle ++ srv ch.cccHandle)

def Unshared (s : Except Fault Client) (l : Event) : Prop := ∀ c ch, s = .ok c →
  newly c l = some ch → ∀ g ∈ c.notifyChrcs, g.cccHandle = ch.cccHandle → ch.cccHandle = 0

theorem Alike.same_pdu (h : Alike ch f) (enable : Bool) : enablePdu f enable = enablePdu ch enable := by
  rw [enablePdu,h.handle,h.properties,enablePdu]

theorem Carried.separate (h : Carried c t) (hs : Separate c) : Separate t := by
  intro x y f g hx hy hfg hf
  obtain ⟨f',hx',hf'⟩ := h x f hx
  obtain ⟨g',hy',hg'⟩ := h y g hy
  refine hs x y f' g' hx' hy' ?_ (hf'.alike.handle ▸ hf)
  rw [← hf'.alike.handle,← hg'.alike.handle]
  exact hfg

theorem Carried.backed (h : Carried c t) (hb : Backed c srv) : Backed t srv := by
  intro x f hx hf hn
  obtain ⟨ch,hch,hc⟩ := h x f hx
  rw [hc.alike.same_pdu,hc.alike.handle]
  exact hb x ch hch (hc.alike.handle ▸ hf) (hc.backed hf hn)

theorem separate_addChrc (hi : Inv c) (hc : Created c ch) (hs : Separate c)
    (hn : ∀ g ∈ c.notifyChrcs, g.cccHandle = ch.cccHandle → ch.cccHandle = 0) :
    Separate (c.addChrc ch) := by
  have hat : ∀ x f, (c.addChrc ch).chrcAt x = some f →
      x = ch.address ∧ f = ch ∨ c.chrcAt x = some f := by
    intro x f hx
    rw [Client.chrcAt_addChrc (chrcAt_new hi hc.address),Function.update_apply] at hx
    split at hx
    next hxa => exact .inl ⟨hxa,(Option.some.inj hx).symm⟩
    next => exact .inr hx
  intro x y f g hx hy hfg hf
  rcases hat x f hx with ⟨rfl,rfl⟩ | hx'
  · rcases hat y g hy with ⟨rfl,_⟩ | hy'
    · rfl
    · exact absurd (hn g (mem_of_find hy').1 hfg.symm) hf
  · rcases hat y g hy with ⟨rfl,rfl⟩ | hy'
    · exact absurd (hfg.trans (hn f (mem_of_find hx').1 hfg)) hf
    · exact hs x y f g hx' hy' hfg hf

theorem backed_addChrc (hi : Inv c) (hc : Created c ch) (hb : Backed c srv) :
    Backed (c.addChrc ch) srv := by
  intro x f hx hf hn
  rw [Client.chrcAt_addChrc (chrcAt_new hi hc.address),Function.update_apply] at hx
  split at hx
  next =>
    obtain rfl := Option.some.inj hx
    exact absurd hc.count hn
  next => exact hb x f hx hf hn

theorem created_new (h : created c handle = some ch) : Created c ch := by
  rw [created] at h
  cases hs : sharing c handle with
  | none =>
    rw [hs] at h
    exact (create_created h).1
  | some g =>
    rw [hs] at h
    cases h

theorem newly_backed {l : Event} (hi : Inv c) (hc : Carried ((newly c l).elim c c.addChrc) t)
    (hs : Separate c) (hb : Backed c srv) (hu : Unshared (.ok c) l) : Separate t ∧ Backed t srv := by
  cases hn : newly c l with
  | none =>
    rw [hn] at hc
    exact ⟨hc.separate hs,hc.backed hb⟩
  | some ch =>
    rw [hn] at hc
    obtain ⟨handle,_,hch⟩ := Option.bind_eq_some_iff.mp hn
    have hnew := created_new hch
    exact ⟨hc.separate (separate_addChrc hi hnew hs (hu c ch rfl hn)),
      hc.backed (backed_addChrc hi hnew hb)⟩

theorem pdu_eq {enable : Bool} (h : enablePdu ch enable = some pdu) :
    ∃ value, pdu = putLe16 ch.cccHandle ++ value := by
  rw [enablePdu] at h
  cases enable with
  | false => exact ⟨[0,0],(Option.some.inj h).symm⟩
  | true =>
    simp only [notifyDataWriteCcc,if_true,Option.ite_none_left_eq_some] at h
    exact ⟨_,(Option.some.inj h.2).symm⟩

theorem receive_write (srv : Server) (handle : UInt16) (value : List UInt8) :
    srv.receive (opWriteReq :: (putLe16 handle ++ value)) = Function.update srv handle value := by
  simp [Server.receive,putLe16]

theorem answer_backed (hw : Pending ch w) (hx : c.chrcAt f.address = some ch) (hf : Alike ch f)
    (ho : Outcome c t f) (hs : Separate c) (hb : Backed c srv) (opcode : UInt8)
    (hn : f.notifyCount ≠ 0 → w.enable = true ∧ opcode ≠ opErrorRsp) :
    Separate t ∧
      Backed t (if opcode = opErrorRsp then srv else srv.receive (opWriteReq :: w.pdu)) := by
  have hat : ∀ y g, t.chrcAt y = some g → y = f.address ∧ g = f ∨
      y ≠ f.address ∧ c.chrcAt y = some g := by
    intro y g hy
    rcases eq_or_ne y f.address with rfl | hne
    · exact .inl ⟨rfl,Option.some.inj (hy.symm.trans ho.chrc)⟩
    · exact .inr ⟨hne,(ho.apart y hne).chrc ▸ hy⟩
  have hfrom : ∀ y g, t.chrcAt y = some g → ∃ g', c.chrcAt y = some g' ∧ g.cccHandle = g'.cccHandle := by
    intro y g hy
    rcases hat y g hy with ⟨rfl,rfl⟩ | ⟨_,hy⟩
    · exact ⟨ch,hx,hf.handle⟩
    · exact ⟨g,hy,rfl⟩
  refine ⟨fun y z g k hy hz hgk hg => ?_,fun y g hy hg hgn => ?_⟩
  · obtain ⟨g',hy',hg'⟩ := hfrom y g hy
    obtain ⟨k',hz',hk'⟩ := hfrom z k hz
    exact hs y z g' k' hy' hz' ((hg'.symm.trans hgk).trans hk') (hg' ▸ hg)
  · obtain ⟨value,hv⟩ := pdu_eq hw.pdu
    rcases hat y g hy with ⟨rfl,rfl⟩ | ⟨hne,hy⟩
    · obtain ⟨he,hop⟩ := hn hgn
      have hp := hw.pdu
      rw [he,hv] at hp
      rw [if_neg hop,hv,receive_write,hf.same_pdu,hp,hf.handle,Function.update_self]
    · have hap : g.cccHandle ≠ ch.cccHandle := fun h => hne (hs y f.address g ch hy hx h hg)
      split
      next => exact hb y g hy hg hgn
      next =>
        rw [hv,receive_write,Function.update_of_ne hap]
        exact hb y g hy hg hgn

theorem handle_backed {l : Event} (hi : Inv c) (hd : Disciplined c l) (he : c.enabled l)
    (hs : Separate c) (hb : Backed c srv) (hu : Unshared (.ok c) l) :
    ∃ t, c.handle l = .ok t ∧ Inv t ∧ Separate t ∧ Backed t (served srv l) := by
  cases l with
  | registerNotify handle attId =>
    obtain ⟨t,id,ht,hit,hc⟩ := registerNotify_spec hi handle .upper attId hd
    refine ⟨t,?_,hit,newly_backed hi (l := .registerNotify handle attId) hc hs hb hu⟩
    rw [Client.handle,ht]
    rfl
  | unregisterNotify id attId =>
    obtain ⟨t,ht,hit,hc⟩ := unregister_idle hi id attId hd
    exact ⟨t,ht,hit,hc.separate hs,hc.backed hb⟩
  | answer w opcode pdu attId =>
    obtain ⟨t,ch,f,ht,ho,hx,hf,_,hw,hn⟩ :=
      answer_spec opcode pdu hi (of_decide_eq_true he) hd
    exact ⟨t,ht,ho.inv,answer_backed hw hx hf ho hs hb opcode hn⟩
  | dropped w performed =>
    obtain ⟨t,ch,ht,ho,hx,hw,hn⟩ := dropped_spec hi (of_decide_eq_true he)
    refine ⟨t,ht,ho.inv,?_⟩
    -- A characteristic whose write was lost counts no handler.
    cases performed with
    | false =>
      have hc := ho.carried hx (.refl ch)
      exact ⟨hc.separate hs,hc.backed hb⟩
    | true =>
      exact answer_backed hw hx ⟨rfl,rfl,rfl,rfl⟩ ho hs hb opWriteRsp fun h => absurd hn h
  | notification valueHandle value sent =>
    obtain ⟨t,ht,hit,hc⟩ := notification_spec hi valueHandle value sent hd
    exact ⟨t,ht,hit,hc.separate hs,hc.backed hb⟩
  | stored db => exact ⟨_,rfl,hi.aside db _ _ _,hs,hb⟩
  | discovered sent attId =>
    obtain ⟨t,ht,hit,hc⟩ := discovered_spec hi sent attId hd.1 hd.2
    exact ⟨t,ht,hit,newly_backed hi hc hs hb hu⟩

theorem backed_run {s : Except Fault Client} (srv : Server)
    (hr : Client.machine.run (.ok (Client.new db)) ls = some s)
    (ha : Client.machine.Along (fun s l => Obeyed s l ∧ Unshared s l) (.ok (Client.new db)) ls) :
    ∃ c, s = .ok c ∧ Inv c ∧ Separate c ∧ Backed c (ls.foldl served srv) := by
  refine Client.machine.along_history
    (fun ls s => ∃ c, s = .ok c ∧ Inv c ∧ Separate c ∧ Backed c (ls.foldl served srv)) _ ?_
    ⟨_,rfl,inv_new db,fun _ _ _ _ h => (by cases h),fun _ _ h => (by cases h)⟩ ha hr
  rintro ls _ l s ⟨c,rfl,hi,hsep,hb⟩ ⟨hd,hu⟩ hs
  obtain ⟨he,hs⟩ := Option.ite_none_right_eq_some.mp hs
  obtain ⟨t,ht,hit,hst,hbt⟩ := handle_backed hi (hd c rfl) he hsep hb hu
  refine ⟨t,(Option.some.inj hs).symm.trans ht,hit,hst,?_⟩
  rw [List.foldl_append]
  exact hbt

theorem backed_notifying (hb : Backed c srv) (hm : c.chrcAt x = some ch) (h0 : ch.cccHandle ≠ 0)
    (hn : ch.notifyCount ≠ 0) (hp : ch.properties &&& propNotify ≠ 0) :
    srv.notifying ch.cccHandle = some true := by
  obtain ⟨pdu,hpdu,hnot⟩ := ccc_notifies srv ch.cccHandle hp true
  obtain rfl := Option.some.inj ((hb x ch hm h0 hn).symm.trans hpdu)
  rwa [receive_write,Function.update_eq_self] at hnot

theorem established_are_served {s : Except Fault Client} (srv : Server)
    (hr : Client.machine.run (.ok (Client.new db)) ls = some s)
    (ha : Client.machine.Along (fun s l => Obeyed s l ∧ Unshared s l) (.ok (Client.new db)) ls) :
    ∃ c, s = .ok c ∧ ∀ ch ∈ c.notifyChrcs, ch.cccHandle ≠ 0 → ch.notifyCount ≠ 0 →
      enablePdu ch true = some (putLe16 ch.cccHandle ++ ls.foldl served srv ch.cccHandle) ∧
      (ch.properties &&& propNotify ≠ 0 →
        (ls.foldl served srv).notifying ch.cccHandle = some true) := by
  obtain ⟨c,rfl,hi,_,hb⟩ := backed_run srv hr ha
  refine ⟨c,rfl,fun ch hm h0 hn => ?_⟩
  have hx := hi.cells.at_mem hm
  exact ⟨hb ch.address ch hx h0 hn,backed_notifying hb hx h0 hn⟩

def losing : List Event :=
  [.discovered true 1,.answer ⟨1,true,1,[4,0,2,0]⟩ opWriteRsp [] 9,.registerNotify 7 2,
    .dropped ⟨2,true,3,[8,0,1,0]⟩ true]

def lost : Client :=
  ⟨changingServices,[⟨0,3,4,0x20,1,[],0⟩,⟨2,7,8,0x10,0,[],2⟩],
    [⟨1,1,0,1,0,.serviceChanged⟩,⟨3,2,2,1,2,.upper⟩],[1,3],3,4,[],
    [.returned 1 1,.registered 1 0,.returned 3 2],1,false,[]⟩

theorem losing_run :
    Client.machine.run (.ok (Client.new changingServices)) losing = some (.ok lost) := rfl

theorem losing_obeyed : Client.machine.Along Obeyed (.ok (Client.new changingServices)) losing := by
  refine discovered_obeyed (obeyed_cons (show (9 : UInt32) ≠ 0 by decide) rfl ?_)
  refine obeyed_cons (fun ch hs => ?_) rfl ⟨fun _ _ => trivial,fun _ _ => trivial⟩
  cases hs

def subscribed : Client :=
  ⟨changingServices,[⟨0,3,4,0x20,1,[],0⟩],[⟨1,1,0,1,0,.serviceChanged⟩],[1],2,2,[],
    [.returned 1 1,.registered 1 0],1,false,[]⟩

theorem subscribed_unshared (attId : UInt32) :
    Unshared (.ok subscribed) (.registerNotify 7 attId) := by
  have hn : newly subscribed (.registerNotify 7 attId) = some ⟨2,7,8,0x10,0,[],0⟩ := rfl
  have hg : ∀ g ∈ subscribed.notifyChrcs, g.cccHandle ≠ 8 := by decide
  rintro c ch hc hch g hm he
  obtain rfl := Except.ok.inj hc
  obtain rfl := Option.some.inj (hn.symm.trans hch)
  exact absurd he (hg g hm)

theorem losing_unshared :
    Client.machine.Along Unshared (.ok (Client.new changingServices)) losing := by
  refine along_cons (t := subscribing) (fun c ch hc _ g hg => ?_) rfl
    (along_cons (t := subscribed) (fun c ch _ hn => nomatch hn) rfl
      ⟨subscribed_unshared 2,fun _ _ => ⟨fun c ch _ hn => (nomatch hn),fun _ _ => trivial⟩⟩)
  obtain rfl := Except.ok.inj hc
  cases hg

theorem established_are_served_lost :
    ∃ c : Client, Except.ok lost = (Except.ok c : Except Fault Client) ∧
      ∀ ch ∈ c.notifyChrcs, ch.cccHandle ≠ 0 → ch.notifyCount ≠ 0 →
        enablePdu ch true =
          some (putLe16 ch.cccHandle ++ losing.foldl served (fun _ => [0,0]) ch.cccHandle) ∧
        (ch.properties &&& propNotify ≠ 0 →
          (losing.foldl served fun _ => [0,0]).notifying ch.cccHandle = some true) :=
  established_are_served (fun _ => [0,0]) losing_run
    (Client.machine.along_and losing_obeyed losing_unshared)

end Minipro.GattNotify
