import Minipro.Bluez.NotifyServiceChanged

namespace Minipro.GattNotify
open Att GattClient GattDb Keyed References

variable {c t u : Client} {a b e x y : Address} {d : NotifyData} {ch f g : NotifyChrc}
  {op : ServiceChangedOp} {valueHandle start last : UInt16} {value : List UInt8} {sent : Bool}
  {l rest : List Address}

def Quiet (c : Client) (op : ServiceChangedOp) : Prop := ∀ ch ∈ c.notifyChrcs,
  Client.covers op.startHandle op.endHandle ch → ch.cccWriteId = 0

def Clear (c : Client) (op : ServiceChangedOp) : Prop := ∀ ch ∈ c.notifyChrcs,
  Client.covers op.startHandle op.endHandle ch = false

-- The notification of valueHandle reaches service_changed_cb through the handler a.
def reenters (c : Client) (valueHandle : UInt16) (a : Address) : Bool :=
  (find NotifyData.address a c.datas).any fun d =>
    d.notify = .serviceChanged ∧ (c.chrcAt d.chrc).any fun ch => ch.valueHandle = valueHandle

-- The loop does not go on from an unlinked entry to one that was freed behind it, unless the list
-- is empty by then.
def Intact (c : Client) (valueHandle : UInt16) (op : ServiceChangedOp) : Prop :=
  ∀ front a rest, c.notifyList = front ++ a :: rest →
    (∀ e ∈ front, reenters c valueHandle e = false) → reenters c valueHandle a →
      gone c op.startHandle op.endHandle a →
        ∀ b, rest.head? = some b → gone c op.startHandle op.endHandle b →
          ∀ e ∈ c.notifyList, gone c op.startHandle op.endHandle e

def Guarded (c : Client) (valueHandle : UInt16) (op : ServiceChangedOp) : Prop :=
  (∀ a ∈ c.notifyList, reenters c valueHandle a → Quiet c op) ∧ Intact c valueHandle op

theorem Carried.refl (c : Client) : Carried c c := fun _ f hf => ⟨f,hf,.refl f⟩

theorem Carried.trans (h : Carried c t) (h' : Carried t u) : Carried c u := by
  intro x k hk
  obtain ⟨g,hg,hgk⟩ := h' x k hk
  obtain ⟨f,hf,hfg⟩ := h x g hg
  have ha : Alike f k := ⟨hgk.alike.address.trans hfg.alike.address,
    hgk.alike.valueHandle.trans hfg.alike.valueHandle,hgk.alike.handle.trans hfg.alike.handle,
    hgk.alike.properties.trans hfg.alike.properties⟩
  refine ⟨f,hf,ha,fun h0 hn => ?_⟩
  exact hfg.backed (hgk.alike.handle ▸ h0) (hgk.backed h0 hn)

theorem Clear.quiet (h : Clear c op) : Quiet c op := fun ch hm hc => nomatch (h ch hm).symm.trans hc

theorem Clear.gone (h : Clear c op) (a : Address) :
    gone c op.startHandle op.endHandle a = false := by
  rw [GattNotify.gone]
  cases hx : (c.home a).bind c.chrcAt with
  | none => rfl
  | some ch =>
    obtain ⟨x,_,hch⟩ := Option.bind_eq_some_iff.mp hx
    exact h ch (mem_of_find hch).1

-- What one handler does to the list that the loop walks.
inductive Delivered (c t : Client) (valueHandle : UInt16) (value : List UInt8) (a : Address) :
    Prop where
  | kept (hl : t.notifyList = c.notifyList) (hx : t.notifyChrcs = c.notifyChrcs)
      (hd : t.datas = c.datas) (hb : t.inSvcChngd = c.inSvcChngd)
      (hr : c.inSvcChngd = true ∨ reenters c valueHandle a = false ∨ changedRange value = none)
  | pruned (op : ServiceChangedOp) (hv : changedRange value = some op)
      (hb : c.inSvcChngd = false) (hr : reenters c valueHandle a)
      (hl : ∀ b, b ∈ t.notifyList ↔
        b ∈ c.notifyList ∧ ¬ gone c op.startHandle op.endHandle b)
      (hc : Clear t op)

theorem handler_spec (hi : Inv c) (ha : a ∈ c.notifyList) (valueHandle : UInt16)
    (value : List UInt8) (sent : Bool)
    (hq : ∀ op, changedRange value = some op → c.inSvcChngd = false →
      reenters c valueHandle a → Quiet c op) :
    ∃ t, c.notifyHandler a valueHandle value sent = .ok t ∧ Inv t ∧ Carried c t ∧
      Delivered c t valueHandle value a := by
  obtain ⟨d,ch,hd⟩ := listed_reads hi ha
  have hother : ch.valueHandle ≠ valueHandle → c.notifyHandler a valueHandle value sent = .ok c := by
    intro hv
    simp only [Client.notifyHandler,hd.data_ok,hd.chrc_ok,ok_bind,if_pos hv]
  have hupper : ch.valueHandle = valueHandle → d.notify = .upper →
      c.notifyHandler a valueHandle value sent = .ok (c.note (.notified a value)) := by
    intro hv hnot
    simp only [Client.notifyHandler,hd.data_ok,hd.chrc_ok,ok_bind,if_neg (not_not.mpr hv),hnot]
  have hown : ch.valueHandle = valueHandle → d.notify = .serviceChanged →
      c.notifyHandler a valueHandle value sent =
        (c.note (.notified a value)).serviceChangedCb value sent := by
    intro hv hnot
    simp only [Client.notifyHandler,hd.data_ok,hd.chrc_ok,ok_bind,if_neg (not_not.mpr hv),hnot]
  have hn : Inv (c.note (.notified a value)) := notified_inv hi a value
  have hre : reenters c valueHandle a =
      decide (d.notify = .serviceChanged ∧ ch.valueHandle = valueHandle) := by
    simp [reenters,hd.data,hd.chrc]
  rcases ne_or_eq ch.valueHandle valueHandle with hv | hv
  · exact ⟨c,hother hv,hi,.refl c,.kept rfl rfl rfl rfl (.inr (.inl (by simp [hre,hv])))⟩
  · cases hnot : d.notify with
    | upper =>
      exact ⟨_,hupper hv hnot,hn,.refl c,.kept rfl rfl rfl rfl (.inr (.inl (by simp [hre,hnot])))⟩
    | serviceChanged =>
      have hre : reenters c valueHandle a := by simp [hre,hnot,hv]
      rw [hown hv hnot]
      cases hrange : changedRange value with
      | none =>
        refine ⟨_,?_,hn,.refl c,.kept rfl rfl rfl rfl (.inr (.inr hrange))⟩
        simp only [Client.serviceChangedCb,hrange]
      | some op =>
        cases hb : c.inSvcChngd with
        | true =>
          let t := (c.note (.notified a value)).aside c.db c.svcChngdIndId c.inSvcChngd
            (c.svcChngdQueue ++ [op])
          have ht : (c.note (.notified a value)).serviceChangedCb value sent = .ok t := by
            rw [Client.serviceChangedCb,hrange]
            exact if_neg (not_not.mpr hb)
          exact ⟨t,ht,hn.aside _ _ _ _,.refl c,.kept rfl rfl rfl rfl (.inl hb)⟩
        | false =>
          obtain ⟨t,ht,hp⟩ := serviceChanged_spec hn op.startHandle op.endHandle sent
            (hq op hrange hb hre)
          have ht' : (c.note (.notified a value)).serviceChangedCb value sent = .ok t := by
            rw [Client.serviceChangedCb,hrange]
            exact (if_pos (Bool.not_eq_true _ ▸ hb)).trans ht
          exact ⟨t,ht',hp.inv,hp.carried,.pruned op hrange hb hre hp.listed hp.clear⟩

-- l is what the loop has not reached yet. Once a range has been processed nothing that it covers is
-- left, so that a second handler of the client finds nothing to free.
def Steady (c : Client) (valueHandle : UInt16) (op : ServiceChangedOp) (l : List Address) : Prop :=
  c.inSvcChngd = true ∨ Clear c op ∨ Guarded c valueHandle op ∧
    ∃ front, c.notifyList = front ++ l ∧ ∀ e ∈ front, reenters c valueHandle e = false

theorem Steady.quiet (h : Steady c valueHandle op (a :: rest)) (hb : c.inSvcChngd = false)
    (hr : reenters c valueHandle a) : Quiet c op := by
  rcases h with hbusy | hclear | ⟨hg,front,hl,_⟩
  · exact nomatch hb.symm.trans hbusy
  · exact hclear.quiet
  · exact hg.1 a (by rw [hl]; simp) hr

theorem Steady.skip (h : Steady c valueHandle op (a :: rest)) (ha : a ∉ c.notifyList) :
    Steady c valueHandle op rest := by
  rcases h with hbusy | hclear | ⟨hg,front,hl,_⟩
  · exact .inl hbusy
  · exact .inr (.inl hclear)
  · exact absurd (hl ▸ by simp) ha

theorem chrcAt_of_chrcs (hx : t.notifyChrcs = c.notifyChrcs) : t.chrcAt = c.chrcAt := by
  funext x
  rw [Client.chrcAt,hx,Client.chrcAt]

theorem gone_of_cells (hx : t.notifyChrcs = c.notifyChrcs) (hd : t.datas = c.datas)
    (start last : UInt16) : gone t start last = gone c start last := by
  funext b
  rw [gone,home_of_datas hd,chrcAt_of_chrcs hx,gone]

theorem reenters_of_cells (hx : t.notifyChrcs = c.notifyChrcs) (hd : t.datas = c.datas)
    (valueHandle : UInt16) : reenters t valueHandle = reenters c valueHandle := by
  funext b
  rw [reenters,hd,chrcAt_of_chrcs hx,reenters]

theorem Guarded.congr (hg : Guarded c valueHandle op) (hl : t.notifyList = c.notifyList)
    (hx : t.notifyChrcs = c.notifyChrcs) (hd : t.datas = c.datas) : Guarded t valueHandle op := by
  rw [Guarded,Intact,gone_of_cells hx hd,reenters_of_cells hx hd,hl]
  exact ⟨fun a ha hr ch hm => hg.1 a ha hr ch (hx ▸ hm),hg.2⟩

theorem Delivered.steady (h : Delivered c t valueHandle value a) (hv : changedRange value = some op)
    (hs : Steady c valueHandle op (a :: rest)) : Steady t valueHandle op rest := by
  cases h with
  | kept hl hx hd hb hr =>
    rcases hs with hbusy | hclear | ⟨hg,front,hf,hfront⟩
    · exact .inl (hb.trans hbusy)
    · exact .inr (.inl fun ch hm => hclear ch (hx ▸ hm))
    · rcases hr with hbusy | hr | hnone
      · exact .inl (hb.trans hbusy)
      · refine .inr (.inr ⟨hg.congr hl hx hd,front ++ [a],by rw [hl,hf]; simp,fun e he => ?_⟩)
        rw [reenters_of_cells hx hd]
        rcases List.mem_append.mp he with he | he
        · exact hfront e he
        · exact List.mem_singleton.mp he ▸ hr
      · exact nomatch hv.symm.trans hnone
  | pruned op' hv' _ _ _ hc =>
    obtain rfl := Option.some.inj (hv.symm.trans hv')
    exact .inr (.inl hc)

theorem Delivered.goes_on (h : Delivered c t valueHandle value a) (ha : a ∈ c.notifyList)
    (hs : ∀ op, changedRange value = some op → Steady c valueHandle op (a :: rest)) :
    ¬ (a ∉ t.notifyList ∧ t.notifyList ≠ [] ∧ (c.following rest).any (· ∉ t.notifyList)) := by
  rintro ⟨hat,hne,hany⟩
  cases h with
  | kept hl => exact hat (hl ▸ ha)
  | pruned op hv hb hr hl hc =>
    have hga : gone c op.startHandle op.endHandle a := by
      by_contra hn
      exact hat ((hl a).mpr ⟨ha,hn⟩)
    rcases hs op hv with hbusy | hclear | ⟨hg,front,hf,hfront⟩
    · exact nomatch hb.symm.trans hbusy
    · exact nomatch (hclear.gone a).symm.trans hga
    · obtain ⟨b,hfol,hbt⟩ := (Option.any_eq_true _ _).mp hany
      rw [Client.following] at hfol
      have hbc : b ∈ c.notifyList := by simpa using List.find?_some hfol
      have hgb : gone c op.startHandle op.endHandle b := by
        by_contra hn
        exact of_decide_eq_true hbt ((hl b).mpr ⟨hbc,hn⟩)
      have hhead : rest.head? = some b := by
        cases rest with
        | nil => cases hfol
        | cons e rest =>
          have he : e ∈ c.notifyList := by rw [hf]; simp
          rw [List.find?_cons_of_pos (by simpa using he)] at hfol
          exact hfol
      refine hne (List.eq_nil_iff_forall_not_mem.mpr fun e he => ?_)
      obtain ⟨hec,hge⟩ := (hl e).mp he
      exact hge (hg.2 front a rest hf hfront hr hga b hhead hgb e hec)

theorem notifyEach_spec (valueHandle : UInt16) (value : List UInt8) (sent : Bool)
    (l : List Address) (hi : Inv c)
    (hs : ∀ op, changedRange value = some op → Steady c valueHandle op l) :
    ∃ t, Client.notifyEach valueHandle value sent c l = .ok t ∧ Inv t ∧ Carried c t := by
  induction l generalizing c with
  | nil => exact ⟨c,rfl,hi,.refl c⟩
  | cons a rest ih =>
    rw [Client.notifyEach]
    split
    next ha => exact ih hi fun op hv => (hs op hv).skip ha
    next ha =>
      have ha := not_not.mp ha
      obtain ⟨v,hv,hiv,hcv,hd⟩ := handler_spec hi ha valueHandle value sent
        fun op hop => (hs op hop).quiet
      rw [hv,ok_bind,if_neg (hd.goes_on ha hs)]
      obtain ⟨t,ht,hit,hct⟩ := ih hiv fun op hop => hd.steady hop (hs op hop)
      exact ⟨t,ht,hit,hcv.trans hct⟩

theorem notification_spec (hi : Inv c) (valueHandle : UInt16) (value : List UInt8) (sent : Bool)
    (hg : ∀ op, changedRange value = some op → c.inSvcChngd = true ∨ Guarded c valueHandle op) :
    ∃ t, c.notifyCb valueHandle value sent = .ok t ∧ Inv t ∧ Carried c t := by
  refine notifyEach_spec valueHandle value sent c.notifyList hi fun op hv => ?_
  rcases hg op hv with hbusy | hg
  · exact .inl hbusy
  · exact .inr (.inr ⟨hg,[],rfl,fun _ he => nomatch he⟩)

-- Handlers that do not process the range leave the list to the loop as it was.
theorem notifyEach_front (valueHandle : UInt16) (value : List UInt8) (sent : Bool)
    (front l : List Address) (hi : Inv c) (hb : c.inSvcChngd = false) (hm : ∀ e ∈ front, e ∈ c.notifyList)
    (hf : ∀ e ∈ front, reenters c valueHandle e = false) :
    ∃ t, Client.notifyEach valueHandle value sent c (front ++ l) =
        Client.notifyEach valueHandle value sent t l ∧ Inv t ∧
      t.notifyList = c.notifyList ∧ t.notifyChrcs = c.notifyChrcs ∧ t.datas = c.datas ∧
      t.inSvcChngd = false := by
  induction front generalizing c with
  | nil => exact ⟨c,rfl,hi,rfl,rfl,rfl,hb⟩
  | cons a front ih =>
    have ha := hm a List.mem_cons_self
    have hra := hf a List.mem_cons_self
    obtain ⟨v,hv',hiv,_,hd⟩ := handler_spec hi ha valueHandle value sent
      fun _ _ _ hr => nomatch hra.symm.trans hr
    cases hd with
    | pruned op' _ _ hr => exact nomatch hra.symm.trans hr
    | kept hl hx hd hbv _ =>
      obtain ⟨t,ht,hit,hlt,hxt,hdt,hbt⟩ := ih hiv (hbv.trans hb)
        (fun e he => hl ▸ hm e (List.mem_cons_of_mem a he))
        (fun e he => by rw [reenters_of_cells hx hd]; exact hf e (List.mem_cons_of_mem a he))
      refine ⟨t,?_,hit,hlt.trans hl,hxt.trans hx,hdt.trans hd,hbt⟩
      rw [List.cons_append,Client.notifyEach,if_neg (not_not.mpr ha),hv',ok_bind,
        if_neg fun h => h.1 (hl ▸ ha)]
      exact ht

theorem notification_frees (hi : Inv c) (hv : changedRange value = some op)
    (hb : c.inSvcChngd = false) (hq : Quiet c op) (hn : ¬ Intact c valueHandle op) :
    c.notifyCb valueHandle value sent = .error .freed := by
  simp only [Intact,not_forall] at hn
  obtain ⟨front,a,rest,hl,hf,hra,hga,b,hhead,hgb,e,he,hge⟩ := hn
  obtain ⟨t,ht,hit,hlt,hxt,hdt,hbt⟩ := notifyEach_front valueHandle value sent front (a :: rest)
    hi hb (fun e he => by rw [hl]; exact List.mem_append_left _ he) hf
  have hat : a ∈ t.notifyList := by rw [hlt,hl]; simp
  have hrt : reenters t valueHandle a := by rwa [reenters_of_cells hxt hdt]
  obtain ⟨u,hu,_,_,hd⟩ := handler_spec hit hat valueHandle value sent fun op' hop _ _ => by
    obtain rfl := Option.some.inj (hv.symm.trans hop)
    exact fun ch hm => hq ch (hxt ▸ hm)
  rw [Client.notifyCb,hl,ht,Client.notifyEach,if_neg (not_not.mpr hat),hu,ok_bind]
  cases hd with
  | kept _ _ _ _ hr =>
    rcases hr with hr | hr | hr
    · exact nomatch hbt.symm.trans hr
    · exact nomatch hrt.symm.trans hr
    · exact nomatch hv.symm.trans hr
  | pruned op' hop _ _ hlu _ =>
    obtain rfl := Option.some.inj (hv.symm.trans hop)
    rw [gone_of_cells hxt hdt,hlt] at hlu
    cases rest with
    | nil => cases hhead
    | cons x rest =>
      obtain rfl := Option.some.inj hhead
      have hbt : x ∈ t.notifyList := by rw [hlt,hl]; simp
      refine if_pos ⟨fun ha => ((hlu a).mp ha).2 hga,fun hnil => ?_,?_⟩
      · have heu := (hlu e).mpr ⟨he,hge⟩
        rw [hnil] at heu
        cases heu
      · rw [Client.following,List.find?_cons_of_pos (by simpa using hbt),Option.any_some]
        exact decide_eq_true fun hx => ((hlu x).mp hx).2 hgb

-- The characteristic that a step registers on.
def registering (c : Client) : Event → Option UInt16
  | .registerNotify handle _ => some handle
  | .discovered _ _ =>
    if c.svcChngdQueue = [] ∧ c.svcChngdIndId = 0 then svcChngdHandle c.db else none
  | _ => none

def newly (c : Client) (l : Event) : Option NotifyChrc := (registering c l).bind (created c)

def Joinable (c : Client) (handle : UInt16) : Prop :=
  ∀ ch, sharing c handle = some ch → ∀ w ∈ c.writesOn ch.address, w.enable = true

theorem carried_aside {db : Db} {id : UInt32} {busy : Bool} {queue : List ServiceChangedOp}
    {r : Option NotifyChrc}
    (h : Carried (r.elim (c.aside db id busy queue) (c.aside db id busy queue).addChrc) t) :
    Carried (r.elim c c.addChrc) t := by
  cases r with
  | none => exact h
  | some ch => exact h

theorem discovered_spec (hi : Inv c) (sent : Bool) (attId : UInt32)
    (hj : ∀ handle, registering c (.discovered sent attId) = some handle → Joinable c handle)
    (hq : ∀ op, c.svcChngdQueue.head? = some op → Quiet c op) :
    ∃ t, c.discovered sent attId = .ok t ∧ Inv t ∧
      Carried ((newly c (.discovered sent attId)).elim c c.addChrc) t := by
  cases hs : c.svcChngdQueue with
  | cons op rest =>
    have hn : newly c (.discovered sent attId) = none := by
      simp [newly,registering,hs]
    obtain ⟨t,ht,hp⟩ := serviceChanged_spec (hi.aside c.db c.svcChngdIndId false rest)
      op.startHandle op.endHandle sent (hq op (by rw [hs]; rfl))
    refine ⟨t,?_,hp.inv,?_⟩
    · rw [Client.discovered,hs]
      exact ht
    · rw [hn]
      exact hp.carried
  | nil =>
    have hu : c.discovered sent attId =
        (c.aside c.db c.svcChngdIndId false c.svcChngdQueue).registerServiceChanged attId := by
      rw [Client.discovered,hs]
      rfl
    rw [hu,Client.registerServiceChanged]
    split
    next hid =>
      refine ⟨_,rfl,hi.aside _ _ _ _,?_⟩
      rw [newly,registering,if_neg fun h => hid h.2]
      exact .refl c
    next hid =>
      have hr : registering c (.discovered sent attId) = svcChngdHandle c.db :=
        if_pos ⟨hs,not_not.mp hid⟩
      cases hh : svcChngdHandle c.db with
      | none =>
        rw [newly,hr,hh]
        refine ⟨c.aside c.db c.svcChngdIndId false c.svcChngdQueue,?_,hi.aside _ _ _ _,.refl c⟩
        rw [show (c.aside c.db c.svcChngdIndId false c.svcChngdQueue).db = c.db from rfl,hh]
      | some handle =>
        obtain ⟨t,id,ht,hit,hct⟩ := registerNotify_spec
          (hi.aside c.db c.svcChngdIndId false c.svcChngdQueue) handle .serviceChanged attId
          (hj handle (hr.trans hh))
        rw [newly,hr,hh,Option.bind_some]
        refine ⟨t.aside t.db id t.inSvcChngd t.svcChngdQueue,?_,hit.aside _ _ _ _,
          carried_aside hct⟩
        rw [show (c.aside c.db c.svcChngdIndId false c.svcChngdQueue).db = c.db from rfl,hh]
        simp only [ht,ok_bind]
        rfl

end Minipro.GattNotify
