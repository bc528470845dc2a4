import Minipro.Library.References
import Minipro.Bluez.NotifyRegistration

namespace Minipro.GattNotify
open GattDb Keyed References

namespace Client

def home (c : Client) (a : Address) : Option Address :=
  (find NotifyData.address a c.datas).map NotifyData.chrc

def refs (c : Client) (a : Address) : Nat :=
  (find NotifyData.address a c.datas).elim 0 NotifyData.refCount

def att (c : Client) (a : Address) : UInt32 :=
  (find NotifyData.address a c.datas).elim 0 NotifyData.attId

def chrcAt (c : Client) (x : Address) : Option NotifyChrc := find NotifyChrc.address x c.notifyChrcs

def reports (c : Client) (a : Address) : Nat := c.notices.countP fun
  | .registered b _ => b = a
  | _ => false

def returns (c : Client) (a : Address) : Nat := c.notices.countP fun
  | .returned b _ => b = a
  | _ => false

def owners (c : Client) : List Address := c.notifyList ++ c.writes.map CccWrite.data

-- loans are the references that the running function holds.
structure Cells (c : Client) (loans : List Address) : Prop where
  chrcs : Distinct NotifyChrc.address c.notifyChrcs
  dataBelow : ∀ a, c.home a ≠ none → a < c.allocated
  chrcBelow : ∀ x, c.chrcAt x ≠ none → x < c.allocated
  listed : c.notifyList.Nodup
  covered : Covered c.refs (c.owners ++ loans)
  homed : ∀ a ∈ c.owners ++ loans, ∃ x ch, c.home a = some x ∧ c.chrcAt x = some ch

structure Reads (c : Client) (a : Address) (d : NotifyData) (ch : NotifyChrc) : Prop where
  data : find NotifyData.address a c.datas = some d
  chrc : c.chrcAt d.chrc = some ch

variable {c t : Client} {a b x y : Address} {d : NotifyData} {ch : NotifyChrc} {w : CccWrite}
  {loans : List Address}

theorem chrcAt_address (h : c.chrcAt x = some ch) : ch.address = x := (mem_of_find h).2

theorem Reads.address (h : c.Reads a d ch) : d.address = a := (mem_of_find h.data).2

theorem Reads.chrcAddress (h : c.Reads a d ch) : ch.address = d.chrc := chrcAt_address h.chrc

theorem Reads.home (h : c.Reads a d ch) : c.home a = some ch.address := by
  rw [h.chrcAddress,Client.home,h.data]
  rfl

theorem Reads.at (h : c.Reads a d ch) : c.chrcAt ch.address = some ch :=
  h.chrcAddress ▸ h.chrc

theorem Reads.refs (h : c.Reads a d ch) : c.refs a = d.refCount := by
  rw [Client.refs,h.data]
  rfl

theorem Reads.att (h : c.Reads a d ch) : c.att a = d.attId := by
  rw [Client.att,h.data]
  rfl

theorem Reads.data_ok (h : c.Reads a d ch) : c.data a = .ok d := by
  rw [Client.data,h.data]
  rfl

theorem Reads.chrc_ok (h : c.Reads a d ch) : c.chrc d.chrc = .ok ch := by
  have hc := h.chrc
  rw [chrcAt] at hc
  rw [Client.chrc,hc]
  rfl

theorem chrc_ok (h : c.chrcAt x = some ch) : c.chrc x = .ok ch := by
  rw [chrcAt] at h
  rw [Client.chrc,h]
  rfl

theorem reads_of_home (h : c.home a = some x) (hx : c.chrcAt x = some ch) :
    ∃ d, c.Reads a d ch := by
  obtain ⟨d,hd,rfl⟩ := Option.map_eq_some_iff.mp h
  exact ⟨d,hd,hx⟩

theorem Cells.reads (h : c.Cells loans) (ha : a ∈ c.owners ++ loans) : ∃ d ch, c.Reads a d ch := by
  obtain ⟨x,ch,hx,hch⟩ := h.homed a ha
  obtain ⟨d,hd⟩ := reads_of_home hx hch
  exact ⟨d,ch,hd⟩

theorem Cells.at_mem (h : c.Cells loans) (hm : ch ∈ c.notifyChrcs) :
    c.chrcAt ch.address = some ch := h.chrcs.find_mem hm

theorem Cells.unused (h : c.Cells loans) : c.home c.allocated = none := by
  by_contra hn
  exact lt_irrefl _ (h.dataBelow _ hn)

theorem Cells.drop (h : c.Cells (a :: loans)) : c.Cells loans where
  chrcs := h.chrcs
  dataBelow := h.dataBelow
  chrcBelow := h.chrcBelow
  listed := h.listed
  covered := (h.covered.perm List.perm_middle).drop
  homed := fun b hb => h.homed b (List.perm_middle.mem_iff.mpr (List.mem_cons_of_mem a hb))

theorem chrcAt_putChrc {e : NotifyChrc} (h : c.chrcAt ch.address = some e) :
    (c.putChrc ch).chrcAt = Function.update c.chrcAt ch.address (some ch) := by
  funext x
  refine (find_replace ch c.notifyChrcs x).trans ?_
  rcases eq_or_ne x ch.address with rfl | hx
  · rw [if_pos rfl,Function.update_self]
    exact congrArg (Option.map fun _ => ch) h
  · rw [if_neg hx,Function.update_of_ne hx]
    rfl

theorem putData_find {e : NotifyData} (h : find NotifyData.address d.address c.datas = some e)
    (a : Address) : find NotifyData.address a (c.putData d).datas =
      if a = d.address then some d else find NotifyData.address a c.datas := by
  refine (find_replace d c.datas a).trans ?_
  split
  next ha => rw [ha,h,Option.map_some]
  next => rfl

theorem home_putData {e : NotifyData} (h : find NotifyData.address d.address c.datas = some e)
    (hc : d.chrc = e.chrc) : (c.putData d).home = c.home := by
  funext a
  rw [home,putData_find h,home]
  split
  next ha => rw [ha,h,Option.map_some,Option.map_some,hc]
  next => rfl

theorem refs_putData {e : NotifyData} (h : find NotifyData.address d.address c.datas = some e) :
    (c.putData d).refs = Function.update c.refs d.address d.refCount := by
  funext a
  rw [refs,putData_find h,Function.update_apply]
  split
  next => rfl
  next => rfl

theorem att_putData {e : NotifyData} (h : find NotifyData.address d.address c.datas = some e) :
    (c.putData d).att = Function.update c.att d.address d.attId := by
  funext a
  rw [att,putData_find h,Function.update_apply]
  split
  next => rfl
  next => rfl

theorem free_find (c : Client) (a b : Address) : find NotifyData.address b (c.free a).datas =
    if b = a then none else find NotifyData.address b c.datas := find_without c.datas a b

theorem home_free (c : Client) (a : Address) :
    (c.free a).home = Function.update c.home a none := by
  funext b
  rw [home,free_find,Function.update_apply]
  split
  next => rfl
  next => rfl

theorem refs_free (c : Client) (a : Address) : (c.free a).refs = Function.update c.refs a 0 := by
  funext b
  rw [refs,free_find,Function.update_apply]
  split
  next => rfl
  next => rfl

theorem att_free (c : Client) (a : Address) : (c.free a).att = Function.update c.att a 0 := by
  funext b
  rw [att,free_find,Function.update_apply]
  split
  next => rfl
  next => rfl

-- The fields that the registrations do not depend on.
def aside (c : Client) (db : Db) (id : UInt32) (busy : Bool) (queue : List ServiceChangedOp) :
    Client :=
  { c with db := db,svcChngdIndId := id,inSvcChngd := busy,svcChngdQueue := queue }

namespace Cells

theorem aside (h : c.Cells loans) (db : Db) (id : UInt32) (busy : Bool)
    (queue : List ServiceChangedOp) : (c.aside db id busy queue).Cells loans :=
  ⟨h.chrcs,h.dataBelow,h.chrcBelow,h.listed,h.covered,h.homed⟩

theorem putChrc {e : NotifyChrc} (h : c.Cells loans) (he : c.chrcAt ch.address = some e) :
    (c.putChrc ch).Cells loans where
  chrcs := h.chrcs.replace ch
  dataBelow := h.dataBelow
  chrcBelow x hx := by
    refine h.chrcBelow x fun hn => hx ?_
    rw [chrcAt_putChrc he,Function.update_apply]
    split
    next hxa =>
      rw [hxa,he] at hn
      cases hn
    next => exact hn
  listed := h.listed
  covered := h.covered
  homed a ha := by
    obtain ⟨x,f,hx,hf⟩ := h.homed a ha
    rcases eq_or_ne x ch.address with rfl | hne
    · exact ⟨ch.address,ch,hx,by rw [chrcAt_putChrc he,Function.update_self]⟩
    · exact ⟨x,f,hx,by rw [chrcAt_putChrc he,Function.update_of_ne hne]; exact hf⟩

theorem putData {e : NotifyData} (h : c.Cells loans)
    (he : find NotifyData.address d.address c.datas = some e) (hc : d.chrc = e.chrc)
    (hr : e.refCount ≤ d.refCount) : (c.putData d).Cells loans where
  chrcs := h.chrcs
  dataBelow := home_putData he hc ▸ h.dataBelow
  chrcBelow := h.chrcBelow
  listed := h.listed
  covered := by
    refine h.covered.mono fun a _ => ?_
    rw [refs_putData he,Function.update_apply]
    split
    next ha =>
      rw [ha,refs,he]
      exact hr
    next => exact le_rfl
  homed := home_putData he hc ▸ h.homed

theorem note (h : c.Cells loans) (n : Notice) : (c.note n).Cells loans :=
  ⟨h.chrcs,h.dataBelow,h.chrcBelow,h.listed,h.covered,h.homed⟩

theorem acquire {e : NotifyData} (h : c.Cells loans) (hd : c.Reads a d ch)
    (ha : e.address = a) (hc : e.chrc = d.chrc) (hr : e.refCount = d.refCount + 1) :
    (c.putData e).Cells (a :: loans) := by
  have he : find NotifyData.address e.address c.datas = some d := ha ▸ hd.data
  have hp : (c.putData e).Cells loans := h.putData he hc (hr ▸ Nat.le_succ _)
  refine ⟨hp.chrcs,hp.dataBelow,hp.chrcBelow,hp.listed,?_,?_⟩
  · rw [refs_putData he,hr,ha]
    refine Covered.perm ?_ List.perm_middle.symm
    have hc := h.covered.acquire a
    rw [hd.refs] at hc
    exact hc
  · intro b hb
    rcases List.mem_cons.mp (List.perm_middle.mem_iff.mp hb) with rfl | hb
    · refine ⟨ch.address,ch,?_,hd.at⟩
      rw [home_putData he hc]
      exact hd.home
    · exact hp.homed b hb

theorem lendListed (h : c.Cells loans) (ha : a ∈ c.notifyList) :
    ({ c with notifyList := c.notifyList.erase a } : Client).Cells (a :: loans) := by
  have hp : (c.owners ++ loans).Perm
      (c.notifyList.erase a ++ c.writes.map CccWrite.data ++ a :: loans) := by
    rw [owners]
    refine List.Perm.trans ?_ List.perm_middle.symm
    exact ((List.perm_cons_erase ha).append_right _).append_right loans
  exact ⟨h.chrcs,h.dataBelow,h.chrcBelow,h.listed.erase a,h.covered.perm hp,
    fun b hb => h.homed b (hp.mem_iff.mpr hb)⟩

theorem lendWrite (h : c.Cells loans) (hw : w ∈ c.writes) :
    ({ c with writes := c.writes.erase w } : Client).Cells (w.data :: loans) := by
  have hp : (c.owners ++ loans).Perm
      (c.notifyList ++ (c.writes.erase w).map CccWrite.data ++ w.data :: loans) := by
    rw [owners]
    refine List.Perm.trans ?_ List.perm_middle.symm
    have hm := ((List.perm_cons_erase hw).map CccWrite.data).append_left c.notifyList
    exact (hm.trans List.perm_middle).append_right loans
  exact ⟨h.chrcs,h.dataBelow,h.chrcBelow,h.listed,h.covered.perm hp,
    fun b hb => h.homed b (hp.mem_iff.mpr hb)⟩

theorem addWrite (h : c.Cells (w.data :: loans)) :
    ({ c with writes := c.writes ++ [w] } : Client).Cells loans := by
  have hp : (c.owners ++ w.data :: loans).Perm
      (c.notifyList ++ (c.writes ++ [w]).map CccWrite.data ++ loans) := by
    simp [owners]
  exact ⟨h.chrcs,h.dataBelow,h.chrcBelow,h.listed,h.covered.perm hp,
    fun b hb => h.homed b (hp.mem_iff.mpr hb)⟩

theorem addListed (h : c.Cells (a :: loans)) (ha : a ∉ c.notifyList) :
    ({ c with notifyList := c.notifyList ++ [a] } : Client).Cells loans := by
  have hp : (c.owners ++ a :: loans).Perm
      (c.notifyList ++ [a] ++ c.writes.map CccWrite.data ++ loans) := by
    simp only [owners,List.append_assoc,List.singleton_append]
    exact List.Perm.append_left _ List.perm_middle
  exact ⟨h.chrcs,h.dataBelow,h.chrcBelow,
    List.nodup_append.mpr ⟨h.listed,List.nodup_singleton a,fun b hb e he hbe =>
      ha (List.mem_singleton.mp he ▸ hbe ▸ hb)⟩,
    h.covered.perm hp,fun b hb => h.homed b (hp.mem_iff.mpr hb)⟩

theorem last_owner (h : c.Cells (a :: loans)) (hr : c.refs a = 1) : a ∉ c.owners ++ loans := by
  intro ha
  have hc := h.covered.perm List.perm_middle a
  rw [List.count_cons_self,hr] at hc
  have := List.count_pos_iff.mpr ha
  omega

end Cells

-- What giving a reference back leaves as it was.
structure Same (c t : Client) (loans : List Address) : Prop where
  chrcs : t.notifyChrcs = c.notifyChrcs
  listed : t.notifyList = c.notifyList
  writes : t.writes = c.writes
  allocated : t.allocated = c.allocated
  home : ∀ b ∈ c.owners ++ loans, t.home b = c.home b
  att : ∀ b ∈ c.owners ++ loans, t.att b = c.att b
  reports : t.reports = c.reports
  returns : t.returns = c.returns

theorem reports_destroyed (c : Client) (a : Address) :
    (c.note (.destroyed a)).reports = c.reports := by
  funext b
  simp [reports,Client.note]

theorem returns_destroyed (c : Client) (a : Address) :
    (c.note (.destroyed a)).returns = c.returns := by
  funext b
  simp [returns,Client.note]

theorem Cells.unref (h : c.Cells (a :: loans)) :
    ∃ t, c.unref a = .ok t ∧ t.Cells loans ∧ c.Same t loans := by
  obtain ⟨d,ch,hd⟩ := h.reads (a := a) (by simp)
  have hcov := (h.covered.perm List.perm_middle).release
  have hdrop := h.drop
  have hu : c.unref a = if d.refCount = 1 then .ok ((c.free a).note (.destroyed a))
      else .ok (c.putData { d with refCount := d.refCount - 1 }) := by
    rw [Client.unref,hd.data_ok]
    rfl
  rw [hd.refs] at hcov
  rw [hu]
  split
  next h1 =>
    have hout := h.last_owner (hd.refs.trans h1)
    have hne : ∀ b ∈ c.owners ++ loans, b ≠ a := fun b hb hba => hout (hba ▸ hb)
    have hhome : ∀ b ∈ c.owners ++ loans, (c.free a).home b = c.home b := fun b hb => by
      rw [home_free,Function.update_of_ne (hne b hb)]
    refine ⟨_,rfl,⟨hdrop.chrcs,fun b hb => ?_,hdrop.chrcBelow,hdrop.listed,?_,fun b hb => ?_⟩,
      rfl,rfl,rfl,rfl,hhome,fun b hb => ?_,reports_destroyed _ a,returns_destroyed _ a⟩
    · refine hdrop.dataBelow b fun hn => hb ?_
      refine (congrFun (home_free c a) b).trans ?_
      rw [Function.update_apply,hn,ite_self]
    · have hz : ((c.free a).note (.destroyed a)).refs = Function.update c.refs a (d.refCount - 1) := by
        rw [h1]
        exact refs_free c a
      rw [hz]
      exact hcov
    · obtain ⟨x,f,hx,hf⟩ := hdrop.homed b hb
      exact ⟨x,f,(hhome b hb).trans hx,hf⟩
    · exact (congrFun (att_free c a) b).trans (Function.update_of_ne (hne b hb) _ _)
  next =>
    have he : find NotifyData.address
        ({ d with refCount := d.refCount - 1 } : NotifyData).address c.datas = some d :=
      hd.address ▸ hd.data
    refine ⟨_,rfl,⟨hdrop.chrcs,home_putData he rfl ▸ hdrop.dataBelow,hdrop.chrcBelow,hdrop.listed,
      ?_,home_putData he rfl ▸ hdrop.homed⟩,rfl,rfl,rfl,rfl,
      fun b _ => congrFun (home_putData he rfl) b,fun b _ => ?_,rfl,rfl⟩
    · rw [refs_putData he]
      exact hd.address ▸ hcov
    · rw [att_putData he,Function.update_apply]
      split
      next hb =>
        rw [hb,show ({ d with refCount := d.refCount - 1 } : NotifyData).address = a from hd.address,
          hd.att]
      next => rfl

theorem concat_find (h : c.home d.address = none) (a : Address) :
    find NotifyData.address a (c.datas ++ [d]) =
      if a = d.address then some d else find NotifyData.address a c.datas :=
  find_concat (Option.map_eq_none_iff.mp h) a

def addData (c : Client) (d : NotifyData) : Client :=
  { c with datas := c.datas ++ [d],allocated := d.address + 1 }

theorem home_addData (h : c.home d.address = none) :
    (c.addData d).home = Function.update c.home d.address (some d.chrc) := by
  funext a
  rw [home,addData,concat_find h,Function.update_apply]
  split
  next => rfl
  next => rfl

theorem refs_addData (h : c.home d.address = none) :
    (c.addData d).refs = Function.update c.refs d.address d.refCount := by
  funext a
  rw [refs,addData,concat_find h,Function.update_apply]
  split
  next => rfl
  next => rfl

theorem att_addData (h : c.home d.address = none) :
    (c.addData d).att = Function.update c.att d.address d.attId := by
  funext a
  rw [att,addData,concat_find h,Function.update_apply]
  split
  next => rfl
  next => rfl

theorem unowned (h : c.Cells loans) (hn : c.home a = none) : a ∉ c.owners ++ loans := fun ha => by
  obtain ⟨x,_,hx,_⟩ := h.homed a ha
  rw [hn] at hx
  cases hx

theorem Cells.addData (h : c.Cells loans) (hd : d.address = c.allocated) (hr : d.refCount = 1)
    (hch : c.chrcAt d.chrc = some ch) : (c.addData d).Cells (d.address :: loans) := by
  have hn : c.home d.address = none := hd ▸ h.unused
  have hout := unowned h hn
  have hz : c.refs d.address = 0 := by
    rw [home,Option.map_eq_none_iff] at hn
    rw [refs,hn]
    rfl
  refine ⟨h.chrcs,fun a ha => ?_,fun x hx => ?_,h.listed,?_,fun b hb => ?_⟩
  · rw [home_addData hn,Function.update_apply] at ha
    split at ha
    next hae => exact hae ▸ Nat.lt_succ_self _
    next => exact Nat.lt_succ_of_lt (hd ▸ h.dataBelow a ha)
  · exact Nat.lt_succ_of_lt (hd ▸ h.chrcBelow x hx)
  · rw [refs_addData hn,hr]
    have hc := h.covered.acquire d.address
    rw [hz] at hc
    exact hc.perm List.perm_middle.symm
  · rw [home_addData hn]
    rcases List.mem_cons.mp (List.perm_middle.mem_iff.mp hb) with rfl | hb
    · exact ⟨d.chrc,ch,Function.update_self _ _ _,hch⟩
    · obtain ⟨x,f,hx,hf⟩ := h.homed b hb
      refine ⟨x,f,?_,hf⟩
      have hne : b ≠ d.address := fun hbd => hout (hbd ▸ hb)
      rw [Function.update_of_ne hne]
      exact hx

theorem Cells.freed (h : c.Cells loans) (ha : a ∉ c.owners ++ loans) : (c.free a).Cells loans where
  chrcs := h.chrcs
  dataBelow b hb := by
    refine h.dataBelow b fun hn => hb ?_
    rw [home_free,Function.update_apply,hn,ite_self]
  chrcBelow := h.chrcBelow
  listed := h.listed
  covered := by
    refine h.covered.mono fun b hb => ?_
    have hne : b ≠ a := fun hba => ha (hba ▸ hb)
    rw [refs_free,Function.update_of_ne hne]
  homed b hb := by
    have hne : b ≠ a := fun hba => ha (hba ▸ hb)
    rw [home_free,Function.update_of_ne hne]
    exact h.homed b hb

def addChrc (c : Client) (ch : NotifyChrc) : Client :=
  { c with notifyChrcs := c.notifyChrcs ++ [ch],allocated := ch.address + 1 }

theorem chrcAt_addChrc (h : c.chrcAt ch.address = none) :
    (c.addChrc ch).chrcAt = Function.update c.chrcAt ch.address (some ch) := by
  funext x
  rw [Function.update_apply]
  exact find_concat h x

theorem Cells.addChrc (h : c.Cells loans) (ha : ch.address = c.allocated) :
    (c.addChrc ch).Cells loans := by
  have hn : c.chrcAt ch.address = none := by
    by_contra hne
    exact lt_irrefl _ (ha ▸ h.chrcBelow _ hne)
  refine ⟨?_,fun a hx => ?_,fun x hx => ?_,h.listed,h.covered,fun b hb => ?_⟩
  · refine Distinct.insert_iff.mpr ⟨?_,by rw [List.append_nil]; exact h.chrcs⟩
    rw [List.append_nil]
    exact find_none_iff.mp hn
  · exact Nat.lt_succ_of_lt (ha ▸ h.dataBelow a hx)
  · rw [chrcAt_addChrc hn,Function.update_apply] at hx
    split at hx
    next hxa => exact hxa ▸ Nat.lt_succ_self _
    next => exact Nat.lt_succ_of_lt (ha ▸ h.chrcBelow x hx)
  · obtain ⟨x,f,hx,hf⟩ := h.homed b hb
    refine ⟨x,f,hx,?_⟩
    rw [chrcAt_addChrc hn,Function.update_of_ne]
    · exact hf
    · intro hxa
      rw [← hxa,hf] at hn
      cases hn

def removeChrc (c : Client) (x : Address) : Client :=
  { c with notifyChrcs := c.notifyChrcs.filter fun ch => ch.address ≠ x }

theorem chrcAt_removeChrc (c : Client) (x : Address) :
    (c.removeChrc x).chrcAt = Function.update c.chrcAt x none := by
  funext y
  rw [chrcAt,removeChrc,find_without,Function.update_apply]
  rfl

theorem Cells.removeChrc (h : c.Cells loans) (hx : ∀ a ∈ c.owners ++ loans, c.home a ≠ some x) :
    (c.removeChrc x).Cells loans where
  chrcs := h.chrcs.filter _
  dataBelow := h.dataBelow
  chrcBelow y hy := by
    refine h.chrcBelow y fun hn => hy ?_
    rw [chrcAt_removeChrc,Function.update_apply,hn,ite_self]
  listed := h.listed
  covered := h.covered
  homed a ha := by
    obtain ⟨y,f,hy,hf⟩ := h.homed a ha
    refine ⟨y,f,hy,?_⟩
    have hne : y ≠ x := fun hyx => hx a ha (hyx ▸ hy)
    rw [chrcAt_removeChrc,Function.update_of_ne hne]
    exact hf

end Client
end Minipro.GattNotify
