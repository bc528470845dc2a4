import Minipro.Bluez.ServedDatabase

namespace Minipro.GattClient
open GattDb GattHelpers Sweep Keyed

variable {db t u : Db} {a b : Address} {s : Service} {d e : ServedService}
  {c : ServedCharacteristic} {attrs rest : List Attribute}

def Filled (db : Db) (a : Address) (d : ServedService) (attributes : List Attribute) : Prop :=
  ∃ s, db.find a = some s ∧ Holds s d attributes

structure Amends (db t : Db) (a : Address) : Prop where
  fresh : db.Fresh → t.Fresh
  ordered : db.Fresh → db.Ordered → t.Ordered
  addresses : t.services.map Service.address = db.services.map Service.address
  frame : ∀ b ≠ a, t.find b = db.find b

namespace Amends

theorem refl (db : Db) (a : Address) : Amends db db a :=
  ⟨id,fun _ h => h,rfl,fun _ _ => rfl⟩

theorem trans (h : Amends db t a) (h' : Amends t u a) : Amends db u a where
  fresh hf := h'.fresh (h.fresh hf)
  ordered hf ho := h'.ordered (h.fresh hf) (h.ordered hf ho)
  addresses := h'.addresses.trans h.addresses
  frame b hb := (h'.frame b hb).trans (h.frame b hb)

theorem filled (h : Amends db t a) (hb : b ≠ a) (hf : Filled db b e attrs) :
    Filled t b e attrs := by
  obtain ⟨s,hs,hh⟩ := hf
  exact ⟨s,(h.frame b hb).trans hs,hh⟩

theorem replace (hs : db.find a = some s) (ht : t.services = (db.replace r).services)
    (hr : r.address = s.address) (hl : t.allocated = db.allocated)
    (h1 : r.start = s.start) (h2 : r.last = s.last) : Amends db t a where
  fresh hf := by
    have := hf.replace r
    exact ⟨by rw [ht,hl]; exact this.below,by rw [ht]; exact this.distinct⟩
  ordered hf ho := by
    have := Db.ordered_replace hf ho (mem_of_find hs).1 hr h1 h2
    rw [Db.Ordered,ht]
    exact this
  addresses := by
    rw [ht]
    exact replace_keys r db.services
  frame b hb := by
    have hra : r.address = a := hr.trans (mem_of_find hs).2
    have hf := Db.replace_find db r b
    rw [if_neg (hra ▸ hb)] at hf
    rw [← hf,Db.find,Db.find,ht]

end Amends

theorem amendCurrent_append {f : Service → Option (Attribute × Service)} {x : Attribute}
    {l : List Attribute} {hl} (hs : db.find a = some s) (hh : Holds s d attrs)
    (hf : f s = some (x,s.append l hl)) :
    ∃ t, amendCurrent db (some a) f = some (some (x,t)) ∧ Amends db t a ∧
      Filled t a d (attrs ++ l) := by
  have ha : s.address = a := (mem_of_find hs).2
  refine ⟨db.replace (s.append l hl),by simp [amendCurrent,hs,hf],
    .replace hs rfl rfl rfl rfl rfl,s.append l hl,?_,hh.append l hl⟩
  rw [Db.replace_find,if_pos (show a = (s.append l hl).address from ha.symm),hs]
  rfl

theorem insertDescriptors_spec (xs : List Descriptor) (hf : Filled db a d attrs) (hp : d.Proper)
    (hd : d.attributes = attrs ++ xs.map storedDescriptor ++ rest) :
    ∃ t, insertDescriptors (some a) db (xs.map Descriptor.found) = some (t,true) ∧
      Amends db t a ∧ Filled t a d (attrs ++ xs.map storedDescriptor) := by
  induction xs generalizing db attrs with
  | nil => exact ⟨db,rfl,.refl db a,by simpa using hf⟩
  | cons x xs ih =>
    obtain ⟨s,hs,hh⟩ := hf
    simp only [List.map_cons] at hd ⊢
    rw [List.append_cons] at hd ⊢
    obtain ⟨hl,hi⟩ := hh.insertDescriptor (a := storedDescriptor x) hp
      (by rw [hd,List.append_assoc _ (xs.map _) rest]) rfl
    obtain ⟨t,ht,ham,hft⟩ := amendCurrent_append
      (f := fun s => s.gattDbInsertDescriptor x.handle (.uuid128 x.uuid.toUuid128)) hs hh hi
    obtain ⟨v,hv,hav,hfv⟩ := ih hft hd
    refine ⟨v,?_,ham.trans hav,hfv⟩
    rw [insertDescriptors]
    simp only [Descriptor.found,ht]
    exact (if_neg (not_not.mpr rfl)).trans hv

def Known (db : Db) (e : ServedService) : Prop := ∃ s ∈ db.services, ∃ attrs, Holds s e attrs

theorem Filled.known (h : Filled db a e attrs) : Known db e := by
  obtain ⟨s,hs,hh⟩ := h
  exact ⟨s,(mem_of_find hs).1,attrs,hh⟩

theorem getAttribute_known (ho : db.Ordered) (h : Known db e) :
    ∃ s x, db.getAttribute e.group.first = some (s,x) ∧ ∃ attrs, Holds s e attrs := by
  obtain ⟨s,hs,attrs,hh⟩ := h
  have h0 : e.group.first ≠ 0 := by
    have := s.start_pos
    rw [hh.start] at this
    intro h0
    simp [h0] at this
  have hf := ho.find_holding (e := extent) (a := s.start.toNat) hs le_rfl s.start_le_last
  have hfind : (db.services.find? fun r => r.holds e.group.first) = some s := by
    rw [← hf,← hh.start]
    congr 1
  refine ⟨s,s.declaration,?_,attrs,hh⟩
  rw [Db.getAttribute,if_neg h0,hfind,Option.bind_some,Service.contents,
    List.find?_cons_of_pos (by simp [hh.declaration,ServedService.declaration]),Option.map_some]

theorem Amends.known (h : Amends db t a) (hf : db.Fresh) (hd : Filled db a d attrs)
    (ht : Filled t a d rest) (hk : Known db e) : Known t e := by
  obtain ⟨s,hs,l,hh⟩ := hk
  rcases eq_or_ne s.address a with rfl | ha
  · obtain ⟨r,hr,hrd⟩ := hd
    obtain ⟨q,hq,hqd⟩ := ht
    obtain rfl : s = r := Option.some.inj ((hf.find_mem hs).symm.trans hr)
    refine ⟨q,(mem_of_find hq).1,rest,?_,?_,hqd.attributes⟩
    · rw [hqd.declaration,← hrd.declaration,hh.declaration]
    · rw [hqd.last,← hrd.last,hh.last]
  · exact ((⟨s,hf.find_mem hs,hh⟩ : Filled db s.address e l) |> h.filled ha).known

theorem addIncludes_spec (ps is : List FoundIncluded) (hfresh : db.Fresh) (ho : db.Ordered)
    (hf : Filled db a d (ps.map FoundIncluded.stored)) (hp : d.Proper)
    (hd : d.includes = ps ++ is)
    (hk : ∀ i ∈ is, ∃ e, Known db e ∧ e.group.first = i.first ∧ e.group.last = i.last) :
    ∃ t, addIncludes (some a) db is = some (t,true) ∧ Amends db t a ∧ Filled t a d d.included := by
  induction is generalizing db ps with
  | nil =>
    refine ⟨db,rfl,.refl db a,?_⟩
    rw [ServedService.included,hd,List.append_nil]
    exact hf
  | cons i is ih =>
    obtain ⟨s,hs,hh⟩ := hf
    obtain ⟨e,hke,h1,h2⟩ := hk i List.mem_cons_self
    obtain ⟨r,x,hr,rest,hrest⟩ := getAttribute_known ho hke
    obtain ⟨hl,hi⟩ := hh.addIncluded hp hd hrest h1 h2
    obtain ⟨t,ht,ham,hft⟩ := amendCurrent_append (f := fun s => s.addIncluded r) hs hh hi
    have hkt : ∀ j ∈ is, ∃ e, Known t e ∧ e.group.first = j.first ∧ e.group.last = j.last := by
      intro j hj
      obtain ⟨e',hke',hj⟩ := hk j (List.mem_cons_of_mem i hj)
      exact ⟨e',ham.known hfresh ⟨s,hs,hh⟩ hft hke',hj⟩
    obtain ⟨v,hv,hav,hfv⟩ := ih (ps ++ [i]) (ham.fresh hfresh) (ham.ordered hfresh ho)
      (by simpa using hft) (by simpa using hd) hkt
    refine ⟨v,?_,ham.trans hav,hfv⟩
    rw [addIncludes,← h1]
    simp only [hr,ht]
    exact (if_neg (not_not.mpr rfl)).trans hv

def endOf (stop : UInt16) (cs : List ServedCharacteristic) : UInt16 :=
  (cs.head?.map fun c => c.declaration.handle - 1).getD stop

def found (stop : UInt16) (cs : List ServedCharacteristic) : List FoundCharacteristic :=
  Characteristic.found stop (cs.map ServedCharacteristic.declaration)

theorem found_cons (stop : UInt16) (c : ServedCharacteristic) (cs : List ServedCharacteristic) :
    found stop (c :: cs) = ⟨c.declaration.handle,endOf stop cs,c.value,c.declaration.properties,
      c.declaration.uuid.toUuid128⟩ :: found stop cs := by
  simp only [found,endOf,List.map_cons,Characteristic.found,List.head?_map,Option.map_map]
  rfl

variable {ps qs rs cs : List ServedCharacteristic}

namespace ServedService.Proper

theorem table_split (hs : d.characteristics = ps ++ c :: rs) :
    d.table = (⟨d.group.first,d.type⟩ :: (d.includes.map fun i => ⟨i.handle,includedServiceUuid⟩) ++
      ps.flatMap ServedCharacteristic.table ++
        [⟨c.declaration.handle,characteristicUuid⟩,⟨c.value,c.declaration.uuid⟩]) ++
      c.descriptors ++ rs.flatMap ServedCharacteristic.table := by
  simp [ServedService.table,hs,ServedCharacteristic.table]

theorem descriptors_between (h : d.Proper) (hs : d.characteristics = ps ++ c :: rs) :
    (∀ x ∈ c.descriptors, c.value.toNat < x.handle.toNat ∧
      x.handle.toNat ≤ (endOf d.group.last rs).toNat) ∧
    (∀ x ∈ rs.flatMap ServedCharacteristic.table,
      (endOf d.group.last rs).toNat < x.handle.toNat) ∧
    (endOf d.group.last rs).toNat ≤ d.group.last.toNat := by
  have ha := h.ascending
  rw [table_split hs,List.map_append,List.map_append,List.pairwise_append,
    List.pairwise_append] at ha
  obtain ⟨⟨_,_,hcd⟩,hr,hcr⟩ := ha
  have hv : ∀ x ∈ c.descriptors, c.value.toNat < x.handle.toNat := fun x hx =>
    hcd c.value.toNat (by simp) x.handle.toNat (List.mem_map_of_mem hx)
  cases rs with
  | nil =>
    refine ⟨fun x hx => ⟨hv x hx,h.within x ?_⟩,by simp,le_rfl⟩
    rw [table_split hs]
    simp [hx]
  | cons r rs =>
    have hd : ∀ x ∈ c.descriptors, x.handle.toNat < r.declaration.handle.toNat := fun x hx =>
      hcr x.handle.toNat (List.mem_append_right _ (List.mem_map_of_mem hx)) _
        (by simp [ServedCharacteristic.table])
    have hpos : 0 < r.declaration.handle.toNat :=
      Nat.zero_lt_of_lt (hcr c.value.toNat (by simp) _ (by simp [ServedCharacteristic.table]))
    have hone : (1 : UInt16) ≤ r.declaration.handle := UInt16.le_iff_toNat_le.mpr hpos
    have hend : (endOf d.group.last (r :: rs)).toNat + 1 = r.declaration.handle.toNat := by
      simp only [endOf,List.head?_cons,Option.map_some,Option.getD_some]
      rw [UInt16.toNat_sub_of_le _ _ hone]
      simp
      omega
    have hr' : (⟨r.declaration.handle,characteristicUuid⟩ : Descriptor) ∈ d.table := by
      rw [table_split hs]
      simp [ServedCharacteristic.table]
    have hle := h.within _ hr'
    refine ⟨fun x hx => ⟨hv x hx,?_⟩,fun x hx => ?_,by simp only at hle; omega⟩
    · have := hd x hx
      omega
    · rw [List.flatMap_cons,List.map_append,ServedCharacteristic.table,List.map_cons,
        List.cons_append,List.pairwise_cons] at hr
      rw [List.flatMap_cons,ServedCharacteristic.table,List.cons_append] at hx
      rcases List.mem_cons.mp hx with rfl | hx
      · exact Nat.lt_of_succ_le hend.le
      · have hrx : r.declaration.handle.toNat < x.handle.toNat :=
          hr.1 x.handle.toNat (by rw [← List.map_append]; exact List.mem_map_of_mem hx)
        omega

theorem no_descriptors (h : d.Proper) (hs : d.characteristics = ps ++ c :: rs)
    (hle : endOf d.group.last rs ≤ c.value) : c.descriptors = [] := by
  refine List.eq_nil_iff_forall_not_mem.mpr fun x hx => ?_
  have h1 := (h.descriptors_between hs).1 x hx
  have h2 := UInt16.le_iff_toNat_le.mp hle
  omega

theorem attributes_split (hs : d.characteristics = ps ++ c :: rs) :
    d.attributes = d.included ++ ps.flatMap ServedCharacteristic.attributes ++ c.declared ++
      (c.described ++ rs.flatMap ServedCharacteristic.attributes) := by
  simp [ServedService.attributes,hs,ServedCharacteristic.attributes]

end ServedService.Proper

inductive Sought (d : ServedService) (a : Address) (sent : Bool) (db : Db)
    (qs cs : List ServedCharacteristic) : Option (Db × List FoundCharacteristic × Descs) → Prop
  | finished (t : Db) (ha : Amends db t a) (hf : Filled t a d d.attributes) :
      Sought d a sent db qs cs (some (t,[],.finished))
  | discovering (t : Db) (ps : List ServedCharacteristic) (c : ServedCharacteristic)
      (rs : List ServedCharacteristic) (hs : cs = ps ++ c :: rs)
      (ha : Amends db t a)
      (hf : Filled t a d
        (d.included ++ (qs ++ ps).flatMap ServedCharacteristic.attributes ++ c.declared)) :
      Sought d a sent db qs cs
        (some (t,found d.group.last rs,.discovering (c.value + 1) (endOf d.group.last rs)))
  | failed (hs : sent = false) (t : Db) (pending : List FoundCharacteristic) :
      Sought d a sent db qs cs (some (t,pending,.failed))

theorem discoverDescs_spec (sent : Bool) (hf : Filled db a d
      (d.included ++ qs.flatMap ServedCharacteristic.attributes)) (hp : d.Proper)
    (hs : d.characteristics = qs ++ cs) :
    Sought d a sent db qs cs (discoverDescs (some a) sent db (found d.group.last cs)) := by
  induction cs generalizing db qs with
  | nil =>
    refine .finished db (.refl db a) ?_
    rw [ServedService.attributes,hs,List.append_nil]
    exact hf
  | cons c cs ih =>
    obtain ⟨s,hfs,hh⟩ := hf
    have hc : c ∈ d.characteristics := by simp [hs]
    obtain ⟨hl,hi⟩ := hh.insertCharacteristic hp hc (ServedService.Proper.attributes_split hs)
    obtain ⟨t,ht,ham,hft⟩ := amendCurrent_append (f := fun s =>
      s.gattDbInsertCharacteristic c.value c.uuid c.declaration.properties) hfs hh hi
    rw [found_cons,discoverDescs]
    have ht' : (amendCurrent db (some a) fun s => s.gattDbInsertCharacteristic c.value
        (.uuid128 c.declaration.uuid.toUuid128) c.declaration.properties) = _ := ht
    simp only [ht',if_neg (not_not.mpr rfl)]
    split
    next hle =>
      have hn := hp.no_descriptors hs hle
      have hattr : d.included ++ qs.flatMap ServedCharacteristic.attributes ++ c.declared =
          d.included ++ (qs ++ [c]).flatMap ServedCharacteristic.attributes := by
        simp [ServedCharacteristic.attributes,ServedCharacteristic.described,hn]
      rw [hattr] at hft
      have hrec := ih hft (by simpa using hs)
      generalize discoverDescs (some a) sent t (found d.group.last cs) = r at hrec
      cases hrec with
      | finished u ha hf => exact .finished u (ham.trans ha) hf
      | discovering u ps c' rs hcs ha hf =>
        refine .discovering u (c :: ps) c' rs (by rw [hcs,List.cons_append]) (ham.trans ha) ?_
        simpa using hf
      | failed hsent u pending => exact .failed hsent u pending
    next hlt =>
      split
      next => exact .discovering t [] c cs rfl ham (by simpa using hft)
      next hsent => exact .failed (by simpa using hsent) t _

end Minipro.GattClient
