import Minipro.Bluez.ClientDiscovery
import Minipro.Bluez.DiscoveryComplete
import Minipro.Bluez.GattDbHeap

namespace Minipro.GattClient
open GattDb GattHelpers Sweep Keyed

def FoundIncluded.stored (i : FoundIncluded) : Attribute :=
  ⟨i.handle,includedServiceUuid,putLe16 i.first ++ putLe16 i.last⟩

def storedDescriptor (x : Descriptor) : Attribute := ⟨x.handle,.uuid128 x.uuid.toUuid128,[]⟩

structure ServedCharacteristic where
  declaration : Characteristic
  descriptors : List Descriptor

structure ServedService where
  group : Group
  primary : Bool
  includes : List FoundIncluded
  characteristics : List ServedCharacteristic

namespace ServedCharacteristic

def value (c : ServedCharacteristic) : UInt16 := c.declaration.value

def uuid (c : ServedCharacteristic) : Uuid := .uuid128 c.declaration.uuid.toUuid128

def table (c : ServedCharacteristic) : List Descriptor :=
  ⟨c.declaration.handle,characteristicUuid⟩ :: ⟨c.value,c.declaration.uuid⟩ :: c.descriptors

def declared (c : ServedCharacteristic) : List Attribute :=
  [⟨c.declaration.handle,characteristicUuid,
      c.declaration.properties :: putLe16 c.value ++ c.uuid.toLe⟩,⟨c.value,c.uuid,[]⟩]

def described (c : ServedCharacteristic) : List Attribute := c.descriptors.map storedDescriptor

def attributes (c : ServedCharacteristic) : List Attribute := c.declared ++ c.described

end ServedCharacteristic

namespace ServedService

def type (d : ServedService) : Uuid :=
  if d.primary then primaryServiceUuid else secondaryServiceUuid

def uuid (d : ServedService) : Uuid := .uuid128 d.group.uuid.toUuid128

def table (d : ServedService) : List Descriptor :=
  ⟨d.group.first,d.type⟩ :: (d.includes.map fun i => ⟨i.handle,includedServiceUuid⟩) ++
    d.characteristics.flatMap ServedCharacteristic.table

def declaration (d : ServedService) : Attribute := ⟨d.group.first,d.type,d.uuid.toLe⟩

def included (d : ServedService) : List Attribute :=
  d.includes.map FoundIncluded.stored

def attributes (d : ServedService) : List Attribute :=
  d.included ++ d.characteristics.flatMap ServedCharacteristic.attributes

-- The client takes a characteristic's value to be the attribute behind its declaration, and
-- refuses the last handle for it.
structure Proper (d : ServedService) : Prop where
  placed : 0 < d.group.first
  spans : d.group.first ≤ d.group.last
  ascending : (d.table.map fun x => x.handle.toNat).Pairwise (· < ·)
  within : ∀ x ∈ d.table, x.handle.toNat ≤ d.group.last.toNat
  consecutive : d.includes.map (fun i => i.handle.toNat) =
    List.range' (d.group.first.toNat + 1) d.includes.length
  valued : ∀ c ∈ d.characteristics, c.value = c.declaration.handle + 1 ∧ c.value ≠ 0xffff

end ServedService

def served : Extent ServedService := ⟨fun d => d.group.first.toNat,fun d => d.group.last.toNat⟩

structure Served (server : List ServedService) : Prop where
  laid : served.Laid server
  proper : ∀ d ∈ server, d.Proper
  included : ∀ d ∈ server, ∀ i ∈ d.includes,
    ∃ e ∈ server, e.group.first = i.first ∧ e.group.last = i.last

structure Holds (s : Service) (d : ServedService) (attributes : List Attribute) : Prop where
  declaration : s.declaration = d.declaration
  last : s.last = d.group.last
  attributes : s.attributes = attributes

variable {s t : Service} {d : ServedService} {c : ServedCharacteristic}
  {attrs rest : List Attribute}

theorem table_handles (d : ServedService) : (d.table.map fun x => x.handle.toNat) =
    d.group.first.toNat :: d.attributes.map fun a => a.handle.toNat := by
  have hc : ∀ cs : List ServedCharacteristic,
      ((cs.flatMap ServedCharacteristic.table).map fun x => x.handle.toNat) =
        (cs.flatMap ServedCharacteristic.attributes).map fun a => a.handle.toNat := by
    intro cs
    induction cs with
    | nil => rfl
    | cons c cs ih =>
      simp only [List.flatMap_cons,List.map_append,ih]
      simp [ServedCharacteristic.table,ServedCharacteristic.attributes,
        ServedCharacteristic.declared,ServedCharacteristic.described,storedDescriptor]
  simp only [ServedService.table,ServedService.attributes,List.cons_append,List.map_cons,
    List.map_append,hc]
  simp [ServedService.included,FoundIncluded.stored]

namespace ServedService.Proper

theorem ascends (h : d.Proper) :
    (d.group.first.toNat :: d.attributes.map fun a => a.handle.toNat).Pairwise (· < ·) :=
  table_handles d ▸ h.ascending

theorem bounded (h : d.Proper) {a : Attribute} (ha : a ∈ d.attributes) :
    d.group.first.toNat < a.handle.toNat ∧ a.handle.toNat ≤ d.group.last.toNat := by
  refine ⟨(List.pairwise_cons.mp h.ascends).1 _ (List.mem_map_of_mem ha),?_⟩
  have hm : a.handle.toNat ∈ d.table.map fun x => x.handle.toNat := by
    rw [table_handles]
    exact List.mem_cons_of_mem _ (List.mem_map_of_mem ha)
  obtain ⟨x,hx,he⟩ := List.mem_map.mp hm
  exact he ▸ h.within x hx

theorem table_bounds (h : d.Proper) {x : Descriptor} (hx : x ∈ d.table) :
    d.group.first.toNat ≤ x.handle.toNat ∧ x.handle.toNat ≤ d.group.last.toNat := by
  refine ⟨?_,h.within x hx⟩
  have hm := List.mem_map_of_mem (f := fun x : Descriptor => x.handle.toNat) hx
  have hasc := h.ascends
  rw [table_handles] at hm
  rcases List.mem_cons.mp hm with hm | hm
  · exact hm.ge
  · exact ((List.pairwise_cons.mp hasc).1 _ hm).le

theorem room (h : d.Proper) : d.group.first.toNat + d.attributes.length ≤ d.group.last.toNat := by
  have hl := ascending_length h.ascends (b := d.group.last.toNat) fun n hn => by
    rcases List.mem_cons.mp hn with rfl | hn
    · exact UInt16.le_iff_toNat_le.mp h.spans
    · obtain ⟨a,ha,rfl⟩ := List.mem_map.mp hn
      exact (h.bounded ha).2
  simpa using hl

end ServedService.Proper

namespace Holds

theorem start (h : Holds s d attrs) : s.start = d.group.first := by
  rw [Service.start,h.declaration]
  rfl

theorem numHandles (h : Holds s d attrs) :
    s.numHandles.toNat + d.group.first.toNat = d.group.last.toNat + 1 := by
  have := s.last_toNat
  rw [h.start,h.last] at this
  omega

theorem append (h : Holds s d attrs) (l : List Attribute) (hf) :
    Holds (s.append l hf) d (attrs ++ l) :=
  ⟨h.declaration,h.last,congrArg (· ++ l) h.attributes⟩

theorem index (h : Holds s d attrs) (hp : d.Proper) {l : List Attribute}
    (hd : d.attributes = attrs ++ l ++ rest) (n : Nat) (hn : n < l.length) :
    s.getAttributeIndex n = attrs.length + 1 := by
  have hnum := h.numHandles
  have hroom := hp.room
  rw [hd,List.length_append,List.length_append] at hroom
  rw [Service.getAttributeIndex,Service.contents,List.length_cons,h.attributes,if_pos (by omega)]

theorem insertCharacteristic (h : Holds s d attrs) (hp : d.Proper)
    (hc : c ∈ d.characteristics) (hd : d.attributes = attrs ++ c.declared ++ rest) :
    ∃ hf, s.gattDbInsertCharacteristic c.value c.uuid c.declaration.properties =
      some (⟨c.value,c.uuid,[]⟩,s.append c.declared hf) := by
  obtain ⟨hv,hmax⟩ := hp.valued c hc
  have hm : (⟨c.value,c.uuid,[]⟩ : Attribute) ∈ d.attributes := by
    rw [hd]
    simp [ServedCharacteristic.declared]
  have hb := (hp.bounded hm).1
  have h0 : c.value ≠ 0 := fun h0 => by simp [h0] at hb
  have hs : ¬ c.value ≤ s.start := by
    rw [h.start,UInt16.le_iff_toNat_le]
    exact not_le_of_gt hb
  have hi := h.index hp hd 1 (by simp [ServedCharacteristic.declared])
  have hprev : c.value - 1 = c.declaration.handle := by
    rw [hv]
    exact UInt16.add_sub_cancel _ _
  refine ⟨?_,?_⟩
  · have hnum := h.numHandles
    have hroom := hp.room
    rw [hd,List.length_append,List.length_append] at hroom
    rw [h.attributes]
    omega
  · rw [Service.gattDbInsertCharacteristic,if_neg h0,Service.insertCharacteristic,
      if_neg (fun hc => hs hc.2),if_neg hmax,dif_neg (by omega)]
    simp only [if_neg h0,hprev]
    rfl

theorem insertDescriptor (h : Holds s d attrs) (hp : d.Proper) {a : Attribute}
    (hd : d.attributes = attrs ++ [a] ++ rest) (hv : a.value = []) :
    ∃ hf, s.gattDbInsertDescriptor a.handle a.uuid = some (a,s.append [a] hf) := by
  have hm : a ∈ d.attributes := by
    rw [hd]
    simp
  have hb := (hp.bounded hm).1
  have h0 : a.handle ≠ 0 := fun h0 => by simp [h0] at hb
  have hs : ¬ a.handle ≤ s.start := by
    rw [h.start,UInt16.le_iff_toNat_le]
    exact not_le_of_gt hb
  have hi := h.index hp hd 0 (by simp)
  obtain ⟨handle,uuid,value⟩ := a
  cases hv
  refine ⟨?_,?_⟩
  · have hnum := h.numHandles
    have hroom := hp.room
    rw [hd,List.length_append,List.length_append] at hroom
    rw [h.attributes]
    omega
  · rw [Service.gattDbInsertDescriptor,if_neg h0,Service.insertDescriptor,dif_neg (by omega),
      if_neg (fun hc => hs hc.2)]
    simp only [if_neg h0]

theorem latest_handle {ps is : List FoundIncluded} {i : FoundIncluded}
    (h : Holds s d (ps.map FoundIncluded.stored))
    (hp : d.Proper) (hi : d.includes = ps ++ i :: is) :
    s.handleAt ps.length + 1 = i.handle := by
  have hc := hp.consecutive
  rw [hi] at hc
  have hat : ∀ (k : Nat) (j : FoundIncluded), (ps ++ i :: is)[k]? = some j →
      j.handle.toNat = d.group.first.toNat + 1 + k := by
    intro k j hj
    have hk := congrArg (fun l => l[k]?) hc
    simp only [List.getElem?_map,hj,Option.map_some] at hk
    obtain ⟨hlt,hv⟩ := List.getElem?_eq_some_iff.mp hk.symm
    rw [← hv,List.getElem_range']
    omega
  have hlast : (s.handleAt ps.length).toNat = d.group.first.toNat + ps.length := by
    rw [Service.handleAt,Service.contents,h.attributes]
    rcases List.eq_nil_or_concat ps with rfl | ⟨qs,j,rfl⟩
    · simp only [List.map_nil,List.length_nil,List.getD_cons_zero,h.declaration]
      rfl
    · have hj := hat qs.length j (by simp)
      rw [List.concat_eq_append,List.length_append,List.length_singleton,List.getD_cons_succ]
      simp [FoundIncluded.stored]
      omega
  have hi' := hat ps.length i (by simp)
  have hmax := i.handle.toNat_lt
  apply UInt16.toNat_inj.mp
  rw [UInt16.toNat_add,hlast,hi']
  simp
  omega

theorem addIncluded {ps is : List FoundIncluded} {i : FoundIncluded} {e : ServedService}
    (h : Holds s d (ps.map FoundIncluded.stored))
    (hp : d.Proper) (hi : d.includes = ps ++ i :: is) (ht : Holds t e rest)
    (h1 : e.group.first = i.first) (h2 : e.group.last = i.last) :
    ∃ hf, s.addIncluded t = some (i.stored,s.append [i.stored] hf) := by
  have hd : d.attributes =
      (ps.map FoundIncluded.stored) ++ [i.stored] ++
        ((is.map FoundIncluded.stored) ++
          d.characteristics.flatMap ServedCharacteristic.attributes) := by
    simp [ServedService.attributes,ServedService.included,hi]
  have hx := h.index hp hd 0 (by simp)
  have hlen : t.declaration.value.length ≠ 2 := by
    rw [ht.declaration,show e.declaration.value.length = 16 from (Uuid.bswap128 _).property]
    decide
  refine ⟨?_,?_⟩
  · have hnum := h.numHandles
    have hroom := hp.room
    rw [hd,List.length_append,List.length_append] at hroom
    rw [h.attributes]
    omega
  · rw [Service.addIncluded,dif_neg (by omega)]
    simp only [if_neg hlen,List.append_nil,hx,List.length_map,Nat.add_sub_cancel,
      h.latest_handle hp hi]
    rw [show t.start + t.numHandles - 1 = t.last from rfl,ht.start,ht.last,h1,h2]
    rfl

end Holds
end Minipro.GattClient
