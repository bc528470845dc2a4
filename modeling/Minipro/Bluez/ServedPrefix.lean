import Minipro.Bluez.ServedDatabase

namespace Minipro.GattClient
open GattDb GattHelpers Sweep

-- A refused follow-up request ends the descriptor discovery of a characteristic early: cut counts
-- what is left of its descriptors.
def ServedCharacteristic.told (cut : UInt16 → Nat) (c : ServedCharacteristic) :
    ServedCharacteristic :=
  { c with descriptors := c.descriptors.take (cut c.value) }

def ServedService.told (cut : UInt16 → Nat) (d : ServedService) : ServedService :=
  { d with characteristics := d.characteristics.map (ServedCharacteristic.told cut) }

def told (cut : UInt16 → Nat) (server : List ServedService) : List ServedService :=
  server.map (ServedService.told cut)

def Whole (cut : UInt16 → Nat) (server : List ServedService) : Prop :=
  ∀ d ∈ server, ∀ c ∈ d.characteristics, c.descriptors.length ≤ cut c.value

variable {cut cut' : UInt16 → Nat} {server : List ServedService} {d e : ServedService}
  {c c' : ServedCharacteristic} {qs rs : List ServedCharacteristic}

theorem ServedCharacteristic.told_of_le (h : c.descriptors.length ≤ cut c.value) :
    c.told cut = c := by
  rw [ServedCharacteristic.told,List.take_of_length_le h]

theorem told_of_whole (h : Whole cut server) : told cut server = server := by
  refine (List.map_congr_left fun d hd => ?_).trans (List.map_id server)
  have hc : d.characteristics.map (ServedCharacteristic.told cut) = d.characteristics :=
    (List.map_congr_left fun c hc => ServedCharacteristic.told_of_le (h d hd c hc)).trans
      (List.map_id _)
  rw [ServedService.told,hc]
  rfl

theorem ServedCharacteristic.told_congr (h : cut c.value = cut' c.value) :
    c.told cut = c.told cut' := by
  rw [ServedCharacteristic.told,ServedCharacteristic.told,h]

theorem ServedService.told_congr (h : ∀ c ∈ d.characteristics, cut c.value = cut' c.value) :
    d.told cut = d.told cut' := by
  have hc : d.characteristics.map (ServedCharacteristic.told cut) =
      d.characteristics.map (ServedCharacteristic.told cut') :=
    List.map_congr_left fun c hc => ServedCharacteristic.told_congr (h c hc)
  rw [ServedService.told,ServedService.told,hc]

theorem told_table (d : ServedService) (cut : UInt16 → Nat) :
    (d.told cut).table.Sublist d.table := by
  have hc (cs : List ServedCharacteristic) :
      ((cs.map (ServedCharacteristic.told cut)).flatMap ServedCharacteristic.table).Sublist
        (cs.flatMap ServedCharacteristic.table) := by
    induction cs with
    | nil => exact List.Sublist.slnil
    | cons c cs ih => exact (((List.take_sublist _ _).cons_cons _).cons_cons _).append ih
  exact (hc d.characteristics).append_left _

namespace ServedService.Proper

theorem told (h : d.Proper) (cut : UInt16 → Nat) : (d.told cut).Proper where
  placed := h.placed
  spans := h.spans
  ascending := h.ascending.sublist ((told_table d cut).map _)
  within x hx := h.within x ((told_table d cut).subset hx)
  consecutive := h.consecutive
  valued c hc := by
    obtain ⟨c,hm,rfl⟩ := List.mem_map.mp hc
    exact h.valued c hm

theorem value_within (h : d.Proper) (hc : c ∈ d.characteristics) :
    d.group.first.toNat ≤ c.value.toNat ∧ c.value.toNat ≤ d.group.last.toNat := by
  have hm : (⟨c.value,c.uuid,[]⟩ : Attribute) ∈ d.attributes := by
    refine List.mem_append_right _ (List.mem_flatMap.mpr ⟨c,hc,?_⟩)
    simp [ServedCharacteristic.attributes,ServedCharacteristic.declared]
  have hb := h.bounded hm
  exact ⟨hb.1.le,hb.2⟩

theorem values_ascend (h : d.Proper) :
    (d.characteristics.map fun c => c.value.toNat).Pairwise (· < ·) := by
  have hs (cs : List ServedCharacteristic) : (cs.map fun c => c.value.toNat).Sublist
      ((cs.flatMap ServedCharacteristic.table).map fun x => x.handle.toNat) := by
    induction cs with
    | nil => exact List.Sublist.slnil
    | cons c cs ih =>
      rw [List.flatMap_cons,List.map_append]
      exact ((List.nil_sublist _).cons_cons _ |>.cons _).append ih
  refine h.ascending.sublist ((hs d.characteristics).trans ?_)
  exact (List.sublist_append_right _ _).map _

theorem value_ne (h : d.Proper) (hs : d.characteristics = qs ++ c :: rs) (hc : c' ∈ qs ++ rs) :
    c'.value ≠ c.value := by
  have ha := h.values_ascend
  rw [hs,List.map_append,List.map_cons,List.pairwise_append,List.pairwise_cons] at ha
  obtain ⟨-,⟨hrs,-⟩,hqs⟩ := ha
  intro he
  rcases List.mem_append.mp hc with hc | hc
  · have hlt := hqs _ (List.mem_map_of_mem hc) c.value.toNat List.mem_cons_self
    exact absurd (congrArg UInt16.toNat he) hlt.ne
  · have hlt := hrs _ (List.mem_map_of_mem hc)
    exact absurd (congrArg UInt16.toNat he) hlt.ne'

end ServedService.Proper

namespace Served
variable (h : Served server)
include h

theorem told (cut : UInt16 → Nat) : Served (told cut server) where
  laid := h.laid.map (fun _ _ => rfl) fun _ _ => rfl
  proper d hd := by
    obtain ⟨d,hm,rfl⟩ := List.mem_map.mp hd
    exact (h.proper d hm).told cut
  included d hd i hi := by
    obtain ⟨d,hm,rfl⟩ := List.mem_map.mp hd
    obtain ⟨e,he,h1⟩ := h.included d hm i hi
    exact ⟨e.told cut,List.mem_map_of_mem he,h1⟩

theorem value_apart (hd : d ∈ server) (he : e ∈ server) (hne : d ≠ e)
    (hc : c ∈ d.characteristics) (hc' : c' ∈ e.characteristics) : c.value ≠ c'.value := by
  have h1 := (h.proper d hd).value_within hc
  have h2 := (h.proper e he).value_within hc'
  have ha := h.laid.apart_of_ne hd he hne
  simp only [served] at ha
  intro heq
  rw [heq] at h1
  omega

theorem value_unique (hd : d ∈ server) (he : e ∈ server) (hc : c ∈ d.characteristics)
    (hc' : c' ∈ e.characteristics) (hv : c.value = c'.value) : c = c' := by
  have hde : d = e := by_contra fun hne => h.value_apart hd he hne hc hc' hv
  subst hde
  obtain ⟨qs,rs,hs⟩ := List.append_of_mem hc'
  by_contra hne
  rw [hs] at hc
  have hm : c ∈ qs ++ rs := by
    rcases List.mem_append.mp hc with hc | hc
    · exact List.mem_append_left _ hc
    · exact List.mem_append_right _ ((List.mem_cons.mp hc).resolve_left hne)
  exact (h.proper d hd).value_ne hs hm hv

end Served
end Minipro.GattClient
