import Minipro.Library.Sweep
import Minipro.Bluez.GattDb

namespace Minipro.GattDb
open Sweep GattHelpers Transition

namespace Service
variable {s : Service} {start last handle : UInt16}

theorem last_toNat (s : Service) : s.last.toNat + 1 = s.start.toNat + s.numHandles.toNat := by
  have := s.ends
  have := s.fits
  simp only [last,start,UInt16.toNat_sub,UInt16.toNat_add]
  simp
  omega

theorem start_pos (s : Service) : 0 < s.start.toNat := UInt16.lt_iff_toNat_lt.mp s.placed

theorem start_le_last (s : Service) : s.start.toNat ≤ s.last.toNat := by
  have := s.last_toNat
  have := s.fits
  omega

theorem holds_iff : s.holds handle ↔
    s.start.toNat ≤ handle.toNat ∧ handle.toNat ≤ s.last.toNat := by
  simp [holds,UInt16.le_iff_toNat_le]

theorem matchRange_iff : s.matchRange start last ↔
    s.start.toNat ≤ last.toNat ∧ start.toNat ≤ s.last.toNat := by
  simp [matchRange,UInt16.le_iff_toNat_le]

theorem insertCharacteristic_frame {u : Uuid} {properties : UInt8} {a : Attribute} {t : Service}
    (h : s.insertCharacteristic handle u properties = some (a,t)) :
    ∃ l, ∃ hf, t = s.append l hf := by
  simp only [insertCharacteristic,Option.ite_none_left_eq_some] at h
  obtain ⟨_,_,h⟩ := h
  split at h
  next => simp at h
  next =>
    obtain ⟨_,rfl⟩ := Prod.mk.inj (Option.some.inj h)
    exact ⟨_,_,rfl⟩

theorem insertDescriptor_frame {u : Uuid} {a : Attribute} {t : Service}
    (h : s.insertDescriptor handle u = some (a,t)) : ∃ l, ∃ hf, t = s.append l hf := by
  simp only [insertDescriptor] at h
  split at h
  next => simp at h
  next =>
    obtain ⟨_,h⟩ := Option.ite_none_left_eq_some.mp h
    obtain ⟨_,rfl⟩ := Prod.mk.inj (Option.some.inj h)
    exact ⟨_,_,rfl⟩

theorem addIncluded_frame {included : Service} {a : Attribute} {t : Service}
    (h : s.addIncluded included = some (a,t)) : ∃ l, ∃ hf, t = s.append l hf := by
  simp only [addIncluded] at h
  split at h
  next => simp at h
  next =>
    obtain ⟨_,rfl⟩ := Prod.mk.inj (Option.some.inj h)
    exact ⟨_,_,rfl⟩

end Service

def extent : Extent Service where
  first s := s.start.toNat
  last s := s.last.toNat

namespace Db

def Ordered (db : Db) : Prop := extent.Laid db.services

def Encloses (handle numHandles : UInt16) (s : Service) : Prop :=
  handle < s.start ∧ s.last.toNat + 1 < handle.toNat + numHandles.toNat

variable {db t : Db} {handle start last numHandles : UInt16} {u : Uuid} {primary : Bool}
  {a : Address} {s : Service} {ss front back : List Service}

theorem findInsertLoc_clash (h : findInsertLoc start last ss = .clash s) :
    s ∈ ss ∧ (s.holds start ∨ s.holds last) := by
  induction ss with
  | nil => simp [findInsertLoc] at h
  | cons r ss ih =>
    simp only [findInsertLoc] at h
    split at h
    next hs =>
      cases h
      exact ⟨List.mem_cons_self,.inl hs⟩
    next =>
      split at h
      next hl =>
        cases h
        exact ⟨List.mem_cons_self,.inr hl⟩
      next =>
        split at h
        next => simp at h
        next =>
          split at h
          next t ht =>
            cases h
            obtain ⟨hm,hh⟩ := ih ht
            exact ⟨List.mem_cons_of_mem r hm,hh⟩
          next => simp at h

theorem findInsertLoc_gap (h : findInsertLoc start last ss = .gap front back) :
    ss = front ++ back ∧
    (∀ s ∈ front, ¬ s.holds start ∧ ¬ s.holds last ∧ s.start ≤ last) ∧
    ∀ s ∈ back.head?, last < s.start := by
  induction ss generalizing front with
  | nil =>
    cases h
    simp
  | cons r ss ih =>
    simp only [findInsertLoc] at h
    split at h
    next => simp at h
    next hs =>
      split at h
      next => simp at h
      next hl =>
        split at h
        next hlt =>
          cases h
          simpa using hlt
        next hle =>
          split at h
          next => simp at h
          next front' back' hf =>
            cases h
            obtain ⟨rfl,hp,hb⟩ := ih hf
            exact ⟨rfl,List.forall_mem_cons.mpr ⟨⟨hs,hl,UInt16.not_lt.mp hle⟩,hp⟩,hb⟩

theorem insertService_cases (h : db.insertService handle u primary numHandles = some (a,t)) :
    (∃ s ∈ db.services, describes s handle u primary numHandles ∧ a = s.address ∧ t = db) ∨
    ∃ hp hn he front back,
      findInsertLoc handle (handle + numHandles - 1) db.services = .gap front back ∧
      a = db.allocated ∧
      t = { db with
        services := front ++ Service.create db.allocated u handle primary numHandles hp hn he :: back
        nextHandle := UInt16.ofNat (max (handle.toNat + numHandles.toNat) db.nextHandle.toNat)
        allocated := db.allocated + 1 } := by
  simp only [insertService] at h
  split at h
  next hv =>
    split at h
    next s hs =>
      obtain ⟨hd,h⟩ := Option.ite_none_right_eq_some.mp h
      obtain ⟨rfl,rfl⟩ := Prod.mk.inj (Option.some.inj h)
      exact .inl ⟨s,(findInsertLoc_clash hs).1,hd,rfl,rfl⟩
    next front back hg =>
      obtain ⟨rfl,rfl⟩ := Prod.mk.inj (Option.some.inj h)
      exact .inr ⟨hv.1,hv.2.1,hv.2.2,front,back,hg,rfl,rfl⟩
  next => simp at h

theorem ordered_gap_iff (ho : db.Ordered) {hp hn he}
    (hg : findInsertLoc handle (handle + numHandles - 1) db.services = .gap front back) :
    extent.Laid (front ++ Service.create a u handle primary numHandles hp hn he :: back) ↔
      ∀ s ∈ db.services, ¬ Encloses handle numHandles s := by
  set n := Service.create a u handle primary numHandles hp hn he
  have hlast : n.last = handle + numHandles - 1 := rfl
  have hn1 := n.last_toNat
  rw [show n.start = handle from rfl,show n.numHandles = numHandles from rfl] at hn1
  obtain ⟨hs,hf,hb⟩ := findInsertLoc_gap hg
  rw [← hlast] at hf hb
  rw [Ordered,hs] at ho
  have hback : ∀ s ∈ back, n.last.toNat < s.start.toNat := by
    cases back with
    | nil => simp
    | cons b back =>
      have hlt : n.last.toNat < b.start.toNat := UInt16.lt_iff_toNat_lt.mp (hb b rfl)
      refine List.forall_mem_cons.mpr ⟨hlt,fun s hs => ?_⟩
      have h1 : b.last.toNat < s.start.toNat := ho.after hs
      have h2 := b.start_le_last
      omega
  rw [Extent.Laid.insert_iff,hs]
  constructor
  · rintro ⟨_,_,hbefore,_⟩ s hm ⟨h1,h2⟩
    rw [UInt16.lt_iff_toNat_lt] at h1
    rcases List.mem_append.mp hm with hm | hm
    · have h3 : s.last.toNat < handle.toNat := hbefore s hm
      have h4 := s.start_le_last
      omega
    · have h3 := hback s hm
      have h4 := s.start_le_last
      omega
  · intro hne
    refine ⟨ho,n.start_le_last,fun s hm => ?_,hback⟩
    obtain ⟨h1,h2,h3⟩ := hf s hm
    rw [Service.holds_iff] at h1 h2
    rw [UInt16.le_iff_toNat_le] at h3
    by_contra hlt
    have h4 : handle.toNat ≤ s.last.toNat := Nat.le_of_not_lt hlt
    refine hne s (List.mem_append_left back hm) ⟨UInt16.lt_iff_toNat_lt.mpr ?_,?_⟩ <;> omega

theorem ordered_insert_iff (ho : db.Ordered)
    (h : db.insertService handle u primary numHandles = some (a,t)) :
    t.Ordered ↔ t = db ∨ ∀ s ∈ db.services, ¬ Encloses handle numHandles s := by
  rcases insertService_cases h with ⟨s,hs,_,_,rfl⟩ | ⟨_,_,_,front,back,hg,_,rfl⟩
  · exact ⟨fun _ => .inl rfl,fun _ => ho⟩
  · rw [Ordered,ordered_gap_iff ho hg]
    refine ⟨.inr,fun h => h.resolve_left fun he => ?_⟩
    have := congrArg Db.allocated he
    simp at this

end Db
end Minipro.GattDb
