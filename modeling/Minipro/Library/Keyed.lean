import Mathlib.Tactic

namespace Keyed

def Distinct {A K : Type} (key : A → K) (xs : List A) : Prop := (xs.map key).Nodup

namespace Distinct
variable {A K : Type} {key : A → K} {x y : A} {xs ps rs : List A}

theorem unique (h : Distinct key xs) (hx : x ∈ xs) (hy : y ∈ xs) (hk : key x = key y) : x = y :=
  List.inj_on_of_nodup_map h hx hy hk

theorem filter (h : Distinct key xs) (p : A → Bool) : Distinct key (xs.filter p) :=
  h.sublist (List.filter_sublist.map key)

theorem insert_iff : Distinct key (ps ++ x :: rs) ↔
    (∀ y ∈ ps ++ rs, key y ≠ key x) ∧ Distinct key (ps ++ rs) := by
  rw [Distinct,List.map_append,List.map_cons,List.nodup_middle,List.nodup_cons,← List.map_append]
  refine and_congr_left fun _ => ?_
  simp only [List.mem_map,not_exists,not_and]

end Distinct

variable {A K : Type} [DecidableEq K] (key : A → K)

def find (k : K) (xs : List A) : Option A := xs.find? fun x => key x = k

def replace (y : A) (xs : List A) : List A := xs.map fun x => if key x = key y then y else x

variable {key} {k : K} {x y : A} {xs ps rs : List A}

theorem mem_of_find (h : find key k xs = some x) : x ∈ xs ∧ key x = k :=
  ⟨List.mem_of_find?_eq_some h,by simpa using List.find?_some h⟩

theorem find_none_iff : find key k xs = none ↔ ∀ x ∈ xs, key x ≠ k := by
  simp [find]

theorem find_replace (y : A) (xs : List A) (k : K) :
    find key k (replace key y xs) =
      if k = key y then (find key k xs).map fun _ => y else find key k xs := by
  induction xs with
  | nil => simp [find,replace]
  | cons x xs ih =>
    simp only [find,replace,List.map_cons,List.find?_cons] at ih ⊢
    rcases eq_or_ne (key x) k with rfl | hk
    · rcases eq_or_ne (key x) (key y) with h | h
      · simp [h]
      · simp [h]
    · rcases eq_or_ne (key x) (key y) with h | h
      · have hy : key y ≠ k := fun hy => hk (h.trans hy)
        simpa [h,hy,hk] using ih
      · simpa [h,hk] using ih

theorem replace_keys (y : A) (xs : List A) : (replace key y xs).map key = xs.map key := by
  induction xs with
  | nil => rfl
  | cons x xs ih =>
    simp only [replace,List.map_cons] at ih ⊢
    rw [ih]
    split
    next h => rw [h]
    next => rfl

theorem find_without (xs : List A) (a k : K) :
    find key k (xs.filter fun x => key x ≠ a) = if k = a then none else find key k xs := by
  induction xs with
  | nil => simp [find]
  | cons x xs ih =>
    rcases eq_or_ne (key x) a with h | h
    · rw [List.filter_cons_of_neg (by simp [h]),ih]
      split
      next => rfl
      next hk => rw [find,find,List.find?_cons_of_neg (by simpa [h] using Ne.symm hk)]
    · rw [List.filter_cons_of_pos (by simp [h])]
      rcases eq_or_ne (key x) k with rfl | hk
      · simp [find,h]
      · simpa [find,hk] using ih

theorem find_concat (h : find key (key x) xs = none) (k : K) :
    find key k (xs ++ [x]) = if k = key x then some x else find key k xs := by
  rw [find,List.find?_append]
  rcases eq_or_ne k (key x) with rfl | hk
  · rw [find] at h
    simp [h]
  · simp [find,hk,hk.symm]

theorem countP_of_distinct (h : Distinct key xs) (q : A → Bool) (k : K) :
    xs.countP (fun x => q x ∧ key x = k) = if (find key k xs).any q then 1 else 0 := by
  induction xs with
  | nil => rfl
  | cons x xs ih =>
    obtain ⟨hn,hd⟩ := List.nodup_cons.mp h
    rcases eq_or_ne (key x) k with rfl | hk
    · have h0 : xs.countP (fun y => q y ∧ key y = key x) = 0 := by
        refine List.countP_eq_zero.mpr fun y hy => ?_
        have : key y ≠ key x := fun h => hn (h ▸ List.mem_map_of_mem hy)
        simp [this]
      rw [List.countP_cons,h0]
      simp [find]
    · rw [List.countP_cons_of_neg (by simp [hk]),ih hd,find,find,
        List.find?_cons_of_neg (by simpa using hk)]

namespace Distinct

theorem find_iff (h : Distinct key xs) : find key k xs = some x ↔ x ∈ xs ∧ key x = k := by
  refine ⟨mem_of_find,fun ⟨hx,hk⟩ => ?_⟩
  cases hf : find key k xs with
  | none => exact absurd hk (find_none_iff.mp hf x hx)
  | some y =>
    obtain ⟨hy,hyk⟩ := mem_of_find hf
    rw [h.unique hy hx (hyk.trans hk.symm)]

theorem find_mem (h : Distinct key xs) (hx : x ∈ xs) : find key (key x) xs = some x :=
  h.find_iff.mpr ⟨hx,rfl⟩

theorem replace (h : Distinct key xs) (y : A) : Distinct key (replace key y xs) := by
  rw [Distinct,replace_keys]
  exact h

theorem find_filter (h : Distinct key xs) (p : A → Bool) (k : K) :
    find key k (xs.filter p) = (find key k xs).filter p := by
  apply Option.ext
  intro x
  rw [(h.filter p).find_iff,Option.filter_eq_some_iff,h.find_iff,List.mem_filter]
  tauto

theorem find_insert (h : Distinct key (ps ++ x :: rs)) (k : K) :
    find key k (ps ++ x :: rs) = if k = key x then some x else find key k (ps ++ rs) := by
  split
  next hk =>
    rw [hk]
    exact h.find_mem (by simp)
  next hk =>
    apply Option.ext
    intro y
    rw [h.find_iff,(insert_iff.mp h).2.find_iff]
    have hne : y = x → key y ≠ k := fun hy hk' => hk (hy ▸ hk'.symm)
    simp only [List.mem_append,List.mem_cons]
    tauto

end Distinct
end Keyed
