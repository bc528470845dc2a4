import Mathlib.Tactic

namespace References
variable {A : Type} [DecidableEq A] {refs : A → Nat} {owned more : List A} {a : A}

def Covered (refs : A → Nat) (owned : List A) : Prop := ∀ a, owned.count a ≤ refs a

namespace Covered

theorem perm (h : Covered refs owned) (hp : owned.Perm more) : Covered refs more := fun a => by
  rw [← hp.count_eq a]
  exact h a

theorem drop (h : Covered refs (a :: owned)) : Covered refs owned := fun b =>
  (List.count_le_count_cons).trans (h b)

theorem acquire (h : Covered refs owned) (a : A) :
    Covered (Function.update refs a (refs a + 1)) (a :: owned) := fun b => by
  have hb := h b
  rcases eq_or_ne b a with rfl | hne
  · rw [List.count_cons_self,Function.update_self]
    omega
  · rw [List.count_cons_of_ne hne.symm,Function.update_of_ne hne]
    exact hb

theorem release (h : Covered refs (a :: owned)) :
    Covered (Function.update refs a (refs a - 1)) owned := fun b => by
  have hb := h b
  rcases eq_or_ne b a with rfl | hne
  · rw [List.count_cons_self] at hb
    rw [Function.update_self]
    omega
  · rw [List.count_cons_of_ne hne.symm] at hb
    rw [Function.update_of_ne hne]
    exact hb

theorem mono {refs' : A → Nat} (h : Covered refs owned) (hr : ∀ a ∈ owned, refs a ≤ refs' a) :
    Covered refs' owned := fun b => by
  by_cases hb : b ∈ owned
  · exact (h b).trans (hr b hb)
  · rw [List.count_eq_zero_of_not_mem hb]
    exact Nat.zero_le _

end Covered
end References
