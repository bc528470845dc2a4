import Mathlib.Tactic

namespace Pacing
variable {S E R : Type} [AddCommMonoid R] [PartialOrder R] [IsOrderedAddMonoid R]

structure Advances (step : S → E → S) (clock : S → R) (d : R) (I : S → Prop) : Prop where
  keeps : ∀ s e, I s → I (step s e)
  advances : ∀ s e, I s → clock s + d ≤ clock (step s e)

variable {step : S → E → S} {clock : S → R} {d : R} {I : S → Prop}

theorem Advances.foldl (h : Advances step clock d I) {s : S} (hs : I s) (es : List E) :
    I (es.foldl step s) ∧ clock s + es.length • d ≤ clock (es.foldl step s) := by
  induction es generalizing s with
  | nil => exact ⟨hs,by simp⟩
  | cons e es ih =>
    obtain ⟨hi,hc⟩ := ih (h.keeps s e hs)
    refine ⟨hi,le_trans ?_ hc⟩
    calc clock s + (es.length+1) • d = clock s + d + es.length • d := by
          rw [succ_nsmul',add_assoc]
      _ ≤ clock (step s e) + es.length • d := by
          gcongr
          exact h.advances s e hs

theorem Advances.window (h : Advances step clock d I) {s : S} (hs : I s) {es : List E} {k n : Nat}
    (hk : k+n ≤ es.length) :
    clock ((es.take k).foldl step s) + n • d ≤ clock ((es.take (k+n)).foldl step s) := by
  have hi := (h.foldl hs (es.take k)).1
  have hl : ((es.drop k).take n).length = n := by
    rw [List.length_take,List.length_drop]
    omega
  have hw := (h.foldl hi ((es.drop k).take n)).2
  rwa [hl,← List.foldl_append,← List.take_add] at hw

end Pacing
