import Mathlib.Tactic

namespace Latest
variable {E V S : Type}

def latest (p : E → Bool) (val : E → V) (d : V) (es : List E) : V :=
  (((es.filter p).getLast?).map val).getD d

theorem latest_concat (p : E → Bool) (val : E → V) (d : V) (es : List E) (e : E) :
    latest p val d (es ++ [e]) = if p e then val e else latest p val d es := by
  by_cases h : p e <;> simp [latest,h]

theorem latest_none {p : E → Bool} {val : E → V} {d : V} {es : List E}
    (h : (es.filter p).getLast? = none) : latest p val d es = d := by
  rw [latest,h]; rfl

theorem latest_some {p : E → Bool} {val : E → V} {d : V} {es : List E} {e : E}
    (h : (es.filter p).getLast? = some e) : latest p val d es = val e := by
  rw [latest,h]; rfl

theorem getLast?_filter_of_imp {p q : E → Bool} (hpq : ∀ e, q e → p e) {es : List E} {e : E}
    (h : (es.filter p).getLast? = some e) (hq : q e) : (es.filter q).getLast? = some e := by
  induction es using List.reverseRecOn with
  | nil => simp at h
  | append_singleton es a ih =>
    by_cases ha : p a
    · have hae : a = e := by simpa [ha] using h
      subst hae
      simp [hq]
    · have hqa : ¬ q a := fun hqa => ha (hpq a hqa)
      simp only [List.filter_append,List.filter_singleton,ha,hqa] at h ⊢
      simpa using ih (by simpa using h)

theorem foldl_latest (step : S → E → S) (obs : S → V) (p : E → Bool) (val : E → V) (s : S)
    (h : ∀ s e, obs (step s e) = if p e then val e else obs s) (es : List E) :
    obs (es.foldl step s) = latest p val (obs s) es := by
  induction es using List.reverseRecOn with
  | nil => rfl
  | append_singleton es e ih => rw [List.foldl_concat,h,latest_concat,ih]

end Latest
