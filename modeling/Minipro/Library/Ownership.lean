import Mathlib.Data.List.Count

namespace Ownership
variable {E : Type}

def Permitted (P : List E → E → Prop) : List E → List E → Prop
  | _, [] => True
  | past, e :: es => P past e ∧ Permitted P (past ++ [e]) es

def decidePermitted (P : List E → E → Prop) [∀ past e, Decidable (P past e)] :
    ∀ past es, Decidable (Permitted P past es)
  | _, [] => isTrue trivial
  | past, e :: es =>
      have := decidePermitted P (past ++ [e]) es
      inferInstanceAs (Decidable (P past e ∧ Permitted P (past ++ [e]) es))

instance (P : List E → E → Prop) [∀ past e, Decidable (P past e)] (past es : List E) :
    Decidable (Permitted P past es) := decidePermitted P past es

theorem permitted_iff (P : List E → E → Prop) (past es : List E) : Permitted P past es ↔
    ∀ pre e post, es = pre ++ e :: post → P (past ++ pre) e := by
  induction es generalizing past with
  | nil => simp [Permitted]
  | cons e es ih =>
    simp only [Permitted,ih]
    constructor
    · rintro ⟨h,hs⟩ pre a post hl
      cases pre with
      | nil =>
        cases hl
        simpa using h
      | cons b pre =>
        obtain ⟨rfl,rfl⟩ := List.cons.inj hl
        simpa using hs pre a post rfl
    · intro h
      refine ⟨by simpa using h [] e es rfl,fun pre a post hl => ?_⟩
      simpa using h (e :: pre) a post (by rw [hl]; rfl)

theorem permitted_append (P : List E → E → Prop) (past es fs : List E) :
    Permitted P past (es ++ fs) ↔ Permitted P past es ∧ Permitted P (past ++ es) fs := by
  induction es generalizing past with
  | nil => simp [Permitted]
  | cons e es ih => simp [Permitted,ih,and_assoc]

variable [DecidableEq E]

def Owned (acquire release : E) (past : List E) : Prop := past.count release < past.count acquire

instance (acquire release : E) (past : List E) : Decidable (Owned acquire release past) :=
  inferInstanceAs (Decidable (past.count release < past.count acquire))

theorem owned_insert {acquire release : E} (past post : List E) {es : List E} (ha : acquire ∉ es)
    (hr : release ∉ es) :
    Owned acquire release (past ++ (es ++ post)) ↔ Owned acquire release (past ++ post) := by
  simp only [Owned,List.count_append,List.count_eq_zero_of_not_mem ha,
    List.count_eq_zero_of_not_mem hr,Nat.zero_add]

end Ownership
