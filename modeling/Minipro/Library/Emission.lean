import Mathlib.Tactic

structure Emission (E A : Type) where
  out : List E
  result : Except String A

namespace Emission
variable {E A B : Type}

instance : Monad (Emission E) where
  pure a := ⟨[],.ok a⟩
  bind m f := match m.result with
    | .error what => ⟨m.out,.error what⟩
    | .ok a => ⟨m.out ++ (f a).out,(f a).result⟩

def emit (e : E) : Emission E Unit := ⟨[e],.ok ()⟩
def perform (r : Except String A) : Emission E A := ⟨[],r⟩

@[simp] theorem emit_out (e : E) : (emit e).out = [e] := rfl
@[simp] theorem emit_result (e : E) : (emit e).result = .ok () := rfl
@[simp] theorem perform_out (r : Except String A) : (perform r : Emission E A).out = [] := rfl
@[simp] theorem perform_result (r : Except String A) :
    (perform r : Emission E A).result = r := rfl
@[simp] theorem pure_out (a : A) : (pure a : Emission E A).out = [] := rfl
@[simp] theorem pure_result (a : A) : (pure a : Emission E A).result = .ok a := rfl

theorem bind_of_ok {m : Emission E A} {a : A} (h : m.result = .ok a) (f : A → Emission E B) :
    (m >>= f).out = m.out ++ (f a).out ∧ (m >>= f).result = (f a).result := by
  simp only [bind,h,and_self]

theorem bind_of_error {m : Emission E A} {what : String} (h : m.result = .error what)
    (f : A → Emission E B) : (m >>= f).out = m.out ∧ (m >>= f).result = .error what := by
  simp only [bind,h,and_self]

@[simp] theorem mem_bind {m : Emission E A} {f : A → Emission E B} {e : E} :
    e ∈ (m >>= f).out ↔ e ∈ m.out ∨ ∃ a, m.result = .ok a ∧ e ∈ (f a).out := by
  cases h : m.result with
  | error what => simp [(bind_of_error h f).1]
  | ok a => simp [(bind_of_ok h f).1]

@[simp] theorem bind_ok_iff {m : Emission E A} {f : A → Emission E B} {b : B} :
    (m >>= f).result = .ok b ↔ ∃ a, m.result = .ok a ∧ (f a).result = .ok b := by
  cases h : m.result with
  | error what => simp [(bind_of_error h f).2]
  | ok a => simp [(bind_of_ok h f).2]

theorem suffix_bind {m : Emission E A} {a : A} (h : m.result = .ok a) {f : A → Emission E B}
    {es : List E} (hs : es <:+ (f a).out) : es <:+ (m >>= f).out := by
  rw [(bind_of_ok h f).1]
  exact hs.trans (List.suffix_append _ _)

end Emission
