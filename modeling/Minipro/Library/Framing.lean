import Mathlib.Tactic

namespace Framing
variable {A B C : Type}

structure Codec (A B : Type) where
  encode : A → List B
  decode : List B → Option (A × List B)
  decode_encode : ∀ a rest, decode (encode a ++ rest) = some (a,rest)
  decode_shorter : ∀ {bs a rest}, decode bs = some (a,rest) → rest.length < bs.length

namespace Codec
variable (c : Codec A B)

theorem encode_pos (a : A) : 0 < (c.encode a).length := by
  have h := c.decode_shorter (c.decode_encode a [])
  simpa using h

def encodeAll (xs : List A) : List B := xs.flatMap c.encode

@[simp] theorem encodeAll_nil : c.encodeAll [] = [] := rfl

@[simp] theorem encodeAll_cons (x : A) (xs : List A) :
    c.encodeAll (x :: xs) = c.encode x ++ c.encodeAll xs := rfl

def read : Nat → List B → Option (List A)
  | _, [] => some []
  | 0, _ :: _ => none
  | n+1, b :: bs => (c.decode (b :: bs)).bind fun p => (read n p.2).map (p.1 :: ·)

def decodeAll (bs : List B) : Option (List A) := c.read bs.length bs

theorem read_encodeAll (xs : List A) (n : Nat) (h : (c.encodeAll xs).length ≤ n) :
    c.read n (c.encodeAll xs) = some xs := by
  induction xs generalizing n with
  | nil => cases n <;> rfl
  | cons x xs ih =>
    have hp := c.encode_pos x
    have hd := c.decode_encode x (c.encodeAll xs)
    rw [encodeAll_cons] at h ⊢
    generalize hw : c.encode x ++ c.encodeAll xs = w at hd h
    have hl : w.length = (c.encode x).length + (c.encodeAll xs).length := by
      rw [← hw,List.length_append]
    cases w with
    | nil =>
      simp only [List.length_nil] at hl
      omega
    | cons b bs =>
      cases n with
      | zero => simp at h
      | succ n =>
        have hn : (c.encodeAll xs).length ≤ n := by
          simp only [List.length_cons] at h hl
          omega
        simp [read,hd,ih n hn]

theorem decodeAll_encodeAll (xs : List A) : c.decodeAll (c.encodeAll xs) = some xs :=
  c.read_encodeAll xs _ (Nat.le_refl _)

theorem encodeAll_injective : Function.Injective c.encodeAll := by
  intro xs ys h
  have hx := c.decodeAll_encodeAll xs
  rw [h,c.decodeAll_encodeAll] at hx
  exact (Option.some.inj hx).symm

def refine (into : C → A) (back : A → Option C) (h : ∀ x, back (into x) = some x) : Codec C B where
  encode := c.encode ∘ into
  decode bs := (c.decode bs).bind fun p => (back p.1).map (·,p.2)
  decode_encode x rest := by simp [c.decode_encode,h]
  decode_shorter {bs x rest} hd := by
    obtain ⟨⟨a,r⟩,ha,hx⟩ := Option.bind_eq_some_iff.mp hd
    obtain ⟨y,_,hy⟩ := Option.map_eq_some_iff.mp hx
    cases hy
    exact c.decode_shorter ha

end Codec
end Framing
