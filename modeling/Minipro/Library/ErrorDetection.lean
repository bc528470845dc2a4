import Mathlib.Tactic

namespace ErrorDetection
variable {A : Type} [DecidableEq A]

def distance : List A → List A → Nat
  | x :: xs, y :: ys => (if x = y then 0 else 1) + distance xs ys
  | _, _ => 0

@[simp] theorem distance_self (xs : List A) : distance xs xs = 0 := by
  induction xs with
  | nil => rfl
  | cons x xs ih => simp [distance,ih]

theorem eq_of_distance_zero {xs ys : List A} (hl : xs.length = ys.length)
    (h : distance xs ys = 0) : xs = ys := by
  induction xs generalizing ys with
  | nil => simpa using hl.symm
  | cons x xs ih =>
    cases ys with
    | nil => simp at hl
    | cons y ys =>
      simp only [List.length_cons,Nat.add_right_cancel_iff] at hl
      simp only [distance,Nat.add_eq_zero_iff,ite_eq_left_iff,one_ne_zero,imp_false,not_not] at h
      rw [h.1,ih hl h.2]

theorem distance_pos {xs ys : List A} (hl : xs.length = ys.length) (h : xs ≠ ys) :
    1 ≤ distance xs ys :=
  Nat.one_le_iff_ne_zero.mpr fun hz => h (eq_of_distance_zero hl hz)

theorem distance_append {xs xs' : List A} (ys ys' : List A) (hl : xs.length = xs'.length) :
    distance (xs ++ ys) (xs' ++ ys') = distance xs xs' + distance ys ys' := by
  induction xs generalizing xs' with
  | nil =>
    have h : xs' = [] := by simpa using hl.symm
    simp [h,distance]
  | cons x xs ih =>
    cases xs' with
    | nil => simp at hl
    | cons x' xs' =>
      simp only [List.length_cons,Nat.add_right_cancel_iff] at hl
      simp only [List.cons_append,distance,ih hl]
      omega

theorem distance_set_le (xs : List A) (i : Nat) (b : A) : distance xs (xs.set i b) ≤ 1 := by
  induction xs generalizing i with
  | nil => simp [distance]
  | cons x xs ih =>
    cases i with
    | zero =>
      simp only [List.set_cons_zero,distance,distance_self]
      split <;> simp
    | succ i => simpa [List.set_cons_succ,distance] using ih i

def Detects (code : List A → Prop) : Prop :=
  ∀ xs ys, code xs → code ys → xs.length = ys.length → xs ≠ ys → 2 ≤ distance xs ys

theorem Detects.no_single_change {code : List A → Prop} (h : Detects code) {xs : List A}
    (hx : code xs) {i : Nat} (hi : i < xs.length) {b : A} (hb : b ≠ xs[i]) :
    ¬ code (xs.set i b) := by
  intro hc
  have hne : xs ≠ xs.set i b := by
    intro he
    have hg : (xs.set i b)[i]? = some b := by simp [hi]
    rw [← he,List.getElem?_eq_getElem hi] at hg
    exact hb (Option.some.inj hg).symm
  have hd := h xs (xs.set i b) hx hc (by simp) hne
  have := distance_set_le xs i b
  omega

def Separates (tag : List A → List A) : Prop :=
  ∀ xs ys, xs.length = ys.length → distance xs ys = 1 → tag xs ≠ tag ys

theorem detects_of_separates (head : List A) (tag : List A → List A) (k : Nat)
    (hk : ∀ body, (tag body).length = k) (hs : Separates tag) :
    Detects (fun w => ∃ body, w = head ++ body ++ tag body) := by
  rintro _ _ ⟨xs,rfl⟩ ⟨ys,rfl⟩ hl hne
  have hb : xs.length = ys.length := by
    simp only [List.length_append,hk] at hl
    omega
  have hne' : xs ≠ ys := fun he => hne (by rw [he])
  have hd := distance_pos hb hne'
  rw [distance_append _ _ (by simp [hb]),distance_append _ _ rfl,distance_self]
  rcases Nat.lt_or_ge 1 (distance xs ys) with h2 | h1
  · omega
  · have ht := distance_pos ((hk xs).trans (hk ys).symm) (hs xs ys hb (by omega))
    omega

def byteSum : List UInt8 → UInt16
  | [] => 0
  | b :: bs => b.toUInt16 + byteSum bs

theorem foldl_byteSum (bs : List UInt8) (s : UInt16) :
    bs.foldl (fun sum val => sum + val.toUInt16) s = s + byteSum bs := by
  induction bs generalizing s with
  | nil => simp [byteSum]
  | cons b bs ih => simp [byteSum,ih,UInt16.add_assoc]

theorem byteSum_toNat (bs : List UInt8) :
    (byteSum bs).toNat = (bs.map UInt8.toNat).sum % 65536 := by
  induction bs with
  | nil => rfl
  | cons b bs ih =>
    rw [byteSum,UInt16.toNat_add,ih,UInt8.toNat_toUInt16,List.map_cons,List.sum_cons,Nat.add_mod_mod]

theorem sum_toNat_le (bs : List UInt8) : (bs.map UInt8.toNat).sum ≤ 255 * bs.length := by
  have h : ∀ n ∈ bs.map UInt8.toNat, n ≤ 255 := by
    intro n hn
    obtain ⟨b,-,rfl⟩ := List.mem_map.mp hn
    exact Nat.le_of_lt_succ b.toNat_lt
  have hs := List.sum_le_card_nsmul _ _ h
  rwa [List.length_map,smul_eq_mul,Nat.mul_comm] at hs

theorem byteSum_exact {bs : List UInt8} (h : bs.length ≤ 257) :
    (byteSum bs).toNat = (bs.map UInt8.toNat).sum := by
  have hs := sum_toNat_le bs
  rw [byteSum_toNat,Nat.mod_eq_of_lt (by omega)]

theorem complement_toNat (w : UInt16) : (w ^^^ 0xffff).toNat = 65535-w.toNat := by
  have h : w ^^^ 0xffff = ~~~ w := UInt16.xor_neg_one
  rw [h,UInt16.toNat_not]
  rfl

theorem byteSum_separates {xs ys : List UInt8} (hl : xs.length = ys.length)
    (h : distance xs ys = 1) : byteSum xs ≠ byteSum ys := by
  induction xs generalizing ys with
  | nil => simp [distance] at h
  | cons x xs ih =>
    cases ys with
    | nil => simp at hl
    | cons y ys =>
      simp only [List.length_cons,Nat.add_right_cancel_iff] at hl
      simp only [distance] at h
      by_cases hxy : x = y
      · subst hxy
        have hd : distance xs ys = 1 := by simpa using h
        simpa [byteSum] using ih hl hd
      · have hd : distance xs ys = 0 := by simpa [hxy] using h
        have ht := eq_of_distance_zero hl hd
        subst ht
        intro hs
        have hw : x.toUInt16 = y.toUInt16 := by simpa [byteSum] using hs
        exact hxy (UInt8.toNat_inj.mp (by simpa using congrArg UInt16.toNat hw))

end ErrorDetection
