import Mathlib.Tactic

namespace Sweep
variable {A : Type}

structure Extent (A : Type) where
  first : A → Nat
  last : A → Nat

namespace Extent
variable (e : Extent A)

structure Laid (xs : List A) : Prop where
  proper : ∀ x ∈ xs, e.first x ≤ e.last x
  apart : xs.Pairwise fun x y => e.last x < e.first y

def within (a b : Nat) (xs : List A) : List A := xs.filter fun x => a ≤ e.first x ∧ e.first x ≤ b

def Covers (xs : List A) (a b : Nat) (found : List A) (next : Nat) : Prop :=
  a ≤ next ∧ found ++ e.within next b xs = e.within a b xs

variable {e} {xs ys found ps rs : List A} {x y : A} {a b next : Nat}

theorem mem_within : x ∈ e.within a b xs ↔ x ∈ xs ∧ a ≤ e.first x ∧ e.first x ≤ b := by
  simp [within]

theorem within_within {c : Nat} (h : a ≤ c) : e.within c b (e.within a b xs) = e.within c b xs := by
  simp only [within,List.filter_filter]
  apply List.filter_congr
  intro x _
  rw [← Bool.decide_and,decide_eq_decide]
  omega

namespace Laid

theorem sublist (h : e.Laid xs) (hs : ys.Sublist xs) : e.Laid ys :=
  ⟨fun x hx => h.proper x (hs.subset hx),h.apart.sublist hs⟩

theorem within (h : e.Laid xs) (a b : Nat) : e.Laid (e.within a b xs) :=
  h.sublist List.filter_sublist

theorem before (h : e.Laid (ps ++ x :: rs)) (hy : y ∈ ps) : e.last y < e.first x :=
  (List.pairwise_append.mp h.apart).2.2 y hy x List.mem_cons_self

theorem after (h : e.Laid (ps ++ x :: rs)) (hy : y ∈ rs) : e.last x < e.first y :=
  List.rel_of_pairwise_cons (List.pairwise_append.mp h.apart).2.1 hy

theorem beyond (h : e.Laid (ps ++ x :: rs)) (b : Nat) (hb : ∀ y ∈ rs, e.first y ≤ b) :
    e.within (e.last x + 1) b (ps ++ x :: rs) = rs := by
  have hx : e.first x ≤ e.last x := h.proper x (by simp)
  have hp : e.within (e.last x + 1) b ps = [] := by
    refine List.filter_eq_nil_iff.mpr fun y hy => ?_
    have h1 := h.proper y (by simp [hy])
    have h2 := h.before hy
    simp only [decide_eq_true_eq]
    omega
  have hr : e.within (e.last x + 1) b rs = rs := by
    refine List.filter_eq_self.mpr fun y hy => ?_
    have h1 := h.after hy
    have h2 := hb y hy
    simp only [decide_eq_true_eq]
    omega
  have hn : ¬ (e.last x + 1 ≤ e.first x ∧ e.first x ≤ b) := by omega
  rw [Extent.within,List.filter_append,List.filter_cons_of_neg (by simpa using hn)]
  exact (congrArg₂ (· ++ ·) hp hr).trans (List.nil_append rs)

theorem advance (h : e.Laid xs) (hw : e.within a b xs = ps ++ x :: rs) :
    e.within (e.last x + 1) b xs = rs := by
  have hl := h.within a b
  have hm : x ∈ e.within a b xs := by simp [hw]
  have hx := (mem_within.mp hm).2.1
  have hp := hl.proper x hm
  rw [← within_within (show a ≤ e.last x + 1 by omega),hw]
  rw [hw] at hl
  refine hl.beyond b fun y hy => ?_
  exact (mem_within.mp (by simp [hw,hy] : y ∈ e.within a b xs)).2.2

theorem more (h : e.Laid xs) (hw : e.within a b xs = ps ++ x :: rs) (hy : y ∈ rs) :
    e.last x < b := by
  have hl := h.within a b
  have hm : y ∈ e.within a b xs := by simp [hw,hy]
  have hb := (mem_within.mp hm).2.2
  rw [hw] at hl
  exact (hl.after hy).trans_le hb

theorem insert_iff : e.Laid (ps ++ x :: rs) ↔ e.Laid (ps ++ rs) ∧ e.first x ≤ e.last x ∧
    (∀ y ∈ ps, e.last y < e.first x) ∧ ∀ y ∈ rs, e.last x < e.first y := by
  constructor
  · intro h
    have hs : (ps ++ rs).Sublist (ps ++ x :: rs) :=
      (List.sublist_cons_self x rs).append_left ps
    exact ⟨h.sublist hs,h.proper x (by simp),fun y hy => h.before hy,fun y hy => h.after hy⟩
  · rintro ⟨h,hx,hp,hr⟩
    obtain ⟨h1,h2,h3⟩ := List.pairwise_append.mp h.apart
    refine ⟨?_,List.pairwise_append.mpr ⟨h1,List.pairwise_cons.mpr ⟨hr,h2⟩,?_⟩⟩
    · intro y hy
      rcases List.mem_append.mp hy with hy | hy
      · exact h.proper y (List.mem_append_left rs hy)
      · rcases List.mem_cons.mp hy with rfl | hy
        · exact hx
        · exact h.proper y (List.mem_append_right ps hy)
    · intro y hy z hz
      rcases List.mem_cons.mp hz with rfl | hz
      · exact hp y hy
      · exact h3 y hy z hz

theorem cons_iff : e.Laid (x :: xs) ↔
    e.first x ≤ e.last x ∧ (∀ y ∈ xs, e.last x < e.first y) ∧ e.Laid xs := by
  have h : e.Laid ([] ++ x :: xs) ↔ _ := insert_iff
  simp only [List.nil_append,List.not_mem_nil,false_implies,implies_true,true_and] at h
  rw [h]
  exact ⟨fun h => ⟨h.2.1,h.2.2,h.1⟩,fun h => ⟨h.2.2,h.1,h.2.1⟩⟩

theorem map {f : A → A} (h : e.Laid xs) (h1 : ∀ x ∈ xs, e.first (f x) = e.first x)
    (h2 : ∀ x ∈ xs, e.last (f x) = e.last x) : e.Laid (xs.map f) := by
  induction xs with
  | nil => exact ⟨by simp,List.Pairwise.nil⟩
  | cons x xs ih =>
    obtain ⟨hp,ha,hl⟩ := cons_iff.mp h
    have hx1 := h1 x List.mem_cons_self
    have hx2 := h2 x List.mem_cons_self
    refine cons_iff.mpr ⟨by rw [hx1,hx2]; exact hp,?_,
      ih hl (fun y hy => h1 y (List.mem_cons_of_mem x hy))
        fun y hy => h2 y (List.mem_cons_of_mem x hy)⟩
    intro z hz
    obtain ⟨y,hy,rfl⟩ := List.mem_map.mp hz
    rw [hx2,h1 y (List.mem_cons_of_mem x hy)]
    exact ha y hy

theorem apart_of_ne (h : e.Laid xs) (hx : x ∈ xs) (hy : y ∈ xs) (hne : x ≠ y) :
    e.last x < e.first y ∨ e.last y < e.first x := by
  induction xs with
  | nil => simp at hx
  | cons z xs ih =>
    obtain ⟨_,ha,hl⟩ := cons_iff.mp h
    rcases List.mem_cons.mp hx with rfl | hx
    · exact .inl (ha y ((List.mem_cons.mp hy).resolve_left (Ne.symm hne)))
    · rcases List.mem_cons.mp hy with hyz | hy
      · exact .inr (hyz ▸ ha x hx)
      · exact ih hl hx hy

theorem nodup (h : e.Laid xs) : xs.Nodup := by
  induction xs with
  | nil => exact List.nodup_nil
  | cons x xs ih =>
    obtain ⟨hp,ha,hl⟩ := cons_iff.mp h
    refine List.nodup_cons.mpr ⟨fun hx => ?_,ih hl⟩
    exact absurd (ha x hx) (not_lt_of_ge hp)

theorem find_holding (h : e.Laid xs) (hx : x ∈ xs) (ha : e.first x ≤ a) (hb : a ≤ e.last x) :
    (xs.find? fun y => e.first y ≤ a ∧ a ≤ e.last y) = some x := by
  induction xs with
  | nil => simp at hx
  | cons y xs ih =>
    obtain ⟨_,hy,hl⟩ := cons_iff.mp h
    rcases List.mem_cons.mp hx with rfl | hx
    · simp [ha,hb]
    · have := hy x hx
      have hn : ¬ (e.first y ≤ a ∧ a ≤ e.last y) := by omega
      rw [List.find?_cons_of_neg (by simpa using hn)]
      exact ih hl hx

end Laid

theorem within_eq_nil (h : ∀ x ∈ xs, e.first x < a ∨ b < e.first x) : e.within a b xs = [] := by
  refine List.filter_eq_nil_iff.mpr fun x hx => ?_
  have := h x hx
  simp only [decide_eq_true_eq]
  omega

theorem within_eq_self (h : ∀ x ∈ xs, a ≤ e.first x ∧ e.first x ≤ b) : e.within a b xs = xs :=
  List.filter_eq_self.mpr fun x hx => by simpa using h x hx

theorem within_append : e.within a b (xs ++ ys) = e.within a b xs ++ e.within a b ys :=
  List.filter_append xs ys

theorem within_middle (hp : ∀ x ∈ ps, e.first x < a) (hx : ∀ x ∈ xs, a ≤ e.first x ∧ e.first x ≤ b)
    (hr : ∀ x ∈ rs, b < e.first x) : e.within a b (ps ++ xs ++ rs) = xs := by
  rw [within_append,within_append,within_eq_nil fun x h => .inl (hp x h),within_eq_self hx,
    within_eq_nil fun x h => .inr (hr x h),List.nil_append,List.append_nil]

section Nested
variable {B : Type}

theorem Laid.within_flatMap (inner : Extent B) (f : A → List B) (h : e.Laid xs)
    (hf : ∀ y ∈ xs, ∀ z ∈ f y, e.first y ≤ inner.first z ∧ inner.first z ≤ e.last y)
    (hx : x ∈ xs) (ha : e.first x ≤ a) (hb : b ≤ e.last x) :
    inner.within a b (xs.flatMap f) = inner.within a b (f x) := by
  induction xs with
  | nil => simp at hx
  | cons y xs ih =>
    obtain ⟨_,hapart,hl⟩ := cons_iff.mp h
    rw [List.flatMap_cons,within_append]
    rcases List.mem_cons.mp hx with rfl | hx
    · have hnil : inner.within a b (xs.flatMap f) = [] := by
        refine within_eq_nil fun z hz => ?_
        obtain ⟨w,hw,hz⟩ := List.mem_flatMap.mp hz
        have h1 := hapart w hw
        have h2 := hf w (List.mem_cons_of_mem x hw) z hz
        omega
      rw [hnil,List.append_nil]
    · rw [within_eq_nil,List.nil_append]
      · exact ih hl (fun w hw => hf w (List.mem_cons_of_mem y hw)) hx
      · intro z hz
        have h1 := hapart x hx
        have h2 := hf y List.mem_cons_self z hz
        omega

theorem Laid.flatMap (inner : Extent B) (f : A → List B) (h : e.Laid xs)
    (hi : ∀ x ∈ xs, inner.Laid (f x))
    (hf : ∀ x ∈ xs, ∀ z ∈ f x, e.first x ≤ inner.first z ∧ inner.last z ≤ e.last x) :
    inner.Laid (xs.flatMap f) := by
  refine ⟨fun z hz => ?_,List.pairwise_flatMap.mpr ⟨fun x hx => (hi x hx).apart,?_⟩⟩
  · obtain ⟨x,hx,hz⟩ := List.mem_flatMap.mp hz
    exact (hi x hx).proper z hz
  · refine h.apart.imp_of_mem fun {x y} hx hy hxy z hz w hw => ?_
    have h1 := hf x hx z hz
    have h2 := hf y hy w hw
    omega

end Nested

theorem covers_start (xs : List A) (a b : Nat) : e.Covers xs a b [] a := ⟨le_rfl,rfl⟩

theorem Covers.advance (h : e.Covers xs a b found next) (hl : e.Laid xs)
    (hw : e.within next b xs = ps ++ x :: rs) :
    e.Covers xs a b (found ++ (ps ++ [x])) (e.last x + 1) := by
  have hm := mem_within.mp (by simp [hw] : x ∈ e.within next b xs)
  have hp := hl.proper x hm.1
  refine ⟨by have := h.1; omega,?_⟩
  rw [hl.advance hw,← h.2,hw]
  simp

theorem Covers.found_all (h : e.Covers xs a b found next) (hw : e.within next b xs = []) :
    found = e.within a b xs := by
  rw [← h.2,hw,List.append_nil]

theorem Covers.length_le (h : e.Covers xs a b found next) :
    found.length + (e.within next b xs).length = (e.within a b xs).length := by
  rw [← h.2,List.length_append]

end Extent

theorem ascending_length {ns : List Nat} {a b : Nat} (h : (a :: ns).Pairwise (· < ·))
    (hb : ∀ n ∈ a :: ns, n ≤ b) : a + ns.length ≤ b := by
  induction ns generalizing a with
  | nil => simpa using hb a List.mem_cons_self
  | cons n ns ih =>
    obtain ⟨ha,hn⟩ := List.pairwise_cons.mp h
    have h1 := ih hn fun m hm => hb m (List.mem_cons_of_mem a hm)
    have h2 := ha n List.mem_cons_self
    rw [List.length_cons]
    omega

end Sweep
