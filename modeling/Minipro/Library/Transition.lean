import Mathlib.Tactic

namespace Transition

structure Machine (S L : Type) where
  step : S → L → Option S

namespace Machine
variable {S L : Type} (M : Machine S L)

def run : S → List L → Option S
  | s, [] => some s
  | s, l :: ls => (M.step s l).bind fun t => run t ls

@[simp] theorem run_nil (s : S) : M.run s [] = some s := rfl

@[simp] theorem run_cons (s : S) (l : L) (ls : List L) :
    M.run s (l :: ls) = (M.step s l).bind fun t => M.run t ls := rfl

theorem run_append (s : S) (ls ms : List L) :
    M.run s (ls ++ ms) = (M.run s ls).bind fun t => M.run t ms := by
  induction ls generalizing s with
  | nil => simp
  | cons l ls ih =>
    simp only [List.cons_append,run_cons]
    cases h : M.step s l with
    | none => rfl
    | some t => simpa using ih t

theorem run_concat {s u : S} {ls : List L} {l : L} (h : M.run s (ls ++ [l]) = some u) :
    ∃ t, M.run s ls = some t ∧ M.step t l = some u := by
  rw [run_append] at h
  obtain ⟨t,ht,hu⟩ := Option.bind_eq_some_iff.mp h
  obtain ⟨v,hv,hw⟩ := Option.bind_eq_some_iff.mp hu
  exact ⟨t,ht,by rw [hv]; exact hw⟩

theorem run_history (I : List L → S → Prop)
    (h : ∀ ls s l t, I ls s → M.step s l = some t → I (ls ++ [l]) t)
    {s t : S} {ls : List L} (h0 : I [] s) (hr : M.run s ls = some t) : I ls t := by
  induction ls using List.reverseRecOn generalizing t with
  | nil =>
    cases hr
    exact h0
  | append_singleton ls l ih =>
    obtain ⟨u,hu,ht⟩ := M.run_concat hr
    exact h ls u l t (ih hu) ht

theorem run_invariant_of (ok : L → Prop) (I : S → Prop)
    (h : ∀ s l t, ok l → I s → M.step s l = some t → I t) {s t : S} {ls : List L}
    (hl : ∀ l ∈ ls, ok l) (h0 : I s) (hr : M.run s ls = some t) : I t := by
  induction ls generalizing s with
  | nil =>
    cases hr
    exact h0
  | cons l ls ih =>
    obtain ⟨u,hu,ht⟩ := Option.bind_eq_some_iff.mp hr
    exact ih (fun m hm => hl m (List.mem_cons_of_mem l hm))
      (h s l u (hl l List.mem_cons_self) h0 hu) ht

theorem run_invariant (I : S → Prop) (h : ∀ s l t, I s → M.step s l = some t → I t)
    {s t : S} {ls : List L} (h0 : I s) (hr : M.run s ls = some t) : I t :=
  M.run_history (fun _ => I) (fun _ => h) h0 hr

def Along (ok : S → L → Prop) : S → List L → Prop
  | _, [] => True
  | s, l :: ls => ok s l ∧ ∀ t, M.step s l = some t → Along ok t ls

theorem along_concat (ok : S → L → Prop) {s t : S} {ls : List L} (hr : M.run s ls = some t)
    (l : L) : M.Along ok s (ls ++ [l]) ↔
      M.Along ok s ls ∧ ok t l := by
  induction ls generalizing s with
  | nil =>
    cases hr
    simp [Along]
  | cons m ls ih =>
    obtain ⟨u,hu,ht⟩ := Option.bind_eq_some_iff.mp hr
    simp only [List.cons_append,Along,hu,Option.some.injEq,forall_eq',ih ht,and_assoc]

-- Runs that cannot grow for ever and can go on until they are done reach an end.
theorem exists_end {ok : S → L → Prop} {done : S → Prop} {s : S} {n : Nat}
    (h : ∀ ls t, M.Along ok s ls → M.run s ls = some t →
      ls.length ≤ n ∧ (done t ∨ ∃ l u, ok t l ∧ M.step t l = some u)) :
    ∃ ls t, M.Along ok s ls ∧ M.run s ls = some t ∧ done t := by
  by_contra hno
  have hlong (k : Nat) : ∃ ls t, ls.length = k ∧ M.Along ok s ls ∧ M.run s ls = some t := by
    induction k with
    | zero => exact ⟨[],s,rfl,trivial,rfl⟩
    | succ k ih =>
      obtain ⟨ls,t,hl,ha,hr⟩ := ih
      rcases (h ls t ha hr).2 with hd | ⟨l,u,ho,hs⟩
      · exact absurd ⟨ls,t,ha,hr,hd⟩ hno
      · refine ⟨ls ++ [l],u,by simp [hl],(M.along_concat ok hr l).mpr ⟨ha,ho⟩,?_⟩
        rw [run_append,hr,Option.bind_some,run_cons,hs]
        rfl
  obtain ⟨ls,t,hl,ha,hr⟩ := hlong (n + 1)
  have hle := (h ls t ha hr).1
  omega

theorem along_mono {ok ok' : S → L → Prop} (h : ∀ s l, ok s l → ok' s l) {s : S} {ls : List L}
    (ha : M.Along ok s ls) : M.Along ok' s ls := by
  induction ls generalizing s with
  | nil => trivial
  | cons l ls ih => exact ⟨h s l ha.1,fun t ht => ih (ha.2 t ht)⟩

theorem along_and {ok ok' : S → L → Prop} {s : S} {ls : List L} (h : M.Along ok s ls)
    (h' : M.Along ok' s ls) : M.Along (fun s l => ok s l ∧ ok' s l) s ls := by
  induction ls generalizing s with
  | nil => trivial
  | cons l ls ih => exact ⟨⟨h.1,h'.1⟩,fun t ht => ih (h.2 t ht) (h'.2 t ht)⟩

theorem along_labels {ok : S → L → Prop} {q : L → Prop} (h : ∀ s l, ok s l → q l) {s t : S}
    {ls : List L} (ha : M.Along ok s ls) (hr : M.run s ls = some t) : ∀ l ∈ ls, q l := by
  induction ls generalizing s with
  | nil => simp
  | cons m ls ih =>
    obtain ⟨u,hu,ht⟩ := Option.bind_eq_some_iff.mp hr
    exact List.forall_mem_cons.mpr ⟨h s m ha.1,ih (ha.2 u hu) ht⟩

theorem run_iff_along (I P : S → Prop) (ok : S → L → Prop)
    (hI : ∀ s l t, I s → M.step s l = some t → I t)
    (hP : ∀ s l t, I s → P s → M.step s l = some t → (P t ↔ ok s l))
    (hN : ∀ s l t, I s → ¬ P s → M.step s l = some t → ¬ P t)
    {s t : S} {ls : List L} (h0 : I s) (p0 : P s) (hr : M.run s ls = some t) :
    P t ↔ M.Along ok s ls := by
  induction ls using List.reverseRecOn generalizing t with
  | nil =>
    cases hr
    simp [Along,p0]
  | append_singleton ls l ih =>
    obtain ⟨u,hu,ht⟩ := M.run_concat hr
    have hiu := M.run_invariant I hI h0 hu
    rw [M.along_concat ok hu,← ih hu]
    by_cases hp : P u
    · simp [hP u l t hiu hp ht,hp]
    · simp [hN u l t hiu hp ht,hp]

theorem along_of_prefix (ok : S → L → Prop) {s : S} {ls ms : List L} (h : M.Along ok s ls)
    (hm : ms <+: ls) : M.Along ok s ms := by
  induction ms generalizing s ls with
  | nil => trivial
  | cons m ms ih =>
    obtain ⟨l,ls,rfl⟩ := List.exists_cons_of_ne_nil (fun hn => by simp [hn] at hm : ls ≠ [])
    obtain ⟨rfl,hms⟩ := List.cons_prefix_cons.mp hm
    exact ⟨h.1,fun t ht => ih (h.2 t ht) hms⟩

def Always (P : S → Prop) (s : S) (ls : List L) : Prop :=
  ∀ ms t, ms <+: ls → M.run s ms = some t → P t

theorem always_iff_along (I P : S → Prop) (ok : S → L → Prop)
    (hI : ∀ s l t, I s → M.step s l = some t → I t)
    (hP : ∀ s l t, I s → P s → M.step s l = some t → (P t ↔ ok s l))
    (hN : ∀ s l t, I s → ¬ P s → M.step s l = some t → ¬ P t)
    {s t : S} {ls : List L} (h0 : I s) (p0 : P s) (hr : M.run s ls = some t) :
    M.Always P s ls ↔ M.Along ok s ls := by
  constructor
  · intro h
    exact (M.run_iff_along I P ok hI hP hN h0 p0 hr).mp (h ls t List.prefix_rfl hr)
  · intro h ms u hm hu
    exact (M.run_iff_along I P ok hI hP hN h0 p0 hu).mpr (M.along_of_prefix ok h hm)

theorem along_invariant (J : S → Prop) (ok : S → L → Prop)
    (hJ : ∀ s l t, J s → ok s l → M.step s l = some t → J t) {s t : S} {ls : List L} (h0 : J s)
    (ha : M.Along ok s ls) (hr : M.run s ls = some t) : J t := by
  induction ls generalizing s with
  | nil =>
    cases hr
    exact h0
  | cons l ls ih =>
    obtain ⟨u,hu,ht⟩ := Option.bind_eq_some_iff.mp hr
    exact ih (hJ s l u h0 ha.1 hu) (ha.2 u hu) ht

theorem along_of_steps (J : S → Prop) (ok : S → L → Prop)
    (hJ : ∀ s l t, J s → ok s l → M.step s l = some t → J t) {s t : S} {ls : List L} (h0 : J s)
    (hr : M.run s ls = some t)
    (h : ∀ ms u l v, ms ++ [l] <+: ls → M.run s ms = some u → J u → M.step u l = some v → ok u l) :
    M.Along ok s ls := by
  induction ls using List.reverseRecOn generalizing t with
  | nil => trivial
  | append_singleton ls l ih =>
    obtain ⟨u,hu,ht⟩ := M.run_concat hr
    have ha := ih hu fun ms v m w hm => h ms v m w (hm.trans (List.prefix_append ls [l]))
    exact (M.along_concat ok hu l).mpr
      ⟨ha,h ls u l t List.prefix_rfl hu (M.along_invariant J ok hJ h0 ha hu) ht⟩

theorem along_of_always (J P : S → Prop) (ok : S → L → Prop)
    (hJ : ∀ s l t, J s → ok s l → M.step s l = some t → J t)
    (hN : ∀ s l t, J s → ¬ ok s l → M.step s l = some t → ¬ P t)
    {s t : S} {ls : List L} (h0 : J s) (hr : M.run s ls = some t) (h : M.Always P s ls) :
    M.Along ok s ls := by
  refine M.along_of_steps J ok hJ h0 hr fun ms u l v hm hu hj hv => ?_
  by_contra hn
  refine hN u l v hj hn hv (h _ v hm ?_)
  rw [M.run_append,hu]
  simpa using hv

theorem along_history (I : List L → S → Prop) (ok : S → L → Prop)
    (h : ∀ ls s l t, I ls s → ok s l → M.step s l = some t → I (ls ++ [l]) t)
    {s t : S} {ls : List L} (h0 : I [] s) (ha : M.Along ok s ls) (hr : M.run s ls = some t) :
    I ls t := by
  induction ls using List.reverseRecOn generalizing t with
  | nil =>
    cases hr
    exact h0
  | append_singleton ls l ih =>
    obtain ⟨u,hu,ht⟩ := M.run_concat hr
    obtain ⟨ha,hl⟩ := (M.along_concat ok hu l).mp ha
    exact h ls u l t (ih ha hu) hl ht

def guarded (enabled : S → L → Bool) (effect : S → L → S) : Machine S L :=
  ⟨fun s l => if enabled s l then some (effect s l) else none⟩

theorem guarded_step {enabled : S → L → Bool} {effect : S → L → S} {s t : S} {l : L}
    (h : (guarded enabled effect).step s l = some t) : enabled s l ∧ t = effect s l := by
  obtain ⟨he,ht⟩ := Option.ite_none_right_eq_some.mp h
  exact ⟨he,(Option.some.inj ht).symm⟩

end Machine
end Transition
