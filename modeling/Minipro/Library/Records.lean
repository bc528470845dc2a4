import Mathlib.Tactic

namespace Records
variable {P B A : Type}

structure Cursor (P : Type) where
  pages : List P
  pos : Nat

structure Paging (P B : Type) where
  width : P → Nat
  cells : P → List B

namespace Paging
variable (g : Paging P B)

def advance : Cursor P → Cursor P
  | ⟨[],pos⟩ => ⟨[],pos⟩
  | ⟨p :: ps,pos⟩ =>
      if pos + g.width p = (g.cells p).length then ⟨ps,0⟩ else ⟨p :: ps,pos + g.width p⟩

structure Holds (p : P) (rows : List (List B)) : Prop where
  flat : g.cells p = rows.flatten
  wide : ∀ row ∈ rows, row.length = g.width p
  positive : 0 < g.width p
  any : rows ≠ []

inductive Rows : List P → List (List B) → Prop
  | nil : Rows [] []
  | cons {p : P} {ps : List P} {rows more : List (List B)} :
      g.Holds p rows → Rows ps more → Rows (p :: ps) (rows ++ more)

inductive At : Cursor P → List (List B) → Prop
  | finished : At ⟨[],0⟩ []
  | row {p : P} {ps : List P} {row : List B} {seen rest more : List (List B)} :
      g.Holds p (seen ++ row :: rest) → g.Rows ps more →
        At ⟨p :: ps,seen.length * g.width p⟩ (row :: (rest ++ more))

variable {g} {p : P} {ps : List P} {row : List B} {rows rows' : List (List B)} {c : Cursor P}

theorem flatten_length {n : Nat} (h : ∀ row ∈ rows, row.length = n) :
    rows.flatten.length = rows.length * n := by
  induction rows with
  | nil => simp
  | cons row rows ih =>
    rw [List.flatten_cons,List.length_append,h row (by simp),List.length_cons,Nat.succ_mul,
      ih fun r hr => h r (by simp [hr])]
    exact Nat.add_comm _ _

theorem mem_advance (h : p ∈ (g.advance c).pages) : p ∈ c.pages := by
  obtain ⟨pages,pos⟩ := c
  cases pages with
  | nil => exact h
  | cons q qs =>
    simp only [Paging.advance] at h
    split at h
    · exact List.mem_cons_of_mem q h
    · exact h

namespace Holds

theorem length (h : g.Holds p rows) : (g.cells p).length = rows.length * g.width p := by
  rw [h.flat]
  exact flatten_length h.wide

theorem count (h : g.Holds p rows) : (g.cells p).length / g.width p = rows.length := by
  rw [h.length]
  exact Nat.mul_div_cancel _ h.positive

theorem drop {seen rest : List (List B)} (h : g.Holds p (seen ++ rest)) :
    (g.cells p).drop (seen.length * g.width p) = rest.flatten := by
  have hs : ∀ row ∈ seen, row.length = g.width p := fun r hr => h.wide r (by simp [hr])
  rw [h.flat,List.flatten_append,← flatten_length hs,List.drop_left]

end Holds

namespace Rows

theorem concat (h : g.Rows ps rows) (hp : g.Holds p rows') : g.Rows (ps ++ [p]) (rows ++ rows') := by
  induction h with
  | nil => simpa using Rows.cons hp .nil
  | cons hq _ ih =>
    rw [List.append_assoc]
    exact .cons hq ih

theorem nil_iff (h : g.Rows ps rows) : ps = [] ↔ rows = [] := by
  cases h with
  | nil => simp
  | cons hp _ => simp [hp.any]

theorem widths (h : g.Rows ps rows) : ∀ p ∈ ps, ∃ row ∈ rows, row.length = g.width p := by
  induction h with
  | nil => simp
  | @cons p ps rows more hp _ ih =>
    intro q hq
    rcases List.mem_cons.mp hq with rfl | hq
    · obtain ⟨row,rest,rfl⟩ := List.exists_cons_of_ne_nil hp.any
      exact ⟨row,by simp,hp.wide row (by simp)⟩
    · obtain ⟨row,hr,hw⟩ := ih q hq
      exact ⟨row,List.mem_append_right rows hr,hw⟩

theorem count (h : g.Rows ps rows) :
    (ps.map fun p => (g.cells p).length / g.width p).sum = rows.length := by
  induction h with
  | nil => rfl
  | cons hp _ ih => rw [List.map_cons,List.sum_cons,hp.count,ih,List.length_append]

theorem start (h : g.Rows ps rows) : g.At ⟨ps,0⟩ rows := by
  cases h with
  | nil => exact .finished
  | @cons p ps rows more hp hr =>
    obtain ⟨row,rest,rfl⟩ := List.exists_cons_of_ne_nil hp.any
    have ha : g.At ⟨p :: ps,[].length * g.width p⟩ (row :: (rest ++ more)) := .row hp hr
    simpa using ha

end Rows

namespace At

theorem view {pos : Nat} (h : g.At ⟨ps,pos⟩ (row :: rows)) :
    ∃ p qs tail, ps = p :: qs ∧ (g.cells p).drop pos = row ++ tail ∧ row.length = g.width p := by
  cases h with
  | @row p qs row seen rest more hp _ =>
    refine ⟨p,qs,rest.flatten,rfl,?_,hp.wide row (by simp)⟩
    rw [hp.drop,List.flatten_cons]

theorem empty (h : g.At c []) : c = ⟨[],0⟩ := by
  cases h
  rfl

theorem advance (h : g.At c (row :: rows)) : g.At (g.advance c) rows := by
  cases h with
  | @row p ps row seen rest more hp hr =>
    have hl := hp.length
    rw [List.length_append,List.length_cons] at hl
    rw [Paging.advance,hl]
    cases rest with
    | nil =>
      rw [if_pos (by rw [List.length_nil]; ring)]
      exact hr.start
    | cons next rest =>
      have hw := hp.positive
      have hn : seen.length * g.width p + g.width p ≠
          (seen.length + ((next :: rest).length + 1)) * g.width p := by
        rw [← Nat.succ_mul]
        refine fun he => ?_
        have := Nat.eq_of_mul_eq_mul_right hw he
        rw [List.length_cons] at this
        omega
      rw [if_neg hn]
      have hs : seen ++ row :: next :: rest = (seen ++ [row]) ++ next :: rest := by simp
      rw [hs] at hp
      have ha := At.row hp hr
      rw [List.length_append,List.length_singleton,Nat.succ_mul] at ha
      exact ha

end At

def readAll (value : List B → List (List B) → A) : List (List B) → List A
  | [] => []
  | row :: rows => value row rows :: readAll value rows

def collect (next : Cursor P → Option (A × Cursor P)) : Nat → Cursor P → List A
  | 0, _ => []
  | n+1, c => match next c with
    | none => []
    | some (a,d) => a :: collect next n d

theorem At.collect (ok : P → Prop) {next : Cursor P → Option (A × Cursor P)}
    {value : List B → List (List B) → A} (hn : ∀ c row rows, g.At c (row :: rows) → (∀ p ∈ c.pages, ok p) →
      next c = some (value row rows,g.advance c))
    (he : next ⟨[],0⟩ = none) {n : Nat} (h : g.At c rows) (hok : ∀ p ∈ c.pages, ok p)
    (hl : rows.length ≤ n) : Paging.collect next n c = readAll value rows := by
  induction rows generalizing n c with
  | nil =>
    rw [h.empty]
    cases n <;> simp [Paging.collect,he,readAll]
  | cons row rows ih =>
    cases n with
    | zero => simp at hl
    | succ n =>
      have hp : ∀ p ∈ (g.advance c).pages, ok p := fun p hp => hok p (mem_advance hp)
      rw [Paging.collect,hn c row rows h hok]
      simp only [readAll]
      rw [ih h.advance hp (by simpa using hl)]

theorem collect_page {R : Type} {value : R → A} {next : Cursor P → Option (A × Cursor P)}
    {pages more : List P} {w : Nat} {xs : List R}
    (hn : ∀ seen x rest, xs = seen ++ x :: rest → next ⟨pages,seen.length * w⟩ =
      some (value x,if rest = [] then ⟨more,0⟩ else ⟨pages,(seen.length + 1) * w⟩))
    (hx : xs ≠ []) (n : Nat) :
    Paging.collect next (xs.length + n) ⟨pages,0⟩ =
      xs.map value ++ Paging.collect next n ⟨more,0⟩ := by
  have hrest : ∀ rest seen, rest ≠ [] → xs = seen ++ rest →
      Paging.collect next (rest.length + n) ⟨pages,seen.length * w⟩ =
        rest.map value ++ Paging.collect next n ⟨more,0⟩ := by
    intro rest
    induction rest with
    | nil => exact fun _ h _ => absurd rfl h
    | cons x rest ih =>
      intro seen _ hs
      rw [List.length_cons,Nat.add_right_comm,Paging.collect,hn seen x rest hs]
      cases rest with
      | nil => simp
      | cons y rest =>
        have hs' : xs = (seen ++ [x]) ++ y :: rest := by rw [hs,List.append_assoc]; rfl
        have hmore := ih (seen ++ [x]) (by simp) hs'
        rw [List.length_append,List.length_singleton] at hmore
        rw [List.map_cons,List.cons_append,← hmore]
        rfl
  have hall := hrest xs [] hx rfl
  rwa [List.length_nil,Nat.zero_mul] at hall

theorem readAll_map (f : List B → A) (rows : List (List B)) :
    readAll (fun row _ => f row) rows = rows.map f := by
  induction rows with
  | nil => rfl
  | cons row rows ih => rw [readAll,ih,List.map_cons]

end Paging
end Records
