import Mathlib.Data.List.GetD
import Minipro.Library.Sweep
import Minipro.Bluez.Discovery

namespace Minipro.GattHelpers
open Att ByteOrder Transition Records GattClient Sweep
variable {A : Type}

structure Listing (A : Type) where
  procedure : Procedure
  lead : Nat → List UInt8
  row : A → List UInt8
  first : A → UInt16
  last : A → UInt16
  report : UInt16 → A → A

namespace Listing

def extent (ℓ : Listing A) : Extent A := ⟨fun x => (ℓ.first x).toNat,fun x => (ℓ.last x).toNat⟩

def Laid (ℓ : Listing A) (items : List A) : Prop := ℓ.extent.Laid items

def inRange (ℓ : Listing A) (start last : UInt16) (items : List A) : List A :=
  ℓ.extent.within start.toNat last.toNat items

-- The server may cut its answer anywhere, as its MTU and the attributes' lengths make it do.
inductive Answers (ℓ : Listing A) (items : List A) (request : List UInt8) : Answer → Prop
  | notFound {start last : UInt16}
      (hq : request = putLe16 start ++ putLe16 last ++ ℓ.procedure.sought)
      (hw : ℓ.inRange start last items = []) :
      Answers ℓ items request
        (.received (opErrorRsp :: ℓ.procedure.req :: putLe16 start ++ [errorAttributeNotFound]))
  | found {start last : UInt16} (ps : List A) (x : A) (rs : List A) (n : Nat)
      (hq : request = putLe16 start ++ putLe16 last ++ ℓ.procedure.sought)
      (hw : ℓ.inRange start last items = ps ++ x :: rs)
      (hn : ∀ y ∈ ps ++ [x], (ℓ.row y).length = n) :
      Answers ℓ items request
        (.received (ℓ.procedure.rsp :: (ℓ.lead n ++ ((ps ++ [x]).map ℓ.row).flatten)))

def compliant (ℓ : Listing A) (items : List A) : Discovery → Reply → Prop
  | .awaiting op, r => ℓ.Answers items (ℓ.procedure.request op) r.answer
  | .complete _ _ _, _ => True

def accepting (ℓ : Listing A) (items : List A) (s : Discovery) (r : Reply) : Prop :=
  ℓ.compliant items s r ∧ r.sent

structure Lawful (ℓ : Listing A) : Prop where
  response : getOpType ℓ.procedure.rsp = .rsp
  pairs : getReqOpcode ℓ.procedure.rsp = ℓ.procedure.req
  asks : ℓ.procedure.req ≠ 0
  succeeds : ℓ.procedure.rsp ≠ opErrorRsp
  header : ∀ n, (ℓ.lead n).length = ℓ.procedure.header
  length : ∀ n xs, xs ≠ [] → (∀ x ∈ xs, (ℓ.row x).length = n) →
    ℓ.procedure.dataLength (ℓ.lead n ++ (xs.map ℓ.row).flatten) = some n
  handle : ∀ x, le16At (ℓ.row x) ℓ.procedure.handleAt = ℓ.last x
  fits : ∀ x, ℓ.procedure.handleAt + 2 ≤ (ℓ.row x).length
  before : ∀ handle last, handle < last → ℓ.procedure.more handle last
  stops : ∀ x last, ℓ.first x ≤ last → ¬ ℓ.last x < last →
    ℓ.procedure.more (ℓ.last x) last = false
  clipped : ∀ stop x, ℓ.procedure.clips → ℓ.last x = 0xffff →
    (ℓ.row x).take 2 ++ putLe16 stop ++ (ℓ.row x).drop 4 = ℓ.row (ℓ.report stop x)
  unclipped : ∀ stop x, ¬ (ℓ.procedure.clips ∧ ℓ.last x = 0xffff ∧ ℓ.last x ≠ stop) →
    ℓ.report stop x = x
  reported : ∀ stop x, (ℓ.row (ℓ.report stop x)).length = (ℓ.row x).length

end Listing

structure Group where
  first : UInt16
  last : UInt16
  uuid : Uuid
deriving DecidableEq

structure HandleRange where
  first : UInt16
  last : UInt16
deriving DecidableEq

structure Characteristic where
  handle : UInt16
  properties : UInt8
  value : UInt16
  uuid : Uuid
deriving DecidableEq

structure Descriptor where
  handle : UInt16
  uuid : Uuid
deriving DecidableEq

def clippedTo (stop last : UInt16) : UInt16 := if last = 0xffff then stop else last

def groups (serviceType : UInt16) : Listing Group where
  procedure := readByGrpType serviceType
  lead n := [UInt8.ofNat n]
  row g := putLe16 g.first ++ putLe16 g.last ++ g.uuid.toLe
  first := Group.first
  last := Group.last
  report stop g := { g with last := clippedTo stop g.last }

def ranges (serviceType : UInt16) (uuid : Uuid) : Listing HandleRange where
  procedure := findByTypeVal serviceType uuid
  lead _ := []
  row r := putLe16 r.first ++ putLe16 r.last
  first := HandleRange.first
  last := HandleRange.last
  report _ r := r

def declarations : Listing Characteristic where
  procedure := discoverChrcs
  lead n := [UInt8.ofNat n]
  row c := putLe16 c.handle ++ [c.properties] ++ putLe16 c.value ++ c.uuid.toLe
  first := Characteristic.handle
  last := Characteristic.handle
  report _ c := c

def information : Listing Descriptor where
  procedure := discoverDescs
  lead n := [if n = 4 then 0x01 else 0x02]
  row d := putLe16 d.handle ++ d.uuid.toLe
  first := Descriptor.handle
  last := Descriptor.handle
  report _ d := d

@[simp] theorem putLe16_length (v : UInt16) : (putLe16 v).length = 2 := rfl

theorem putLe16_injective : Function.Injective putLe16 := HostOrder.little.bytes_injective

theorem le16At_putLe16 (v : UInt16) (tail : List UInt8) : le16At (putLe16 v ++ tail) 0 = v := by
  simp [le16At,putLe16]

theorem le16At_append (front row : List UInt8) (k : Nat) :
    le16At (front ++ row) (front.length + k) = le16At row k := by
  have hg (i : Nat) : (front ++ row).getD (front.length + i) 0 = row.getD i 0 := by
    rw [List.getD_append_right _ _ _ _ (Nat.le_add_right _ _),Nat.add_sub_cancel_left]
  rw [le16At,le16At,Nat.add_assoc,hg,hg]

theorem le16At_left {row tail : List UInt8} {k : Nat} (h : k + 2 ≤ row.length) :
    le16At (row ++ tail) k = le16At row k := by
  simp only [le16At,List.getD_append row tail _ k (by omega),
    List.getD_append row tail _ (k+1) (by omega)]

theorem declaredLength_rows {least n : Nat} {lengths : List Nat} {rows : List (List UInt8)}
    (hn : n ∈ lengths) (hl : ∀ m ∈ lengths, least ≤ m + 1 ∧ m < 256) (hr : rows ≠ [])
    (hw : ∀ row ∈ rows, row.length = n) :
    declaredLength least lengths ([UInt8.ofNat n] ++ rows.flatten) = some n := by
  obtain ⟨row,more,rfl⟩ := List.exists_cons_of_ne_nil hr
  obtain ⟨hm,hb⟩ := hl n hn
  have ho : (UInt8.ofNat n).toNat = n := by rw [UInt8.toNat_ofNat',Nat.mod_eq_of_lt hb]
  have hf := Paging.flatten_length hw
  have hc : least ≤ (row :: more).flatten.length + 1 := by
    rw [List.flatten_cons,List.length_append,hw row List.mem_cons_self]
    omega
  rw [List.singleton_append,declaredLength,ho,
    if_pos ⟨hc,hn,by rw [hf]; exact Nat.mul_mod_left _ _⟩]

theorem formatLength_rows {n : Nat} {rows : List (List UInt8)} (hn : n = 4 ∨ n = 18)
    (hr : rows ≠ []) (hw : ∀ row ∈ rows, row.length = n) :
    formatLength ([if n = 4 then 0x01 else 0x02] ++ rows.flatten) = some n := by
  obtain ⟨row,more,rfl⟩ := List.exists_cons_of_ne_nil hr
  have hf := Paging.flatten_length hw
  have hz : (row :: more).flatten.length % n = 0 := by rw [hf]; exact Nat.mul_mod_left _ _
  have hc : ¬ (row :: more).flatten.length + 1 < 5 := by
    rw [List.flatten_cons,List.length_append,hw row List.mem_cons_self]
    omega
  rcases hn with rfl | rfl
  · simp only [List.singleton_append,formatLength,if_neg hc,hz,if_true]
  · rw [List.singleton_append,formatLength,if_neg hc]
    simp only [hz,if_true]
    rfl

theorem handlesLength_rows {rows : List (List UInt8)} (hr : rows ≠ [])
    (hw : ∀ row ∈ rows, row.length = 4) : handlesLength rows.flatten = some 4 := by
  obtain ⟨row,more,rfl⟩ := List.exists_cons_of_ne_nil hr
  have hf := Paging.flatten_length hw
  have hz : (row :: more).flatten.length % 4 = 0 := by rw [hf]; exact Nat.mul_mod_left _ _
  have hne : (row :: more).flatten ≠ [] := by
    intro h
    rw [h,List.length_nil,List.length_cons] at hf
    omega
  rw [handlesLength,if_pos ⟨hne,hz⟩]

theorem row_lengths {row : A → List UInt8} {xs : List A} {n : Nat}
    (hn : ∀ x ∈ xs, (row x).length = n) : ∀ r ∈ xs.map row, r.length = n := by
  simpa using hn

theorem exists_length {row : A → List UInt8} {xs : List A} {n : Nat} (hx : xs ≠ [])
    (hn : ∀ x ∈ xs, (row x).length = n) : ∃ x, (row x).length = n := by
  obtain ⟨x,_,rfl⟩ := List.exists_cons_of_ne_nil hx
  exact ⟨x,hn x List.mem_cons_self⟩

theorem groups_lawful (serviceType : UInt16) : (groups serviceType).Lawful where
  response := rfl
  pairs := rfl
  asks := by
    change opReadByGrpTypeReq ≠ 0
    decide
  succeeds := by
    change opReadByGrpTypeRsp ≠ opErrorRsp
    decide
  header _ := rfl
  length n xs hx hn := by
    obtain ⟨g,hg⟩ := exists_length hx hn
    refine declaredLength_rows ?_ (by simp) (by simpa using hx) (row_lengths hn)
    rcases g.uuid.toLe_length with hu | hu
    · simp [groups,hu] at hg
      simp [← hg]
    · simp [groups,hu] at hg
      simp [← hg]
  handle g := by
    have h := le16At_append (putLe16 g.first) (putLe16 g.last ++ g.uuid.toLe) 0
    rw [le16At_putLe16,← List.append_assoc] at h
    exact h
  fits g := by
    simp only [groups,readByGrpType,List.length_append,putLe16_length]
    omega
  before handle last h := by simpa [groups,readByGrpType] using h
  stops g last _ h := by simpa [groups,readByGrpType] using h
  clipped stop g _ hm := by
    simp only [groups] at hm ⊢
    simp [putLe16,clippedTo,hm]
  unclipped stop g h := by
    obtain ⟨first,last,uuid⟩ := g
    simp only [groups,clippedTo,Group.mk.injEq,true_and,and_true,ite_eq_right_iff] at h ⊢
    intro hl
    by_contra hne
    exact h ⟨rfl,hl,Ne.symm hne⟩
  reported stop g := by simp [groups]

theorem ranges_lawful (serviceType : UInt16) (uuid : Uuid) :
    (ranges serviceType uuid).Lawful where
  response := rfl
  pairs := rfl
  asks := by
    change opFindByTypeValReq ≠ 0
    decide
  succeeds := by
    change opFindByTypeValRsp ≠ opErrorRsp
    decide
  header _ := rfl
  length n xs hx hn := by
    obtain ⟨r,hr⟩ := exists_length hx hn
    obtain rfl : n = 4 := by simpa [ranges] using hr.symm
    exact handlesLength_rows (by simpa using hx) (row_lengths hn)
  handle r := by
    have h := le16At_append (putLe16 r.first) (putLe16 r.last ++ []) 0
    rw [le16At_putLe16,List.append_nil] at h
    exact h
  fits r := by simp [ranges,findByTypeVal]
  before handle last h := by simpa [ranges,findByTypeVal] using h
  stops r last _ h := by simpa [ranges,findByTypeVal] using h
  clipped _ _ h := by simp [ranges,findByTypeVal] at h
  unclipped _ _ _ := rfl
  reported _ _ := rfl

theorem declarations_lawful : declarations.Lawful where
  response := by decide
  pairs := by decide
  asks := by decide
  succeeds := by decide
  header _ := rfl
  length n xs hx hn := by
    obtain ⟨c,hc⟩ := exists_length hx hn
    refine declaredLength_rows ?_ (by simp) (by simpa using hx) (row_lengths hn)
    rcases c.uuid.toLe_length with hu | hu
    · simp [declarations,hu] at hc
      simp [← hc]
    · simp [declarations,hu] at hc
      simp [← hc]
  handle c := by
    simp only [declarations,List.append_assoc]
    exact le16At_putLe16 c.handle _
  fits c := by
    simp only [declarations,discoverChrcs,List.length_append,putLe16_length]
    omega
  before handle last h := by
    simp only [declarations,discoverChrcs,decide_eq_true_eq]
    exact UInt16.ne_of_lt h
  stops x last hf hl := by
    simp only [declarations,discoverChrcs,decide_eq_false_iff_not,not_not]
    exact UInt16.le_antisymm hf (UInt16.not_lt.mp hl)
  clipped _ _ h := by simp [declarations,discoverChrcs] at h
  unclipped _ _ _ := rfl
  reported _ _ := rfl

theorem information_lawful : information.Lawful where
  response := by decide
  pairs := by decide
  asks := by decide
  succeeds := by decide
  header _ := rfl
  length n xs hx hn := by
    obtain ⟨d,hd⟩ := exists_length hx hn
    refine formatLength_rows ?_ (by simpa using hx) (row_lengths hn)
    rcases d.uuid.toLe_length with hu | hu
    · simp [information,hu] at hd
      exact .inl hd.symm
    · simp [information,hu] at hd
      exact .inr hd.symm
  handle d := by
    simp only [information]
    exact le16At_putLe16 d.handle _
  fits d := by
    simp only [information,discoverDescs,List.length_append,putLe16_length]
    omega
  before handle last h := by
    simp only [information,discoverDescs,decide_eq_true_eq]
    exact UInt16.ne_of_lt h
  stops x last hf hl := by
    simp only [information,discoverDescs,decide_eq_false_iff_not,not_not]
    exact UInt16.le_antisymm hf (UInt16.not_lt.mp hl)
  clipped _ _ h := by simp [information,discoverDescs] at h
  unclipped _ _ _ := rfl
  reported _ _ := rfl

end Minipro.GattHelpers
