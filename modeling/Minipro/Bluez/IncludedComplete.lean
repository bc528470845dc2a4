import Minipro.Bluez.IncludedDiscovery

namespace Minipro.GattHelpers
open Att ByteOrder Transition Records GattClient Sweep

structure Included where
  handle : UInt16
  first : UInt16
  last : UInt16
  uuid : Uuid
deriving DecidableEq

namespace Included

def named (i : Included) : Bool := i.uuid.toLe.length = 2

def row (i : Included) : List UInt8 :=
  putLe16 i.handle ++ putLe16 i.first ++ putLe16 i.last ++ if i.named then i.uuid.toLe else []

def found (i : Included) : FoundIncluded := ⟨i.handle,i.first,i.last,i.uuid.toUuid128⟩

theorem row_length (i : Included) : i.row.length = if i.named then 8 else 6 := by
  cases h : i.named with
  | true =>
    have hl : i.uuid.toLe.length = 2 := of_decide_eq_true h
    simp [row,h,hl]
  | false => simp [row,h]

theorem toLe_length (i : Included) (h : i.named = false) : i.uuid.toLe.length = 16 :=
  i.uuid.toLe_length.resolve_left (of_decide_eq_false h)

theorem toLe_eq (i : Included) (h : i.named = false) :
    i.uuid.toLe = (Uuid.bswap128 i.uuid.toUuid128).val := by
  cases hu : i.uuid with
  | uuid16 u => simp [named,hu,Uuid.toLe] at h
  | uuid32 u => rfl
  | uuid128 u => rfl

theorem row_handle (i : Included) (tail : List UInt8) : le16At (i.row ++ tail) 0 = i.handle := by
  simp only [row,List.append_assoc]
  exact le16At_putLe16 i.handle _

theorem row_first (i : Included) (tail : List UInt8) : le16At (i.row ++ tail) 2 = i.first := by
  simp only [row,List.append_assoc]
  exact (le16At_append (putLe16 i.handle) _ 0).trans (le16At_putLe16 i.first _)

theorem row_last (i : Included) (tail : List UInt8) : le16At (i.row ++ tail) 4 = i.last := by
  simp only [row,List.append_assoc]
  rw [← List.append_assoc (putLe16 i.handle)]
  exact (le16At_append (putLe16 i.handle ++ putLe16 i.first) _ 0).trans (le16At_putLe16 i.last _)

theorem row_uuid (i : Included) (h : i.named) (tail : List UInt8) :
    uuidAt (i.row ++ tail) 6 2 = i.uuid.toUuid128 := by
  rw [row,if_pos h]
  exact uuidAt_toLe i.uuid rfl (of_decide_eq_true h)

end Included

def inclusions : Listing Included where
  procedure := discoverIncluded
  lead n := [UInt8.ofNat n]
  row := Included.row
  first := Included.handle
  last := Included.handle
  report _ i := i

theorem inclusions_lawful : inclusions.Lawful where
  response := by decide
  pairs := by decide
  asks := by decide
  succeeds := by decide
  header _ := rfl
  length n xs hx hn := by
    obtain ⟨i,hi⟩ := exists_length hx hn
    refine declaredLength_rows ?_ (by simp) (by simpa using hx) (row_lengths hn)
    have hl : i.row.length = n := hi
    rw [i.row_length] at hl
    split at hl <;> simp [← hl]
  handle i := by
    have h := i.row_handle []
    rwa [List.append_nil] at h
  fits i := by
    have h := i.row_length
    change 0 + 2 ≤ i.row.length
    split at h <;> omega
  before handle last h := by
    simp only [inclusions,discoverIncluded,decide_eq_true_eq]
    exact UInt16.ne_of_lt h
  stops x last hf hl := by
    simp only [inclusions,discoverIncluded,decide_eq_false_iff_not,not_not]
    exact UInt16.le_antisymm hf (UInt16.not_lt.mp hl)
  clipped _ _ h := by simp [inclusions,discoverIncluded] at h
  unclipped _ _ _ := rfl
  reported _ _ := rfl

def pageOf (n : Nat) (xs : List Included) : Result :=
  ⟨opReadByTypeRsp,(xs.map Included.row).flatten,n⟩

@[simp] theorem pageOf_opcode (n : Nat) (xs : List Included) :
    (pageOf n xs).opcode = opReadByTypeRsp := rfl

@[simp] theorem pageOf_dataLen (n : Nat) (xs : List Included) : (pageOf n xs).dataLen = n := rfl

def readOf (i : Included) : Result := ⟨opReadRsp,i.uuid.toLe,16⟩

-- What the collected results hold: a page whose elements have no UUID is followed by their reads.
inductive Holding : List Result → List Included → Prop
  | nil : Holding [] []
  | named {xs more : List Included} {results : List Result} (hx : xs ≠ [])
      (hb : ∀ i ∈ xs, i.named) (h : Holding results more) :
      Holding (pageOf 8 xs :: results) (xs ++ more)
  | unnamed {xs more : List Included} {results : List Result} (hx : xs ≠ [])
      (hb : ∀ i ∈ xs, i.named = false) (h : Holding results more) :
      Holding (pageOf 6 xs :: (xs.map readOf ++ results)) (xs ++ more)

section Reading
variable {op : Request} {xs ys seen rest : List Included} {x : Included}
  {results results' : List Result} {n : Nat}

theorem Holding.append (h : Holding results xs) (h' : Holding results' ys) :
    Holding (results ++ results') (xs ++ ys) := by
  induction h with
  | nil => exact h'
  | named hx hb _ ih =>
    rw [List.append_assoc]
    exact .named hx hb ih
  | unnamed hx hb _ ih =>
    rw [List.append_assoc,List.cons_append,List.append_assoc]
    exact .unnamed hx hb ih

theorem Holding.nil_iff (h : Holding results xs) : results = [] ↔ xs = [] := by
  cases h with
  | nil => simp
  | named hx _ _ => simp [hx]
  | unnamed hx _ _ => simp [hx]

theorem page_length (hn : ∀ i ∈ xs, i.row.length = n) : (pageOf n xs).pdu.length = xs.length * n := by
  have h := Paging.flatten_length (row_lengths hn)
  rwa [List.length_map] at h

theorem page_drop (hn : ∀ i ∈ seen ++ rest, i.row.length = n) :
    (pageOf n (seen ++ rest)).pdu.drop (seen.length * n) = (rest.map Included.row).flatten := by
  have hl := page_length fun i hi => hn i (List.mem_append_left rest hi)
  rw [← hl]
  simp [pageOf]

theorem named_length (hb : ∀ i ∈ xs, i.named) : ∀ i ∈ xs, i.row.length = 8 := fun i hi => by
  rw [i.row_length,if_pos (hb i hi)]

theorem unnamed_length (hb : ∀ i ∈ xs, i.named = false) : ∀ i ∈ xs, i.row.length = 6 :=
  fun i hi => by rw [i.row_length,if_neg (by simp [hb i hi])]

theorem page_count (n : Nat) (xs : List Included) :
    (pageOf n xs :: results).filter (fun s => s.opcode = opReadByTypeRsp) =
      pageOf n xs :: results.filter fun s => s.opcode = opReadByTypeRsp := by
  exact List.filter_cons_of_pos (decide_eq_true rfl)

theorem reads_count (xs : List Included) :
    (xs.map readOf ++ results).filter (fun s => s.opcode = opReadByTypeRsp) =
      results.filter fun s => s.opcode = opReadByTypeRsp := by
  have h : (xs.map readOf).filter (fun s => s.opcode = opReadByTypeRsp) = [] := by
    refine List.filter_eq_nil_iff.mpr fun s hs => ?_
    obtain ⟨i,_,rfl⟩ := List.mem_map.mp hs
    exact of_decide_eq_false rfl
  rw [List.filter_append,h,List.nil_append]

theorem Holding.elements (h : Holding results xs) :
    elementCount (results.filter fun s => s.opcode = opReadByTypeRsp) = xs.length := by
  have hpage {n : Nat} {xs : List Included} (hn : ∀ i ∈ xs, i.row.length = n) (hp : 0 < n) :
      (pageOf n xs).pdu.length / n = xs.length := by
    rw [page_length hn,Nat.mul_div_cancel _ hp]
  induction h with
  | nil => rfl
  | @named xs more results hx hb _ ih =>
    rw [page_count,elementCount,List.map_cons,List.sum_cons,
      List.length_append]
    exact congrArg₂ (· + ·) (hpage (named_length hb) (by decide)) ih
  | @unnamed xs more results hx hb _ ih =>
    rw [page_count,reads_count,elementCount,List.map_cons,List.sum_cons,
      List.length_append]
    exact congrArg₂ (· + ·) (hpage (unnamed_length hb) (by decide)) ih

theorem Holding.count (h : Holding results xs) : includedCount results = xs.length := by
  have hpage {n : Nat} (hn : n = 6 ∨ n = 8) (xs : List Included) (rs : List Result) :
      includedCount (pageOf n xs :: rs) =
        elementCount ((pageOf n xs :: rs).filter fun s => s.opcode = opReadByTypeRsp) := by
    refine if_neg ?_
    simp only [pageOf_opcode,pageOf_dataLen,ne_eq,not_true,false_or]
    omega
  rw [← h.elements]
  cases h with
  | nil => rfl
  | named hx hb h => exact hpage (.inr rfl) _ _
  | unnamed hx hb h => exact hpage (.inl rfl) _ _

theorem named_next (hu : op.uuid = none) (hb : ∀ i ∈ xs, i.named) (hs : xs = seen ++ x :: rest) :
    iterNextIncludedService op ⟨pageOf 8 xs :: results,seen.length * 8⟩ =
      some (x.found,if rest = [] then ⟨results,0⟩
        else ⟨pageOf 8 xs :: results,(seen.length + 1) * 8⟩) := by
  subst hs
  have hn := named_length hb
  have hx : x.named := hb x (by simp)
  have hd : (pageOf 8 (seen ++ x :: rest)).pdu.drop (seen.length * 8) =
      x.row ++ (rest.map Included.row).flatten := page_drop hn
  have hg : ¬ (opReadByTypeRsp ≠ opReadByTypeRsp ∨ op.uuid ≠ none ∨ ((8 : Nat) ≠ 8 ∧ (8 : Nat) ≠ 6)) := by
    simp [hu]
  have ha : paging.advance ⟨pageOf 8 (seen ++ x :: rest) :: results,seen.length * 8⟩ =
      if rest = [] then ⟨results,0⟩
        else ⟨pageOf 8 (seen ++ x :: rest) :: results,(seen.length + 1) * 8⟩ := by
    have hl : (pageOf 8 (seen ++ x :: rest)).pdu.length = (seen.length + (rest.length + 1)) * 8 := by
      rw [page_length hn,List.length_append,List.length_cons]
    have hi : seen.length * 8 + 8 = (pageOf 8 (seen ++ x :: rest)).pdu.length ↔ rest = [] := by
      rw [hl,← List.length_eq_zero_iff]
      omega
    rw [Nat.succ_mul]
    exact if_congr hi rfl rfl
  have hrow : (⟨le16At (x.row ++ (rest.map Included.row).flatten) 0,
      le16At (x.row ++ (rest.map Included.row).flatten) 2,
      le16At (x.row ++ (rest.map Included.row).flatten) 4,
      uuidAt (x.row ++ (rest.map Included.row).flatten) 6 2⟩ : FoundIncluded) = x.found := by
    rw [x.row_handle,x.row_first,x.row_last,x.row_uuid hx]
    rfl
  rw [← ha,← hrow,← hd]
  exact (if_neg hg).trans (if_pos rfl)

theorem unnamed_next (hu : op.uuid = none) (hb : ∀ i ∈ xs, i.named = false)
    (hs : xs = seen ++ x :: rest) :
    iterNextIncludedService op ⟨pageOf 6 xs :: (xs.map readOf ++ results),seen.length * 6⟩ =
      some (x.found,if rest = [] then ⟨results,0⟩
        else ⟨pageOf 6 xs :: (xs.map readOf ++ results),(seen.length + 1) * 6⟩) := by
  subst hs
  have hn := unnamed_length hb
  have hx : x.named = false := hb x (by simp)
  have hd : (pageOf 6 (seen ++ x :: rest)).pdu.drop (seen.length * 6) =
      x.row ++ (rest.map Included.row).flatten := page_drop hn
  have hg : ¬ (opReadByTypeRsp ≠ opReadByTypeRsp ∨ op.uuid ≠ none ∨ ((6 : Nat) ≠ 8 ∧ (6 : Nat) ≠ 6)) := by
    simp [hu]
  have hread : ((seen ++ x :: rest).map readOf ++ results).drop (seen.length * 6 / 6) =
      readOf x :: (rest.map readOf ++ results) := by
    rw [Nat.mul_div_cancel _ (by decide : 0 < 6),List.map_append,List.append_assoc]
    exact List.drop_left' (by rw [List.length_map])
  have hl : (pageOf 6 (seen ++ x :: rest)).pdu.length = (seen.length + (rest.length + 1)) * 6 := by
    rw [page_length hn,List.length_append,List.length_cons]
  have hi : seen.length * 6 + 6 = (pageOf 6 (seen ++ x :: rest)).pdu.length ↔ rest = [] := by
    rw [hl,← List.length_eq_zero_iff]
    omega
  have huuid : uuidAt x.uuid.toLe 0 16 = x.uuid.toUuid128 := by
    have h : uuidAt ([] ++ x.uuid.toLe ++ []) 0 16 = x.uuid.toUuid128 :=
      uuidAt_toLe x.uuid rfl (x.toLe_length hx)
    rwa [List.nil_append,List.append_nil] at h
  have hrow : (⟨le16At (x.row ++ (rest.map Included.row).flatten) 0,
      le16At (x.row ++ (rest.map Included.row).flatten) 2,
      le16At (x.row ++ (rest.map Included.row).flatten) 4,
      uuidAt x.uuid.toLe 0 16⟩ : FoundIncluded) = x.found := by
    rw [x.row_handle,x.row_first,x.row_last,huuid]
    rfl
  simp only [iterNextIncludedService,pageOf_opcode,pageOf_dataLen,if_neg hg,hread,hd,Nat.succ_mul]
  rw [if_neg (by decide)]
  refine congrArg some (congrArg₂ Prod.mk hrow ?_)
  by_cases hr : rest = []
  · subst hr
    exact (if_pos (hi.mpr rfl)).trans (if_pos rfl).symm
  · exact (if_neg (mt hi.mp hr)).trans (if_neg hr).symm

theorem includes_collected (hu : op.uuid = none) (h : Holding results xs) :
    Paging.collect (iterNextIncludedService op) xs.length ⟨results,0⟩ = xs.map Included.found := by
  induction h with
  | nil => rfl
  | @named xs more results hx hb _ ih =>
    rw [List.length_append,List.map_append,← ih]
    exact Paging.collect_page (fun seen x rest hs => named_next hu hb hs) hx more.length
  | @unnamed xs more results hx hb _ ih =>
    rw [List.length_append,List.map_append,← ih]
    exact Paging.collect_page (fun seen x rest hs => unnamed_next hu hb hs) hx more.length

theorem includes_found (hu : op.uuid = none) (h : Holding op.results xs) :
    includedServices op = xs.map Included.found := by
  rw [includedServices,h.count]
  exact includes_collected hu h

end Reading

namespace Inclusion

-- A declaration is read for its UUID only where the listing did not give it.
def compliant (items : List Included) : Inclusion → Reply → Prop
  | .listing op first, r =>
    inclusions.Answers items (discoverIncluded.request { op with startHandle := first }) r.answer
  | .reading _ data, r => ∃ i ∈ items, i.first = data.handle ∧ i.named = false ∧
      r.answer = .received (opReadRsp :: i.uuid.toLe)
  | .complete _ _ _, _ => True

def accepting (items : List Included) (s : Inclusion) (r : Reply) : Prop :=
  compliant items s r ∧ r.sent

def asking : Inclusion → Bool
  | .complete _ _ _ => false
  | _ => true

-- The callback makes a follow-up request, and bt_att_send refuses it.
def Refuses (s : Inclusion) (r : Reply) : Prop :=
  r.sent = false ∧ ∃ t, machine.step s { r with sent := true } = some t ∧ t.asking

def Cut (s : Inclusion) (ls : List Reply) : Prop :=
  ∃ front r t, ls = front ++ [r] ∧ machine.run s front = some t ∧ Refuses t r

section Cut
variable {op : Request} {data : ReadInclData} {opcode : UInt8} {pdu : List UInt8} {d : Discovery}
  {s t : Inclusion} {r : Reply} {ls : List Reply}

theorem ofDiscovery_asking (h : (ofDiscovery d).asking) : ∃ op, d = .awaiting op := by
  cases d with
  | awaiting op => exact ⟨op,rfl⟩
  | complete op success ecode => cases h

theorem completed_asking {success : Bool} {ecode : UInt8} :
    (ofDiscovery (discoveryOpComplete op success ecode)).asking = false := by
  rw [discoveryOpComplete]
  rfl

theorem listing_refused (h : (discoverIncludedCb op opcode pdu true).asking) :
    ∃ op', discoverIncludedCb op opcode pdu false = .complete op' false 0 := by
  rw [discoverIncludedCb] at h ⊢
  split at h
  next hc => exact ⟨_,if_pos hc⟩
  next hc =>
    obtain ⟨op',hr⟩ := ofDiscovery_asking h
    exact ⟨op',by rw [if_neg hc,Procedure.respond_refused hr]; rfl⟩

theorem reading_refused (h : (readIncludedCb op data opcode pdu true).asking) :
    ∃ op', readIncludedCb op data opcode pdu false = .complete op' false 0 := by
  have hnone {success : Bool} {ecode : UInt8} {op : Request}
      (h : (ofDiscovery (discoveryOpComplete op success ecode)).asking) : False := by
    rw [completed_asking] at h
    cases h
  simp only [readIncludedCb] at h ⊢
  split at h
  next => exact (hnone h).elim
  next h1 =>
    split at h
    next => exact (hnone h).elim
    next h2 =>
      rw [if_neg h1,if_neg h2]
      split at h
      next h3 =>
        split at h
        next => exact (hnone h).elim
        next h4 =>
          rw [if_pos h3,if_neg h4,discoveryOpComplete_zero]
          exact ⟨_,rfl⟩
      next h3 =>
        rw [if_neg h3,discoveryOpComplete_zero]
        exact ⟨_,rfl⟩

theorem Refuses.step (h : Refuses s r) : ∃ op, machine.step s r = some (.complete op false 0) := by
  obtain ⟨b,answer,sent⟩ := r
  obtain ⟨rfl : sent = false,t,hs,ht⟩ := h
  cases s with
  | complete op success ecode => cases hs
  | listing op first =>
    obtain ⟨d,hd,rfl⟩ := Option.map_eq_some_iff.mp hs
    obtain ⟨op',he⟩ := listing_refused ht
    exact ⟨op',Option.map_eq_some_iff.mpr ⟨d,hd,he⟩⟩
  | reading op data =>
    obtain ⟨d,hd,rfl⟩ := Option.map_eq_some_iff.mp hs
    obtain ⟨op',he⟩ := reading_refused ht
    exact ⟨op',Option.map_eq_some_iff.mpr ⟨d,hd,he⟩⟩

theorem Cut.complete (h : Cut s ls) (hr : machine.run s ls = some t) :
    ∃ op, t = .complete op false 0 := by
  obtain ⟨front,r,u,rfl,hu,hc⟩ := h
  obtain ⟨op,hs⟩ := hc.step
  rw [machine.run_append,hu,Option.bind_some,machine.run_cons,hs] at hr
  exact ⟨op,(Option.some.inj hr).symm⟩

end Cut

-- Two includes of one service tell the same UUID.
def Coherent (items : List Included) : Prop := ∀ i ∈ items, ∀ j ∈ items, i.named = false →
  j.named = false → i.first = j.first → i.uuid.toLe = j.uuid.toLe

structure Progress (items : List Included) (start last : UInt16) (op : Request) (first : UInt16)
    (found : List Included) : Prop where
  covers : inclusions.extent.Covers items start.toNat last.toNat found first.toNat
  holds : Holding op.results found
  stop : op.endHandle = last
  uuid : op.uuid = none
  behind : op.startHandle ≤ first

-- The page seen ++ x :: rest ends with z; the read of x is in flight.
structure Reading (items : List Included) (start last : UInt16) (op : Request)
    (data : ReadInclData) (found seen : List Included) (x : Included) (rest : List Included)
    (z : Included) : Prop where
  covers : inclusions.extent.Covers items start.toNat last.toNat (found ++ (seen ++ x :: rest))
    (z.handle.toNat + 1)
  ends : (seen ++ x :: rest).getLast? = some z
  bound : z.handle ≤ last
  unnamed : ∀ i ∈ seen ++ x :: rest, i.named = false
  holds : ∃ front, op.results = front ++ pageOf 6 (seen ++ x :: rest) :: seen.map readOf ∧
    Holding front found
  data : data = ⟨pageOf 6 (seen ++ x :: rest),(seen.length + 1) * 6⟩
  stop : op.endHandle = last
  uuid : op.uuid = none
  behind : op.startHandle ≤ z.handle

inductive Outcome (items : List Included) (start last : UInt16) (op : Request) :
    Bool → UInt8 → Prop
  | found (hh : Holding op.results (inclusions.inRange start last items))
      (hn : inclusions.inRange start last items ≠ []) (hu : op.uuid = none) (ecode : UInt8) :
      Outcome items start last op true ecode
  | notFound (hw : inclusions.inRange start last items = []) :
      Outcome items start last op false errorAttributeNotFound

variable {items found seen rest : List Included} {x z : Included} {start last first : UInt16}
  {op : Request} {data : ReadInclData} {r : Reply} {s t : Inclusion} {ls : List Reply}

theorem Progress.begins : Progress items start last { startHandle := start, endHandle := last }
    start [] where
  covers := Extent.covers_start items start.toNat last.toNat
  holds := .nil
  stop := rfl
  uuid := rfl
  behind := UInt16.le_refl start

theorem Progress.notFound (h : Progress items start last op first found)
    (hw : inclusions.inRange first last items = []) {pdu : List UInt8}
    (hp : processError pdu = errorAttributeNotFound) (sent : Bool) : ∃ success ecode,
    discoverIncludedCb op opErrorRsp pdu sent = .complete op success ecode ∧
      Outcome items start last op success ecode := by
  have hf : found = inclusions.inRange start last items := h.covers.found_all hw
  have he : discoverIncludedCb op opErrorRsp pdu sent =
      ofDiscovery (discoveryOpComplete op false errorAttributeNotFound) := by
    have hne : ¬ (opErrorRsp = opReadByTypeRsp ∧ discoverIncluded.dataLength pdu = some 6) :=
      fun hc => absurd hc.1 (by decide)
    rw [discoverIncludedCb,if_neg hne,Procedure.respond,if_pos rfl,hp]
  refine ⟨_,_,he,?_⟩
  have hn := h.holds.nil_iff
  by_cases hr : op.results = []
  · simp only [hr,ne_eq,not_true,and_false,or_false]
    exact .notFound (hf ▸ hn.mp hr)
  · simp only [hr,ne_eq,not_false_iff,and_true,or_true,decide_true]
    exact .found (hf ▸ h.holds) (hf ▸ fun h0 => hr (hn.mpr h0)) h.uuid _

theorem swept {xs : List Included}
    (h : inclusions.extent.Covers items start.toNat last.toNat xs (last.toNat + 1)) :
    xs = inclusions.inRange start last items :=
  h.found_all (Extent.within_eq_nil fun x _ => by omega)

-- How a callback may end: it goes on, it has everything, or its follow-up request was refused.
inductive Continues (items : List Included) (start last : UInt16) (found : List Included)
    (sent : Bool) : Inclusion → Prop
  | listing {op : Request} {first : UInt16} (h : Progress items start last op first found) :
      Continues items start last found sent (.listing op first)
  | complete {op : Request} {success : Bool} {ecode : UInt8}
      (h : Outcome items start last op success ecode) :
      Continues items start last found sent (.complete op success ecode)
  | refused {op : Request} (hs : sent = false) :
      Continues items start last found sent (.complete op false 0)

theorem continues_behind {xs : List Included} {sent : Bool}
    (hcov : inclusions.extent.Covers items start.toNat last.toNat xs (z.handle.toNat + 1))
    (hb : z.handle ≤ last) (hh : Holding op.results xs) (hx : xs ≠ []) (hs : op.endHandle = last)
    (hu : op.uuid = none) (hbehind : op.startHandle ≤ z.handle ∨ op.startHandle = z.handle + 1) :
    Continues items start last xs sent
      (if z.handle = last then .complete op true 0
      else if sent then .listing op (z.handle + 1) else .complete op false 0) := by
  split
  next hz =>
    have hall : xs = inclusions.inRange start last items := swept (hz ▸ hcov)
    exact .complete (.found (hall ▸ hh) (hall ▸ hx) hu 0)
  next hz =>
    split
    next =>
      have hlt : z.handle < last := UInt16.lt_of_le_of_ne hb hz
      refine .listing ⟨?_,hh,hs,hu,?_⟩
      · rwa [succ_toNat hlt]
      · rcases hbehind with hle | heq
        · have := UInt16.le_iff_toNat_le.mp hle
          rw [UInt16.le_iff_toNat_le,succ_toNat hlt]
          omega
        · exact heq ▸ UInt16.le_refl op.startHandle
    next hn => exact .refused (Bool.not_eq_true _ ▸ hn)

section Page
variable {ps rs : List Included} {n : Nat}
  (h : Progress items start last op first found)
  (hw : inclusions.inRange first last items = ps ++ z :: rs)
include h hw

theorem Progress.page_covers (hl : inclusions.Laid items) :
    inclusions.extent.Covers items start.toNat last.toNat (found ++ (ps ++ [z]))
      (z.handle.toNat + 1) := h.covers.advance hl hw

theorem Progress.page_bounds : op.startHandle ≤ z.handle ∧ z.handle ≤ last := by
  have hm := Extent.mem_within.mp (by simp [hw] : z ∈ inclusions.inRange first last items)
  exact ⟨UInt16.le_trans h.behind (UInt16.le_iff_toNat_le.mpr hm.2.1),
    UInt16.le_iff_toNat_le.mpr hm.2.2⟩

theorem Progress.named_page (hl : inclusions.Laid items) (hb : ∀ i ∈ ps ++ [z], i.named)
    (sent : Bool) :
    Continues items start last (found ++ (ps ++ [z])) sent
      (discoverIncludedCb op opReadByTypeRsp ([UInt8.ofNat 8] ++ (pageOf 8 (ps ++ [z])).pdu) sent) := by
  have hn := named_length hb
  have hlen : discoverIncluded.dataLength ([UInt8.ofNat 8] ++ (pageOf 8 (ps ++ [z])).pdu) = some 8 :=
    inclusions_lawful.length 8 (ps ++ [z]) (by simp) hn
  have hlast := Listing.last_handle inclusions_lawful hn
  obtain ⟨hstart,hbound⟩ := h.page_bounds hw
  let op' : Request := { Procedure.appended op (pageOf 8 (ps ++ [z])) with
    startHandle := z.handle + 1 }
  have hd : discoverIncludedCb op opReadByTypeRsp ([UInt8.ofNat 8] ++ (pageOf 8 (ps ++ [z])).pdu)
      sent = if z.handle = last then .complete op' true 0
        else if sent then .listing op' (z.handle + 1) else .complete op' false 0 := by
    have hne : ¬ (opReadByTypeRsp = opReadByTypeRsp ∧
        discoverIncluded.dataLength ([UInt8.ofNat 8] ++ (pageOf 8 (ps ++ [z])).pdu) = some 6) :=
      fun hc => absurd (hlen.symm.trans hc.2) (by decide)
    have hresp : discoverIncluded.respond op opReadByTypeRsp
        ([UInt8.ofNat 8] ++ (pageOf 8 (ps ++ [z])).pdu) sent =
          discoverIncluded.advance op (pageOf 8 (ps ++ [z])) z.handle sent :=
      respond_list rfl (by decide) hlen hlast sent
    rw [discoverIncludedCb,if_neg hne,hresp,Procedure.advance,
      if_neg (UInt16.not_lt.mpr hstart),h.stop]
    by_cases hz : z.handle = last
    · simp [discoverIncluded,hz,discoveryOpComplete_zero,ofDiscovery,op']
    · cases sent <;> simp [discoverIncluded,hz,discoveryOpComplete_zero,ofDiscovery,op']
  rw [hd]
  have hpage := Holding.named (by simp) hb .nil
  rw [List.append_nil] at hpage
  have hholds : Holding op'.results (found ++ (ps ++ [z])) := h.holds.append hpage
  exact continues_behind (h.page_covers hw hl) hbound hholds (by simp) h.stop h.uuid (.inr rfl)

theorem Progress.unnamed_page (hl : inclusions.Laid items) (hb : ∀ i ∈ ps ++ [z], i.named = false)
    (sent : Bool) :
    let d := discoverIncludedCb op opReadByTypeRsp ([UInt8.ofNat 6] ++ (pageOf 6 (ps ++ [z])).pdu) sent
    (∃ op' data x rest, d = .reading op' data ∧
      Reading items start last op' data found [] x rest z) ∨
    sent = false ∧ ∃ op', d = .complete op' false 0 := by
  have hn := unnamed_length hb
  have hlen : discoverIncluded.dataLength ([UInt8.ofNat 6] ++ (pageOf 6 (ps ++ [z])).pdu) = some 6 :=
    inclusions_lawful.length 6 (ps ++ [z]) (by simp) hn
  obtain ⟨hstart,hbound⟩ := h.page_bounds hw
  obtain ⟨x,rest,hx⟩ := List.exists_cons_of_ne_nil (show ps ++ [z] ≠ [] by simp)
  have hends : (ps ++ [z]).getLast? = some z := by simp
  have hcov := h.page_covers hw hl
  rw [unnamed_cb hlen]
  cases sent with
  | false => exact .inr ⟨rfl,_,rfl⟩
  | true =>
    rw [hx] at hcov hends hb ⊢
    refine .inl ⟨_,_,x,rest,rfl,⟨hcov,hends,hbound,hb,⟨op.results,rfl,h.holds⟩,?_,h.stop,h.uuid,hstart⟩⟩
    rw [List.length_nil,Nat.zero_add,Nat.one_mul]
    rfl

end Page

theorem page_named {xs : List Included} {n : Nat} (hx : xs ≠ []) (hn : ∀ i ∈ xs, i.row.length = n) :
    n = 8 ∧ (∀ i ∈ xs, i.named) ∨ n = 6 ∧ ∀ i ∈ xs, i.named = false := by
  obtain ⟨x,hx⟩ := List.exists_mem_of_ne_nil xs hx
  have hlen := hn x hx
  rw [x.row_length] at hlen
  cases hnamed : x.named with
  | true =>
    rw [hnamed,if_pos rfl] at hlen
    refine .inl ⟨hlen.symm,fun i hi => by_contra fun hni => ?_⟩
    have h := hn i hi
    rw [i.row_length,if_neg hni] at h
    omega
  | false =>
    rw [hnamed,if_neg Bool.false_ne_true] at hlen
    refine .inr ⟨hlen.symm,fun i hi => Bool.eq_false_iff.mpr fun hi' => ?_⟩
    have h := hn i hi
    rw [i.row_length,if_pos hi'] at h
    omega

theorem Progress.step (hl : inclusions.Laid items) (h : Progress items start last op first found)
    (ha : compliant items (.listing op first) r) :
    (∃ t more, machine.step (.listing op first) r = some t ∧
      Continues items start last (found ++ more) r.sent t ∧ ∀ op' first', t = .listing op' first' →
        more ≠ []) ∨
    ∃ op' data x rest z, machine.step (.listing op first) r = some (.reading op' data) ∧
      Reading items start last op' data found [] x rest z := by
  obtain ⟨b,answer,sent⟩ := r
  cases ha with
  | @notFound a c hq hw =>
    obtain ⟨rfl,rfl⟩ := inclusions.request_range { op with startHandle := first } h.stop hq
    obtain ⟨d,hd,ho,hp⟩ := deliver_error (show errorAttributeNotFound ≠ errorInsufficientEncryption by
      decide) (by decide) b opReadByTypeReq (low a) (high a)
    have he : processError d.pdu = errorAttributeNotFound := by
      rw [hp]
      rfl
    obtain ⟨success,ecode,hr,hout⟩ := h.notFound hw he sent
    refine .inl ⟨.complete op success ecode,[],Option.map_eq_some_iff.mpr ⟨d,hd,?_⟩,.complete hout,
      fun _ _ ht => by cases ht⟩
    rw [ho]
    exact hr
  | @found a c ps x rs n hq hw hn =>
    obtain ⟨rfl,rfl⟩ := inclusions.request_range { op with startHandle := first } h.stop hq
    have hs := listing_step op a b ([UInt8.ofNat n] ++ (pageOf n (ps ++ [x])).pdu) sent
    rcases page_named (by simp) hn with ⟨rfl,hb⟩ | ⟨rfl,hb⟩
    · exact .inl ⟨_,ps ++ [x],hs,h.named_page hw hl hb sent,fun _ _ _ => by simp⟩
    · rcases h.unnamed_page hw hl hb sent with ⟨op',data,y,rest,he,hr⟩ | ⟨rfl,op',he⟩
      · exact .inr ⟨op',data,y,rest,x,hs.trans (congrArg some he),hr⟩
      · exact .inl ⟨_,[],hs.trans (congrArg some he),.refused rfl,fun _ _ ht => by cases ht⟩

theorem Reading.member (h : Reading items start last op data found seen x rest z) : x ∈ items := by
  have hm : x ∈ inclusions.inRange start last items := by
    rw [Listing.inRange,← h.covers.2]
    simp
  exact (Extent.mem_within.mp hm).1

theorem Reading.at_element (h : Reading items start last op data found seen x rest z) (k : Nat) :
    le16At data.result.pdu (data.pos - data.result.dataLen + k) =
      le16At (x.row ++ (rest.map Included.row).flatten) k := by
  have hn := unnamed_length h.unnamed
  have hd : (pageOf 6 (seen ++ x :: rest)).pdu = (seen.map Included.row).flatten ++
      (x.row ++ (rest.map Included.row).flatten) := by simp [pageOf]
  have hl : (seen.map Included.row).flatten.length = seen.length * 6 :=
    page_length fun i hi => hn i (List.mem_append_left (x :: rest) hi)
  have hpos : (seen.length + 1) * 6 - 6 = seen.length * 6 := by omega
  rw [h.data]
  simp only [pageOf_dataLen,hpos]
  rw [← hl,hd,le16At_append]

theorem Reading.asks (h : Reading items start last op data found seen x rest z) :
    data.handle = x.first := (h.at_element 2).trans (x.row_first _)

theorem Reading.handle (h : Reading items start last op data found seen x rest z) :
    le16At data.result.pdu (data.pos - data.result.dataLen) = x.handle :=
  (h.at_element 0).trans (x.row_handle _)

theorem Reading.answered (hcoh : Coherent items)
    (h : Reading items start last op data found seen x rest z)
    (ha : compliant items (.reading op data) r) :
    machine.step (.reading op data) r =
      some (.readIncludedCb op data opReadRsp x.uuid.toLe r.sent) := by
  obtain ⟨b,answer,sent⟩ := r
  obtain ⟨i,hi,hfirst,hnamed,hanswer⟩ := ha
  obtain rfl : answer = .received (opReadRsp :: i.uuid.toLe) := hanswer
  have hu : i.uuid.toLe = x.uuid.toLe := hcoh i hi x h.member hnamed (h.unnamed x (by simp))
    (hfirst.trans h.asks)
  rw [reading_step,hu]

-- Behind x either another element is read, or the page's last handle says how it goes on.
theorem Reading.step (hcoh : Coherent items)
    (h : Reading items start last op data found seen x rest z)
    (ha : compliant items (.reading op data) r) :
    (∃ t, machine.step (.reading op data) r = some t ∧
      Continues items start last (found ++ (seen ++ x :: rest)) r.sent t) ∨
    ∃ op' data' y rest', rest = y :: rest' ∧
      machine.step (.reading op data) r = some (.reading op' data') ∧
      Reading items start last op' data' found (seen ++ [x]) y rest' z := by
  have hstep := h.answered hcoh ha
  have hn := unnamed_length h.unnamed
  have hlen : x.uuid.toLe.length = 16 := x.toLe_length (h.unnamed x (by simp))
  have hpage : (pageOf 6 (seen ++ x :: rest)).pdu.length = (seen.length + (rest.length + 1)) * 6 := by
    rw [page_length hn,List.length_append,List.length_cons]
  obtain ⟨front,hresults,hfront⟩ := h.holds
  have hread : (Procedure.appended op ⟨opReadRsp,x.uuid.toLe,16⟩).results =
      front ++ pageOf 6 (seen ++ x :: rest) :: (seen ++ [x]).map readOf := by
    rw [Procedure.appended,hresults,List.map_append,List.append_assoc]
    rfl
  cases rest with
  | nil =>
    have hpos : data.pos = data.result.pdu.length := by
      rw [h.data]
      exact hpage.symm
    have hx : x = z := by
      have he := h.ends
      rw [List.getLast?_concat] at he
      exact Option.some.inj he
    have hlast : le16At data.result.pdu (data.pos - data.result.dataLen) = z.handle := by
      rw [← hx]
      exact h.handle
    rw [read_last hlen hpos hlast,h.stop] at hstep
    refine .inl ⟨_,hstep,?_⟩
    refine continues_behind h.covers h.bound ?_ (by simp) h.stop h.uuid (.inl h.behind)
    have hhold := Holding.unnamed (by simp) h.unnamed .nil
    rw [List.append_nil,List.append_nil] at hhold
    rw [hread]
    exact hfront.append hhold
  | cons y rest =>
    have hpos : data.pos ≠ data.result.pdu.length := by
      rw [h.data]
      simp only [hpage,List.length_cons]
      omega
    rw [read_more hlen hpos] at hstep
    cases hsent : r.sent with
    | false =>
      rw [hsent] at hstep
      exact .inl ⟨_,hstep,.refused rfl⟩
    | true =>
      rw [hsent] at hstep
      have hs : seen ++ x :: y :: rest = (seen ++ [x]) ++ y :: rest := by simp
      obtain ⟨hcov,hends,hbound,hunnamed,_,hdata,hstop,huuid,hbehind⟩ := h
      rw [hs] at hcov hends hunnamed hread hdata
      refine .inr ⟨_,_,y,rest,rfl,hstep,hcov,hends,hbound,hunnamed,⟨front,hread,hfront⟩,?_,hstop,huuid,
        hbehind⟩
      rw [hdata]
      simp only [pageOf_dataLen,List.length_append,List.length_singleton,ReadInclData.mk.injEq,
        true_and]
      ring

inductive Reached (items : List Included) (start last : UInt16) (ls : List Reply) :
    Inclusion → Prop
  | listing {op : Request} {first : UInt16} {found : List Included}
      (h : Progress items start last op first found) (hlen : ls.length ≤ 2 * found.length) :
      Reached items start last ls (.listing op first)
  | reading {op : Request} {data : ReadInclData} {found seen rest : List Included} {x z : Included}
      (h : Reading items start last op data found seen x rest z)
      (hlen : ls.length ≤ 2 * found.length + 1 + seen.length) :
      Reached items start last ls (.reading op data)
  | complete {op : Request} {success : Bool} {ecode : UInt8}
      (h : Outcome items start last op success ecode ∨
        success = false ∧ ecode = 0 ∧ ∃ r ∈ ls, r.sent = false)
      (hlen : ls.length ≤ 2 * (inclusions.inRange start last items).length + 1) :
      Reached items start last ls (.complete op success ecode)

theorem Continues.reached (h : Continues items start last found r.sent t)
    (hlist : ∀ op first, t = .listing op first → ls.length + 1 ≤ 2 * found.length)
    (hlen : ls.length ≤ 2 * (inclusions.inRange start last items).length) :
    Reached items start last (ls ++ [r]) t := by
  cases h with
  | listing h =>
    refine .listing h ?_
    rw [List.length_append,List.length_singleton]
    exact hlist _ _ rfl
  | complete h =>
    refine .complete (.inl h) ?_
    rw [List.length_append,List.length_singleton]
    omega
  | refused hs =>
    refine .complete (.inr ⟨rfl,rfl,r,by simp,hs⟩) ?_
    rw [List.length_append,List.length_singleton]
    omega

theorem Reached.step (hl : inclusions.Laid items) (hcoh : Coherent items)
    (h : Reached items start last ls s) (ha : compliant items s r) (hs : machine.step s r = some t) :
    Reached items start last (ls ++ [r]) t := by
  cases h with
  | @listing op first found h hlen =>
    have hle := h.covers.length_le
    rcases h.step hl ha with ⟨u,more,hu,hc,hmore⟩ | ⟨op',data,x,rest,z,hu,hr⟩
    · obtain rfl := Option.some.inj (hu.symm.trans hs)
      refine hc.reached (fun op' first' ht => ?_) (by rw [Listing.inRange]; omega)
      have hpos := List.length_pos_iff.mpr (hmore op' first' ht)
      rw [List.length_append]
      omega
    · obtain rfl := Option.some.inj (hu.symm.trans hs)
      refine .reading hr ?_
      rw [List.length_append,List.length_singleton,List.length_nil]
      omega
  | @reading op data found seen rest x z h hlen =>
    have hle := h.covers.length_le
    simp only [List.length_append,List.length_cons] at hle
    rcases h.step hcoh ha with ⟨u,hu,hc⟩ | ⟨op',data',y,rest',-,hu,hr⟩
    · obtain rfl := Option.some.inj (hu.symm.trans hs)
      refine hc.reached (fun _ _ _ => ?_) (by rw [Listing.inRange]; omega)
      simp only [List.length_append,List.length_cons]
      omega
    · obtain rfl := Option.some.inj (hu.symm.trans hs)
      refine .reading hr ?_
      simp only [List.length_append,List.length_singleton]
      omega
  | complete _ _ => cases hs

theorem reached_run (hl : inclusions.Laid items) (hcoh : Coherent items)
    (ha : machine.Along (compliant items) (begin start last) ls)
    (hr : machine.run (begin start last) ls = some t) : Reached items start last ls t :=
  machine.along_history (Reached items start last) _
    (fun _ _ _ _ h hc hs => h.step hl hcoh hc hs) (.listing .begins le_rfl) ha hr

theorem Reached.answerable (hl : inclusions.Laid items) (hcoh : Coherent items)
    (h : Reached items start last ls s) : (∃ op success ecode, s = .complete op success ecode) ∨
      ∃ r t, accepting items s r ∧ machine.step s r = some t := by
  cases h with
  | @listing op first found h hlen =>
    obtain ⟨r,ha,hs⟩ := Listing.compliant_reply inclusions items { op with startHandle := first }
    rcases h.step hl (r := r) ha with ⟨t,_,ht,_⟩ | ⟨_,_,_,_,_,ht,_⟩
    · exact .inr ⟨r,_,⟨ha,hs⟩,ht⟩
    · exact .inr ⟨r,_,⟨ha,hs⟩,ht⟩
  | @reading op data found seen rest x z h hlen =>
    have ha : compliant items (.reading op data) (reply (opReadRsp :: x.uuid.toLe) true) :=
      ⟨x,h.member,h.asks.symm,h.unnamed x (by simp),rfl⟩
    exact .inr ⟨_,_,⟨ha,rfl⟩,h.answered hcoh ha⟩
  | @complete op success ecode h hlen => exact .inl ⟨op,success,ecode,rfl⟩

theorem Reached.length (h : Reached items start last ls s) :
    ls.length ≤ 2 * (inclusions.inRange start last items).length + 1 := by
  cases h with
  | listing h hlen =>
    have hle := h.covers.length_le
    rw [Listing.inRange]
    omega
  | reading h hlen =>
    have hle := h.covers.length_le
    simp only [List.length_append,List.length_cons] at hle
    rw [Listing.inRange]
    omega
  | complete h hlen => exact hlen

theorem Reached.ended {success : Bool} {ecode : UInt8}
    (h : Reached items start last ls (.complete op success ecode)) :
    (success → inclusions.inRange start last items ≠ [] ∧
      includedServices op = (inclusions.inRange start last items).map Included.found) ∧
    (success = false →
      inclusions.inRange start last items = [] ∧ ecode = errorAttributeNotFound ∨
        ecode = 0 ∧ ∃ r ∈ ls, r.sent = false) := by
  cases h with
  | complete h _ =>
    rcases h with hout | ⟨rfl,rfl,hsent⟩
    · cases hout with
      | found hh hn hu ecode => exact ⟨fun _ => ⟨hn,includes_found hu hh⟩,fun hf => (by cases hf)⟩
      | notFound hw => exact ⟨fun hs => (by cases hs),fun _ => .inl ⟨hw,rfl⟩⟩
    · exact ⟨fun hs => (by cases hs),fun _ => .inr ⟨rfl,hsent⟩⟩

theorem included_discovered (hl : inclusions.Laid items) (hcoh : Coherent items)
    (ha : machine.Along (compliant items) (begin start last) ls)
    (hr : machine.run (begin start last) ls = some t) :
    ls.length ≤ 2 * (inclusions.inRange start last items).length + 1 ∧
      ((∃ op success ecode, t = .complete op success ecode ∧
        (success → inclusions.inRange start last items ≠ [] ∧
          includedServices op = (inclusions.inRange start last items).map Included.found) ∧
        (success = false →
          inclusions.inRange start last items = [] ∧ ecode = errorAttributeNotFound ∨
            ecode = 0 ∧ ∃ r ∈ ls, r.sent = false) ∧
        (Cut (begin start last) ls → success = false ∧ ecode = 0)) ∨
      ∃ r u, accepting items t r ∧ machine.step t r = some u) := by
  have h := reached_run hl hcoh ha hr
  refine ⟨h.length,?_⟩
  rcases h.answerable hl hcoh with ⟨op,success,ecode,rfl⟩ | hmore
  · refine .inl ⟨op,success,ecode,rfl,h.ended.1,h.ended.2,fun hc => ?_⟩
    obtain ⟨op',he⟩ := hc.complete hr
    exact (Inclusion.complete.inj he).2
  · exact .inr hmore

def twoForms : List Included :=
  [⟨2,16,20,.uuid16 0x180f⟩,⟨3,30,40,.uuid128 ⟨List.replicate 16 0x5a,rfl⟩⟩]

def twoFormsAnswers : List Reply :=
  [reply [0x09,8,2,0,16,0,20,0,0x0f,0x18] true,reply [0x09,6,3,0,30,0,40,0] true,
    reply (0x0b :: List.replicate 16 0x5a) true,reply [0x01,0x08,4,0,0x0a] true]

theorem included_discovered_forms : ∃ op,
    machine.run (begin 1 11) twoFormsAnswers = some (.complete op true 0x0a) ∧
      twoFormsAnswers.length ≤ 2 * (inclusions.inRange 1 11 twoForms).length + 1 ∧
      includedServices op = twoForms.map Included.found := by
  have hl : inclusions.Laid twoForms := ⟨by decide,by decide⟩
  have hcoh : Coherent twoForms := by
    unfold Coherent
    decide
  have ha : machine.Along (compliant twoForms) (begin 1 11) twoFormsAnswers := by
    refine ⟨Listing.compliant_found inclusions twoForms _ [] ⟨2,16,20,.uuid16 0x180f⟩ _ 8 _ _ rfl
      (by decide) (by decide),fun t ht => ?_⟩
    cases ht
    refine ⟨Listing.compliant_found inclusions twoForms _ [] _ [] 6 _ _ rfl (by decide) (by decide),
      fun t ht => ?_⟩
    cases ht
    refine ⟨⟨⟨3,30,40,.uuid128 ⟨List.replicate 16 0x5a,rfl⟩⟩,by decide,by decide,by decide,rfl⟩,
      fun t ht => ?_⟩
    cases ht
    exact ⟨Listing.Answers.notFound rfl (by decide),fun _ _ => trivial⟩
  obtain ⟨hlen,⟨op,success,ecode,he,hfound,-,-⟩ | ⟨r,u,-,hs⟩⟩ :=
    included_discovered hl hcoh ha rfl
  · obtain ⟨rfl,rfl,rfl⟩ := Inclusion.complete.inj he
    exact ⟨_,rfl,hlen,(hfound rfl).2⟩
  · cases hs

end Inclusion

end Minipro.GattHelpers
