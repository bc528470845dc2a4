import Minipro.Bluez.GattDbOrder

namespace Minipro.GattDb
open Sweep Transition Keyed

namespace Db
variable {db t : Db} {a : Address} {s r : Service} {p : Service → Bool} {op : Operation}

structure Fresh (db : Db) : Prop where
  below : ∀ s ∈ db.services, s.address < db.allocated
  distinct : Distinct Service.address db.services

theorem fresh_new : new.Fresh := ⟨by simp [new],List.nodup_nil⟩

theorem Fresh.find_mem (h : db.Fresh) (hs : s ∈ db.services) : db.find s.address = some s :=
  h.distinct.find_mem hs

theorem Fresh.replace (h : db.Fresh) (t : Service) : (db.replace t).Fresh := by
  refine ⟨fun s hs => ?_,h.distinct.replace t⟩
  have hm := List.mem_map_of_mem (f := Service.address) hs
  rw [Db.replace,replace_keys] at hm
  obtain ⟨r,hr,ha⟩ := List.mem_map.mp hm
  exact ha ▸ h.below r hr

theorem Fresh.destroy (h : db.Fresh) (p : Service → Bool) : (db.destroy p).Fresh :=
  ⟨fun s hs => h.below s (List.mem_of_mem_filter hs),h.distinct.filter _⟩

theorem replace_find (db : Db) (t : Service) (a : Address) :
    (db.replace t).find a = if a = t.address then (db.find a).map fun _ => t else db.find a :=
  find_replace t db.services a

theorem Fresh.destroy_find (h : db.Fresh) (p : Service → Bool) (a : Address) :
    (db.destroy p).find a = (db.find a).filter fun s => ¬ p s :=
  h.distinct.find_filter _ a

theorem Fresh.unused (h : db.Fresh) : ∀ s ∈ db.services, s.address ≠ db.allocated :=
  fun s hs => (h.below s hs).ne

theorem setActive_find (hf : db.Fresh) (hs : s ∈ db.services) (active : Bool) (a : Address) :
    (db.setActive s active).find a =
      if a = s.address then some (s.setActive active) else db.find a := by
  simp only [setActive]
  split
  next h =>
    split
    next ha =>
      rw [ha,hf.find_mem hs,Service.setActive,← h]
    next => rfl
  next =>
    refine (replace_find db (s.setActive active) a).trans ?_
    rw [show (s.setActive active).address = s.address from rfl]
    split
    next ha =>
      rw [ha,hf.find_mem hs]
      rfl
    next => rfl

structure Inserts (db t : Db) (n : Service) (front back : List Service) : Prop where
  before : db.services = front ++ back
  after : t.services = front ++ n :: back
  address : n.address = db.allocated
  inactive : n.active = false
  allocated : t.allocated = db.allocated + 1
  notices : t.notices = db.notices

variable {n : Service} {front back : List Service}

theorem Inserts.mem_iff (h : Inserts db t n front back) : s ∈ t.services ↔ s = n ∨ s ∈ db.services := by
  rw [h.after,h.before]
  simp only [List.mem_append,List.mem_cons]
  tauto

theorem Inserts.fresh (h : Inserts db t n front back) (hf : db.Fresh) : t.Fresh := by
  refine ⟨fun s hs => ?_,?_⟩
  · rw [h.allocated]
    rcases h.mem_iff.mp hs with rfl | hs
    · rw [h.address]
      exact Nat.lt_succ_self _
    · exact Nat.lt_succ_of_lt (hf.below s hs)
  · rw [h.after]
    refine Distinct.insert_iff.mpr ⟨?_,h.before ▸ hf.distinct⟩
    rw [← h.before,h.address]
    exact hf.unused

theorem Inserts.find (h : Inserts db t n front back) (hf : db.Fresh) (a : Address) :
    t.find a = if a = db.allocated then some n else db.find a := by
  have hd := (h.fresh hf).distinct
  rw [h.after] at hd
  rw [Db.find,Db.find,h.after,h.before,hd.find_insert,h.address]

inductive Change (db : Db) : Db → Prop where
  | unchanged : Change db db
  | insert (t : Db) (n : Service) (front back : List Service) (h : Inserts db t n front back) :
      Change db t
  | remove (p : Service → Bool) (next : UInt16) :
      Change db { db.destroy p with nextHandle := next }
  | append (s : Service) (hs : s ∈ db.services) (l : List Attribute)
      (hf : s.attributes.length + l.length < s.numHandles.toNat) :
      Change db (db.replace (s.append l hf))
  | activate (s : Service) (hs : s ∈ db.services) (active : Bool) : Change db (db.setActive s active)

theorem insertService_inserts {handle numHandles : UInt16} {u : Uuid} {primary : Bool}
    (h : db.insertService handle u primary numHandles = some (a,t)) :
    (∃ s ∈ db.services, describes s handle u primary numHandles ∧ a = s.address ∧ t = db) ∨
    ∃ n front back, Inserts db t n front back ∧ a = db.allocated ∧ n.start = handle ∧
      n.numHandles = numHandles := by
  rcases insertService_cases h with hex | ⟨hp,hn,he,front,back,hg,rfl,rfl⟩
  · exact .inl hex
  · exact .inr ⟨Service.create db.allocated u handle primary numHandles hp hn he,front,back,
      ⟨(findInsertLoc_gap hg).1,rfl,rfl,rfl,rfl,rfl⟩,rfl,rfl,rfl⟩

theorem insertService_change {handle numHandles : UInt16} {u : Uuid} {primary : Bool}
    (h : db.insertService handle u primary numHandles = some (a,t)) : Change db t := by
  rcases insertService_inserts h with ⟨s,_,_,_,rfl⟩ | ⟨n,front,back,hins,_⟩
  · exact .unchanged
  · exact .insert t n front back hins

theorem amend_append {f : Service → Option (Attribute × Service)}
    (hf : ∀ s b r, f s = some (b,r) → ∃ l hl, r = s.append l hl)
    (h : db.amend a f = some t) :
    t = db ∨ ∃ s ∈ db.services, ∃ l hl, t = db.replace (s.append l hl) := by
  obtain ⟨s,hs,rfl⟩ := Option.map_eq_some_iff.mp h
  cases hr : f s with
  | none => exact .inl rfl
  | some r =>
    obtain ⟨l,hl,he⟩ := hf s r.1 r.2 hr
    exact .inr ⟨s,(mem_of_find hs).1,l,hl,by rw [Option.elim_some,he]⟩

theorem amend_change {f : Service → Option (Attribute × Service)}
    (hf : ∀ s b r, f s = some (b,r) → ∃ l hl, r = s.append l hl)
    (h : db.amend a f = some t) : Change db t := by
  rcases amend_append hf h with rfl | ⟨s,hs,l,hl,rfl⟩
  · exact .unchanged
  · exact .append s hs l hl

theorem step_change (h : db.step op = some t) : Change db t := by
  cases op with
  | insertService handle uuid primary numHandles =>
    cases h
    cases hi : db.insertService handle uuid primary numHandles with
    | none => exact .unchanged
    | some r => exact insertService_change (a := r.1) hi
  | removeService a =>
    obtain ⟨s,_,rfl⟩ := Option.map_eq_some_iff.mp h
    exact .remove _ db.nextHandle
  | clear =>
    cases h
    exact .remove _ 0
  | clearRange start last =>
    cases h
    simp only [clearRange]
    split
    · exact .unchanged
    · exact .remove _ db.nextHandle
  | setActive a active =>
    obtain ⟨s,hs,rfl⟩ := Option.map_eq_some_iff.mp h
    exact .activate s (mem_of_find hs).1 active
  | insertCharacteristic a handle uuid properties =>
    exact amend_change (fun s b r hr => Service.insertCharacteristic_frame hr) h
  | insertDescriptor a handle uuid =>
    exact amend_change (fun s b r hr => Service.insertDescriptor_frame hr) h
  | addIncluded a b =>
    obtain ⟨included,_,h⟩ := Option.bind_eq_some_iff.mp h
    exact amend_change (fun s b r hr => Service.addIncluded_frame hr) h

theorem Change.fresh (h : Change db t) (hf : db.Fresh) : t.Fresh := by
  cases h with
  | unchanged => exact hf
  | insert t n front back h => exact h.fresh hf
  | remove p next => exact ⟨(hf.destroy p).below,(hf.destroy p).distinct⟩
  | append s hs l hl => exact hf.replace _
  | activate s hs active =>
    simp only [setActive]
    split
    · exact hf
    · exact ⟨(hf.replace _).below,(hf.replace _).distinct⟩

def stands (db : Db) (a : Address) : Nat := if (db.find a).any Service.active then 1 else 0

def Balanced (db : Db) : Prop := ∀ a,
  db.notices.count (.serviceAdded a) = db.notices.count (.serviceRemoved a) + db.stands a

theorem removed_count (ss : List Service) (a : Address) :
    (removed ss).count (.serviceAdded a) = 0 ∧
    (removed ss).count (.serviceRemoved a) = ss.countP fun s => s.active ∧ s.address = a := by
  induction ss with
  | nil => exact ⟨rfl,rfl⟩
  | cons s ss ih =>
    simp only [removed] at ih ⊢
    cases hs : s.active with
    | false => simpa [hs] using ih
    | true =>
      rcases eq_or_ne s.address a with rfl | ha
      · simpa [hs] using ih
      · simpa [hs,ha] using ih

theorem Fresh.removed_count (hf : db.Fresh) (p : Service → Bool) (a : Address) :
    (removed (db.services.filter p)).count (.serviceRemoved a) =
      if (db.find a).any fun s => p s ∧ s.active then 1 else 0 := by
  rw [(Db.removed_count _ a).2,List.countP_filter,find,← countP_of_distinct hf.distinct]
  apply List.countP_congr
  intro s _
  simp only [Bool.and_eq_true,decide_eq_true_eq]
  tauto

theorem stands_destroy (hf : db.Fresh) (p : Service → Bool) (a : Address) :
    db.stands a = (db.destroy p).stands a +
      if (db.find a).any fun s => p s ∧ s.active then 1 else 0 := by
  simp only [stands,hf.destroy_find]
  cases db.find a with
  | none => rfl
  | some s => cases hp : p s <;> cases s.active <;> simp [Option.filter,hp]

theorem balanced_destroy (hf : db.Fresh) (hb : db.Balanced) (p : Service → Bool) :
    (db.destroy p).Balanced := by
  intro a
  have h := hb a
  rw [stands_destroy hf p] at h
  simp only [destroy,List.count_append,(Db.removed_count _ a).1,hf.removed_count p a]
  simp only [destroy] at h
  omega

theorem Change.balanced (h : Change db t) (hf : db.Fresh) (hb : db.Balanced) : t.Balanced := by
  cases h with
  | unchanged => exact hb
  | insert t n front back h =>
    intro a
    have ha := hb a
    simp only [stands,h.notices,h.find hf]
    split
    next he =>
      have hn : db.find a = none := by
        rw [find,he]
        exact find_none_iff.mpr hf.unused
      simpa [stands,hn,h.inactive] using ha
    next => exact ha
  | remove p next => exact balanced_destroy hf hb p
  | append s hs l hl =>
    intro a
    have ha := hb a
    simp only [stands,replace_find] at ha ⊢
    split
    next he =>
      have hsa : db.find a = some s := he ▸ hf.find_mem hs
      rw [hsa] at ha ⊢
      exact ha
    next => exact ha
  | activate s hs active =>
    intro a
    have ha := hb a
    simp only [stands,setActive_find hf hs] at ha ⊢
    rcases eq_or_ne s.active active with he | hne
    · rw [setActive,if_pos he]
      split
      next hsa =>
        rw [hsa,hf.find_mem hs] at ha
        rw [hsa,ha,Option.any_some,Option.any_some,he]
        rfl
      next => exact ha
    · simp only [setActive,if_neg hne,List.count_append]
      rcases eq_or_ne a s.address with rfl | hna
      · rw [hf.find_mem hs] at ha
        cases active <;> simp_all [Service.setActive]
      · cases active <;> simpa [hna,hna.symm] using ha

theorem services_announced {ls : List Operation} (hr : machine.run new ls = some t) (a : Address) :
    t.notices.count (.serviceAdded a) = t.notices.count (.serviceRemoved a) + t.stands a :=
  (machine.run_invariant (fun db => db.Fresh ∧ db.Balanced)
    (fun _ _ _ h hs => ⟨(step_change hs).fresh h.1,(step_change hs).balanced h.1 h.2⟩)
    ⟨fresh_new,fun _ => rfl⟩ hr).2 a

theorem services_announced_cleared :
    let ls := [.insertService 1 (.uuid16 0x1800) true 5,.setActive 0 true,
      .insertService 8 (.uuid16 0x1801) true 2,.clearRange 4 7]
    ∃ t, machine.run new ls = some t ∧ t.notices = [.serviceAdded 0,.serviceRemoved 0] ∧
      t.notices.count (.serviceAdded 0) = t.notices.count (.serviceRemoved 0) + t.stands 0 := by
  intro ls
  obtain ⟨t,ht⟩ := Option.isSome_iff_exists.mp (by decide : (machine.run new ls).isSome)
  have hn : (machine.run new ls).map Db.notices = some [.serviceAdded 0,.serviceRemoved 0] := by
    decide
  rw [ht] at hn
  exact ⟨t,ht,Option.some.inj hn,services_announced ht 0⟩

theorem Ordered.holding_unique (h : db.Ordered) (hs : s ∈ db.services) (hr : r ∈ db.services)
    {n : Nat} (hs1 : s.start.toNat ≤ n) (hs2 : n ≤ s.last.toNat) (hr1 : r.start.toNat ≤ n)
    (hr2 : n ≤ r.last.toNat) : s = r := by
  have h1 := h.find_holding (e := extent) hs hs1 hs2
  rw [h.find_holding (e := extent) hr hr1 hr2] at h1
  exact (Option.some.inj h1).symm

def EnclosesNone (db : Db) : Operation → Prop
  | .insertService handle uuid primary numHandles =>
      (db.insertService handle uuid primary numHandles).isSome →
        ∀ s ∈ db.services, ¬ Encloses handle numHandles s
  | _ => True

theorem Ordered.described {handle numHandles : UInt16} {u : Uuid} {primary : Bool}
    (h : db.Ordered) (hs : s ∈ db.services) (hd : describes s handle u primary numHandles) :
    ∀ r ∈ db.services, ¬ Encloses handle numHandles r := by
  rintro r hr ⟨h1,h2⟩
  simp only [describes,decide_eq_true_eq] at hd
  obtain ⟨_,_,rfl,rfl⟩ := hd
  have hlast := s.last_toNat
  have hle := r.start_le_last
  rw [UInt16.lt_iff_toNat_lt] at h1
  have he := h.holding_unique hs hr (n := r.start.toNat) h1.le (by omega) le_rfl hle
  rw [he] at h1
  exact lt_irrefl _ h1

theorem ordered_destroy (h : db.Ordered) (p : Service → Bool) : (db.destroy p).Ordered :=
  Extent.Laid.sublist h List.filter_sublist

theorem ordered_replace (hf : db.Fresh) (h : db.Ordered) (hs : s ∈ db.services)
    (ha : r.address = s.address) (h1 : r.start = s.start) (h2 : r.last = s.last) :
    (db.replace r).Ordered := by
  refine Extent.Laid.map h ?_ ?_
  all_goals
    intro x hx
    split
    next hxa =>
      rw [hf.distinct.unique hx hs (hxa.trans ha)]
      simp only [extent,h1,h2]
    next => rfl

theorem ordered_amend (hf : db.Fresh) (h : db.Ordered)
    {f : Service → Option (Attribute × Service)}
    (hl : ∀ s b r, f s = some (b,r) → ∃ l hl, r = s.append l hl)
    (ht : db.amend a f = some t) : t.Ordered := by
  rcases amend_append hl ht with rfl | ⟨s,hs,l,hl,rfl⟩
  · exact h
  · exact ordered_replace hf h hs rfl rfl rfl

theorem ordered_step (hf : db.Fresh) (h : db.Ordered) (hs : db.step op = some t) :
    t.Ordered ↔ EnclosesNone db op := by
  cases op with
  | insertService handle uuid primary numHandles =>
    cases hs
    simp only [EnclosesNone]
    cases hi : db.insertService handle uuid primary numHandles with
    | none => simpa using h
    | some r =>
      obtain ⟨a,t⟩ := r
      simp only [Option.elim_some,Option.isSome_some,forall_const]
      rw [ordered_insert_iff h hi]
      refine ⟨fun hor => hor.elim (fun he => ?_) id,.inr⟩
      rcases insertService_cases hi with ⟨s,hs,hd,_,_⟩ | ⟨_,_,_,_,_,_,_,ht⟩
      · exact h.described hs hd
      · rw [ht] at he
        have := congrArg Db.allocated he
        simp at this
  | removeService a =>
    obtain ⟨s,_,rfl⟩ := Option.map_eq_some_iff.mp hs
    exact iff_of_true (ordered_destroy h _) trivial
  | clear =>
    cases hs
    exact iff_of_true (ordered_destroy h _) trivial
  | clearRange start last =>
    cases hs
    refine iff_of_true ?_ trivial
    simp only [clearRange]
    split
    · exact h
    · exact ordered_destroy h _
  | setActive a active =>
    obtain ⟨s,hf',rfl⟩ := Option.map_eq_some_iff.mp hs
    refine iff_of_true ?_ trivial
    simp only [setActive]
    split
    · exact h
    · exact ordered_replace hf h (mem_of_find hf').1 rfl rfl rfl
  | insertCharacteristic a handle uuid properties =>
    exact iff_of_true (ordered_amend hf h (fun _ _ _ => Service.insertCharacteristic_frame) hs) trivial
  | insertDescriptor a handle uuid =>
    exact iff_of_true (ordered_amend hf h (fun _ _ _ => Service.insertDescriptor_frame) hs) trivial
  | addIncluded a b =>
    obtain ⟨included,_,hs⟩ := Option.bind_eq_some_iff.mp hs
    exact iff_of_true (ordered_amend hf h (fun _ _ _ => Service.addIncluded_frame) hs) trivial

theorem services_disjoint_iff {ls : List Operation} (hr : machine.run new ls = some t) :
    machine.Always Ordered new ls ↔ machine.Along EnclosesNone new ls := by
  have h0 : new.Fresh ∧ new.Ordered := ⟨fresh_new,⟨by simp [new],List.Pairwise.nil⟩⟩
  constructor
  · intro h
    have hboth : machine.Always (fun db => db.Fresh → db.Ordered) new ls :=
      fun ms u hm hu _ => h ms u hm hu
    refine machine.along_of_always (fun db => db.Fresh ∧ db.Ordered)
      (fun db => db.Fresh → db.Ordered) EnclosesNone ?_ ?_ h0 hr hboth
    · rintro s op t ⟨hf,ho⟩ ok hs
      exact ⟨(step_change hs).fresh hf,(ordered_step hf ho hs).mpr ok⟩
    · rintro s op t ⟨hf,ho⟩ hn hs hall
      exact hn ((ordered_step hf ho hs).mp (hall ((step_change hs).fresh hf)))
  · intro h ms u hm hu
    refine (machine.along_invariant (fun db => db.Fresh ∧ db.Ordered) EnclosesNone ?_ h0
      (machine.along_of_prefix EnclosesNone h hm) hu).2
    rintro s op t ⟨hf,ho⟩ ok hs
    exact ⟨(step_change hs).fresh hf,(ordered_step hf ho hs).mpr ok⟩

theorem services_disjoint_enclosed :
    let ls := [.insertService 5 (.uuid16 0x1800) true 2,.insertService 1 (.uuid16 0x1801) true 10]
    ¬ machine.Always Ordered new ls ∧ machine.Always Ordered new [ls.head (by simp [ls])] := by
  intro ls
  obtain ⟨t,ht⟩ := Option.isSome_iff_exists.mp (by decide : (machine.run new ls).isSome)
  constructor
  · intro h
    have ha := ((services_disjoint_iff ht).mp h).2 _ rfl
    exact ha.1 (by decide) _ List.mem_cons_self ⟨by decide,by decide⟩
  · refine (services_disjoint_iff rfl).mpr ⟨fun _ s hs => ?_,fun _ _ => trivial⟩
    simp [new] at hs

end Db
end Minipro.GattDb
