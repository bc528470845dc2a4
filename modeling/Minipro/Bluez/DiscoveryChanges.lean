import Minipro.Bluez.GattDbHeap
import Minipro.Bluez.ClientDiscovery

namespace Minipro.GattClient
open GattDb GattHelpers Keyed Transition

def Evolves : Db → Db → Prop := Relation.ReflTransGen Db.Change

variable {db t : Db} {a : Address} {curSvc : Option Address} {sent : Bool} {ecode : UInt8}
  {op : DiscoveryOp} {u v : Discovering} {r : Report}

theorem Evolves.announced (h : Evolves db t) (hf : db.Fresh) (hb : db.Balanced) :
    t.Fresh ∧ t.Balanced := by
  induction h with
  | refl => exact ⟨hf,hb⟩
  | tail _ hc ih => exact ⟨hc.fresh ih.1,hc.balanced ih.1 ih.2⟩

theorem evolves_clear (db : Db) : Evolves db db.clear := .single (.remove _ 0)

theorem evolves_clearRange (db : Db) (start last : UInt16) :
    Evolves db (db.clearRange start last) := by
  rw [Db.clearRange]
  split
  · exact .refl
  · exact .single (.remove _ db.nextHandle)

theorem amendCurrent_evolves {f : Service → Option (Attribute × Service)}
    (hf : ∀ s b r, f s = some (b,r) → ∃ l hl, r = s.append l hl) {x : Attribute}
    (h : amendCurrent db curSvc f = some (some (x,t))) : Evolves db t := by
  cases curSvc with
  | none => cases h
  | some a =>
    obtain ⟨s,hs,h⟩ := Option.map_eq_some_iff.mp h
    obtain ⟨r,hr,he⟩ := Option.map_eq_some_iff.mp h
    obtain ⟨l,hl,happ⟩ := hf s r.1 r.2 hr
    rw [← (Prod.mk.inj he).2,happ]
    exact .single (.append s (mem_of_find hs).1 l hl)

theorem characteristic_frame {handle : UInt16} {uuid : Uuid} {properties : UInt8} {s r : Service}
    {b : Attribute} (h : s.gattDbInsertCharacteristic handle uuid properties = some (b,r)) :
    ∃ l hl, r = s.append l hl := by
  rw [Service.gattDbInsertCharacteristic] at h
  split at h
  · cases h
  · exact Service.insertCharacteristic_frame h

theorem descriptor_frame {handle : UInt16} {uuid : Uuid} {s r : Service} {b : Attribute}
    (h : s.gattDbInsertDescriptor handle uuid = some (b,r)) : ∃ l hl, r = s.append l hl := by
  rw [Service.gattDbInsertDescriptor] at h
  split at h
  · cases h
  · exact Service.insertDescriptor_frame h

theorem addIncludes_evolves {is : List FoundIncluded} {b : Bool}
    (h : addIncludes curSvc db is = some (t,b)) : Evolves db t := by
  induction is generalizing db with
  | nil =>
    cases h
    exact .refl
  | cons i is ih =>
    rw [addIncludes] at h
    split at h
    next =>
      cases h
      exact .refl
    next included _ _ =>
      split at h
      next => cases h
      next =>
        cases h
        exact .refl
      next x v ha =>
        have hv := amendCurrent_evolves (fun s b r hr => Service.addIncluded_frame hr) ha
        split at h
        next =>
          cases h
          exact hv
        next => exact hv.trans (ih h)

theorem insertDescriptors_evolves {ds : List FoundDescriptor} {b : Bool}
    (h : insertDescriptors curSvc db ds = some (t,b)) : Evolves db t := by
  induction ds generalizing db with
  | nil =>
    cases h
    exact .refl
  | cons d ds ih =>
    rw [insertDescriptors] at h
    split at h
    next => cases h
    next =>
      cases h
      exact .refl
    next x v ha =>
      have hv := amendCurrent_evolves (fun s b r hr => descriptor_frame hr) ha
      split at h
      next =>
        cases h
        exact hv
      next => exact hv.trans (ih h)

theorem discoverDescs_evolves {cs pending : List FoundCharacteristic} {next : Descs}
    (h : discoverDescs curSvc sent db cs = some (t,pending,next)) : Evolves db t := by
  induction cs generalizing db with
  | nil =>
    cases h
    exact .refl
  | cons c cs ih =>
    rw [discoverDescs] at h
    split at h
    next => cases h
    next =>
      cases h
      exact .refl
    next x v ha =>
      have hv := amendCurrent_evolves (fun s b r hr => characteristic_frame hr) ha
      split at h
      next =>
        cases h
        exact hv
      next =>
        split at h
        next => exact hv.trans (ih h)
        next =>
          split at h
          next =>
            cases h
            exact hv
          next =>
            cases h
            exact hv

theorem activate_evolves (h : activate db curSvc = some t) : Evolves db t := by
  cases curSvc with
  | none =>
    cases h
    exact .refl
  | some a =>
    obtain ⟨s,hs,rfl⟩ := Option.map_eq_some_iff.mp h
    exact .single (.activate s (mem_of_find hs).1 true)

theorem storeService_evolves {primary : Bool} {found : FoundService} {b : Option Address}
    (h : storeService db primary found = (t,b)) : Evolves db t := by
  rw [storeService] at h
  split at h
  next hi =>
    cases h
    exact .single (Db.insertService_change hi)
  next =>
    have hc := evolves_clearRange db found.first found.last
    dsimp only at h
    split at h
    next hi =>
      cases h
      exact hc.tail (Db.insertService_change hi)
    next =>
      cases h
      exact hc

theorem storeServices_evolves {primary : Bool} {found : List FoundService}
    {pending more : List Address} {b : Bool}
    (h : storeServices primary db pending found = (t,more,b)) : Evolves db t := by
  induction found generalizing db pending with
  | nil =>
    cases h
    exact .refl
  | cons f fs ih =>
    rw [storeServices] at h
    split at h
    next hs =>
      cases h
      exact storeService_evolves hs
    next hs => exact (storeService_evolves hs).trans (ih h)

theorem nextIncluded_db (sent : Bool) (ecode : UInt8) (db : Db) (op : DiscoveryOp)
    (pending : List Address) : (nextIncluded sent ecode db op pending).db = db := by
  induction pending generalizing op with
  | nil =>
    rw [nextIncluded]
    split
    next => rfl
    next =>
      split
      next => rfl
      next => rfl
  | cons a pending ih =>
    rw [nextIncluded]
    split
    next => rfl
    next =>
      split
      next => exact ih _
      next => rfl

theorem nextService_evolves (sent : Bool) (ecode : UInt8) (op : DiscoveryOp) (db : Db)
    (pending : List Address) : Evolves db (nextService sent ecode op db pending).db := by
  induction pending generalizing db with
  | nil =>
    rw [nextService]
    split
    next => exact .refl
    next ha => exact activate_evolves ha
  | cons a pending ih =>
    rw [nextService]
    split
    next => exact .refl
    next t ha =>
      have ht := activate_evolves ha
      dsimp only
      split
      next => exact ht
      next =>
        split
        next => exact ht.trans (ih t)
        next => exact ht

theorem continueDescs_evolves (sent : Bool) (ecode : UInt8) (db : Db) (op : DiscoveryOp) :
    Evolves db (continueDescs sent ecode db op).db := by
  rw [continueDescs]
  split
  next => exact .refl
  next h => exact discoverDescs_evolves h
  next h => exact discoverDescs_evolves h
  next h => exact (discoverDescs_evolves h).trans (nextService_evolves _ _ _ _ _)

theorem discoverSecondary_db (sent success : Bool) (ecode : UInt8) (db : Db) (op : DiscoveryOp) :
    (discoverSecondary sent success ecode db op).db = db := by
  rw [discoverSecondary]
  split
  next => rfl
  next => rfl

theorem discoverIncluded_db (sent success : Bool) (ecode : UInt8) (db : Db) (op : DiscoveryOp) :
    (discoverIncluded sent success ecode db op).db = db := by
  rw [discoverIncluded]
  split
  next => rfl
  next =>
    dsimp only
    split
    next => rfl
    next => rfl

theorem discoverPrimaryCb_evolves (db : Db) (op : DiscoveryOp) (o : Outcome FoundService) :
    Evolves db (discoverPrimaryCb db op o).db := by
  rw [discoverPrimaryCb]
  split
  next =>
    rw [discoverSecondary_db]
    exact .refl
  next =>
    split
    next => exact .refl
    next =>
      split
      next h => exact storeServices_evolves h
      next h =>
        rw [discoverSecondary_db]
        exact storeServices_evolves h

theorem discoverSecondaryCb_evolves (db : Db) (op : DiscoveryOp) (o : Outcome FoundService) :
    Evolves db (discoverSecondaryCb db op o).db := by
  rw [discoverSecondaryCb]
  split
  next =>
    split
    next =>
      rw [discoverIncluded_db]
      exact .refl
    next => exact .refl
  next =>
    split
    next => exact .refl
    next =>
      split
      next h => exact storeServices_evolves h
      next h =>
        rw [discoverIncluded_db]
        exact storeServices_evolves h

theorem discoverInclCb_evolves (db : Db) (op : DiscoveryOp) (o : Outcome FoundIncluded) :
    Evolves db (discoverInclCb db op o).db := by
  rw [discoverInclCb]
  split
  next =>
    split
    next =>
      rw [nextIncluded_db]
      exact .refl
    next => exact .refl
  next =>
    split
    next =>
      split
      next => exact .refl
      next h => exact addIncludes_evolves h
      next h =>
        rw [nextIncluded_db]
        exact addIncludes_evolves h
    next => exact .refl

theorem discoverChrcsCb_evolves (db : Db) (op : DiscoveryOp) (o : Outcome FoundCharacteristic) :
    Evolves db (discoverChrcsCb db op o).db := by
  rw [discoverChrcsCb]
  split
  next =>
    split
    next => exact nextService_evolves _ _ _ _ _
    next => exact .refl
  next =>
    split
    next => exact continueDescs_evolves _ _ _ _
    next => exact .refl

theorem discoverDescsCb_evolves (db : Db) (op : DiscoveryOp) (o : Outcome FoundDescriptor) :
    Evolves db (discoverDescsCb db op o).db := by
  rw [discoverDescsCb]
  split
  next =>
    split
    next => exact continueDescs_evolves _ _ _ _
    next => exact .refl
  next =>
    split
    next =>
      split
      next => exact .refl
      next h => exact insertDescriptors_evolves h
      next h => exact (insertDescriptors_evolves h).trans (continueDescs_evolves _ _ _ _)
    next => exact .refl

theorem step_evolves (h : u.step r = some v) : Evolves u.db v.db := by
  simp only [Discovering.step] at h
  split at h
  next => exact Option.some.inj h ▸ discoverPrimaryCb_evolves _ _ _
  next => exact Option.some.inj h ▸ discoverSecondaryCb_evolves _ _ _
  next => exact Option.some.inj h ▸ discoverInclCb_evolves _ _ _
  next => exact Option.some.inj h ▸ discoverChrcsCb_evolves _ _ _
  next => exact Option.some.inj h ▸ discoverDescsCb_evolves _ _ _
  next => cases h

end Minipro.GattClient
