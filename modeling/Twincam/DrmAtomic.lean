import Twincam.Drm
import Twincam.Lib.Search

/-!
# Atomic requests are all or nothing (`AtomicRequest` in `drm.cpp`)

The sink ignores the result of every `addProperty` and looks at the result of the commit only.  That is enough, since
the first addition that fails makes the request invalid for good:

* `AddsAll` says that the allocation and every addition succeeded, by the results the calls returned, and is the same
  as `Accepts`, which is about the names and about libdrm;
* `Records` says which entry of a request stands for a change, and `addProperties_records` that a request whose
  additions succeeded holds one such entry for every change, in call order;
* `all_or_nothing` puts them together for any list of calls and the commit after them.
-/

namespace Twincam

namespace DRM

open Search (First)

namespace Object

/-- The property object behind a value of an object has the name. -/
def Named (dev : Device) (name : String) (pv : PropertyValue) : Prop :=
  ∃ prop, dev.propertyObject pv.id_ = some prop ∧ prop.name_ = name

/-- `Object::property` looks for the first value of the object whose property has the name. -/
private theorem property_eq_some_iff {dev : Device} {object : Object} {name : String} {prop : Property} :
    object.property dev name = some prop ↔
      ∃ pv, First (Named dev name) object.properties_ pv ∧ dev.propertyObject pv.id_ = some prop := by
  have hnone : ∀ pv : PropertyValue, (dev.propertyObject pv.id_).filter (·.name_ = name) = none ↔
      ¬Named dev name pv := by
    intro pv
    simp [Option.filter_eq_none_iff, Named]
  rw [property, List.findSome?_eq_some_iff]
  constructor
  · rintro ⟨before, pv, after, hsplit, hhit, hbefore⟩
    obtain ⟨hprop, hname⟩ := Option.filter_eq_some_iff.1 hhit
    refine ⟨pv, ⟨before, after, hsplit, ⟨prop, hprop, by simpa using hname⟩, ?_⟩, hprop⟩
    exact fun other hmem => (hnone other).1 (hbefore other hmem)
  · rintro ⟨pv, ⟨before, after, hsplit, ⟨prop', hprop', hname⟩, hbefore⟩, hprop⟩
    obtain rfl : prop' = prop := Option.some.inj (hprop'.symm.trans hprop)
    refine ⟨before, pv, after, hsplit, ?_, fun other hmem => (hnone other).2 (hbefore other hmem)⟩
    exact Option.filter_eq_some_iff.2 ⟨hprop, by simpa using hname⟩

end Object

namespace AtomicRequest

variable {dev : Device} {calls : AtomicCalls}

/-- The results of the calls of `addProperty`, in call order. -/
def addPropertyResults (r : AtomicRequest) (dev : Device) (calls : AtomicCalls) : List Change → List Int
  | [] => []
  | c :: changes =>
    (r.addProperty dev calls c.1 c.2.1 c.2.2).1 ::
      (r.addProperty dev calls c.1 c.2.1 c.2.2).2.addPropertyResults dev calls changes

/-- The allocation and every call of `addProperty` succeeded. -/
def AddsAll (dev : Device) (calls : AtomicCalls) (changes : List Change) : Prop :=
  calls.alloc = true ∧ ∀ ret ∈ (new calls).addPropertyResults dev calls changes, ret = 0

instance (dev : Device) (calls : AtomicCalls) (changes : List Change) : Decidable (AddsAll dev calls changes) :=
  inferInstanceAs (Decidable (_ ∧ _))

/-- The entry of a request that stands for a change: the id of the object, that of its first property with the name,
and the value. -/
def Records (dev : Device) (change : Change) (entry : AtomicProperty) : Prop :=
  entry.object = change.1.id_ ∧ entry.value = change.2.2 ∧
    ∃ pv prop, First (Object.Named dev change.2.1) change.1.properties_ pv ∧
      dev.propertyObject pv.id_ = some prop ∧ entry.property = prop.id_

/-! ### One addition -/

/-- All that `addProperty` can do: refuse on an invalid request, fail and make the request invalid, or add the entry
of the change. -/
private theorem addProperty_cases (r : AtomicRequest) (dev : Device) (calls : AtomicCalls) (c : Change) :
    (r.valid_ = false ∧ r.addProperty dev calls c.1 c.2.1 c.2.2 = (-EINVAL, r)) ∨
    (r.valid_ = true ∧ ∃ ret, ret < 0 ∧
      r.addProperty dev calls c.1 c.2.1 c.2.2 = (ret, { r with valid_ := false })) ∨
    (r.valid_ = true ∧ ∃ entry, Records dev c entry ∧
      r.addProperty dev calls c.1 c.2.1 c.2.2 = (0, { r with request_ := some (r.request_.getD [] ++ [entry]) })) := by
  cases hv : r.valid_ with
  | false => exact Or.inl ⟨rfl, addProperty_of_invalid hv dev calls c⟩
  | true =>
    right
    cases hp : c.1.property dev c.2.1 with
    | none => exact Or.inl ⟨rfl, -EINVAL, by decide, by simp [addProperty, hv, hp]⟩
    | some prop =>
      obtain ⟨pv, hfirst, hprop⟩ := Object.property_eq_some_iff.1 hp
      by_cases hadd : calls.addProperty (r.request_.getD []).length < 0
      · exact Or.inl ⟨rfl, _, hadd, by simp [addProperty, addPropertyId, hv, hp, hadd]⟩
      · refine Or.inr ⟨rfl, ⟨c.1.id_, prop.id_, c.2.2⟩, ⟨rfl, rfl, pv, prop, hfirst, hprop, rfl⟩, ?_⟩
        simp [addProperty, addPropertyId, hv, hp, hadd]

/-- The request stays valid exactly when the addition returned success. -/
private theorem addProperty_valid_iff (r : AtomicRequest) (dev : Device) (calls : AtomicCalls) (c : Change) :
    (r.addProperty dev calls c.1 c.2.1 c.2.2).2.valid_ = true ↔
      (r.addProperty dev calls c.1 c.2.1 c.2.2).1 = 0 := by
  rcases r.addProperty_cases dev calls c with ⟨hv, heq⟩ | ⟨-, ret, hret, heq⟩ | ⟨hv, entry, -, heq⟩
  · rw [heq]; simp [hv, EINVAL]
  · rw [heq]; simp; omega
  · rw [heq]; simp [hv]

/-! ### A list of additions -/

private theorem valid_of_addProperties {r : AtomicRequest} {changes : List Change}
    (h : (r.addProperties dev calls changes).valid_ = true) : r.valid_ = true := by
  by_contra hv
  rw [Bool.not_eq_true] at hv
  rw [addProperties_of_invalid hv, hv] at h
  cases h

/-- The request is valid at the end exactly when it was at the start and every call returned success. -/
private theorem addProperties_valid_iff_results (r : AtomicRequest) (changes : List Change) :
    (r.addProperties dev calls changes).valid_ = true ↔
      r.valid_ = true ∧ ∀ ret ∈ r.addPropertyResults dev calls changes, ret = 0 := by
  induction changes generalizing r with
  | nil => simp [addProperties, addPropertyResults]
  | cons c changes ih =>
    rw [addProperties_cons, ih, addProperty_valid_iff, addPropertyResults, List.forall_mem_cons]
    constructor
    · intro h
      obtain ⟨hret, hrest⟩ := h
      refine ⟨?_, hret, hrest⟩
      by_contra hv
      rw [Bool.not_eq_true] at hv
      rw [addProperty_of_invalid hv] at hret
      simp [EINVAL] at hret
    · intro h
      exact h.2

/-- A request whose additions all succeeded holds their entries after those it had, in call order. -/
private theorem addProperties_records_from {r : AtomicRequest} {l : List AtomicProperty} {changes : List Change}
    (hr : r.request_ = some l) (h : (r.addProperties dev calls changes).valid_ = true) :
    ∃ entries, (r.addProperties dev calls changes).request_ = some (l ++ entries) ∧
      List.Forall₂ (Records dev) changes entries := by
  induction changes generalizing r l with
  | nil => exact ⟨[], by simpa [addProperties] using hr, .nil⟩
  | cons c changes ih =>
    rw [addProperties_cons] at h ⊢
    rcases r.addProperty_cases dev calls c with ⟨hv, heq⟩ | ⟨-, ret, -, heq⟩ | ⟨-, entry, hentry, heq⟩
    · rw [heq] at h
      exact absurd (valid_of_addProperties h) (by simp [hv])
    · rw [heq] at h
      exact absurd (valid_of_addProperties h) (by simp)
    · rw [heq] at h ⊢
      obtain ⟨entries, hentries, hrecords⟩ := ih (l := l ++ [entry]) (by simp [hr]) h
      exact ⟨entry :: entries, by simpa using hentries, .cons hentry hrecords⟩

/-- A valid request built from a list of changes holds exactly their entries, in call order. -/
theorem addProperties_records {changes : List Change}
    (h : ((new calls).addProperties dev calls changes).valid_ = true) :
    ∃ entries, ((new calls).addProperties dev calls changes).request_ = some entries ∧
      List.Forall₂ (Records dev) changes entries := by
  have halloc : calls.alloc = true := by
    have hnew := valid_of_addProperties h
    by_contra ha
    simp [new, ha] at hnew
  have hnew : (new calls).request_ = some [] := by simp [new, halloc]
  simpa using addProperties_records_from hnew h

private theorem addProperties_valid_iff_addsAll (dev : Device) (calls : AtomicCalls) (changes : List Change) :
    ((new calls).addProperties dev calls changes).valid_ = true ↔ AddsAll dev calls changes := by
  have halloc : (new calls).valid_ = true ↔ calls.alloc = true := by
    by_cases ha : calls.alloc = true <;> simp [new, ha]
  rw [addProperties_valid_iff_results, halloc, AddsAll]

/-- The calls all return success when libdrm accepts what they ask for. -/
private theorem addsAll_iff_accepts (dev : Device) (calls : AtomicCalls) (changes : List Change) :
    AddsAll dev calls changes ↔ Accepts dev calls changes :=
  (addProperties_valid_iff_addsAll dev calls changes).symm.trans (addProperties_valid dev calls changes)

/-- For any calls of `addProperty` and the commit after them, with any failures: the kernel is reached exactly when the
allocation and all the calls succeeded, with a request that holds exactly their entries; they succeed when every name is
known and libdrm takes every entry.  Otherwise the commit returns `EINVAL`, and every call after the first failure
returned `EINVAL` and left the request as it was. -/
theorem all_or_nothing (dev : Device) (calls : AtomicCalls) (changes : List Change) (flags : UInt32) :
    let r := (new calls).addProperties dev calls changes
    ((r.commit calls flags).2.isSome ↔ AddsAll dev calls changes) ∧
      (AddsAll dev calls changes ↔ Accepts dev calls changes) ∧
      (AddsAll dev calls changes →
        r.commit calls flags = (calls.commit, some ⟨r, drmFlags flags, calls.commit⟩) ∧
          ∃ entries, r.request_ = some entries ∧ List.Forall₂ (Records dev) changes entries) ∧
      (¬AddsAll dev calls changes → r.commit calls flags = (-EINVAL, none)) ∧
      ∀ before c after, changes = before ++ c :: after → ¬AddsAll dev calls before →
        ((new calls).addProperties dev calls before).addProperty dev calls c.1 c.2.1 c.2.2 =
          (-EINVAL, (new calls).addProperties dev calls before) := by
  intro r
  have hvalid : ∀ l, ((new calls).addProperties dev calls l).valid_ = true ↔ AddsAll dev calls l :=
    addProperties_valid_iff_addsAll dev calls
  refine ⟨?_, addsAll_iff_accepts dev calls changes, ?_, ?_, ?_⟩
  · rw [← hvalid]
    cases hv : r.valid_ <;> simp [commit, hv]
  · intro hall
    have hv : r.valid_ = true := (hvalid changes).2 hall
    exact ⟨by simp [commit, hv], addProperties_records hv⟩
  · intro hfail
    have hv : r.valid_ = false := by
      rw [← Bool.not_eq_true]
      exact fun h => hfail ((hvalid changes).1 h)
    simp [commit, hv]
  · intro before c after _ hfail
    have hv : ((new calls).addProperties dev calls before).valid_ = false := by
      rw [← Bool.not_eq_true]
      exact fun h => hfail ((hvalid before).1 h)
    exact addProperty_of_invalid hv dev calls c

end AtomicRequest

end DRM

end Twincam
