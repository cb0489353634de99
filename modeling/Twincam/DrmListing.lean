import Twincam.DrmResources
import Mathlib.Data.List.Find
import Mathlib.Data.Nat.Bitwise

/-!
# The device that a listing makes

`Device::getResources` turns the resources the kernel lists into objects that refer to each other by position, and
enters all of them into one table by id.  `Represents` says what can be read off the device again in terms of the
listing, and `represents_of_getResources` that a well-formed listing is represented.

The proof follows the source: the loops over the four kinds of resources (`graph_eq`), the table (`getElem?_table`),
the properties (`propertyObject_createProperties`) and the delayed setup of the planes (`foldlM_setup`).
-/

namespace Twincam

namespace DRM

/-- The raw resources, each in the order in which the kernel lists it. -/
structure Listing where
  crtcs : List DrmModeCrtc
  encoders : List DrmModeEncoder
  connectors : List DrmModeConnector
  planes : List DrmModePlane

/-- The listing of a kernel that answers every call for a resource. -/
def Kernel.listing (k : Kernel) : Except Errno Listing := do
  let resources ← k.drmModeGetResources
  let crtcs ← resources.crtcs.mapM k.drmModeGetCrtc
  let encoders ← resources.encoders.mapM k.drmModeGetEncoder
  let connectors ← resources.connectors.mapM k.drmModeGetConnector
  let planeIds ← k.drmModeGetPlaneResources
  let planes ← planeIds.mapM k.drmModeGetPlane
  pure ⟨crtcs, encoders, connectors, planes⟩

/-- The ids of all listed objects. -/
def Listing.ids (l : Listing) : List UInt32 :=
  l.crtcs.map (·.crtc_id) ++ (l.encoders.map (·.encoder_id) ++
    (l.connectors.map (·.connector_id) ++ l.planes.map (·.plane_id)))

/-- Ids are unique, those of properties included, a property comes with the id it was asked for under, there are as
many CRTCs as a mask has bits, and no plane lists the format `0`. -/
structure Kernel.WellFormed (k : Kernel) (l : Listing) : Prop where
  ids_nodup : l.ids.Nodup
  property_id : ∀ id property, k.drmModeGetProperty id = .ok property → property.prop_id = id
  property_new : ∀ id property, k.drmModeGetProperty id = .ok property → id ∉ l.ids
  crtcs_le : l.crtcs.length ≤ 32
  formats_ne : ∀ plane ∈ l.planes, 0 ∉ plane.formats

namespace Device

/-- The device after the listing, before its properties are created. -/
def graph (k : Kernel) (l : Listing) : Device :=
  setPossiblePlanesForEachCRTC <| l.planes.foldl (addPlane k) <| l.connectors.foldl (addConnector k) <|
    l.encoders.foldl (addEncoder k) <| l.crtcs.foldl (addCrtc k) empty

private theorem bind_eq_ok {ε α β : Type} {x : Except ε α} {f : α → Except ε β} {b : β} :
    (x >>= f) = .ok b ↔ ∃ a, x = .ok a ∧ f a = .ok b := by
  cases x with
  | error e =>
    constructor
    · intro h; cases h
    · intro h
      obtain ⟨a, h, -⟩ := h
      cases h
  | ok a =>
    constructor
    · intro h; exact ⟨a, rfl, h⟩
    · intro h
      obtain ⟨a', h, hf⟩ := h
      cases h
      exact hf

private theorem orErrno_eq_ok {α : Type} {r : Except Errno α} {a : α} : orErrno r = .ok a ↔ r = .ok a := by
  cases r with
  | error e => simp [orErrno, Except.mapError]
  | ok b => simp [orErrno, Except.mapError]

/-- A loop that succeeds has got all its objects and added them in order. -/
private theorem addAll_eq_ok {α : Type} {get : UInt32 → Except Errno α} {add : Device → α → Device} {ids : List UInt32}
    {dev dev' : Device} :
    addAll get add ids dev = .ok dev' ↔ ∃ raws, ids.mapM get = .ok raws ∧ raws.foldl add dev = dev' := by
  unfold addAll
  induction ids generalizing dev with
  | nil => simp [pure, Except.pure]
  | cons id ids ih =>
    rw [List.foldlM_cons, bind_eq_ok, List.mapM_cons]
    simp only [ih, bind_eq_ok]
    constructor
    · intro h
      obtain ⟨dev₁, hdev, raws, hraws, rfl⟩ := h
      cases hget : get id with
      | error e => simp [hget, orErrno, Except.mapError, Except.map] at hdev
      | ok raw =>
        simp only [hget, orErrno, Except.mapError, Except.map, Except.ok.injEq] at hdev
        exact ⟨raw :: raws, ⟨raw, rfl, raws, hraws, rfl⟩, by rw [List.foldl_cons, hdev]⟩
    · intro h
      obtain ⟨raws, ⟨raw, hget, rest, hrest, hcons⟩, rfl⟩ := h
      cases hcons
      exact ⟨add dev raw, by rw [hget]; rfl, rest, hrest, rfl⟩

/-- When `getResources` succeeds, the kernel has answered all calls for resources, and the device is what becomes of
their listing. -/
private theorem listing_of_getResources {k : Kernel} {dev : Device} (h : getResources k = .ok dev) :
    ∃ l, k.listing = .ok l ∧
      ((graph k l).createProperties k (graph k l).collectPropertyIDs.toList).performAllDelayedSetupOfModeObjects =
        .ok dev := by
  unfold getResources at h
  simp only [bind_eq_ok, orErrno_eq_ok, addAll_eq_ok] at h
  obtain ⟨res, hres, dev₁, ⟨crtcs, hcrtcs, rfl⟩, dev₂, ⟨encoders, hencoders, rfl⟩, dev₃, ⟨connectors, hconnectors, rfl⟩,
    ids, hids, dev₄, ⟨planes, hplanes, rfl⟩, hdev⟩ := h
  refine ⟨⟨crtcs, encoders, connectors, planes⟩, ?_, hdev⟩
  simp only [Kernel.listing, bind_eq_ok]
  exact ⟨res, hres, crtcs, hcrtcs, encoders, hencoders, connectors, hconnectors, ids, hids, planes, hplanes, rfl⟩

/-! ### The table of objects -/

/-- The table after entries for the ids, the `i`-th of them as object `ref (n + i)`. -/
def register (ref : Nat → ObjectRef) : List UInt32 → Nat → Std.TreeMap UInt32 ObjectRef → Std.TreeMap UInt32 ObjectRef
  | [], _, objects => objects
  | id :: ids, n, objects => register ref ids (n + 1) (objects.insert id (ref n))

/-- Entries under new, distinct ids are all found, and the old ones are still there. -/
private theorem getElem?_register (ref : Nat → ObjectRef) {ids : List UInt32} {n : Nat}
    {objects : Std.TreeMap UInt32 ObjectRef}
    (hnodup : ids.Nodup) (hnew : ∀ id ∈ ids, objects[id]? = none) (id : UInt32) (r : ObjectRef) :
    (register ref ids n objects)[id]? = some r ↔
      objects[id]? = some r ∨ ∃ i, ids[i]? = some id ∧ r = ref (n + i) := by
  induction ids generalizing n objects with
  | nil => simp [register]
  | cons id₀ ids ih =>
    rw [List.nodup_cons] at hnodup
    have hnew' : ∀ id ∈ ids, (objects.insert id₀ (ref n))[id]? = none := by
      intro id' hid'
      have hne : id₀ ≠ id' := fun heq => hnodup.1 (heq ▸ hid')
      rw [Std.TreeMap.getElem?_insert]
      simpa [hne] using hnew id' (List.mem_cons_of_mem _ hid')
    have hfresh := hnew id₀ List.mem_cons_self
    rw [register, ih hnodup.2 hnew', Std.TreeMap.getElem?_insert]
    by_cases heq : id₀ = id
    · subst heq
      have hnone : ∀ i, ids[i]? ≠ some id₀ := fun i hi => hnodup.1 (List.mem_of_getElem? hi)
      simp only [Std.ReflCmp.compare_self, if_true, hfresh, reduceCtorEq, false_or, Option.some.injEq]
      constructor
      · intro h
        rcases h with rfl | ⟨i, hi, -⟩
        · exact ⟨0, rfl, rfl⟩
        · exact absurd hi (hnone i)
      · intro h
        obtain ⟨i, hi, rfl⟩ := h
        cases i with
        | zero => exact Or.inl rfl
        | succ i => exact absurd hi (hnone i)
    · have hcmp : ¬compare id₀ id = .eq := by simpa using heq
      simp only [hcmp, if_false]
      constructor
      · intro h
        rcases h with h | ⟨i, hi, rfl⟩
        · exact Or.inl h
        · exact Or.inr ⟨i + 1, hi, by rw [Nat.add_assoc, Nat.add_comm 1 i]⟩
      · intro h
        rcases h with h | ⟨i, hi, rfl⟩
        · exact Or.inl h
        · cases i with
          | zero => exact absurd (Option.some.inj hi) heq
          | succ i => exact Or.inr ⟨i, hi, by rw [Nat.add_assoc, Nat.add_comm 1 i]⟩

abbrev Group := (Nat → ObjectRef) × List UInt32

private theorem getElem?_registerAll {groups : List Group} {objects : Std.TreeMap UInt32 ObjectRef}
    (hnodup : (groups.flatMap (·.2)).Nodup) (hnew : ∀ id ∈ groups.flatMap (·.2), objects[id]? = none)
    (id : UInt32) (r : ObjectRef) :
    (groups.foldl (fun objects g => register g.1 g.2 0 objects) objects)[id]? = some r ↔
      objects[id]? = some r ∨ ∃ g ∈ groups, ∃ i, g.2[i]? = some id ∧ r = g.1 i := by
  induction groups generalizing objects with
  | nil => simp
  | cons g groups ih =>
    rw [List.flatMap_cons, List.nodup_append] at hnodup
    obtain ⟨hg, hgroups, hdisj⟩ := hnodup
    have hgnew : ∀ id ∈ g.2, objects[id]? = none := by
      intro id' hid'
      apply hnew
      rw [List.flatMap_cons]
      exact List.mem_append_left _ hid'
    have hget := getElem?_register g.1 (n := 0) hg hgnew
    have hnew' : ∀ id ∈ groups.flatMap (·.2), (register g.1 g.2 0 objects)[id]? = none := by
      intro id' hid'
      have hold : objects[id']? = none := by
        apply hnew
        rw [List.flatMap_cons]
        exact List.mem_append_right _ hid'
      rw [Option.eq_none_iff_forall_ne_some]
      intro r' hr'
      rcases (hget id' r').1 hr' with h | ⟨i, hi, -⟩
      · rw [hold] at h
        cases h
      · exact hdisj id' (List.mem_of_getElem? hi) id' hid' rfl
    rw [List.foldl_cons, ih hgroups hnew', hget]
    simp only [List.mem_cons, exists_eq_or_imp, Nat.zero_add, or_assoc]

/-! ### The loops -/

private theorem foldl_addCrtc (k : Kernel) (crtcs : List DrmModeCrtc) (dev : Device) :
    crtcs.foldl (addCrtc k) dev =
      { dev with
        crtcs_ := dev.crtcs_ ++ (crtcs.zipIdx dev.crtcs_.length).map fun c => Crtc.new k c.1 c.2
        objects_ := register .crtc (crtcs.map (·.crtc_id)) dev.crtcs_.length dev.objects_ } := by
  induction crtcs generalizing dev with
  | nil => simp [register]
  | cons crtc crtcs ih =>
    rw [List.foldl_cons, ih]
    simp [addCrtc, register, Crtc.new, Object.new]

private theorem foldl_addEncoder (k : Kernel) (encoders : List DrmModeEncoder) (dev : Device) :
    encoders.foldl (addEncoder k) dev =
      { dev with
        encoders_ := dev.encoders_ ++ encoders.map (Encoder.new k dev.crtcs_)
        objects_ := register .encoder (encoders.map (·.encoder_id)) dev.encoders_.length dev.objects_ } := by
  induction encoders generalizing dev with
  | nil => simp [register]
  | cons encoder encoders ih =>
    rw [List.foldl_cons, ih]
    simp [addEncoder, register, Encoder.new, Object.new]

private theorem foldl_addConnector (k : Kernel) (connectors : List DrmModeConnector) (dev : Device) :
    connectors.foldl (addConnector k) dev =
      { dev with
        connectors_ := dev.connectors_ ++ connectors.map (Connector.new k dev.encoders_)
        objects_ := register .connector (connectors.map (·.connector_id)) dev.connectors_.length dev.objects_ } := by
  induction connectors generalizing dev with
  | nil => simp [register]
  | cons connector connectors ih =>
    rw [List.foldl_cons, ih]
    simp [addConnector, register, Connector.new, Object.new]

private theorem foldl_addPlane (k : Kernel) (planes : List DrmModePlane) (dev : Device) :
    planes.foldl (addPlane k) dev =
      { dev with
        planes_ := dev.planes_ ++ planes.map (Plane.new k dev.crtcs_)
        objects_ := register .plane (planes.map (·.plane_id)) dev.planes_.length dev.objects_ } := by
  induction planes generalizing dev with
  | nil => simp [register]
  | cons plane planes ih =>
    rw [List.foldl_cons, ih]
    simp [addPlane, register, Plane.new, Object.new]

private theorem foldl_addProperty (properties : List DrmModePropertyRes) (dev : Device) :
    properties.foldl addProperty dev =
      { dev with
        properties_ := dev.properties_ ++ properties.map Property.new
        objects_ := register .property (properties.map (·.prop_id)) dev.properties_.length dev.objects_ } := by
  induction properties generalizing dev with
  | nil => simp [register]
  | cons property properties ih =>
    rw [List.foldl_cons, ih]
    simp [addProperty, register, Property.new]

def listedCrtcs (k : Kernel) (l : Listing) : List Crtc := l.crtcs.zipIdx.map fun c => Crtc.new k c.1 c.2

theorem graph_eq (k : Kernel) (l : Listing) :
    graph k l =
      { crtcs_ := (listedCrtcs k l).map fun crtc =>
          { crtc with
            planes_ := crtc.planes_ ++ possiblePlanes (l.planes.map (Plane.new k (listedCrtcs k l))) crtc }
        encoders_ := l.encoders.map (Encoder.new k (listedCrtcs k l))
        connectors_ := l.connectors.map
          (Connector.new k (l.encoders.map (Encoder.new k (listedCrtcs k l))))
        planes_ := l.planes.map (Plane.new k (listedCrtcs k l))
        properties_ := []
        objects_ := register .plane (l.planes.map (·.plane_id)) 0 <|
          register .connector (l.connectors.map (·.connector_id)) 0 <|
          register .encoder (l.encoders.map (·.encoder_id)) 0 <|
          register .crtc (l.crtcs.map (·.crtc_id)) 0 ∅ } := by
  simp only [graph, foldl_addCrtc, foldl_addEncoder, foldl_addConnector, foldl_addPlane, setPossiblePlanesForEachCRTC,
    empty, List.nil_append, List.length_nil]
  rfl

/-! ### The bits of a mask -/

private theorem maskHas_eq (mask : UInt32) {i : Nat} (hi : i < 32) : maskHas mask (UInt32.ofNat i) =
    mask.toNat.testBit i := by
  have hindex : (UInt32.ofNat i).toNat % 32 = i := by
    rw [UInt32.toNat_ofNat']
    omega
  have hone : ((1 : UInt32) <<< UInt32.ofNat i).toNat = 2 ^ i := by
    have hlt : 2 ^ i < 2 ^ 32 := Nat.pow_lt_pow_right (by omega) hi
    rw [UInt32.toNat_shiftLeft, hindex, UInt32.toNat_one, Nat.one_shiftLeft]
    exact Nat.mod_eq_of_lt hlt
  have hand : (mask &&& (1 <<< UInt32.ofNat i)).toNat = (mask.toNat.testBit i).toNat * 2 ^ i := by
    rw [UInt32.toNat_and, hone, Nat.and_two_pow]
  have hzero : mask &&& (1 <<< UInt32.ofNat i) = 0 ↔ (mask.toNat.testBit i).toNat * 2 ^ i = 0 := by
    rw [← hand, ← UInt32.toNat_inj]
    rfl
  simp only [maskHas, ne_eq, hzero]
  cases mask.toNat.testBit i <;> simp

def hasBit (mask : UInt32) (i : Nat) : Bool := mask.toNat.testBit i

private theorem getElem?_listedCrtcs (k : Kernel) (l : Listing) (i : Nat) :
    (listedCrtcs k l)[i]? = (l.crtcs[i]?).map fun crtc => Crtc.new k crtc i := by
  unfold listedCrtcs
  rw [List.getElem?_map, List.getElem?_zipIdx, Option.map_map, Nat.zero_add]
  rfl

private theorem length_listedCrtcs (k : Kernel) (l : Listing) : (listedCrtcs k l).length = l.crtcs.length := by
  rw [listedCrtcs, List.length_map, List.length_zipIdx]

private theorem possibleCrtcs_listedCrtcs {k : Kernel} {l : Listing} (hle : l.crtcs.length ≤ 32) (mask : UInt32) :
    possibleCrtcs (listedCrtcs k l) mask = (List.range l.crtcs.length).filter (hasBit mask) := by
  unfold possibleCrtcs
  rw [length_listedCrtcs]
  apply List.filter_congr
  intro i hi
  rw [List.mem_range] at hi
  have hmask := maskHas_eq mask (show i < 32 by omega)
  rw [getElem?_listedCrtcs, List.getElem?_eq_getElem hi]
  exact hmask

private theorem possiblePlanes_new {k : Kernel} {crtcs : List Crtc} {planes : List DrmModePlane} {crtc : Crtc} {i : Nat}
    (hi : i < 32) (hindex : crtc.index_ = UInt32.ofNat i) :
    possiblePlanes (planes.map (Plane.new k crtcs)) crtc =
      (List.range planes.length).filter fun j => (planes[j]?).any fun plane => hasBit plane.possible_crtcs i := by
  unfold possiblePlanes
  rw [List.length_map]
  apply List.filter_congr
  intro j _
  rw [List.getElem?_map, Option.any_map, hindex]
  congr 1
  funext plane
  exact maskHas_eq plane.possible_crtcs hi

/-! ### Properties -/

def propertiesGot (k : Kernel) (ids : List UInt32) : List DrmModePropertyRes :=
  ids.filterMap fun id => (k.drmModeGetProperty id).toOption

private theorem createProperties_eq (k : Kernel) (ids : List UInt32) (dev : Device) :
    dev.createProperties k ids = (propertiesGot k ids).foldl addProperty dev := by
  unfold createProperties propertiesGot
  rw [List.foldl_filterMap]
  congr 1
  funext dev id
  cases k.drmModeGetProperty id <;> rfl

private theorem mem_foldl_insert {α : Type} (f : α → UInt32) (xs : List α) (s : Std.TreeSet UInt32) (id : UInt32) :
    id ∈ xs.foldl (fun s x => s.insert (f x)) s ↔ id ∈ s ∨ ∃ x ∈ xs, f x = id := by
  induction xs generalizing s with
  | nil => simp
  | cons x xs ih =>
    rw [List.foldl_cons, ih, Std.TreeSet.mem_insert, Std.LawfulEqCmp.compare_eq_iff_eq]
    simp only [List.mem_cons, exists_eq_or_imp]
    rw [or_comm (a := f x = id), or_assoc]

/-- The set holds the properties of every object in the table. -/
private theorem mem_collectPropertyIDs {dev : Device} {id : UInt32} {ref : ObjectRef}
    (href : dev.objects_[id]? = some ref)
    {pv : PropertyValue} (hpv : pv ∈ dev.propertiesOf ref) : pv.id_ ∈ dev.collectPropertyIDs.toList := by
  have hset : dev.collectPropertyIDs =
      (dev.objects_.toList.flatMap fun entry => dev.propertiesOf entry.2).foldl (fun s v => s.insert v.id_) ∅ := by
    rw [List.foldl_flatMap]
    rfl
  rw [Std.TreeSet.mem_toList, hset, mem_foldl_insert]
  right
  refine ⟨pv, List.mem_flatMap.2 ⟨(id, ref), ?_, hpv⟩, rfl⟩
  exact Std.TreeMap.mem_toList_iff_getElem?_eq_some.2 href

/-- All objects of the device: those of the listing, and the properties. -/
def groups (l : Listing) (properties : List DrmModePropertyRes) : List Group :=
  [(.crtc, l.crtcs.map (·.crtc_id)), (.encoder, l.encoders.map (·.encoder_id)),
    (.connector, l.connectors.map (·.connector_id)), (.plane, l.planes.map (·.plane_id)),
    (.property, properties.map (·.prop_id))]

def table (l : Listing) (properties : List DrmModePropertyRes) : Std.TreeMap UInt32 ObjectRef :=
  (groups l properties).foldl (fun objects g => register g.1 g.2 0 objects) ∅

def idOf (l : Listing) (properties : List DrmModePropertyRes) : ObjectRef → Option UInt32
  | .crtc i => (l.crtcs.map (·.crtc_id))[i]?
  | .encoder i => (l.encoders.map (·.encoder_id))[i]?
  | .connector i => (l.connectors.map (·.connector_id))[i]?
  | .plane i => (l.planes.map (·.plane_id))[i]?
  | .property i => (properties.map (·.prop_id))[i]?

/-- With unique ids, the table has exactly these objects, each under its id. -/
theorem getElem?_table {l : Listing} {properties : List DrmModePropertyRes}
    (hnodup : (l.ids ++ properties.map (·.prop_id)).Nodup) (id : UInt32) (ref : ObjectRef) :
    (table l properties)[id]? = some ref ↔ idOf l properties ref = some id := by
  have hids : (groups l properties).flatMap (·.2) = l.ids ++ properties.map (·.prop_id) := by
    simp [groups, Listing.ids]
  rw [table, getElem?_registerAll (by rw [hids]; exact hnodup) (by simp)]
  simp only [groups, List.mem_cons, List.not_mem_nil, or_false, exists_eq_or_imp, exists_eq_left]
  cases ref <;> simp [idOf]

/-- The device with the properties of the ids created: its table has the objects of the listing and these. -/
private theorem objects_createProperties (k : Kernel) (l : Listing) (ids : List UInt32) :
    ((graph k l).createProperties k ids).objects_ = table l (propertiesGot k ids) := by
  rw [createProperties_eq, foldl_addProperty, graph_eq]
  rfl

/-- A listed plane is found under its id. -/
private theorem table_plane {l : Listing} {properties : List DrmModePropertyRes}
    (hnodup : (l.ids ++ properties.map (·.prop_id)).Nodup) {j : Nat} {plane : DrmModePlane}
    (hj : l.planes[j]? = some plane) : (table l properties)[plane.plane_id]? = some (.plane j) := by
  rw [getElem?_table hnodup]
  show (l.planes.map (·.plane_id))[j]? = some plane.plane_id
  rw [List.getElem?_map, hj, Option.map_some]

private theorem planes_graph (k : Kernel) {l : Listing} {j : Nat} {plane : DrmModePlane}
    (hj : l.planes[j]? = some plane) :
    (graph k l).planes_[j]? = some (Plane.new k (listedCrtcs k l) plane) := by
  rw [graph_eq]
  show (l.planes.map _)[j]? = _
  rw [List.getElem?_map, hj, Option.map_some]

private theorem objects_graph (k : Kernel) (l : Listing) : (graph k l).objects_ = table l [] := by
  rw [graph_eq]
  rfl

private theorem createProperties_graph (k : Kernel) (l : Listing) (ids : List UInt32) :
    (graph k l).createProperties k ids =
      { graph k l with
        properties_ := (propertiesGot k ids).map Property.new
        objects_ := table l (propertiesGot k ids) } := by
  rw [createProperties_eq, foldl_addProperty, graph_eq]
  rfl

private theorem map_prop_id_propertiesGot {k : Kernel} {l : Listing} (hw : k.WellFormed l) (ids : List UInt32) :
    (propertiesGot k ids).map (·.prop_id) = ids.filter fun id => (k.drmModeGetProperty id).toOption.isSome := by
  induction ids with
  | nil => rfl
  | cons id ids ih =>
    unfold propertiesGot at ih ⊢
    cases h : k.drmModeGetProperty id with
    | error e =>
      rw [List.filterMap_cons_none (by rw [h]; rfl), List.filter_cons_of_neg (by rw [h]; exact Bool.false_ne_true)]
      exact ih
    | ok property =>
      rw [List.filterMap_cons_some (b := property) (by rw [h]; rfl), List.filter_cons_of_pos (by rw [h]; rfl)]
      rw [List.map_cons, hw.property_id id property h, ih]

private theorem ids_nodup_propertiesGot {k : Kernel} {l : Listing} (hw : k.WellFormed l) {ids : List UInt32}
    (hids : ids.Nodup) :
    (l.ids ++ (propertiesGot k ids).map (·.prop_id)).Nodup := by
  rw [map_prop_id_propertiesGot hw, List.nodup_append]
  refine ⟨hw.ids_nodup, hids.filter _, ?_⟩
  intro id hid id' hid' heq
  rw [List.mem_filter] at hid'
  cases h : k.drmModeGetProperty id' with
  | error e => simp [h, Except.toOption] at hid'
  | ok property =>
    rw [heq] at hid
    exact hw.property_new id' property h hid

/-- A property id that was collected leads to the property the kernel has for it. -/
theorem propertyObject_createProperties {k : Kernel} {l : Listing} (hw : k.WellFormed l) {ids : List UInt32}
    (hids : ids.Nodup) {id : UInt32} (hid : id ∈ ids) :
    ((graph k l).createProperties k ids).propertyObject id = (k.drmModeGetProperty id).toOption.map Property.new := by
  have htable := getElem?_table (ids_nodup_propertiesGot hw hids) id
  rw [createProperties_graph]
  unfold propertyObject object
  cases h : k.drmModeGetProperty id with
  | error e =>
    have hnone : ∀ i, (table l (propertiesGot k ids))[id]? ≠ some (.property i) := by
      intro i hi
      have hmem := List.mem_of_getElem? ((htable (.property i)).1 hi)
      rw [map_prop_id_propertiesGot hw, List.mem_filter, h] at hmem
      cases hmem.2
    cases hget : (table l (propertiesGot k ids))[id]? with
    | none => rfl
    | some ref =>
      cases ref with
      | property i => exact absurd hget (hnone i)
      | crtc i => rfl
      | encoder i => rfl
      | connector i => rfl
      | plane i => rfl
  | ok property =>
    have hmem : property ∈ propertiesGot k ids := List.mem_filterMap.2 ⟨id, hid, by rw [h]; rfl⟩
    obtain ⟨i, hi⟩ := List.mem_iff_getElem?.1 hmem
    have hentry : (table l (propertiesGot k ids))[id]? = some (.property i) := by
      rw [htable]
      show ((propertiesGot k ids).map (·.prop_id))[i]? = some id
      rw [List.getElem?_map, hi, Option.map_some, hw.property_id id property h]
    rw [hentry]
    show ((propertiesGot k ids).map Property.new)[i]? = some (Property.new property)
    rw [List.getElem?_map, hi, Option.map_some]

/-! ### Setting up the planes -/

/-- The plane has a type property, and its type is primary if the property says so. -/
def Typed (dev : Device) (plane : Plane) : Prop :=
  ∃ pv, plane.toObject.propertyValue dev "type" = some pv ∧
    (plane.type_ = some .TypePrimary ↔ pv.value_ = DRM_PLANE_TYPE_PRIMARY)

def untyped (plane : Plane) : Plane := { plane with type_ := none }

private theorem plane_setup_spec {dev : Device} {plane plane' : Plane} (h : plane.setup dev = .ok plane') :
    untyped plane' = untyped plane ∧ Typed dev plane' := by
  unfold Plane.setup at h
  cases hpv : plane.toObject.propertyValue dev "type" with
  | none => simp [hpv] at h
  | some pv =>
    simp only [hpv] at h
    by_cases hoverlay : pv.value_ = DRM_PLANE_TYPE_OVERLAY
    · rw [if_pos hoverlay, Except.ok.injEq] at h
      subst h
      exact ⟨rfl, pv, hpv, by simp [hoverlay, DRM_PLANE_TYPE_OVERLAY, DRM_PLANE_TYPE_PRIMARY]⟩
    rw [if_neg hoverlay] at h
    by_cases hprimary : pv.value_ = DRM_PLANE_TYPE_PRIMARY
    · rw [if_pos hprimary, Except.ok.injEq] at h
      subst h
      exact ⟨rfl, pv, hpv, by simp [hprimary]⟩
    rw [if_neg hprimary] at h
    by_cases hcursor : pv.value_ = DRM_PLANE_TYPE_CURSOR
    · rw [if_pos hcursor, Except.ok.injEq] at h
      subst h
      exact ⟨rfl, pv, hpv, by simp [hprimary]⟩
    · rw [if_neg hcursor] at h
      cases h

/-- The planes of a device while they are being set up: those of `done` and those that were already have a type. -/
structure SetUp (dev : Device) (done : List ObjectRef) (planes : List Plane) : Prop where
  untyped_eq : planes.map untyped = dev.planes_.map untyped
  typed : ∀ j, (.plane j ∈ done ∨ ∀ plane, dev.planes_[j]? = some plane → Typed dev plane) →
    ∀ plane, planes[j]? = some plane → Typed dev plane

private theorem setup_spec {dev dev' : Device} {ref : ObjectRef} (h : dev.setup ref = .ok dev') :
    ∃ planes, dev' = { dev with planes_ := planes } ∧ SetUp dev [ref] planes := by
  have hsame : (∀ j plane, ref = .plane j → dev.planes_[j]? ≠ some plane) → SetUp dev [ref] dev.planes_ := by
    intro hno
    refine ⟨rfl, ?_⟩
    rintro j (hj | hall) plane hplane
    · exact absurd hplane (hno j plane (List.mem_singleton.1 hj).symm)
    · exact hall plane hplane
  unfold setup at h
  cases ref with
  | plane i =>
    cases hget : dev.planes_[i]? with
    | none =>
      simp only [hget, Except.ok.injEq] at h
      refine ⟨dev.planes_, h.symm, hsame ?_⟩
      intro j plane hj
      cases hj
      rw [hget]
      intro heq
      cases heq
    | some plane =>
      cases hset : plane.setup dev with
      | error e => simp [hget, hset, Except.map] at h
      | ok plane' =>
        simp only [hget, hset, Except.map, Except.ok.injEq] at h
        obtain ⟨hun, htyped⟩ := plane_setup_spec hset
        obtain ⟨hi, hplane⟩ := List.getElem?_eq_some_iff.1 hget
        refine ⟨_, h.symm, ?_, ?_⟩
        · have hi' : i < (dev.planes_.map untyped).length := by rw [List.length_map]; exact hi
          have hmap : untyped plane = (dev.planes_.map untyped)[i] := by rw [List.getElem_map, hplane]
          rw [List.map_set, hun, hmap]
          exact List.set_getElem_self _
        · intro j hj p hp
          rw [List.getElem?_set] at hp
          by_cases hij : i = j
          · rw [if_pos hij, if_pos (hij ▸ hi), Option.some.injEq] at hp
            exact hp ▸ htyped
          · rw [if_neg hij] at hp
            rcases hj with hj | hall
            · rw [List.mem_singleton, ObjectRef.plane.injEq] at hj
              exact absurd hj.symm hij
            · exact hall p hp
  | crtc i => exact ⟨dev.planes_, (Except.ok.inj h).symm, hsame (by simp)⟩
  | encoder i => exact ⟨dev.planes_, (Except.ok.inj h).symm, hsame (by simp)⟩
  | connector i => exact ⟨dev.planes_, (Except.ok.inj h).symm, hsame (by simp)⟩
  | property i => exact ⟨dev.planes_, (Except.ok.inj h).symm, hsame (by simp)⟩

theorem foldlM_setup {entries : List (UInt32 × ObjectRef)} {dev dev' : Device}
    (h : entries.foldlM (fun dev entry => dev.setup entry.2) dev = .ok dev') :
    ∃ planes, dev' = { dev with planes_ := planes } ∧ SetUp dev (entries.map (·.2)) planes := by
  induction entries generalizing dev with
  | nil =>
    have heq : dev = dev' := Except.ok.inj h
    refine ⟨dev.planes_, heq.symm, rfl, ?_⟩
    rintro j (hj | hall)
    · cases hj
    · exact hall
  | cons entry entries ih =>
    rw [List.foldlM_cons, bind_eq_ok] at h
    obtain ⟨dev₁, hstep, hrest⟩ := h
    obtain ⟨planes₁, rfl, hset₁⟩ := setup_spec hstep
    obtain ⟨planes, rfl, hset⟩ := ih hrest
    refine ⟨planes, rfl, hset.untyped_eq.trans hset₁.untyped_eq, ?_⟩
    intro j hj
    apply hset.typed j
    rw [List.map_cons, List.mem_cons] at hj
    rcases hj with (hj | hj) | hall
    · exact Or.inr (hset₁.typed j (Or.inl (List.mem_singleton.2 hj)))
    · exact Or.inl hj
    · exact Or.inr (hset₁.typed j (Or.inr hall))

/-! ### The device and its listing -/

def typeValue (k : Kernel) (plane : DrmModePlane) : Option UInt64 :=
  (((k.drmModeObjectGetProperties plane.plane_id .TypePlane).getD []).find? fun pv =>
    (k.drmModeGetProperty pv.id_).toOption.any (·.name = "type")).map (·.value_)

/-- What the search for a pipeline reads off the device, in terms of the listing. -/
structure Represents (k : Kernel) (l : Listing) (dev : Device) : Prop where
  connectors : dev.connectors_ = l.connectors.map (Connector.new k dev.encoders_)
  encoder_ids : dev.encoders_.map (·.id_) = l.encoders.map (·.encoder_id)
  encoder : ∀ (x : Nat) encoder, l.encoders[x]? = some encoder → ∃ obj, dev.encoders_[x]? = some obj ∧
    obj.possibleCrtcs_ = (List.range l.crtcs.length).filter (hasBit encoder.possible_crtcs)
  crtc : ∀ i < l.crtcs.length, ∃ obj, dev.crtcs_[i]? = some obj ∧
    obj.planes_ = (List.range l.planes.length).filter fun j =>
      (l.planes[j]?).any fun plane => hasBit plane.possible_crtcs i
  plane : ∀ (j : Nat) plane, l.planes[j]? = some plane → ∃ obj, dev.planes_[j]? = some obj ∧
    obj.formats_ = plane.formats ∧
    (obj.type_ = some .TypePrimary ↔ typeValue k plane = some DRM_PLANE_TYPE_PRIMARY)

private theorem collected_nodup (dev : Device) : dev.collectPropertyIDs.toList.Nodup := by
  have hdistinct := Std.TreeSet.distinct_toList (t := dev.collectPropertyIDs)
  simp only [Std.LawfulEqCmp.compare_eq_iff_eq] at hdistinct
  exact hdistinct

/-- Looking up the type of a listed plane in the device finds the property the kernel lists. -/
private theorem propertyValue_type {k : Kernel} {l : Listing} (hw : k.WellFormed l) {j : Nat} {plane : DrmModePlane}
    (hj : l.planes[j]? = some plane) :
    (Object.new k plane.plane_id .TypePlane).propertyValue
        ((graph k l).createProperties k (graph k l).collectPropertyIDs.toList) "type" =
      ((k.drmModeObjectGetProperties plane.plane_id .TypePlane).getD []).find? fun pv =>
        (k.drmModeGetProperty pv.id_).toOption.any (·.name = "type") := by
  have hentry : (graph k l).objects_[plane.plane_id]? = some (.plane j) := by
    have hnodup : (l.ids ++ ([] : List DrmModePropertyRes).map (·.prop_id)).Nodup := by simpa using hw.ids_nodup
    rw [objects_graph, table_plane hnodup hj]
  have hprops : (graph k l).propertiesOf (.plane j) = (Object.new k plane.plane_id .TypePlane).properties_ := by
    show ((graph k l).planes_[j]?).elim [] (·.properties_) = _
    rw [planes_graph k hj]
    rfl
  apply List.find?_congr
  intro pv hpv
  have hid := mem_collectPropertyIDs hentry (by rw [hprops]; exact hpv)
  rw [propertyObject_createProperties hw (collected_nodup _) hid, Option.any_map]
  rfl

private theorem plane_of_setUp {k : Kernel} {l : Listing} (hw : k.WellFormed l) {dev : Device} {planes : List Plane}
    (hdev : dev = (graph k l).createProperties k (graph k l).collectPropertyIDs.toList)
    (hset : SetUp dev (dev.objects_.toList.map (·.2)) planes) (j : Nat) (plane : DrmModePlane)
    (hj : l.planes[j]? = some plane) :
    ∃ obj, planes[j]? = some obj ∧ obj.formats_ = plane.formats ∧
      (obj.type_ = some .TypePrimary ↔ typeValue k plane = some DRM_PLANE_TYPE_PRIMARY) := by
  have hnew : dev.planes_[j]? = some (Plane.new k (listedCrtcs k l) plane) := by
    rw [hdev, createProperties_graph]
    exact planes_graph k hj
  have hmap : (planes[j]?).map untyped = some (untyped (Plane.new k (listedCrtcs k l) plane)) := by
    rw [← List.getElem?_map, hset.untyped_eq, List.getElem?_map, hnew, Option.map_some]
  obtain ⟨obj, hobj, heq⟩ := Option.map_eq_some_iff.1 hmap
  have hformats : obj.formats_ = plane.formats := congrArg Plane.formats_ heq
  have hobject : obj.toObject = Object.new k plane.plane_id .TypePlane := congrArg Plane.toObject heq
  have hentry : dev.objects_[plane.plane_id]? = some (.plane j) := by
    rw [hdev, objects_createProperties, table_plane (ids_nodup_propertiesGot hw (collected_nodup _)) hj]
  have hdone : .plane j ∈ dev.objects_.toList.map (·.2) :=
    List.mem_map.2 ⟨(plane.plane_id, .plane j), Std.TreeMap.mem_toList_iff_getElem?_eq_some.2 hentry, rfl⟩
  obtain ⟨pv, hpv, htype⟩ := hset.typed j (Or.inl hdone) obj hobj
  rw [hobject, hdev, propertyValue_type hw hj] at hpv
  refine ⟨obj, hobj, hformats, ?_⟩
  rw [htype, typeValue, hpv, Option.map_some, Option.some.injEq]

/-- A device whose listing is well formed represents it. -/
theorem represents_of_getResources {k : Kernel} {l : Listing} {dev : Device} (hl : k.listing = .ok l)
    (hw : k.WellFormed l) (h : getResources k = .ok dev) : Represents k l dev := by
  obtain ⟨l', hl', hsetup⟩ := listing_of_getResources h
  have hll : l' = l := Except.ok.inj (hl'.symm.trans hl)
  subst hll
  have hle := hw.crtcs_le
  obtain ⟨planes, rfl, hset⟩ := foldlM_setup hsetup
  have hplane := plane_of_setUp hw rfl hset
  rw [createProperties_graph, graph_eq]
  refine ⟨rfl, ?_, ?_, ?_, hplane⟩
  · show (l'.encoders.map _).map _ = _
    rw [List.map_map]
    rfl
  · intro x encoder hx
    refine ⟨Encoder.new k (listedCrtcs k l') encoder, ?_, possibleCrtcs_listedCrtcs hle _⟩
    show (l'.encoders.map _)[x]? = _
    rw [List.getElem?_map, hx, Option.map_some]
  · intro i hi
    have hlisted : (listedCrtcs k l')[i]? = some (Crtc.new k l'.crtcs[i] i) := by
      rw [getElem?_listedCrtcs, List.getElem?_eq_getElem hi, Option.map_some]
    have hlt : i < 32 := by omega
    refine ⟨{ Crtc.new k l'.crtcs[i] i with
      planes_ := possiblePlanes (l'.planes.map (Plane.new k (listedCrtcs k l'))) (Crtc.new k l'.crtcs[i] i) }, ?_,
      possiblePlanes_new hlt rfl⟩
    show ((listedCrtcs k l').map _)[i]? = _
    rw [List.getElem?_map, hlisted, Option.map_some]
    rfl

end Device

end DRM

end Twincam
