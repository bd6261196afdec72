import Mathlib.Data.Nat.Nth
import YangPartition.Proofs.Compile.Coverage

/-!
# Both modes

The declared resources and the whole schema are compiled from the same nodes. Every container of
a declared resource is found among those of the whole schema, with what it says of its node, in
the same place of the tree, and with at least its entries. A resource that excludes nothing and
has no other inside is found there as a whole subtree.
-/

namespace YangPartition

/-! ### Containers at other places -/

/-- The containers of an arena are found in another one at the given places: each with what it says
of its node, below the container that its own parent is found at, and with at least its entries,
in their order. -/
structure Arena.EmbedsIn (place : Nat → Nat) (a b : Arena) : Prop where
  /-- Each container is found, with what it says of its node. -/
  found : ∀ {i c}, a.get? i = some c → ∃ d, b.get? (place i) = some d ∧ d.path = c.path ∧
    d.name = c.name ∧ d.identity = c.identity ∧ d.keys = c.keys ∧ d.readOnly = c.readOnly ∧
    d.synthetic = c.synthetic
  /-- A container stands below another one here exactly when it does there. -/
  parent_iff : ∀ {i p}, i < a.size → p < a.size →
    (a.parent? i = some p ↔ b.parent? (place i) = some (place p))
  /-- The entries are entries there, in their order. -/
  entries : ∀ {i c d}, a.get? i = some c → b.get? (place i) = some d →
    (c.entries.map (·.mapPlace place)).Sublist d.entries

/-- A container with all places given anew. -/
def Container.mapPlaces (f : Nat → Nat) (c : Container) : Container :=
  { c with
    entries := c.entries.map (·.mapPlace f)
    parent? := c.parent?.map f
    children := c.children.map f }

/-- A container regardless of what stands above it, of the resources around it and of whether its
references stay inside the resource. -/
def Container.detached (c : Container) : Container :=
  { c with
    parent? := none
    boundary := false
    references := c.references.map fun r => { r with scope := .within } }

section

variable {s u : ResourceSet} {o : Options} {id id' : Nat} {keep : Visit → Bool} {kept : Nat → Bool}
  {t : Slot}

/-- Finding the places that were counted anew gives those there were. -/
theorem Entry.mapPlace_ofHeld {h : Visit × Option Nat}
    (hkept : ∀ place, h.2 = some place → kept place = true) :
    (Entry.ofHeld s o id (h.1, h.2.map (Nat.count (kept ·)))).mapPlace (Nat.nth (kept ·)) =
      Entry.ofHeld u o id' h := by
  have hplain : Entry.ofHeld s o id (h.1, h.2.map (Nat.count (kept ·))) =
      Entry.ofHeld u o id' (h.1, h.2.map (Nat.count (kept ·))) := Entry.ofHeld_congr rfl _
  rw [hplain]
  obtain ⟨v, place?⟩ := h
  cases place? with
  | none => rfl
  | some place =>
    have hplace : Nat.nth (kept ·) (Nat.count (kept ·) place) = place :=
      Nat.nth_count (p := (kept ·)) (hkept place rfl)
    simp [ofHeld, mapPlace, pointingTo, hplace]

/-- Default values do not depend on places. -/
theorem Entry.foldl_recordDefault_mapPlace (f : Nat → Nat) (l : List Entry)
    (defaults : NameMap String) :
    (l.map (·.mapPlace f)).foldl recordDefault defaults = l.foldl recordDefault defaults := by
  have hstep : ∀ (defaults : NameMap String) (e : Entry),
      recordDefault defaults (e.mapPlace f) = recordDefault defaults e := by
    intro defaults e
    rw [recordDefault, recordDefault, mapPlace]
    cases e.next? <;> rfl
  rw [List.foldl_map]
  simp only [hstep]

/-- Apart from whether it stays inside, a reference does not depend on the resources. -/
theorem Resource.referenceOf?_unscoped (v : Visit) :
    (referenceOf? s o id v).map (fun r => { r with scope := .within }) =
      (referenceOf? u o id' v).map fun r => { r with scope := .within } := by
  rw [referenceOf?, referenceOf?]
  split
  · rw [Reference.of?, Reference.of?, Option.map_map, Option.map_map]
    rfl
  · rfl

theorem Slot.map_ownEntries (f : Nat → Nat) :
    (t.ownEntries s o id).map (·.mapPlace f) = t.ownEntries s o id := by
  rw [ownEntries]
  split
  · rfl
  · rfl

/-- The entries that are left of a slot are those of the nodes that are kept. -/
theorem Slot.entries_renumbered (s u : ResourceSet) (o : Options) (id id' : Nat)
    (hheld : ∀ v place, (v, some place) ∈ t.held → kept place = keep v) :
    ((t.renumbered keep kept).entries s o id).map (·.mapPlace (Nat.nth (kept ·))) =
      t.ownEntries u o id' ++
        (t.held.filter fun h => keep h.1).map (Entry.ofHeld u o id') := by
  rw [entries, List.map_append, map_ownEntries, renumbered]
  congr 1
  · exact ownEntries_congr rfl t
  rw [keptHeld, List.map_map, List.map_map]
  refine List.map_congr_left fun h hh => ?_
  obtain ⟨hmem, hkeep⟩ := List.mem_filter.1 hh
  refine Entry.mapPlace_ofHeld fun place hplace => ?_
  rw [hheld h.1 place (by rw [← hplace]; exact hmem), hkeep]

/-- When all nodes in a container are kept, its children are found again. -/
theorem Slot.map_children_renumbered
    (hheld : ∀ v place, (v, some place) ∈ t.held → kept place = keep v)
    (hall : ∀ h ∈ t.held, keep h.1 = true) :
    ((t.renumbered keep kept).held.filterMap (·.2)).map (Nat.nth (kept ·)) =
      t.held.filterMap (·.2) := by
  have hkept : ∀ place ∈ t.held.filterMap (·.2), kept place = true := by
    intro place hplace
    obtain ⟨⟨v, place?⟩, hv, rfl⟩ := List.mem_filterMap.1 hplace
    rw [hheld v place hv]
    exact hall _ hv
  have hfound : ∀ place ∈ t.held.filterMap (·.2),
      (Nat.nth (kept ·) ∘ Nat.count (kept ·)) place = id place := fun place hplace =>
    Nat.nth_count (p := (kept ·)) (hkept place hplace)
  rw [renumbered]
  simp only
  rw [filterMap_keptHeld hheld, List.map_map, List.filter_eq_self.2 hkept,
    List.map_congr_left hfound, List.map_id]

/-- When all nodes in a container are kept, so are its references, but for their scopes. -/
theorem Slot.references_renumbered (s u : ResourceSet) (o : Options) (id id' : Nat)
    (hall : ∀ h ∈ t.held, keep h.1 = true) :
    ((t.renumbered keep kept).held.filterMap fun h => Resource.referenceOf? s o id h.1).map
        (fun r => { r with scope := .within }) =
      (t.held.filterMap fun h => Resource.referenceOf? u o id' h.1).map
        fun r => { r with scope := .within } := by
  rw [renumbered]
  simp only
  rw [keptHeld, List.filter_eq_self.2 hall, List.filterMap_map, List.map_filterMap,
    List.map_filterMap]
  congr 1
  funext h
  exact Resource.referenceOf?_unscoped h.1

/-- When all nodes in a container are kept, the container is found again. -/
theorem Slot.container_found
    (hheld : ∀ v place, (v, some place) ∈ t.held → kept place = keep v)
    (hall : ∀ h ∈ t.held, keep h.1 = true) :
    (((t.renumbered keep kept).container s o id).mapPlaces (Nat.nth (kept ·))).detached =
      (t.container u o id').detached := by
  have hentries : ((t.renumbered keep kept).entries s o id).map (·.mapPlace (Nat.nth (kept ·))) =
      t.entries u o id' := by
    rw [entries_renumbered s u o id id' hheld, List.filter_eq_self.2 hall, entries]
  have hdefaults : (t.entries u o id').foldl Entry.recordDefault [] =
      ((t.renumbered keep kept).entries s o id).foldl Entry.recordDefault [] := by
    rw [← hentries, Entry.foldl_recordDefault_mapPlace]
  rw [container_eq, container_eq, Container.mapPlaces, Container.detached, Container.detached]
  simp only [hentries, hdefaults, map_children_renumbered hheld hall,
    references_renumbered s u o id id' hall]
  rfl

end

/-! ### Places in the whole schema -/

/-- A declared resource and the root resource, and a schema to compile them from: its nodes have
all they inherit, there are no procedures, and no leaf or leaf-list has nodes below it. -/
structure Comparable (s : ResourceSet) (x : Resource) (u : ResourceSet) (r : Resource)
    (f : Forest) : Prop where
  /-- The declared resources are those of a map. -/
  declared : s.Instantiated
  /-- They are compiled. -/
  mode_eq : s.mode = .declared
  /-- The declared resource is one of them. -/
  get?_eq : s.get? x.id = some x
  /-- The root resource is that of a map. -/
  full : u.Instantiated
  /-- It is compiled. -/
  hasTop : Resource.HasTop u r
  /-- It is found under its number. -/
  get?_root : u.get? r.id = some r
  /-- It excludes nothing. -/
  excludes_eq : r.excludes = []
  /-- All nodes have what they inherit. -/
  inherited : f.IsInherited
  /-- Leaves and leaf-lists have nothing below. -/
  bare : f.scalarsBare = true
  /-- There are no procedures. -/
  withoutRpc : f.withoutRpc = true

namespace Comparable

open Planned

variable {s u : ResourceSet} {x r : Resource} {f : Forest}

/-- Whether the container at a place of the whole schema is one of the declared resource. -/
def kept (s : ResourceSet) (x : Resource) (ts : List Slot) : Nat → Bool
  | 0 => false
  | k + 1 => ts[k]?.any fun t => x.keeps s t.visit

/-- The place in the whole schema of a container of the declared resource. -/
noncomputable def image (s : ResourceSet) (x : Resource) (ts : List Slot) : Nat → Nat :=
  Nat.nth (kept s x ts ·)

theorem self (h : Comparable s x u r f) : s.get? x.id = some x.blank := by
  rw [h.get?_eq, h.declared.blank_eq h.get?_eq]

theorem selects (h : Comparable s x u r f) (o : Options) :
    Selects (x.keeps s) false (f.plan u o r) (f.plan s o x) := by
  have hroot := h.hasTop.2 ▸ h.get?_root
  have hall := Resource.covers_root h.full h.hasTop.1 hroot h.excludes_eq
  have hnone : ¬ Resource.HasTop s x := by
    rintro ⟨hmode, -⟩
    rw [h.mode_eq] at hmode
    cases hmode
  have htop := Resource.not_covers_top h.declared h.mode_eq h.self
  refine Selects.flatMap fun m hm => ?_
  rw [decide_eq_true h.hasTop, decide_eq_false hnone, ← htop]
  refine Node.selectsAll_keeps h.declared h.self hall .root [] m.nodes ?_ ?_
    (h.inherited.passesState hm)
  · exact List.all_eq_true.1 h.bare m hm
  · exact List.all_eq_true.1 h.withoutRpc m hm

theorem firstPlace_eq (h : Comparable s x u r f) : x.firstPlace s = 0 := by
  rw [Resource.firstPlace, if_neg]
  rintro ⟨hmode, -⟩
  rw [h.mode_eq] at hmode
  cases hmode

theorem firstPlace_root (h : Comparable s x u r f) : r.firstPlace u = 1 := if_pos h.hasTop

theorem marks (h : Comparable s x u r f) (o : Options) :
    Slot.Marks (x.keeps s) (kept s x (f.slots u o r)) (r.firstPlace u) (f.slots u o r) := by
  intro k t ht
  rw [h.firstPlace_root, Nat.add_comm, kept, ht]
  rfl

/-- The slots of the declared resource are those of the whole schema that it keeps. -/
theorem slots_eq (h : Comparable s x u r f) (o : Options) :
    f.slots s o x = ((f.slots u o r).filter fun t => x.keeps s t.visit).map
      (Slot.renumbered (x.keeps s) (kept s x (f.slots u o r))) := by
  have hmarks := h.marks o
  have htop : r.topPlace? u = some 0 := if_pos h.hasTop
  have hnone : x.topPlace? s = none := by
    rw [Resource.topPlace?, if_neg]
    rintro ⟨hmode, -⟩
    rw [h.mode_eq] at hmode
    cases hmode
  have hslots := (h.selects o).slotsAll_eq hmarks fun _ => by rw [htop]; rfl
  refine Eq.trans ?_ hslots
  rw [Forest.slots, hnone, h.firstPlace_eq, htop, h.firstPlace_root]
  rfl

/-- The container of a slot is found at its image. -/
theorem exists_image (h : Comparable s x u r f) (o : Options) {i : Nat} {t' : Slot}
    (ht' : (f.slots s o x)[i]? = some t') :
    ∃ k t, (f.slots u o r)[k]? = some t ∧ x.keeps s t.visit = true ∧
      image s x (f.slots u o r) i = r.firstPlace u + k ∧
      Nat.count (kept s x (f.slots u o r) ·) (r.firstPlace u + k) = i ∧
      t' = t.renumbered (x.keeps s) (kept s x (f.slots u o r)) := by
  rw [h.slots_eq, List.getElem?_map] at ht'
  obtain ⟨t, ht, rfl⟩ := Option.map_eq_some_iff.1 ht'
  obtain ⟨k, hk, hkeep, hcount⟩ := (h.marks o).exists_of_filter ht
  have hzero : Nat.count (kept s x (f.slots u o r) ·) (r.firstPlace u) = 0 := by
    rw [h.firstPlace_root]
    rfl
  rw [hzero, Nat.zero_add] at hcount
  have hkept : kept s x (f.slots u o r) (r.firstPlace u + k) = true := by
    rw [h.marks o k t hk, hkeep]
  refine ⟨k, t, hk, hkeep, ?_, hcount, rfl⟩
  rw [image, ← hcount]
  exact Nat.nth_count hkept

theorem get?_grow (h : Comparable s x u r f) (o : Options) (i : Nat) :
    (f.grow s o x).arena.get? i = (f.slots s o x)[i]?.map (·.container s o x.id) := by
  rw [← Forest.get?_grow h.declared h.get?_eq, h.firstPlace_eq, Nat.zero_add]

theorem exists_slot (h : Comparable s x u r f) {o : Options} {i : Nat}
    (hi : i < (f.grow s o x).arena.size) : ∃ t, (f.slots s o x)[i]? = some t := by
  obtain ⟨c, hc⟩ := Arena.exists_get? hi
  rw [h.get?_grow] at hc
  obtain ⟨t, ht, -⟩ := Option.map_eq_some_iff.1 hc
  exact ⟨t, ht⟩

theorem parent?_grow (h : Comparable s x u r f) {o : Options} {i : Nat} {t : Slot}
    (ht : (f.slots s o x)[i]? = some t) : (f.grow s o x).arena.parent? i = t.parent? := by
  rw [Arena.parent?, h.get?_grow, ht, Option.map_some, Slot.container_eq]
  rfl

theorem parent?_root (h : Comparable s x u r f) {o : Options} {k : Nat} {t : Slot}
    (ht : (f.slots u o r)[k]? = some t) :
    (f.grow u o r).arena.parent? (r.firstPlace u + k) = t.parent? := by
  rw [Arena.parent?, Forest.get?_grow h.full h.get?_root, ht, Option.map_some, Slot.container_eq]
  rfl

/-- The places of the nodes in a container of the whole schema are kept with the nodes. -/
theorem kept_held (h : Comparable s x u r f) {o : Options} {t : Slot} (ht : t ∈ f.slots u o r)
    {v : Visit} {place : Nat} (hv : (v, some place) ∈ t.held) :
    kept s x (f.slots u o r) place = x.keeps s v := by
  obtain ⟨j, w, hw, rfl, rfl⟩ :=
    (Forest.linked_slots (Forest.relates_path h.full h.get?_root)).place ht hv
  exact h.marks o j w hw

/-- The containers of a declared resource are found in the whole schema. -/
theorem embedsIn (h : Comparable s x u r f) (o : Options) :
    (f.grow s o x).arena.EmbedsIn (image s x (f.slots u o r)) (f.grow u o r).arena where
  found {i c} hc := by
    rw [h.get?_grow] at hc
    obtain ⟨t', ht', rfl⟩ := Option.map_eq_some_iff.1 hc
    obtain ⟨k, t, ht, -, himage, -, rfl⟩ := h.exists_image o ht'
    refine ⟨t.container u o r.id, ?_, ?_⟩
    · rw [himage, Forest.get?_grow h.full h.get?_root, ht, Option.map_some]
    · rw [Slot.container_eq, Slot.container_eq]
      exact ⟨rfl, rfl, rfl, rfl, rfl, rfl⟩
  parent_iff {i p} hi hp := by
    obtain ⟨t', ht'⟩ := h.exists_slot hi
    obtain ⟨w', hw'⟩ := h.exists_slot hp
    obtain ⟨k, t, ht, -, himage, -, rfl⟩ := h.exists_image o ht'
    obtain ⟨j, w, hw, hkeep, hplace, hcount, rfl⟩ := h.exists_image o hw'
    rw [h.parent?_grow ht', himage, h.parent?_root ht, hplace, Slot.renumbered]
    simp only [Option.map_eq_some_iff, Option.filter_eq_some_iff]
    constructor
    · rintro ⟨q, ⟨hq, hkept⟩, hcountq⟩
      rw [hq, ← hplace, image, ← hcountq]
      exact congrArg some (Nat.nth_count hkept).symm
    · intro hparent
      exact ⟨_, ⟨hparent, by rw [h.marks o j w hw, hkeep]⟩, hcount⟩
  entries {i c d} hc hd := by
    rw [h.get?_grow] at hc
    obtain ⟨t', ht', rfl⟩ := Option.map_eq_some_iff.1 hc
    obtain ⟨k, t, ht, -, himage, -, rfl⟩ := h.exists_image o ht'
    rw [himage, Forest.get?_grow h.full h.get?_root, ht, Option.map_some] at hd
    obtain rfl := Option.some.inj hd
    rw [Slot.container_eq, Slot.container_eq]
    have hentries := Slot.entries_renumbered s u o x.id r.id fun v place hv =>
      h.kept_held (List.mem_of_getElem? ht) hv
    exact hentries ▸ (List.filter_sublist.map _).append_left _

theorem count_image (h : Comparable s x u r f) {o : Options} {i : Nat}
    (hi : i < (f.grow s o x).arena.size) :
    kept s x (f.slots u o r) (image s x (f.slots u o r) i) = true ∧
      Nat.count (kept s x (f.slots u o r) ·) (image s x (f.slots u o r) i) = i := by
  obtain ⟨t', ht'⟩ := h.exists_slot hi
  obtain ⟨k, t, ht, hkeep, himage, hcount, -⟩ := h.exists_image o ht'
  rw [himage]
  exact ⟨by rw [h.marks o k t ht, hkeep], hcount⟩

/-- A place of the whole schema is kept when it is that of a container of the resource. -/
theorem kept_iff (h : Comparable s x u r f) {o : Options} {j : Nat} :
    kept s x (f.slots u o r) j = true ↔
      ∃ i < (f.grow s o x).arena.size, image s x (f.slots u o r) i = j := by
  constructor
  · intro hkept
    cases j with
    | zero => cases hkept
    | succ k =>
      obtain ⟨t, ht, hkeep⟩ := (Option.any_eq_true _ _).1 hkept
      obtain ⟨i, hi, hcount⟩ := (h.marks o).exists_filter ht hkeep
      have hget := h.get?_grow o i
      rw [h.slots_eq, List.getElem?_map, hi, Option.map_some, Option.map_some] at hget
      rw [h.firstPlace_root, Nat.add_comm 1] at hcount
      refine ⟨i, Arena.get?_lt hget, ?_⟩
      have hzero : Nat.count (kept s x (f.slots u o r) ·) 1 = 0 := rfl
      rw [hzero, Nat.zero_add] at hcount
      rw [image, ← hcount]
      exact Nat.nth_count hkept
  · rintro ⟨i, hi, rfl⟩
    exact (h.count_image hi).1

/-- The places of the containers of declared resources are different ones. -/
theorem image_injective {x' : Resource} (h : Comparable s x u r f) (h' : Comparable s x' u r f)
    {o : Options} {i i' : Nat} (hi : i < (f.grow s o x).arena.size)
    (hi' : i' < (f.grow s o x').arena.size)
    (heq : image s x (f.slots u o r) i = image s x' (f.slots u o r) i') :
    x.id = x'.id ∧ i = i' := by
  obtain ⟨hkept, hcount⟩ := h.count_image hi
  obtain ⟨hkept', hcount'⟩ := h'.count_image hi'
  have hid : x.id = x'.id := by
    rw [heq] at hkept
    cases hplace : image s x' (f.slots u o r) i' with
    | zero =>
      rw [hplace] at hkept
      cases hkept
    | succ k =>
      rw [hplace] at hkept hkept'
      obtain ⟨t, ht, hkeep⟩ := (Option.any_eq_true _ _).1 hkept
      obtain ⟨t', ht', hkeep'⟩ := (Option.any_eq_true _ _).1 hkept'
      obtain rfl := Option.some.inj (ht.symm.trans ht')
      rw [Resource.keeps, Bool.and_eq_true, Resource.covers_iff] at hkeep hkeep'
      exact Option.some.inj (hkeep.1.1.symm.trans hkeep'.1.1)
  obtain rfl : x = x' := by
    have := h.get?_eq
    rw [hid, h'.get?_eq] at this
    exact (Option.some.inj this).symm
  exact ⟨hid, by rw [← hcount, heq, hcount']⟩

/-! ### Resources that are whole subtrees -/

/-- Nothing below a node of a resource that excludes nothing and has no other inside is left to
another resource. -/
theorem keeps_below (h : Comparable s x u r f)
    (hwhole : ∀ p, x.covers s p = true ↔ x.path.names <+: p.names) {v w : Visit}
    (hw : w.below = v.path) (hv : x.keeps s v = true) : x.keeps s w = true := by
  rw [Resource.keeps, Bool.and_eq_true] at hv
  have hle := Resource.length_le_of_owns h.declared h.self (Resource.covers_iff.1 hv.1).1
  rw [Resource.keeps, Bool.and_eq_true, Bool.or_eq_true, decide_eq_true_eq]
  refine ⟨?_, .inr ?_⟩
  · rw [hwhole, Visit.path, Path.names_push, hw]
    exact ((hwhole _).1 hv.1).trans (List.prefix_append ..)
  · have hpush := w.length_path
    rw [hpush, hw]
    omega

/-- What stands below a container of such a resource in the whole schema is its own. -/
theorem kept_of_parent (h : Comparable s x u r f)
    (hwhole : ∀ p, x.covers s p = true ↔ x.path.names <+: p.names) {o : Options} {j q : Nat}
    (hparent : (f.grow u o r).arena.parent? j = some q)
    (hkept : kept s x (f.slots u o r) q = true) : kept s x (f.slots u o r) j = true := by
  obtain ⟨c, hc, hq⟩ := Arena.get?_of_parent? hparent
  rcases Forest.get?_grow_cases h.full h.get?_root hc with ⟨-, -, rfl⟩ | ⟨k, t, rfl, ht, rfl⟩
  · cases hq
  rw [Slot.container_eq] at hq
  rw [h.marks o k t ht]
  rcases Forest.above_slot (Forest.relates_path h.full h.get?_root) ht hq with
    ⟨-, rfl, -⟩ | ⟨i, w, -, rfl, hw, hbelow⟩
  · cases hkept
  · rw [h.marks o i w hw] at hkept
    exact h.keeps_below hwhole hbelow hkept

/-- The containers of such a resource are found as a whole subtree. -/
theorem kept_iff_subtree (h : Comparable s x u r f)
    (hwhole : ∀ p, x.covers s p = true ↔ x.path.names <+: p.names) {o : Options}
    (hx : (f.grow s o x).Sound [0]) {base : Nat} (hr : (f.grow u o r).arena.Linked base) {j : Nat} :
    kept s x (f.slots u o r) j = true ↔
      j = image s x (f.slots u o r) 0 ∨
        image s x (f.slots u o r) 0 ∈ (f.grow u o r).arena.ancestors j := by
  have hroot := (h.count_image (hx.top_lt List.mem_cons_self)).1
  constructor
  · intro hkept
    obtain ⟨i, hi, rfl⟩ := h.kept_iff.1 hkept
    clear hkept
    induction i using Nat.strong_induction_on with
    | _ i ih =>
      obtain ⟨c, hc⟩ := Arena.exists_get? hi
      cases hp : c.parent? with
      | none =>
        obtain rfl := List.mem_singleton.1 ((hx.top_iff hc).1 hp)
        exact .inl rfl
      | some p =>
        have hparent := (Arena.parent?_of_get? hc).trans hp
        have hplt := hx.linked.parent_lt hparent
        have himage := ((h.embedsIn o).parent_iff hi (Nat.lt_trans hplt hi)).1 hparent
        rw [hr.ancestors_eq_cons himage, List.mem_cons]
        rcases ih p hplt (Nat.lt_trans hplt hi) with heq | hmem
        · exact .inr (.inl heq.symm)
        · exact .inr (.inr hmem)
  · rintro (rfl | hmem)
    · exact hroot
    induction j using Nat.strong_induction_on with
    | _ j ih =>
      cases hp : (f.grow u o r).arena.parent? j with
      | none =>
        rw [Arena.ancestors_of_parent?_eq_none hp] at hmem
        cases hmem
      | some q =>
        rw [hr.ancestors_eq_cons hp, List.mem_cons] at hmem
        refine h.kept_of_parent hwhole hp ?_
        rcases hmem with rfl | hmem
        · exact hroot
        · exact ih q (hr.parent_lt hp) hmem

/-- A container of such a resource is the one found in the whole schema. -/
theorem mapPlaces_detached (h : Comparable s x u r f)
    (hwhole : ∀ p, x.covers s p = true ↔ x.path.names <+: p.names) {o : Options} {i : Nat}
    {c d : Container} (hc : (f.grow s o x).arena.get? i = some c)
    (hd : (f.grow u o r).arena.get? (image s x (f.slots u o r) i) = some d) :
    (c.mapPlaces (image s x (f.slots u o r))).detached = d.detached := by
  rw [h.get?_grow] at hc
  obtain ⟨t', ht', rfl⟩ := Option.map_eq_some_iff.1 hc
  obtain ⟨k, t, ht, hkeep, himage, -, rfl⟩ := h.exists_image o ht'
  rw [himage, Forest.get?_grow h.full h.get?_root, ht, Option.map_some] at hd
  obtain rfl := Option.some.inj hd
  have hmem := List.mem_of_getElem? ht
  have hlinked := Forest.linked_slots (Forest.relates_path (o := o) (f := f) h.full h.get?_root)
  exact Slot.container_found (fun v place hv => h.kept_held hmem hv) fun w hw =>
    h.keeps_below hwhole (hlinked.held hmem hw) hkeep

/-- A resource with a container is declared. -/
theorem mem_declared (h : Comparable s x u r f) {o : Options} {i : Nat}
    (hi : i < (f.grow s o x).arena.size) : x ∈ s.declared := by
  obtain ⟨t', ht'⟩ := h.exists_slot hi
  obtain ⟨k, t, -, hkeep, -⟩ := h.exists_image o ht'
  rw [Resource.keeps, Bool.and_eq_true, Resource.covers_iff] at hkeep
  obtain ⟨-, hactive, -⟩ := h.declared.above_of_owns h.declared.blank h.get?_eq hkeep.1.1
  rw [ResourceSet.active, h.mode_eq, h.declared.blank_eq h.get?_eq] at hactive
  exact hactive

end Comparable

/-! ### The result -/

namespace ResourceSet

variable {s u t w : ResourceSet} {o : Options} {f : Forest} {stats stats' : Stats}

/-- A resource that has a root container has made it first. -/
theorem Instantiated.sound_of_root? (hs : s.Instantiated) (h : s.compile o f = (t, .ok stats))
    {id : Nat} {y : Resource} (hy : t.get? id = some y) {root : Nat} (hroot : y.root? = some root) :
    y.Sound [0] ∧ 0 = root := by
  rcases hs.sound_compile o f (by rw [h, hy]) with hsound | hsound
  · rw [show y.root? = none from hsound.root_eq] at hroot
    cases hroot
  · rw [show y.root? = some 0 from hsound.root_eq] at hroot
    exact ⟨hsound, Option.some.inj hroot⟩

theorem Instantiated.linked_compile (hs : s.Instantiated) (h : s.compile o f = (t, .ok stats))
    {id : Nat} {y : Resource} (hy : t.get? id = some y) : ∃ base, y.arena.Linked base := by
  rcases hs.sound_compile o f (by rw [h, hy]) with hsound | hsound
  · exact ⟨_, hsound.linked⟩
  · exact ⟨_, hsound.linked⟩

/-- The containers that the declared resources of a map are compiled to are found, at different
places, among those that the whole schema is compiled to. Those of a resource that excludes
nothing and has no other inside make up the subtree below its root container there, and are the
same but for their places, for the boundaries to other resources and for whether their references
stay inside. -/
theorem declared_embedsIn_full {m : ResourceMap} (hs : ofMap m .declared = .ok s)
    (hu : ofMap m .full = .ok u) (hinherited : f.IsInherited) (hbare : f.scalarsBare = true)
    (hrpc : f.withoutRpc = true) (h : s.compile o f = (t, .ok stats))
    (h' : u.compile o f = (w, .ok stats')) :
    ∃ z, w.get? Resource.rootId = some z ∧ ∃ place : Nat → Nat → Nat,
      (∀ {id y}, t.get? id = some y → y.arena.EmbedsIn (place id) z.arena) ∧
      (∀ {id id' y y' i i'}, t.get? id = some y → t.get? id' = some y' → i < y.arena.size →
        i' < y'.arena.size → place id i = place id' i' → id = id' ∧ i = i') ∧
      ∀ {id x y root}, s.get? id = some x → t.get? id = some y → x.excludes = [] →
        (∀ a ∈ s.declared, a ≠ x → ¬ x.path.names <+: a.path.names) → y.root? = some root →
        (∀ j, (∃ i < y.arena.size, place id i = j) ↔
          j = place id root ∨ place id root ∈ z.arena.ancestors j) ∧
        ∀ {i c d}, y.arena.get? i = some c → z.arena.get? (place id i) = some d →
          (c.mapPlaces (place id)).detached = d.detached := by
  have hinst := instantiated_ofMap hs
  have hinst' := instantiated_ofMap hu
  obtain ⟨hmode, -⟩ := exists_root_ofMap hs
  obtain ⟨hmode', r, hr, hexcludes⟩ := exists_root_ofMap hu
  have hgrown' := Forest.grow_of_compile hinst' hbare h' hr
  have hrid : r.id = Resource.rootId := hinst'.id_eq hinst'.blank hr
  have hcomparable : ∀ {id x}, s.get? id = some x → x.id = id ∧ Comparable s x u r f := by
    intro id x hx
    have hid := hinst.id_eq hinst.blank hx
    exact ⟨hid, hinst, hmode, by rw [hid, hx], hinst', ⟨hmode', hrid⟩, by rw [hrid, hr],
      hexcludes, hinherited, hbare, hrpc⟩
  have hblank := hinst.blank_compile h
  have hgrown : ∀ {id y}, t.get? id = some y → ∃ x, s.get? id = some x ∧ y = f.grow s o x := by
    intro id y hy
    obtain ⟨x, hx, -⟩ := exists_get?_of_blank hinst.blank hblank hy
    have := Forest.grow_of_compile hinst hbare h hx
    exact ⟨x, hx, Option.some.inj (hy.symm.trans this)⟩
  refine ⟨_, hgrown', fun id i => ((s.get? id).map fun x =>
    Comparable.image s x (f.slots u o r) i).getD i, ?_, ?_, ?_⟩
  · intro id y hy
    obtain ⟨x, hx, rfl⟩ := hgrown hy
    simp only [hx, Option.map_some, Option.getD_some]
    exact (hcomparable hx).2.embedsIn o
  · intro id id' y y' i i' hy hy' hi hi' heq
    obtain ⟨x, hx, rfl⟩ := hgrown hy
    obtain ⟨x', hx', rfl⟩ := hgrown hy'
    simp only [hx, hx', Option.map_some, Option.getD_some] at heq
    obtain ⟨hid, hcomp⟩ := hcomparable hx
    obtain ⟨hid', hcomp'⟩ := hcomparable hx'
    obtain ⟨hsame, rfl⟩ := hcomp.image_injective hcomp' hi hi' heq
    exact ⟨by rw [← hid, hsame, hid'], rfl⟩
  · intro id x y root hx hy hnone halone hroot
    obtain ⟨x', hx', rfl⟩ := hgrown hy
    obtain rfl := Option.some.inj (hx.symm.trans hx')
    obtain ⟨-, hcomp⟩ := hcomparable hx
    obtain ⟨hsound, rfl⟩ := hinst.sound_of_root? h hy hroot
    obtain ⟨base, hlinked⟩ := hinst'.linked_compile h' hgrown'
    have hwhole := Resource.covers_iff_prefix hinst hmode hcomp.get?_eq
      (hcomp.mem_declared (hsound.top_lt List.mem_cons_self)) hnone halone
    simp only [hx, Option.map_some, Option.getD_some]
    refine ⟨fun j => ?_, fun {i c d} hc hd => hcomp.mapPlaces_detached hwhole hc hd⟩
    rw [← hcomp.kept_iff, hcomp.kept_iff_subtree hwhole hsound hlinked]

/-- A resource inside another one: both are found in the whole schema, the inner one as a whole
subtree. -/
theorem declared_embedsIn_full_nested :
    let b : Node := ⟨{ name := "b", kind := .container },
      [("c", ⟨{ name := "c", kind := .container }, []⟩), ("y", .ofLeaf "y" "string")]⟩
    let a : Node := ⟨{ name := "a", kind := .container }, [("b", b), ("x", .ofLeaf "x" "string")]⟩
    let f := Forest.ofModules [{ name := "m", nodes := [("a", a)] }]
    let m : ResourceMap := { declared := [("/a", { hierarchy? := some [("b", {})] })] }
    ∃ s u t w stats stats' y y' z, ofMap m .declared = .ok s ∧ ofMap m .full = .ok u ∧
      f.IsInherited ∧ f.scalarsBare = true ∧ f.withoutRpc = true ∧
      s.compile {} f = (t, .ok stats) ∧ u.compile {} f = (w, .ok stats') ∧
      t.get? 1 = some y ∧ t.get? 2 = some y' ∧ w.get? 0 = some z ∧
      y.arena.toList.map (·.name) = ["a"] ∧ y'.arena.toList.map (·.name) = ["b", "c"] ∧
      z.arena.toList.map (·.name) = ["root", "a", "b", "c"] ∧
      ∃ place : Nat → Nat → Nat, y.arena.EmbedsIn (place 1) z.arena ∧
        y'.arena.EmbedsIn (place 2) z.arena ∧ place 1 0 ≠ place 2 0 ∧
        ∀ j, (∃ i < y'.arena.size, place 2 i = j) ↔
          j = place 2 0 ∨ place 2 0 ∈ z.arena.ancestors j := by
  intro b a f m
  have hbare : f.scalarsBare = true := by decide +kernel
  have hrpc : f.withoutRpc = true := by decide +kernel
  obtain ⟨s, hs, htest⟩ := exists_ok_of_any
    (p := fun s => (s.compile {} f).2.toOption.isSome &&
      (((s.compile {} f).1.get? 1).any fun y => y.arena.toList.map (·.name) == ["a"]) &&
      (((s.compile {} f).1.get? 2).any fun y =>
        y.arena.toList.map (·.name) == ["b", "c"] && y.root? == some 0) &&
      (s.get? 2).any fun x => x.excludes == [] &&
        s.declared.all fun a => decide (a = x) || !x.path.names.isPrefixOf a.path.names)
    (show (ofMap m .declared).toOption.any _ = true by decide +kernel)
  obtain ⟨u, hu, htest'⟩ := exists_ok_of_any
    (p := fun u => (u.compile {} f).2.toOption.isSome &&
      ((u.compile {} f).1.get? 0).any fun z =>
        z.arena.toList.map (·.name) == ["root", "a", "b", "c"])
    (show (ofMap m .full).toOption.any _ = true by decide +kernel)
  simp only [Bool.and_eq_true, Option.any_eq_true, beq_iff_eq, List.all_eq_true, Bool.or_eq_true,
    decide_eq_true_eq, Bool.not_eq_true'] at htest htest'
  obtain ⟨⟨⟨hok, y, hy, hlist⟩, y', hy', hlist', hroot'⟩, x, hx, hexcludes, halone⟩ := htest
  obtain ⟨hok', z, hz, hlist''⟩ := htest'
  obtain ⟨stats, hstats⟩ := exists_ok_of_isSome hok
  obtain ⟨stats', hstats'⟩ := exists_ok_of_isSome hok'
  have hinherited : f.IsInherited := Forest.isInherited_ofModules _
  obtain ⟨z', hz', place, hembeds, hinjective, hsubtree⟩ := declared_embedsIn_full hs hu
    hinherited hbare hrpc (Prod.ext rfl hstats) (Prod.ext rfl hstats')
  obtain rfl := Option.some.inj (hz.symm.trans hz')
  have hsize : 0 < y.arena.size := by
    rw [← Arena.length_toList, ← List.length_map (f := (·.name)), hlist]
    decide
  have hsize' : 0 < y'.arena.size := by
    rw [← Arena.length_toList, ← List.length_map (f := (·.name)), hlist']
    decide
  refine ⟨s, u, _, _, stats, stats', y, y', z, hs, hu, hinherited, hbare, hrpc, Prod.ext rfl hstats,
    Prod.ext rfl hstats', hy, hy', hz, hlist, hlist', hlist'', place, hembeds hy, hembeds hy', ?_,
    (hsubtree hx hy' hexcludes ?_ hroot').1⟩
  · intro heq
    exact absurd (hinjective hy hy' hsize hsize' heq).1 (by decide)
  · intro a ha hne hpre
    rcases halone a ha with heq | hno
    · exact hne heq
    · rw [List.isPrefixOf_iff_prefix.2 hpre] at hno
      cases hno

/-- A leaf that refers to another resource refers outside; in the whole schema it refers inside, so
no container there is the container of the leaf, whatever its place and its surroundings. -/
theorem outside_reference_not_in_full :
    let x : Node := ⟨{ name := "x", kind := .leaf, reference? := some "/b/y" }, []⟩
    let a : Node := ⟨{ name := "a", kind := .container }, [("x", x)]⟩
    let b : Node := ⟨{ name := "b", kind := .container }, [("y", .ofLeaf "y" "string")]⟩
    let f := Forest.ofModules [{ name := "m", nodes := [("a", a), ("b", b)] }]
    let m : ResourceMap := { declared := [("/a", {}), ("/b", {})] }
    ∃ s u t w stats stats' y z c, ofMap m .declared = .ok s ∧ ofMap m .full = .ok u ∧
      f.IsInherited ∧ f.scalarsBare = true ∧ f.withoutRpc = true ∧
      s.compile {} f = (t, .ok stats) ∧ u.compile {} f = (w, .ok stats') ∧
      (∃ x, s.get? 1 = some x ∧ x.excludes = [] ∧
        ∀ a ∈ s.declared, a ≠ x → ¬ x.path.names <+: a.path.names) ∧
      t.get? 1 = some y ∧ w.get? 0 = some z ∧ y.arena.toList = [c] ∧
      ∀ d ∈ z.arena.toList, ∀ place parent? boundary,
        { c.mapPlaces place with parent?, boundary } ≠ d := by
  intro x a b f m
  obtain ⟨s, hs, htest⟩ := exists_ok_of_any
    (p := fun s => (s.compile {} f).2.toOption.isSome &&
      (((s.compile {} f).1.get? 1).any fun y =>
        y.arena.toList.map (·.references.map (·.scope)) == [[.outside (some 2)]]) &&
      (s.get? 1).any fun x => x.excludes == [] &&
        s.declared.all fun a => decide (a = x) || !x.path.names.isPrefixOf a.path.names)
    (show (ofMap m .declared).toOption.any _ = true by decide +kernel)
  obtain ⟨u, hu, htest'⟩ := exists_ok_of_any
    (p := fun u => (u.compile {} f).2.toOption.isSome &&
      ((u.compile {} f).1.get? 0).any fun z =>
        z.arena.toList.all fun d => d.references.all (·.scope.isWithin))
    (show (ofMap m .full).toOption.any _ = true by decide +kernel)
  simp only [Bool.and_eq_true, Option.any_eq_true, beq_iff_eq, List.all_eq_true, Bool.or_eq_true,
    decide_eq_true_eq, Bool.not_eq_true'] at htest htest'
  obtain ⟨⟨hok, y, hy, hscopes⟩, r, hr, hexcludes, halone⟩ := htest
  obtain ⟨hok', z, hz, hwithin⟩ := htest'
  obtain ⟨stats, hstats⟩ := exists_ok_of_isSome hok
  obtain ⟨stats', hstats'⟩ := exists_ok_of_isSome hok'
  obtain ⟨c, hc, hscope⟩ := List.map_eq_singleton_iff.1 hscopes
  obtain ⟨ref, href, houtside⟩ := List.map_eq_singleton_iff.1 hscope
  refine ⟨s, u, _, _, stats, stats', y, z, c, hs, hu, Forest.isInherited_ofModules _,
    by decide +kernel, by decide +kernel, Prod.ext rfl hstats, Prod.ext rfl hstats',
    ⟨r, hr, hexcludes, ?_⟩, hy, hz, hc, ?_⟩
  · intro a ha hne hpre
    rcases halone a ha with heq | hno
    · exact hne heq
    · rw [List.isPrefixOf_iff_prefix.2 hpre] at hno
      cases hno
  · rintro d hd place parent? boundary rfl
    have := hwithin _ hd ref (by
      show ref ∈ c.references
      rw [href]
      exact List.mem_singleton_self ref)
    rw [houtside] at this
    cases this

end ResourceSet

end YangPartition
