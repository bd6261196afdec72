import Mathlib.Data.List.Forall2
import Mathlib.Data.List.Perm.Lattice
import YangPartition.Proofs.Compile.Balance
import YangPartition.Proofs.Compile.References

/-!
# Records of references

A value that refers to a path leaves its reference with the container that its node is placed in
and once more with the resource, among those that stay inside or those that lead out. So the
references of a container follow its values in order, and the two lists of a resource hold those of
its containers, once each. A pass over the types writes the same type to all three.
-/

namespace YangPartition

open Planned
open scoped List

namespace Resource

/-! ### Values that refer to paths -/

/-- The values that an entry stands for: a leaf for its own, a leaf-list for that in the container
of its own. -/
def valuesOf (x : Resource) (e : Entry) : List Entry :=
  match e.kind with
  | .leaf => [e]
  | .leafList => ((e.next?.bind x.arena.get?).map (·.entries)).getD []
  | .container | .list => []

/-- The values of a container that refer to paths, in order. -/
def referringValues (x : Resource) (c : Container) : List Entry :=
  (c.entries.flatMap x.valuesOf).filter (·.target?.isSome)

/-- The references of a resource as recorded with its containers. -/
def recorded (x : Resource) : List Reference := x.arena.toList.flatMap (·.references)

/-- Each reference is recorded once with a container and once with the resource, by its scope. -/
structure Filed (x : Resource) : Prop where
  /-- Those of the containers are those of the resource. -/
  all : x.recorded.Perm (x.innerReferences ++ x.outerReferences)
  /-- The first ones stay inside. -/
  inner : ∀ r ∈ x.innerReferences, r.scope.isWithin = true
  /-- The others lead out. -/
  outer : ∀ r ∈ x.outerReferences, r.scope.isWithin = false

/-- What a reference that is recorded with a container says of the value that refers to a path:
the names of the leaf, the path, and the type found. -/
def RecordOf (type? : Entry → Option String) (c : Container) (e : Entry) (r : Reference) : Prop :=
  r.leaf.names = c.path.names ++ [e.name] ∧ e.target? = some r.target ∧ r.resolvedType? = type? e

/-- The references of a container follow its values. That of a leaf-list leaves its reference with
the container above. -/
def RecordsOf (type? : Entry → Option String) (x : Resource) (c : Container) : Prop :=
  if c.isWrapper then c.references = []
  else List.Forall₂ (RecordOf type? c) (x.referringValues c) c.references

/-- All references of a resource are recorded, each with the type found for its value. -/
structure Records (type? : Entry → Option String) (x : Resource) : Prop extends x.Filed where
  /-- Those of each container follow its values. -/
  each : ∀ {i c}, x.arena.get? i = some c → x.RecordsOf type? c

/-! ### Filing references -/

variable {s : ResourceSet} {o : Options} {x y : Resource} {v : Visit} {tops : List Nat}

/-- An item that yields more makes a list yield more. -/
theorem perm_flatMap_modify {α β : Type} {g : α → List β} {f : α → α} {more : List β} {l : List α}
    {i : Nat} {a : α} (h : l[i]? = some a) (hf : g (f a) = g a ++ more) :
    ((l.modify i f).flatMap g).Perm (l.flatMap g ++ more) := by
  induction l generalizing i with
  | nil => cases h
  | cons b l ih =>
    cases i with
    | zero =>
      obtain rfl := Option.some.inj h
      rw [List.modify_zero_cons, List.flatMap_cons, List.flatMap_cons, hf, List.append_assoc,
        List.append_assoc]
      exact List.perm_append_comm.append_left _
    | succ i =>
      rw [List.modify_succ_cons, List.flatMap_cons, List.flatMap_cons, List.append_assoc]
      exact (ih h).append_left _

/-- A new root container has no references. -/
theorem recorded_placeRoot (hbranch : v.decl.kind.isBranch = true) :
    (x.placeRoot v (s.isBoundary x.id v.path)).recorded = x.recorded := by
  have hlist : (x.placeRoot v (s.isBoundary x.id v.path)).arena.toList = _ :=
    toList_openRoot (s := s) (o := {}) hbranch
  rw [recorded, hlist, List.flatMap_append, List.flatMap_singleton, Container.references_made,
    List.append_nil, recorded]

/-- A node that is put into a container leaves its reference there. -/
theorem recorded_placeBelow {home : Nat} {c : Container} (hc : x.arena.get? home = some c) :
    (x.placeBelow v home (s.isBoundary x.id v.path) (referenceOf? s o x.id v)).recorded.Perm
      (x.recorded ++ (referenceOf? s o x.id v).toList) := by
  have hlist : (x.placeBelow v home (s.isBoundary x.id v.path)
      (referenceOf? s o x.id v)).arena.toList = _ := toList_put (s := s) (o := o) (Arena.get?_lt hc)
  have hnew : (if v.decl.kind.hasContainer then [Container.made s o x.id (some home) v]
      else []).flatMap (·.references) = [] := by
    split
    · rw [List.flatMap_singleton, Container.references_made]
    · rfl
  rw [recorded, hlist, List.flatMap_append, hnew, List.append_nil]
  refine perm_flatMap_modify (a := c) ?_ (Container.references_receive c x.arena.size)
  rw [Arena.toList, Array.getElem?_toList]
  exact hc

/-- The resource files the reference by its scope. -/
theorem references_placeBelow (v : Visit) (home : Nat) (boundary : Bool) (ref? : Option Reference) :
    (x.placeBelow v home boundary ref?).innerReferences =
        x.innerReferences ++ ref?.toList.filter (·.scope.isWithin) ∧
      (x.placeBelow v home boundary ref?).outerReferences =
        x.outerReferences ++ ref?.toList.filter (!·.scope.isWithin) := by
  have hnode : ∀ target?, (x.putNode v home boundary target?).innerReferences = x.innerReferences ∧
      (x.putNode v home boundary target?).outerReferences = x.outerReferences := by
    intro target?
    rw [putNode]
    cases v.decl.kind <;> exact ⟨rfl, rfl⟩
  unfold placeBelow put
  cases ref? with
  | none => simpa using hnode none
  | some ref =>
    simp only [Option.map_some, record, Option.toList_some, List.filter_singleton, hnode]
    cases ref.scope.isWithin <;> simp

/-- A visit keeps the references filed. -/
theorem Filed.see (h : x.Filed) (hsound : x.Sound tops) (hy : x.see s o v = .ok y) : y.Filed := by
  rcases see_cases hy with ⟨rfl, -⟩ | ⟨-, -, -, rfl⟩ | ⟨-, -, hbranch, -, -, rfl⟩ |
    ⟨parent, -, -, -, -, hparent, rfl⟩
  · exact h
  · rw [abandon]
    split
    · exact h
    · exact ⟨h.all, h.inner, h.outer⟩
  · exact ⟨(recorded_placeRoot hbranch).symm ▸ h.all, h.inner, h.outer⟩
  · obtain ⟨⟨c, hc, -⟩, -⟩ := hsound.parent hparent
    obtain ⟨hinner, houter⟩ := references_placeBelow (x := x) v parent (s.isBoundary x.id v.path)
      (referenceOf? s o x.id v)
    refine ⟨(recorded_placeBelow hc).trans ?_, fun r hr => ?_, fun r hr => ?_⟩
    · rw [hinner, houter]
      generalize (referenceOf? s o x.id v).toList = refs
      calc x.recorded ++ refs
        _ ~ (x.innerReferences ++ x.outerReferences) ++
              (refs.filter (·.scope.isWithin) ++ refs.filter (!·.scope.isWithin)) :=
          h.all.append (List.filter_append_perm _ refs).symm
        _ = x.innerReferences ++ (x.outerReferences ++
              (refs.filter (·.scope.isWithin) ++ refs.filter (!·.scope.isWithin))) :=
          List.append_assoc ..
        _ ~ x.innerReferences ++ (refs.filter (·.scope.isWithin) ++
              (x.outerReferences ++ refs.filter (!·.scope.isWithin))) :=
          List.perm_append_comm_assoc .. |>.append_left _
        _ = (x.innerReferences ++ refs.filter (·.scope.isWithin)) ++
              (x.outerReferences ++ refs.filter (!·.scope.isWithin)) :=
          (List.append_assoc ..).symm
    · rw [hinner, List.mem_append, List.mem_filter] at hr
      exact hr.elim (h.inner r) (·.2)
    · rw [houter, List.mem_append, List.mem_filter] at hr
      exact hr.elim (h.outer r) fun hr => by simpa using hr.2

/-- Before the first visit nothing has been recorded. -/
theorem filed_started (hs : s.Instantiated) {id : Nat} (hx : s.get? id = some x) :
    (x.started s).Filed := by
  have hempty : ∀ c ∈ (x.started s).arena.toList, c.references = [] := by
    intro c hc
    obtain ⟨i, hi⟩ := List.mem_iff_getElem?.1 hc
    rw [Arena.toList, Array.getElem?_toList] at hi
    rw [get?_started hs hx hi]
    rfl
  have hinner : (x.started s).innerReferences = [] := by
    rw [started, ← hs.blank_eq hx]
    split <;> rfl
  have houter : (x.started s).outerReferences = [] := by
    rw [started, ← hs.blank_eq hx]
    split <;> rfl
  refine ⟨?_, fun r hr => ?_, fun r hr => ?_⟩
  · rw [recorded, List.flatMap_eq_nil_iff.2 hempty, hinner, houter]
    exact .nil
  · rw [hinner] at hr
    cases hr
  · rw [houter] at hr
    cases hr

/-- Visits keep the references filed. -/
theorem Filed.seeAll (hs : s.Instantiated) {vs : List Visit} (hget : s.get? x.id = some x.blank)
    (hx : ∃ tops, x.Sound tops) (h : x.Filed) (hy : x.seeAll s o vs = .ok y) : y.Filed :=
  seeAll_induction hs (fun _ _ hsound hy' hfiled => hfiled.see hsound hy') hget hx h hy

end Resource

/-! ### Slots -/

/-- What a slot holds: those of its nodes have containers that get one, and the slot of a leaf-list
holds nothing. -/
def Slot.Proper (t : Slot) : Prop :=
  (t.visit.decl.kind = .leafList → t.held = []) ∧
    ∀ h ∈ t.held, h.2.isSome = h.1.decl.kind.hasContainer

namespace Planned

theorem isSome_of_mem_placesAll {start : Nat} {ps : List Planned} {h : Visit × Option Nat}
    (hmem : h ∈ placesAll start ps) : h.2.isSome = h.1.decl.kind.hasContainer := by
  induction ps generalizing start with
  | nil => cases hmem
  | cons p ps ih =>
    rcases List.mem_cons.1 hmem with rfl | hmem
    · cases p.visit.decl.kind.hasContainer <;> rfl
    · exact ih hmem

mutual

theorem proper_slots (parent? : Option Nat) (start : Nat) (p : Planned) :
    ∀ t ∈ p.slots parent? start, t.Proper := by
  obtain ⟨v, children⟩ := p
  rw [slots]
  split
  · next hbranch =>
    rw [List.forall_mem_cons]
    refine ⟨⟨fun hkind => ?_, fun h hmem => isSome_of_mem_placesAll hmem⟩,
      proper_slotsAll (some start) (start + 1) children⟩
    rw [hkind] at hbranch
    cases hbranch
  · split
    · intro t ht
      obtain rfl := List.mem_singleton.1 ht
      exact ⟨fun _ => rfl, fun h hmem => by cases hmem⟩
    · exact fun t ht => by cases ht
termination_by structural p

theorem proper_slotsAll (parent? : Option Nat) (start : Nat) (ps : List Planned) :
    ∀ t ∈ slotsAll parent? start ps, t.Proper := by
  match ps with
  | [] => exact fun t ht => by cases ht
  | p :: ps =>
    rw [slotsAll]
    intro t ht
    rcases List.mem_append.1 ht with ht | ht
    · exact proper_slots parent? start p t ht
    · exact proper_slotsAll parent? (start + p.size) ps t ht
termination_by structural ps

end

end Planned

/-! ### References follow the values -/

namespace Resource

variable {s : ResourceSet} {o : Options} {x : Resource} {id : Nat} {h : Visit × Option Nat}

theorem of_referenceOf?_eq_some {v : Visit} {r : Reference}
    (hr : referenceOf? s o id v = some r) : r.leaf = v.path ∧ r.resolvedType? = none := by
  rw [referenceOf?] at hr
  split at hr
  · obtain ⟨target, -, rfl⟩ := Option.map_eq_some_iff.1 hr
    exact ⟨rfl, rfl⟩
  · cases hr

/-- The container of a leaf-list holds its one value. -/
def HoldsValue (s : ResourceSet) (o : Options) (id : Nat) (x : Resource)
    (h : Visit × Option Nat) : Prop :=
  ∀ place, h.2 = some place → h.1.decl.kind = .leafList → ∃ w, x.arena.get? place = some w ∧
    w.entries = [{ Entry.value h.1.decl with
      target? := (referenceOf? s o id h.1).map (·.target) }]

/-- An entry stands for a value that refers to the path of the reference of its node, if the node
has one. -/
theorem valuesOf_ofHeld (hplace : h.2.isSome = h.1.decl.kind.hasContainer)
    (hvalue : HoldsValue s o id x h) :
    if h.1.decl.kind.isBranch then
      x.valuesOf (.ofHeld s o id h) = [] ∧ referenceOf? s o id h.1 = none
    else ∃ e, x.valuesOf (.ofHeld s o id h) = [e] ∧ e.name = h.1.decl.name ∧
      e.target? = (referenceOf? s o id h.1).map (·.target) := by
  obtain ⟨v, place?⟩ := h
  have hbare : v.decl.kind.isScalar = false → referenceOf? s o id v = none := by
    intro hscalar
    rw [referenceOf?, hscalar, if_neg Bool.false_ne_true]
  cases hkind : v.decl.kind with
  | container | list =>
    obtain ⟨place, rfl⟩ : ∃ place, place? = some place := by
      rw [← Option.isSome_iff_exists, hplace, hkind]
      rfl
    refine ⟨?_, hbare (by rw [hkind]; rfl)⟩
    simp [valuesOf, Entry.ofHeld, Entry.pointingTo, Entry.ofDeclaration, EntryKind.ofKind, hkind]
  | leafList =>
    obtain ⟨place, rfl⟩ : ∃ place, place? = some place := by
      rw [← Option.isSome_iff_exists, hplace, hkind]
      rfl
    obtain ⟨w, hw, hentries⟩ := hvalue place rfl hkind
    refine ⟨{ Entry.value v.decl with target? := (referenceOf? s o id v).map (·.target) },
      ?_, rfl, rfl⟩
    simp [valuesOf, Entry.ofHeld, Entry.pointingTo, Entry.ofDeclaration, EntryKind.ofKind, hkind,
      hw, hentries, Entry.value]
  | leaf | choice | case | rpc =>
    have hnone : place? = none := by
      rw [← Option.not_isSome_iff_eq_none, hplace, hkind]
      simp [Kind.hasContainer, Kind.isBranch]
    subst hnone
    refine ⟨.ofHeld s o id (v, none), ?_, rfl, rfl⟩
    simp [valuesOf, Entry.ofHeld, Entry.ofDeclaration, EntryKind.ofKind, hkind]

/-- The reference of a placed node, if there is one, follows from its value. -/
theorem forall₂_valuesOf {c : Container} (hplace : h.2.isSome = h.1.decl.kind.hasContainer)
    (hvalue : HoldsValue s o id x h) (hbelow : h.1.below = c.path) :
    List.Forall₂ (RecordOf (fun _ => none) c)
      ((x.valuesOf (.ofHeld s o id h)).filter (·.target?.isSome))
      (referenceOf? s o id h.1).toList := by
  have hvalues := valuesOf_ofHeld hplace hvalue
  split at hvalues
  · rw [hvalues.1, hvalues.2]
    exact .nil
  · obtain ⟨e, he, hname, htarget⟩ := hvalues
    rw [he, List.filter_singleton, htarget, Option.isSome_map]
    cases href : referenceOf? s o id h.1 with
    | none => exact .nil
    | some r =>
      obtain ⟨hleaf, htype⟩ := of_referenceOf?_eq_some href
      refine .cons ⟨?_, ?_, htype⟩ .nil
      · rw [hleaf, Visit.names_path, hbelow, hname]
      · rw [htarget, href]
        rfl

/-- The references of a container with placed nodes follow the values of these. -/
theorem forall₂_ofHeld {c : Container} {held : List (Visit × Option Nat)}
    (hplace : ∀ h ∈ held, h.2.isSome = h.1.decl.kind.hasContainer)
    (hvalue : ∀ h ∈ held, HoldsValue s o id x h) (hbelow : ∀ h ∈ held, h.1.below = c.path) :
    List.Forall₂ (RecordOf (fun _ => none) c)
      (((held.map (.ofHeld s o id)).flatMap x.valuesOf).filter (·.target?.isSome))
      (held.filterMap fun h => referenceOf? s o id h.1) := by
  rw [List.filterMap_eq_flatMap_toList]
  induction held with
  | nil => exact .nil
  | cons h held ih =>
    rw [List.forall_mem_cons] at hplace hvalue hbelow
    rw [List.map_cons, List.flatMap_cons, List.filter_append, List.flatMap_cons]
    exact List.rel_append (forall₂_valuesOf hplace.1 hvalue.1 hbelow.1)
      (ih hplace.2 hvalue.2 hbelow.2)

end Resource

namespace Forest

open Resource

variable {s : ResourceSet} {o : Options} {x : Resource} {f : Forest} {id : Nat}

/-- The slot of a leaf-list has a container with the value of the leaf-list. -/
theorem holdsValue_grow (hs : s.Instantiated) (hx : s.get? id = some x) {h : Visit × Option Nat}
    (hslot : ∀ place, h.2 = some place → ∃ (j : Nat) (u : Slot),
      (f.slots s o x)[j]? = some u ∧ place = x.firstPlace s + j ∧ u.visit = h.1) :
    HoldsValue s o x.id (f.grow s o x) h := by
  intro place hplace hkind
  obtain ⟨j, u, hu, rfl, hvisit⟩ := hslot place hplace
  have hproper : u.Proper := proper_slotsAll _ _ _ u (List.mem_of_getElem? hu)
  have hnone := hproper.1 (by rw [hvisit, hkind])
  refine ⟨u.container s o x.id, ?_, ?_⟩
  · rw [get?_grow hs hx, hu]
    rfl
  · rw [Slot.entries_container, Slot.entries, Slot.ownEntries, hvisit, if_pos hkind, hnone]
    rfl

/-- The container of a leaf-list stands below another one. -/
theorem isSome_parent?_of_leafList {tops : List Nat} {y : Resource} (hy : y.Sound tops) {i : Nat}
    {t : Slot} (hc : y.arena.get? i = some (t.container s o id))
    (hkind : t.visit.decl.kind = .leafList) : t.parent?.isSome = true := by
  rw [Option.isSome_iff_ne_none]
  intro hparent
  have hnone : (t.container s o id).parent? = none := t.parent?_container.trans hparent
  have hsynthetic := (hy.top_synthetic hc hnone).1 (by simp [hkind])
  have hlen := hy.linked.top_length hc hnone
  rw [Slot.path_container, Visit.length_path] at hlen
  omega

/-- After a compilation the references of all containers follow their values. -/
theorem recordsOf_grow (hs : s.Instantiated) (hx : s.get? id = some x) {tops : List Nat}
    (hsound : (f.grow s o x).Sound tops) {i : Nat} {c : Container}
    (hc : (f.grow s o x).arena.get? i = some c) :
    (f.grow s o x).RecordsOf (fun _ => none) c := by
  have hlinked := linked_slots (f.relates_path (o := o) hs hx)
  rw [RecordsOf]
  rcases get?_grow_cases hs hx hc with ⟨-, htop, rfl⟩ | ⟨k, t, -, ht, rfl⟩
  · -- what is placed on top
    rw [if_neg (by simp [Container.isWrapper, Container.filled, Container.ofName])]
    refine forall₂_ofHeld (fun h hmem => isSome_of_mem_placesAll hmem)
      (fun h hmem => holdsValue_grow hs hx fun place hplace => ?_)
      fun h hmem => (f.relates_path (o := o) hs hx).of_mem_placesAll hmem htop
    obtain ⟨v, place?⟩ := h
    obtain rfl : place? = some place := hplace
    obtain ⟨j, u, hu, rfl, hvisit⟩ := exists_slot_of_mem_placesAll (x.topPlace? s) hmem
    refine ⟨j, u, ?_, ?_, hvisit⟩
    · rw [slots, firstPlace, if_pos htop]
      exact hu
    · rw [firstPlace, if_pos htop]
  · have hmem := List.mem_of_getElem? ht
    obtain ⟨hempty, hplaces⟩ : t.Proper := proper_slotsAll _ _ _ t hmem
    rw [Container.isWrapper, Slot.synthetic_container, Slot.parent?_container, referringValues,
      Slot.entries_container, Slot.references_container, Slot.entries, Slot.ownEntries]
    by_cases hkind : t.visit.decl.kind = .leafList
    · rw [hkind, beq_self_eq_true, isSome_parent?_of_leafList hsound hc hkind, Bool.and_self,
        if_pos rfl, hempty hkind]
      rfl
    · rw [beq_false_of_ne hkind, Bool.false_and, if_neg Bool.false_ne_true, if_neg hkind,
        List.nil_append]
      refine forall₂_ofHeld hplaces (fun h hh => holdsValue_grow hs hx fun place hplace =>
        hlinked.place hmem (by rw [← hplace]; exact hh)) fun h hh => ?_
      rw [Slot.path_container]
      exact hlinked.held hmem hh

end Forest

/-! ### Types -/

namespace Resource

variable {x : Resource} {g : Findings}

theorem scope_typedReference (g : Findings) (r : Reference) :
    (typedReference g r).scope = r.scope := by
  rw [typedReference]
  split <;> rfl

theorem leaf_typedReference (g : Findings) (r : Reference) :
    (typedReference g r).leaf = r.leaf := by
  rw [typedReference]
  split <;> rfl

/-- Writing types keeps the references filed. -/
theorem Filed.withTypes (h : x.Filed) (g : Findings) : (x.withTypes g).Filed := by
  have hrecorded : (x.withTypes g).recorded = x.recorded.map (typedReference g) := by
    simp only [recorded, Resource.withTypes, Arena.toList, Array.toList_map, List.flatMap_map,
      List.map_flatMap]
  refine ⟨?_, fun r hr => ?_, fun r hr => ?_⟩
  · rw [hrecorded]
    refine (h.all.map _).trans ?_
    rw [List.map_append]
    exact .rfl
  · obtain ⟨q, hq, rfl⟩ := List.mem_map.1 hr
    rw [scope_typedReference]
    exact h.inner q hq
  · obtain ⟨q, hq, rfl⟩ := List.mem_map.1 hr
    rw [scope_typedReference]
    exact h.outer q hq

/-- An entry with a type stands for the same values with types. -/
theorem valuesOf_withTypes (x : Resource) (g : Findings) (e : Entry) :
    (x.withTypes g).valuesOf (typedEntry g e) = (x.valuesOf e).map (typedEntry g) := by
  have hkind : (typedEntry g e).kind = e.kind := by
    rw [typedEntry]
    split <;> rfl
  have hnext : (typedEntry g e).next? = e.next? := by
    rw [typedEntry]
    split <;> rfl
  rw [valuesOf, valuesOf, hkind, hnext]
  cases e.kind with
  | leaf | container | list => rfl
  | leafList =>
    cases e.next? with
    | none => rfl
    | some place =>
      simp only [Option.bind_some, get?_withTypes]
      cases x.arena.get? place <;> rfl

/-- A value of a container that refers to a path is an entry of the resource. -/
theorem has_of_mem_referringValues {i : Nat} {c : Container} (hc : x.arena.get? i = some c)
    {e : Entry} (he : e ∈ x.referringValues c) : x.Has e := by
  obtain ⟨d, hd, he⟩ := List.mem_flatMap.1 (List.mem_of_mem_filter he)
  rw [valuesOf] at he
  split at he
  · rw [List.mem_singleton.1 he]
    exact ⟨i, c, hc, hd⟩
  · cases hw : d.next?.bind x.arena.get? with
    | none =>
      rw [hw] at he
      cases he
    | some w =>
      rw [hw] at he
      obtain ⟨place, -, hplace⟩ := Option.bind_eq_some_iff.1 hw
      exact ⟨place, w, hplace, he⟩
  · cases he
  · cases he

/-- A pass over the types writes the type found for a value to its reference too. -/
theorem RecordsOf.withTypes {type? : Entry → Option String} {i : Nat} {c : Container}
    (h : x.RecordsOf type? c) (hc : x.arena.get? i = some c)
    (hfound : ∀ p ∈ x.targets, (g.get? p).isSome = true) :
    (x.withTypes g).RecordsOf (fun e => some e.typeName)
      { c with
        entries := c.entries.map (typedEntry g)
        references := c.references.map (typedReference g) } := by
  generalize hd : { c with
    entries := c.entries.map (typedEntry g)
    references := c.references.map (typedReference g) } = d
  have hvalues : (x.withTypes g).referringValues d = (x.referringValues c).map (typedEntry g) := by
    rw [referringValues, referringValues, ← hd, List.flatMap_map]
    simp only [valuesOf_withTypes, ← List.map_flatMap, List.filter_map, Function.comp_def,
      target?_typedEntry]
  have hwrapper : d.isWrapper = c.isWrapper := by
    rw [← hd]
    rfl
  rw [RecordsOf, hwrapper, hvalues, show d.references = c.references.map (typedReference g) by
    rw [← hd]]
  rw [RecordsOf] at h
  split
  · next htrue =>
    rw [if_pos htrue] at h
    rw [h, List.map_nil]
  · next hfalse =>
    rw [if_neg hfalse] at h
    rw [List.forall₂_map_left_iff, List.forall₂_map_right_iff]
    have hmem := (List.forall₂_and_left _ _).2
      ⟨fun e he => has_of_mem_referringValues hc (e := e) he, h⟩
    refine hmem.imp fun e r ⟨hhas, hnames, htarget, _⟩ => ⟨?_, ?_, ?_⟩
    · rw [leaf_typedReference, name_typedEntry, ← hd]
      exact hnames
    · rw [target?_typedEntry, target_typedReference]
      exact htarget
    · have hsome := hfound r.target (hhas.mem_targets htarget)
      obtain ⟨found, hfound⟩ := Option.isSome_iff_exists.1 hsome
      rw [typedReference, typedEntry, htarget, hfound]
      simp only [Findings.typeFor, hfound, Option.getD_some]

end Resource

/-! ### The result -/

namespace ResourceSet

open Resource

variable {s t : ResourceSet} {o : Options} {f : Forest}

/-- After a compilation that succeeds all references are recorded, without types. -/
theorem Instantiated.records_compile (hs : s.Instantiated) (hbare : f.scalarsBare = true)
    {stats : Stats} (h : s.compile o f = (t, .ok stats)) {id : Nat} {x : Resource}
    (hx : t.get? id = some x) : x.Records fun _ => none := by
  obtain ⟨r, hr, -⟩ := exists_get?_of_blank hs.blank (hs.blank_compile h) hx
  obtain ⟨y, hy, hget⟩ := Forest.seeAll_of_compile hs hs.blank h hr
  obtain rfl := Option.some.inj (hx.symm.trans hget)
  have hself : s.get? (r.started s).id = some (r.started s).blank := by
    rw [id_of_blank (blank_started s r), blank_started, hs.id_eq hs.blank hr, hr, hs.blank_eq hr]
  have hfiled := (filed_started hs hr).seeAll hs hself (sound_started hs hr) hy
  have hgrown := Option.some.inj (hx.symm.trans (Forest.grow_of_compile hs hbare h hr))
  have hsound : ∃ tops, (f.grow s o r).Sound tops := by
    have hsound := hs.sound_compile o f (by rw [h]; exact hx)
    rw [hgrown] at hsound
    exact hsound.elim (⟨_, ·⟩) (⟨_, ·⟩)
  obtain ⟨tops, hsound⟩ := hsound
  refine ⟨⟨hfiled.all, hfiled.inner, hfiled.outer⟩, fun {i c} hc => ?_⟩
  rw [hgrown] at hc ⊢
  exact Forest.recordsOf_grow hs hr hsound hc

/-- Finishing sets marks only, but for the types in the whole schema. -/
theorem get?_finish_of_ne {id : Nat} (hid : id ≠ rootId) :
    t.finish.1.get? id = (t.get? id).map fun x =>
      if x.isRoot then x else { x with arena := x.arena.closeState } := by
  have hresolve : t.resolveTypes.1.get? id = t.get? id := by
    rw [resolveTypes]
    split
    · rw [get?_modify, if_neg fun h => hid h.symm]
    · rfl
  rw [finish, ← hresolve]
  simp only [get?, closeState, Array.getElem?_map]

/-- Where the whole schema is compiled, finishing leaves the other resources empty. -/
theorem Instantiated.get?_finish_of_ne (hs : s.Instantiated) (hmode : s.mode = .full)
    {result : Except Error Stats} (h : s.compile o f = (t, result)) {id : Nat} (hid : id ≠ rootId)
    {y : Resource} (hy : t.finish.1.get? id = some y) :
    t.get? id = some y ∧ y.arena.size = 0 := by
  rw [ResourceSet.get?_finish_of_ne hid] at hy
  obtain ⟨x, hx, rfl⟩ := Option.map_eq_some_iff.1 hy
  have hsound := (hs.sound.compile hs o f).each (by rw [h]; exact hx)
  rw [hmode, SoundIn, if_neg hid] at hsound
  have hempty : x.arena = {} :=
    congrArg Arena.mk (Array.eq_empty_of_size_eq_zero (Sound.size_eq_zero hsound))
  have hsame : (if x.isRoot then x else { x with arena := x.arena.closeState }) = x := by
    split
    · rfl
    · rw [show x.arena.closeState = x.arena by rw [hempty]; rfl]
  rw [hsame]
  exact ⟨hx, by rw [hempty]; rfl⟩

/-- No reference is lost or recorded twice. After a compilation of a forest where leafs and
leaf-lists have nothing below them, each resource has the references of its containers once more, by
their scopes; those of a container follow its values that refer to paths; and all are counted. A
pass over the types of the whole schema writes the same type to the value and to both references. -/
theorem references_recorded {m : ResourceMap} {mode : Mode} (hs : ofMap m mode = .ok s)
    (hbare : f.scalarsBare = true) {stats : Stats} (h : s.compile o f = (t, .ok stats)) :
    (∀ {id x}, t.get? id = some x → x.Records fun _ => none) ∧
    stats.references = (t.toList.map (·.recorded.length)).sum ∧
    (mode = .full → ∀ {id y}, t.finish.1.get? id = some y →
      y.Records fun e => some e.typeName) := by
  have hinst := instantiated_ofMap hs
  obtain ⟨hmode, -⟩ := exists_root_ofMap hs
  refine ⟨hinst.records_compile hbare h, ?_, fun hfull {id y} hy => ?_⟩
  · have hbalanced := (hinst.balanced_compile h).references
    rw [← hbalanced]
    simp only [total, Arena.total, recorded, List.length_flatMap]
  · rw [← hmode] at hfull
    by_cases hid : id = rootId
    · subst hid
      have hblank := hinst.blank_compile h
      have hmode' : t.mode = .full := by rw [← hfull, ← hblank]; rfl
      obtain ⟨x, hx⟩ : ∃ x, t.get? rootId = some x := by
        obtain ⟨r, hr, -⟩ := hinst.top
        obtain ⟨x, hx, -⟩ := exists_get?_of_blank hblank hinst.blank hr
        exact ⟨x, hx⟩
      have hroot := root?_of_compile hinst hfull hinst.sound h hx
      rw [get?_finish_full hmode' hx (hinst.id_eq hblank hx), retyped_eq hroot] at hy
      obtain rfl := Option.some.inj hy
      have hrecords := hinst.records_compile hbare h hx
      refine ⟨hrecords.toFiled.withTypes _, fun {i d} hd => ?_⟩
      rw [get?_withTypes] at hd
      obtain ⟨c, hc, rfl⟩ := Option.map_eq_some_iff.1 hd
      refine (hrecords.each hc).withTypes hc fun p hp => ?_
      rw [Findings.get?_ofTargets, Option.isSome_map, List.find?_isSome]
      exact ⟨p, hp, beq_self_eq_true _⟩
    · obtain ⟨hx, hsize⟩ := hinst.get?_finish_of_ne hfull h hid hy
      refine ⟨(hinst.records_compile hbare h hx).toFiled, fun {i c} hc => ?_⟩
      have := Arena.get?_lt hc
      omega

/-- A leaf and a leaf-list refer to a leaf and, in vain, to none. Both references are recorded with
the container and with the resource, in order and with the types found. -/
theorem references_recorded_list :
    let leafref (name expr : String) (kind : Kind) : Node :=
      ⟨({ name, kind } : Declaration).withReference expr, []⟩
    let a : Node := (((Node.ofKind .container "a").withChild (.ofLeaf "n" "uint8")).withChild
      (leafref "r" "../n" .leaf)).withChild (leafref "t" "../zz" .leafList)
    let f := Forest.ofModules [{ name := "m", nodes := [("a", a)] }]
    ∃ s t stats x y c, ofMap {} .full = .ok s ∧ s.compile {} f = (t, .ok stats) ∧
      stats.references = 2 ∧ t.get? rootId = some x ∧ (x.Records fun _ => none) ∧
      t.finish.1.get? rootId = some y ∧ (y.Records fun e => some e.typeName) ∧
      y.arena.get? 1 = some c ∧
      (y.referringValues c).map (fun e => (e.name, e.typeName)) =
        [("r", "uint8"), ("t", "not found")] ∧
      c.references.map (·.leaf.names) = [["a", "r"], ["a", "t"]] ∧
      y.innerReferences.map (·.resolvedType?) = [some "uint8", some "not found"] := by
  intro leafref a f
  obtain ⟨s, hs, htest⟩ := exists_ok_of_any
    (p := fun s => (s.compile {} f).2.toOption.any (·.references == 2) &&
      ((s.compile {} f).1.get? rootId).isSome &&
      ((s.compile {} f).1.finish.1.get? rootId).any fun y => (y.arena.get? 1).any fun c =>
        (y.referringValues c).map (fun e => (e.name, e.typeName)) ==
          [("r", "uint8"), ("t", "not found")] &&
        c.references.map (·.leaf.names) == [["a", "r"], ["a", "t"]] &&
        y.innerReferences.map (·.resolvedType?) == [some "uint8", some "not found"])
    (show (ofMap {} .full).toOption.any _ = true by decide +kernel)
  simp only [Bool.and_eq_true, Option.any_eq_true, beq_iff_eq] at htest
  obtain ⟨⟨hresult, hget⟩, y, hy, c, hc, ⟨hvalues, hnames⟩, htypes⟩ := htest
  obtain ⟨x, hx⟩ := Option.isSome_iff_exists.1 hget
  obtain ⟨stats, hstats, hcount⟩ := exists_ok_of_any
    (p := fun stats : Stats => stats.references == 2) (by
      obtain ⟨stats, hstats, hcount⟩ := hresult
      rw [hstats, Option.any_some, hcount]
      rfl)
  obtain ⟨hcompiled, -, hfinished⟩ :=
    references_recorded hs (by decide +kernel) (Prod.ext rfl hstats)
  exact ⟨s, _, stats, x, y, c, hs, Prod.ext rfl hstats, beq_iff_eq.1 hcount, hx, hcompiled hx, hy,
    hfinished rfl hy, hc, hvalues, hnames, htypes⟩

end ResourceSet

end YangPartition
