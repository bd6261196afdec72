import YangPartition.Proofs.Compile.Lasting
import YangPartition.Proofs.Compile.Records

/-!
# References that lead out

A value that refers to a path leaves its reference with the resource, and where the path belongs
decides whether it leads out. So the references of a resource that lead out are those of its values
whose paths do not belong to it, once each, after any calls.
-/

namespace YangPartition

open scoped List

/-! ### Targets of containers -/

/-- The paths that the entries of a container refer to. -/
def Container.targets (c : Container) : List Path := c.entries.filterMap (·.target?)

section

variable {s : ResourceSet} {o : Options} {id : Nat} {v : Visit}

/-- A node that is put into a container refers to its path there, unless it has a container. -/
theorem Container.targets_receive (c : Container) (place : Nat) :
    (c.receive s o id place v).targets = c.targets ++
      if v.decl.kind.hasContainer then []
      else ((Resource.referenceOf? s o id v).map (·.target)).toList := by
  rw [receive_eq_filled, targets, targets, filled]
  simp only [List.map_singleton, List.filterMap_append]
  congr 1
  cases v.decl.kind.hasContainer with
  | true => rfl
  | false => cases href : Resource.referenceOf? s o id v <;> simp [Entry.ofHeld, href]

/-- A new container refers to a path if it is that of a leaf-list. -/
theorem Container.targets_made (parent? : Option Nat) :
    (made s o id parent? v).targets =
      if v.decl.kind = .leafList then ((Resource.referenceOf? s o id v).map (·.target)).toList
      else [] := by
  rw [targets, made_eq_container, Slot.entries_container, Slot.entries, List.map_nil,
    List.append_nil, Slot.ownEntries]
  by_cases hkind : v.decl.kind = .leafList
  · rw [if_pos hkind, if_pos hkind]
    cases Resource.referenceOf? s o id v <;> simp
  · rw [if_neg hkind, if_neg hkind]
    rfl

end

namespace Resource

variable {s : ResourceSet} {o : Options} {x y : Resource} {v : Visit} {tops : List Nat}

/-- A node that is put into a container adds the path that it refers to. -/
theorem targets_placeBelow {home : Nat} {c : Container} (hc : x.arena.get? home = some c) :
    (x.placeBelow v home (s.isBoundary x.id v.path) (referenceOf? s o x.id v)).targets ~
      x.targets ++ ((referenceOf? s o x.id v).map (·.target)).toList := by
  have hlist : (x.placeBelow v home (s.isBoundary x.id v.path)
      (referenceOf? s o x.id v)).arena.toList = _ := toList_put (s := s) (o := o) (Arena.get?_lt hc)
  have hat : x.arena.toList[home]? = some c := by
    rw [Arena.toList, Array.getElem?_toList]
    exact hc
  change List.flatMap Container.targets _ ~ x.arena.toList.flatMap Container.targets ++ _
  rw [hlist, List.flatMap_append]
  refine ((perm_flatMap_modify hat (Container.targets_receive c x.arena.size)).append_right _).trans
    ?_
  rw [List.append_assoc]
  refine List.Perm.append_left _ (.of_eq ?_)
  -- the path is that of the node's own container or of the one above
  cases hkind : v.decl.kind with
  | leafList => simp [Kind.hasContainer, Container.targets_made, hkind]
  | container | list =>
    simp [Kind.hasContainer, Kind.isBranch, Container.targets_made, referenceOf?, Kind.isScalar,
      hkind]
  | leaf | choice | case | rpc => simp [Kind.hasContainer, Kind.isBranch]

/-- A new root container refers to no path. -/
theorem targets_placeRoot (hbranch : v.decl.kind.isBranch = true) :
    (x.placeRoot v (s.isBoundary x.id v.path)).targets = x.targets := by
  have hlist : (x.placeRoot v (s.isBoundary x.id v.path)).arena.toList = _ :=
    toList_openRoot (s := s) (o := {}) hbranch
  change List.flatMap Container.targets _ = x.arena.toList.flatMap Container.targets
  rw [hlist, List.flatMap_append, List.flatMap_singleton, Container.targets_made,
    if_neg (Kind.ne_leafList_of_isBranch hbranch), List.append_nil]

/-! ### What lasts -/

/-- Paths that are referred to from a resource, with where they lead, as far as they lead out. -/
def leadingOut (s : ResourceSet) (id : Nat) (targets : List Path) : List (Path × Scope) :=
  (targets.map fun p => (p, Reference.scopeOf s id p)).filter fun q => !q.2.isWithin

/-- The references that lead out of a resource are those of its values that do. -/
def FilesOutside (s : ResourceSet) (x : Resource) : Prop :=
  x.outerReferences.map (fun r => (r.target, r.scope)) ~ leadingOut s x.id x.targets

theorem scope_of_referenceOf? {id : Nat} {r : Reference} (h : referenceOf? s o id v = some r) :
    r.scope = Reference.scopeOf s id r.target := by
  rw [referenceOf?] at h
  split at h
  · obtain ⟨target, -, rfl⟩ := Option.map_eq_some_iff.1 h
    rfl
  · cases h

/-- The reference of a node leads out as its path does. -/
theorem map_filter_referenceOf? (s : ResourceSet) (o : Options) (id : Nat) (v : Visit) :
    ((referenceOf? s o id v).toList.filter (!·.scope.isWithin)).map
        (fun r => (r.target, r.scope)) =
      leadingOut s id ((referenceOf? s o id v).map (·.target)).toList := by
  cases h : referenceOf? s o id v with
  | none => rfl
  | some r =>
    have hscope := scope_of_referenceOf? h
    rw [leadingOut, Option.map_some, Option.toList_some, Option.toList_some, List.map_singleton,
      ← hscope, List.filter_singleton, List.filter_singleton]
    cases r.scope.isWithin <;> rfl

theorem FilesOutside.see (h : x.FilesOutside s) (hx : x.Sound tops) (hy : x.see s o v = .ok y) :
    y.FilesOutside s := by
  have hid := id_of_blank (blank_of_see hy)
  rcases see_cases hy with ⟨rfl, -⟩ | ⟨-, -, -, rfl⟩ | ⟨-, -, hbranch, -, -, rfl⟩ |
    ⟨parent, -, -, -, -, hparent, rfl⟩
  · exact h
  · rw [abandon]
    split
    · exact h
    · exact h
  · rw [FilesOutside, targets_placeRoot hbranch, hid]
    exact h
  · obtain ⟨⟨c, hc, -⟩, -⟩ := hx.parent hparent
    rw [FilesOutside, (references_placeBelow v parent _ _).2, List.map_append,
      map_filter_referenceOf?, hid]
    calc x.outerReferences.map (fun r => (r.target, r.scope)) ++ leadingOut s x.id _
      _ ~ leadingOut s x.id x.targets ++ leadingOut s x.id _ := h.append_right _
      _ = leadingOut s x.id (x.targets ++ _) := by
        rw [leadingOut, leadingOut, leadingOut, List.map_append, List.filter_append]
      _ ~ leadingOut s x.id _ := ((targets_placeBelow hc).symm.map _).filter _

/-- Marks do not change what is referred to. -/
theorem targets_closeState (x : Resource) :
    targets { x with arena := x.arena.closeState } = x.targets := by
  have hmap : x.arena.closeState.toList.map Container.targets =
      x.arena.toList.map Container.targets := by
    refine List.ext_getElem? fun i => ?_
    have hview := (Arena.map_closeState Container.targets (fun _ => rfl) x.arena i).1
    rw [List.getElem?_map, List.getElem?_map, Arena.toList, Arena.toList, Array.getElem?_toList,
      Array.getElem?_toList]
    exact hview
  change x.arena.closeState.toList.flatMap Container.targets =
    x.arena.toList.flatMap Container.targets
  rw [List.flatMap_def, List.flatMap_def, hmap]

/-- A container on top refers to no path. -/
theorem targets_placeTop (x : Resource) : x.placeTop.targets = x.targets := by
  have hlist : x.placeTop.arena.toList = x.arena.toList ++ [.ofName "root" none] := by
    simp [placeTop, openTop, Arena.alloc, Arena.toList, Container.ofName]
  change List.flatMap Container.targets _ = x.arena.toList.flatMap Container.targets
  rw [hlist, List.flatMap_append, List.flatMap_singleton]
  exact List.append_nil _

/-- The references of a resource that lead out are those of its values after any calls. -/
theorem lasting_filesOutside (s : ResourceSet) : Lasting s (FilesOutside s) where
  blank _ := .nil
  top {x} h := by
    rw [FilesOutside, targets_placeTop]
    exact h
  see hx h hy := h.see hx hy
  settled h := h
  withTypes _ x g h := by
    rw [FilesOutside, targets_withTypes, withTypes, List.map_map]
    refine .trans (.of_eq (List.map_congr_left fun r _ => ?_)) h
    rw [Function.comp_apply, target_typedReference, scope_typedReference]
  closeState {x} h := by
    rw [FilesOutside, targets_closeState]
    exact h

/-- A reference of a resource leads to another one exactly when an entry of it refers to a path that
the other one owns. -/
theorem FilesOutside.exists_reference_iff (h : x.FilesOutside s) (owner? : Option Nat) :
    (∃ r ∈ x.outerReferences, r.scope = .outside owner?) ↔
      ∃ e p, x.Has e ∧ e.target? = some p ∧ Reference.scopeOf s x.id p = .outside owner? := by
  constructor
  · rintro ⟨r, hr, hscope⟩
    have hmem := h.subset (List.mem_map_of_mem (f := fun r => (r.target, r.scope)) hr)
    obtain ⟨hmem, -⟩ := List.mem_filter.1 hmem
    obtain ⟨p, hp, heq⟩ := List.mem_map.1 hmem
    obtain ⟨e, he, htarget⟩ := exists_of_mem_targets hp
    exact ⟨e, p, he, htarget, (congrArg Prod.snd heq).trans hscope⟩
  · rintro ⟨e, p, he, htarget, hscope⟩
    have hmem : (p, Scope.outside owner?) ∈ leadingOut s x.id x.targets :=
      List.mem_filter.2 ⟨List.mem_map.2 ⟨p, he.mem_targets htarget, by rw [hscope]⟩, rfl⟩
    obtain ⟨r, hr, heq⟩ := List.mem_map.1 (h.symm.subset hmem)
    exact ⟨r, hr, congrArg Prod.snd heq⟩

end Resource

end YangPartition
