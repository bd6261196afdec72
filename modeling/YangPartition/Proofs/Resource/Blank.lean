import Mathlib.Data.List.Basic
import YangPartition.Compile.Reference

/-!
# Resources without contents

What is compiled into the resources of a set does not change which resource owns
a path, where resources are rooted, or where a reference leads: these are the
same in the set with all contents taken out.
-/

namespace YangPartition

/-! ### Taking contents out -/

/-- The resource with nothing compiled into it. -/
def Resource.blank (r : Resource) : Resource :=
  { r with arena := {}, root? := none, innerReferences := [], outerReferences := [], levels := {} }

theorem Resource.blank_eq_self_iff (r : Resource) :
    r.blank = r ↔ r.arena = {} ∧ r.root? = none ∧ r.innerReferences = [] ∧
      r.outerReferences = [] ∧ r.levels = {} := by
  constructor
  · intro h
    rw [← h]
    exact ⟨rfl, rfl, rfl, rfl, rfl⟩
  · rintro ⟨h1, h2, h3, h4, h5⟩
    obtain ⟨id, path, topName, parent?, excludes, subResources, children, _, _, _, _, _⟩ := r
    obtain rfl := h1
    obtain rfl := h2
    obtain rfl := h3
    obtain rfl := h4
    obtain rfl := h5
    rfl

/-- The set with nothing compiled into its resources. -/
def ResourceSet.blank (s : ResourceSet) : ResourceSet :=
  { s with resources := s.resources.map Resource.blank }

namespace ResourceSet

theorem get?_blank (s : ResourceSet) (id : Nat) : s.blank.get? id = (s.get? id).map (·.blank) := by
  simp [get?, blank]

theorem toList_blank (s : ResourceSet) : s.blank.toList = s.toList.map (·.blank) := by
  simp [toList, blank]

theorem declared_blank (s : ResourceSet) : s.blank.declared = s.declared.map (·.blank) := by
  rw [declared, declared, toList_blank, List.map_drop]

theorem active_blank (s : ResourceSet) : s.blank.active = s.active.map (·.blank) := by
  have hmode : s.blank.mode = s.mode := rfl
  rw [active, active, hmode]
  cases s.mode with
  | full => simp only; rw [toList_blank, List.map_take]
  | declared => exact declared_blank s

/-! ### Changing one resource -/

theorem get?_modify (s : ResourceSet) (id i : Nat) (f : Resource → Resource) :
    (s.modify id f).get? i = if id = i then (s.get? i).map f else s.get? i := by
  simp only [get?, modify, Array.getElem?_modify]

/-- Two sets with the same mode and the same resource under each number are the same. -/
theorem ext_get? {s t : ResourceSet} (hmode : s.mode = t.mode) (h : ∀ i, s.get? i = t.get? i) :
    s = t := by
  obtain ⟨rs, mode⟩ := s
  obtain ⟨ts, mode'⟩ := t
  obtain rfl : mode = mode' := hmode
  obtain rfl : rs = ts := Array.ext_getElem? h
  rfl

/-- A change to the contents of a resource leaves the set as it is without contents. -/
theorem blank_modify {s : ResourceSet} {id : Nat} {f : Resource → Resource}
    (h : ∀ r, s.get? id = some r → (f r).blank = r.blank) : (s.modify id f).blank = s.blank := by
  refine ext_get? rfl fun i => ?_
  rw [get?_blank, get?_blank, get?_modify]
  split
  · next hi =>
    subst hi
    cases hr : s.get? id with
    | none => rfl
    | some r => simp [h r hr]
  · rfl

/-! ### Ownership -/

theorem longest_map_blank (beats : Nat → Nat → Bool) (p : Path) (rs : List Resource) :
    longest beats p (rs.map (·.blank)) = (longest beats p rs).map (·.blank) := by
  suffices ∀ best : Option Resource,
      (rs.map (·.blank)).foldl (fun best r =>
        if r.path.isAbove p && best.all fun b => beats r.path.length b.path.length then some r
        else best) (best.map (·.blank)) =
      (rs.foldl (fun best r =>
        if r.path.isAbove p && best.all fun b => beats r.path.length b.path.length then some r
        else best) best).map (·.blank) from this none
  induction rs with
  | nil => exact fun best => rfl
  | cons r rs ih =>
    intro best
    rw [List.map_cons, List.foldl_cons, List.foldl_cons, ← ih]
    congr 1
    rw [apply_ite (Option.map Resource.blank)]
    cases best with
    | none => rfl
    | some b => rfl

theorem bestMatch?_blank (s : ResourceSet) (p : Path) :
    s.blank.bestMatch? p = (s.bestMatch? p).map (·.blank) := by
  rw [bestMatch?, bestMatch?, active_blank, longest_map_blank]

theorem matchPath_blank (s : ResourceSet) (p : Path) : s.blank.matchPath p = s.matchPath p := by
  rw [matchPath, matchPath, bestMatch?_blank]
  cases s.bestMatch? p with
  | none => rfl
  | some r => rfl

theorem owner?_blank (s : ResourceSet) (p : Path) :
    s.blank.owner? p = (s.owner? p).map (·.blank) := by
  rw [owner?, owner?, declared_blank, longest_map_blank]

theorem isBoundary_blank (s : ResourceSet) (owner : Nat) (p : Path) :
    s.blank.isBoundary owner p = s.isBoundary owner p := by
  rw [isBoundary, isBoundary, declared_blank, List.any_map]
  rfl

/-- The reference of a leaf does not depend on what has been compiled. -/
theorem reference_blank (s : ResourceSet) (o : Overrides) (owner : Nat) (leaf : Path)
    (d : Declaration) : Reference.of? s.blank o owner leaf d = Reference.of? s o owner leaf d := by
  have hscope : ∀ target,
      Reference.scopeOf s.blank owner target = Reference.scopeOf s owner target := by
    intro target
    rw [Reference.scopeOf, Reference.scopeOf, bestMatch?_blank, owner?_blank]
    simp only [Option.map_map]
    rfl
  rw [Reference.of?, Reference.of?]
  simp only [hscope]

end ResourceSet

end YangPartition
