import Mathlib.Data.List.Basic
import YangPartition.Path.Basic

/-!
# Names of paths

Comparison of paths looks at their names only. A path is above another one
exactly when its names are a prefix of the other's, and two paths lead to the
same node exactly when they have the same names.
-/

namespace YangPartition.Path

/-! ### The names of built paths -/

@[simp] theorem length_names (p : Path) : p.names.length = p.length := by
  simp [names, length]

@[simp] theorem names_root : root.names = [] := rfl

@[simp] theorem names_push (p : Path) (e : Elem) : (p.push e).names = p.names ++ [e.name] := by
  simp [names, push]

@[simp] theorem length_push (p : Path) (e : Elem) : (p.push e).length = p.length + 1 := by
  simp [length, push]

@[simp] theorem parent_push (p : Path) (e : Elem) : (p.push e).parent = p := by
  simp [parent, push]

@[simp] theorem names_parent (p : Path) : p.parent.names = p.names.dropLast := by
  rw [names, parent, names, List.map_dropLast]

@[simp] theorem names_join (p q : Path) : (p.join q).names = p.names ++ q.names := by
  simp [names, join]

@[simp] theorem names_ofNames (names : List String) : (ofNames names).names = names := by
  simp [ofNames, Path.names, Elem.named, Function.comp_def]

@[simp] theorem names_bare (p : Path) : p.bare.names = p.names := names_ofNames p.names

theorem isEmpty_iff (p : Path) : p.isEmpty = true ↔ p.names = [] := by
  simp [isEmpty, names]

/-! ### Comparison -/

/-- Lists of one length agree when their names are the same. -/
theorem agree_iff {as bs : List Elem} (h : as.length = bs.length) :
    agree as bs = true ↔ as.map (·.name) = bs.map (·.name) := by
  induction as generalizing bs with
  | nil =>
    obtain rfl : bs = [] := List.eq_nil_of_length_eq_zero h.symm
    simp [agree]
  | cons a as ih =>
    cases bs with
    | nil => simp at h
    | cons b bs =>
      have hlen : as.length = bs.length := by simpa using h
      simp [agree, ih hlen]

/-- A path is above another one when its names are a prefix of the other's. -/
theorem isAbove_iff (p q : Path) : p.isAbove q = true ↔ p.names <+: q.names := by
  rw [isAbove, Bool.and_eq_true, decide_eq_true_eq, List.prefix_iff_eq_take]
  have hcut : q.elems.reverse.drop (q.length - p.length) = (q.elems.take p.length).reverse :=
    (List.reverse_take ..).symm
  constructor
  · rintro ⟨hle, h⟩
    rw [hcut, agree_iff (by simp only [length] at *; simp [hle])] at h
    rw [List.map_reverse, List.map_reverse, List.reverse_inj, List.map_take] at h
    rw [length_names]
    exact h
  · intro h
    have hle : p.length ≤ q.length := by
      have := congrArg List.length h
      rw [List.length_take, length_names, length_names] at this
      omega
    refine ⟨hle, ?_⟩
    rw [hcut, agree_iff (by simp only [length] at *; simp [hle])]
    rw [List.map_reverse, List.map_reverse, List.reverse_inj, List.map_take]
    rw [length_names] at h
    exact h

/-- Two paths lead to the same node when they have the same names. -/
theorem sameNames_iff (p q : Path) : p.sameNames q = true ↔ p.names = q.names := by
  rw [sameNames, Bool.and_eq_true, beq_iff_eq, isAbove_iff]
  constructor
  · rintro ⟨hlen, h⟩
    exact h.eq_of_length (by simpa using hlen)
  · intro h
    refine ⟨?_, h ▸ List.prefix_rfl⟩
    have := congrArg List.length h
    simpa using this

end YangPartition.Path
