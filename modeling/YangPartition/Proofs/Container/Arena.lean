import Mathlib.Data.List.Basic
import YangPartition.Container.Arena

/-!
# What stands at the places of an arena

One equation for each operation on arenas, through the containers that are found
at its places.
-/

namespace YangPartition

namespace Container

/-- The container with one more container below it, to which an entry points. -/
def holding (x : Container) (place : Nat) (e : Entry) : Container :=
  { x with children := x.children ++ [place], entries := x.entries ++ [e.pointingTo place] }

/-- What a container has from the time it is made. -/
def outline (x : Container) : Path × Option Nat × Bool := (x.path, x.parent?, x.synthetic)

/-- Containers of one outline have the same path. -/
theorem path_of_outline {x y : Container} (h : x.outline = y.outline) : x.path = y.path :=
  congrArg (·.1) h

theorem parent?_of_outline {x y : Container} (h : x.outline = y.outline) :
    x.parent? = y.parent? :=
  congrArg (·.2.1) h

theorem synthetic_of_outline {x y : Container} (h : x.outline = y.outline) :
    x.synthetic = y.synthetic :=
  congrArg (·.2.2) h

end Container

namespace Arena

variable {a : Arena}

theorem get?_lt {i : Nat} {x : Container} (h : a.get? i = some x) : i < a.size :=
  (Array.getElem?_eq_some_iff.1 h).1

theorem get?_size (a : Arena) : a.get? a.size = none :=
  Array.getElem?_eq_none (Nat.le_refl _)

theorem exists_get? {i : Nat} (h : i < a.size) : ∃ x, a.get? i = some x :=
  ⟨_, Array.getElem?_eq_getElem h⟩

/-- Arenas with the same containers at all places are the same. -/
theorem ext_get? {a b : Arena} (h : ∀ i, a.get? i = b.get? i) : a = b := by
  obtain ⟨as⟩ := a
  obtain ⟨bs⟩ := b
  obtain rfl : as = bs := Array.ext_getElem? h
  rfl

theorem parent?_of_get? {i : Nat} {x : Container} (h : a.get? i = some x) :
    a.parent? i = x.parent? := by
  rw [parent?, h, Option.bind_some]

/-- A place with a container above has a container. -/
theorem get?_of_parent? {i p : Nat} (h : a.parent? i = some p) :
    ∃ x, a.get? i = some x ∧ x.parent? = some p :=
  Option.bind_eq_some_iff.1 h

/-! ### Changing a container -/

theorem get?_modify (a : Arena) (i j : Nat) (f : Container → Container) :
    (a.modify i f).get? j = if i = j then (a.get? j).map f else a.get? j := by
  simp only [get?, modify, Array.getElem?_modify]

@[simp] theorem size_modify (a : Arena) (i : Nat) (f : Container → Container) :
    (a.modify i f).size = a.size := by
  simp [size, modify]

/-- A container after a change of one is one from before, perhaps changed. -/
theorem exists_get?_of_modify {i j : Nat} {f : Container → Container} {y : Container}
    (hy : (a.modify i f).get? j = some y) :
    ∃ x, a.get? j = some x ∧ ((i = j ∧ y = f x) ∨ (i ≠ j ∧ y = x)) := by
  rw [get?_modify] at hy
  by_cases hj : i = j
  · rw [if_pos hj] at hy
    obtain ⟨x, hx, rfl⟩ := Option.map_eq_some_iff.1 hy
    exact ⟨x, hx, .inl ⟨hj, rfl⟩⟩
  · rw [if_neg hj] at hy
    exact ⟨y, hy, .inr ⟨hj, rfl⟩⟩

/-- A change beside the links upward changes nothing above a container. -/
theorem parent?_modify {f : Container → Container} (hf : ∀ c, (f c).parent? = c.parent?) (a : Arena)
    (i j : Nat) : (a.modify i f).parent? j = a.parent? j := by
  rw [parent?, parent?, get?_modify]
  split
  · cases a.get? j with
    | none => rfl
    | some c => exact hf c
  · rfl

/-! ### Making containers -/

theorem get?_push (a : Arena) (c : Container) (j : Nat) :
    get? ⟨a.containers.push c⟩ j = if j = a.size then some c else a.get? j :=
  Array.getElem?_push

/-- A container is added at the end, and the one above it gets it as its last child. -/
theorem get?_alloc (a : Arena) (c : Container) (j : Nat) :
    (a.alloc c).1.get? j =
      if j = a.size then some c
      else if c.parent? = some j then
        (a.get? j).map fun above => { above with children := above.children ++ [a.size] }
      else a.get? j := by
  cases hc : c.parent? with
  | none =>
    simp only [alloc, hc]
    rw [get?_push]
    simp
  | some p =>
    simp only [alloc, hc]
    rw [get?_push, size_modify, get?_modify]
    simp only [Option.some.injEq]

theorem parent?_alloc (a : Arena) (c : Container) (j : Nat) :
    (a.alloc c).1.parent? j = if j = a.size then c.parent? else a.parent? j := by
  rw [parent?, parent?, get?_alloc]
  by_cases hj : j = a.size
  · rw [if_pos hj, if_pos hj]
    rfl
  · rw [if_neg hj, if_neg hj]
    split
    · cases a.get? j <;> rfl
    · rfl

/-- A container on top is added at the end, and all others stay as they were. -/
theorem get?_alloc_top {c : Container} (hc : c.parent? = none) (a : Arena) (j : Nat) :
    (a.alloc c).1.get? j = if j = a.size then some c else a.get? j := by
  rw [get?_alloc, hc]
  simp

theorem get?_alloc_top_of_get? {c x : Container} (hc : c.parent? = none) {j : Nat}
    (hx : a.get? j = some x) : (a.alloc c).1.get? j = some x := by
  rw [get?_alloc_top hc, if_neg (Nat.ne_of_lt (get?_lt hx)), hx]

/-- A container after one has been added on top is the new one or one from before. -/
theorem get?_alloc_top_cases {c y : Container} (hc : c.parent? = none) {j : Nat}
    (hy : (a.alloc c).1.get? j = some y) : (j = a.size ∧ y = c) ∨ a.get? j = some y := by
  rw [get?_alloc_top hc] at hy
  by_cases hj : j = a.size
  · rw [if_pos hj] at hy
    exact .inl ⟨hj, (Option.some.inj hy).symm⟩
  · rw [if_neg hj] at hy
    exact .inr hy

@[simp] theorem size_alloc (a : Arena) (c : Container) : (a.alloc c).1.size = a.size + 1 := by
  cases hc : c.parent? <;> simp [alloc, hc, size, modify]

theorem hang_eq (a : Arena) (parent : Nat) (c : Container) (e : Entry) :
    a.hang parent c e = (a.alloc { c with parent? := some parent }).1.modify parent
      (·.push (e.pointingTo a.size)) := rfl

@[simp] theorem size_hang (a : Arena) (parent : Nat) (c : Container) (e : Entry) :
    (a.hang parent c e).size = a.size + 1 := by
  rw [hang_eq, size_modify, size_alloc]

/-- A container that is hung below another one is added at the end, and the other
one gets it as its last child and points to it. -/
theorem get?_hang {parent : Nat} (hp : parent < a.size) (c : Container) (e : Entry) (j : Nat) :
    (a.hang parent c e).get? j =
      if j = a.size then some { c with parent? := some parent }
      else if parent = j then (a.get? j).map (·.holding a.size e)
      else a.get? j := by
  rw [hang_eq, get?_modify, get?_alloc]
  by_cases hj : j = a.size
  · rw [if_pos hj, if_pos hj, if_neg (by omega)]
  · rw [if_neg hj, if_neg hj]
    by_cases hpj : parent = j
    · rw [if_pos hpj, if_pos hpj, if_pos (congrArg some hpj), Option.map_map]
      rfl
    · rw [if_neg hpj, if_neg hpj, if_neg (by simpa using hpj)]

/-! ### Outlines -/

/-- A change of one container beside its outline changes no outline. -/
theorem outline_modify (a : Arena) (p : Nat) {f : Container → Container}
    (hf : ∀ x, (f x).outline = x.outline) (j : Nat) :
    ((a.modify p f).get? j).map Container.outline = (a.get? j).map Container.outline := by
  rw [get?_modify]
  by_cases hj : p = j
  · rw [if_pos hj, Option.map_map]
    exact congrArg (fun g => Option.map g (a.get? j)) (funext hf)
  · rw [if_neg hj]

/-- A container that is hung below another one comes with its outline. -/
theorem outline_hang {p : Nat} (hp : p < a.size) (c : Container) (e : Entry) (j : Nat) :
    ((a.hang p c e).get? j).map Container.outline =
      if j = a.size then some (c.path, some p, c.synthetic)
      else (a.get? j).map Container.outline := by
  rw [get?_hang hp]
  by_cases hj : j = a.size
  · rw [if_pos hj, if_pos hj]
    rfl
  · rw [if_neg hj, if_neg hj]
    by_cases hpj : p = j
    · rw [if_pos hpj, Option.map_map]
      rfl
    · rw [if_neg hpj]

/-! ### Ancestors -/

/-- Every container is made after the one above it. -/
def Ordered (a : Arena) : Prop := ∀ ⦃c p : Nat⦄, a.parent? c = some p → p < c

/-- Looking further up than a container can stand finds nothing more. -/
theorem Ordered.above_eq_above (h : a.Ordered) {m n c : Nat} (hm : c ≤ m) (hn : c ≤ n) :
    a.above m c = a.above n c := by
  induction m generalizing n c with
  | zero =>
    obtain rfl := Nat.le_zero.1 hm
    have hparent : a.parent? 0 = none := by
      cases hp : a.parent? 0 with
      | none => rfl
      | some p => exact absurd (h hp) (Nat.not_lt_zero p)
    cases n with
    | zero => rfl
    | succ n => rw [above, above, hparent]
  | succ m ih =>
    cases hp : a.parent? c with
    | none =>
      cases n with
      | zero => rw [above, above, hp]
      | succ n => rw [above, above, hp]
    | some p =>
      have hlt := h hp
      obtain ⟨n, rfl⟩ := Nat.exists_eq_succ_of_ne_zero (n := n) (by omega)
      rw [above, above, hp]
      exact congrArg (p :: ·) (ih (by omega) (by omega))

/-- The ancestors of a container are the one above and the ancestors of that one. -/
theorem Ordered.ancestors_eq_cons (h : a.Ordered) {c p : Nat} (hp : a.parent? c = some p) :
    a.ancestors c = p :: a.ancestors p := by
  have hlt := h hp
  obtain ⟨n, rfl⟩ := Nat.exists_eq_succ_of_ne_zero (n := c) (by omega)
  rw [ancestors, above, hp]
  exact congrArg (p :: ·) (h.above_eq_above (by omega) (Nat.le_refl p))

theorem ancestors_of_parent?_eq_none {c : Nat} (hp : a.parent? c = none) : a.ancestors c = [] := by
  rw [ancestors]
  cases c with
  | zero => rfl
  | succ c => rw [above, hp]

/-! ### As a list -/

theorem length_toList (a : Arena) : a.toList.length = a.size := rfl

theorem toList_modify (a : Arena) (i : Nat) (f : Container → Container) :
    (a.modify i f).toList = a.toList.modify i f := by
  simp [toList, modify]

/-- A change at a place of the first of two lists. -/
theorem modify_append_left {l m : List Container} {i : Nat} (h : i < l.length)
    (f : Container → Container) : (l ++ m).modify i f = l.modify i f ++ m := by
  induction l generalizing i with
  | nil => cases h
  | cons c l ih =>
    cases i with
    | zero => rfl
    | succ i =>
      rw [List.cons_append, List.modify_succ_cons, List.modify_succ_cons, List.cons_append,
        ih (Nat.lt_of_succ_lt_succ h)]

/-- A change at the first place of the second of two lists. -/
theorem modify_append_right {l m : List Container} (f : Container → Container) :
    (l ++ m).modify l.length f = l ++ m.modify 0 f := by
  induction l with
  | nil => rfl
  | cons c l ih =>
    rw [List.cons_append, List.length_cons, List.modify_succ_cons, ih, List.cons_append]

theorem toList_hang {a : Arena} {p : Nat} (hp : p < a.size) (c : Container) (e : Entry) :
    (a.hang p c e).toList =
      a.toList.modify p (·.holding a.size e) ++ [{ c with parent? := some p }] := by
  have halloc : (a.alloc { c with parent? := some p }).1.toList =
      a.toList.modify p (fun above => { above with children := above.children ++ [a.size] }) ++
        [{ c with parent? := some p }] := by
    simp [alloc, toList, modify]
  rw [hang_eq, toList_modify, halloc, modify_append_left (by rw [List.length_modify]; exact hp),
    List.modify_modify_eq]
  rfl

end Arena

end YangPartition
