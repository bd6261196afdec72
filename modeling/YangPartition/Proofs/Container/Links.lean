import Mathlib.Data.List.Nodup
import YangPartition.Proofs.Container.Arena

/-!
# Links between containers

The containers of an arena form trees: a container knows the one above it, that
one lists it once among its children, and its entries point to its children in
their order. A container stands one level deeper than the one above it. Hanging
containers below others and adding values keeps all this.
-/

namespace YangPartition

/-- What the containers of an arena have to do with each other. A container without
one above stands `base` elements deep. -/
structure Arena.Linked (base : Nat) (a : Arena) : Prop where
  /-- A container is made after the one above it. -/
  parent_lt : ∀ {c p}, a.parent? c = some p → p < c
  /-- The children of a container are those that know it as the one above. -/
  mem_children : ∀ {p x c}, a.get? p = some x → (c ∈ x.children ↔ a.parent? c = some p)
  /-- No child is listed twice. -/
  nodup_children : ∀ {p x}, a.get? p = some x → x.children.Nodup
  /-- The entries point to the children, in their order. -/
  children_eq : ∀ {p x}, a.get? p = some x → x.children = x.entries.filterMap (·.next?)
  /-- All entries but values point to a container. -/
  next_iff : ∀ {p x e}, a.get? p = some x → e ∈ x.entries → (e.next?.isSome = true ↔ e.kind ≠ .leaf)
  /-- The entries of leaf-lists point to a container made for one value, the others do not. -/
  wrapped : ∀ {p x e c}, a.get? p = some x → e ∈ x.entries → e.next? = some c →
    ∃ y, a.get? c = some y ∧ (e.kind = .leafList ↔ y.synthetic = true ∧ y.entries.length = 1)
  /-- The containers without one above stand at the base. -/
  top_length : ∀ {c x}, a.get? c = some x → x.parent? = none → x.path.length = base
  /-- The others stand one level below the one above. -/
  step_length : ∀ {c x p}, a.get? c = some x → x.parent? = some p →
    ∃ y, a.get? p = some y ∧ x.path.length = y.path.length + 1

/-- What the links of a container depend on. -/
def Container.shape (x : Container) :
    Nat × Option Nat × List Nat × Bool × List (EntryKind × Option Nat) :=
  (x.path.length, x.parent?, x.children, x.synthetic, x.entries.map fun e => (e.kind, e.next?))

/-- Containers of one shape have entries of the same kinds that point to the same places. -/
theorem Container.exists_entry {x y : Container} (h : x.shape = y.shape) {e : Entry}
    (he : e ∈ y.entries) : ∃ d ∈ x.entries, d.kind = e.kind ∧ d.next? = e.next? := by
  have hmem : (e.kind, e.next?) ∈ x.entries.map fun e => (e.kind, e.next?) := by
    rw [show x.entries.map _ = y.entries.map _ from congrArg (·.2.2.2.2) h]
    exact List.mem_map_of_mem he
  obtain ⟨d, hd, hde⟩ := List.mem_map.1 hmem
  exact ⟨d, hd, congrArg (·.1) hde, congrArg (·.2) hde⟩

namespace Arena

variable {a b : Arena} {base : Nat}

theorem linked_empty (base : Nat) : Linked base {} where
  parent_lt h := by cases h
  mem_children h := by cases h
  nodup_children h := by cases h
  children_eq h := by cases h
  next_iff h := by cases h
  wrapped h := by cases h
  top_length h := by cases h
  step_length h := by cases h

/-- A container above another one is there. -/
theorem Linked.parent_lt_size (h : a.Linked base) {c p : Nat} (hp : a.parent? c = some p) :
    p < a.size := by
  obtain ⟨x, hx, hxp⟩ := get?_of_parent? hp
  obtain ⟨y, hy, -⟩ := h.step_length hx hxp
  exact get?_lt hy

/-! ### Ancestors -/

/-- The containers above one make up the levels between it and the base. -/
theorem Linked.length_above (h : a.Linked base) {n c : Nat} {x : Container} (hn : c ≤ n)
    (hx : a.get? c = some x) : (a.above n c).length + base = x.path.length := by
  induction n generalizing c x with
  | zero =>
    have hparent : x.parent? = none := by
      cases hp : x.parent? with
      | none => rfl
      | some p =>
        have := h.parent_lt ((parent?_of_get? hx).trans hp)
        omega
    rw [h.top_length hx hparent]
    simp [above]
  | succ n ih =>
    rw [above]
    cases hp : x.parent? with
    | none =>
      rw [parent?_of_get? hx, hp, h.top_length hx hp]
      simp
    | some p =>
      rw [parent?_of_get? hx, hp]
      obtain ⟨y, hy, hlen⟩ := h.step_length hx hp
      have hlt := h.parent_lt ((parent?_of_get? hx).trans hp)
      have := ih (by omega) hy
      simp only [List.length_cons]
      omega

/-- The number of ancestors of a container is how much deeper than the base it stands. -/
theorem Linked.length_ancestors (h : a.Linked base) {c : Nat} {x : Container}
    (hx : a.get? c = some x) : (a.ancestors c).length + base = x.path.length :=
  h.length_above (Nat.le_refl c) hx

theorem Linked.ordered (h : a.Linked base) : a.Ordered := fun _ _ hp => h.parent_lt hp

/-- The ancestors of a container are the one above and the ancestors of that one. -/
theorem Linked.ancestors_eq_cons (h : a.Linked base) {c p : Nat} (hp : a.parent? c = some p) :
    a.ancestors c = p :: a.ancestors p :=
  h.ordered.ancestors_eq_cons hp

/-! ### Changes beside the links -/

/-- A place has the same shape before and after a change that keeps all shapes. -/
theorem exists_shape (h : ∀ i, (b.get? i).map Container.shape = (a.get? i).map Container.shape)
    {i : Nat} {y : Container} (hy : b.get? i = some y) :
    ∃ x, a.get? i = some x ∧ x.shape = y.shape := by
  have := h i
  rw [hy, Option.map_some] at this
  exact Option.map_eq_some_iff.1 this.symm

theorem parent?_eq_of_shape
    (h : ∀ i, (b.get? i).map Container.shape = (a.get? i).map Container.shape) (i : Nat) :
    b.parent? i = a.parent? i := by
  cases hy : b.get? i with
  | none =>
    have hx : a.get? i = none := by
      have := h i
      rw [hy, Option.map_none] at this
      exact Option.map_eq_none_iff.1 this.symm
    rw [parent?, parent?, hy, hx]
  | some y =>
    obtain ⟨x, hx, hshape⟩ := exists_shape h hy
    rw [parent?_of_get? hx, parent?_of_get? hy]
    exact (congrArg (·.2.1) hshape).symm

/-- Changes that keep the shapes of all containers keep the links. -/
theorem Linked.congr (ha : a.Linked base)
    (h : ∀ i, (b.get? i).map Container.shape = (a.get? i).map Container.shape) :
    b.Linked base where
  parent_lt {c p} hp := ha.parent_lt ((parent?_eq_of_shape h c).symm.trans hp)
  mem_children {p y c} hy := by
    obtain ⟨x, hx, hshape⟩ := exists_shape h hy
    rw [parent?_eq_of_shape h, ← ha.mem_children hx, show x.children = y.children from
      congrArg (·.2.2.1) hshape]
  nodup_children {p y} hy := by
    obtain ⟨x, hx, hshape⟩ := exists_shape h hy
    rw [← show x.children = y.children from congrArg (·.2.2.1) hshape]
    exact ha.nodup_children hx
  children_eq {p y} hy := by
    obtain ⟨x, hx, hshape⟩ := exists_shape h hy
    have hpairs : ∀ es : List Entry,
        es.filterMap (·.next?) = (es.map fun e => (e.kind, e.next?)).filterMap (·.2) := by
      intro es
      rw [List.filterMap_map]
      rfl
    rw [← show x.children = y.children from congrArg (·.2.2.1) hshape, ha.children_eq hx, hpairs,
      hpairs, show x.entries.map _ = y.entries.map _ from congrArg (·.2.2.2.2) hshape]
  next_iff {p y e} hy he := by
    obtain ⟨x, hx, hshape⟩ := exists_shape h hy
    obtain ⟨d, hd, hde⟩ := Container.exists_entry hshape he
    rw [← hde.1, ← hde.2]
    exact ha.next_iff hx hd
  wrapped {p y e c} hy he hnext := by
    obtain ⟨x, hx, hshape⟩ := exists_shape h hy
    obtain ⟨d, hd, hde⟩ := Container.exists_entry hshape he
    obtain ⟨z, hz, hwrapped⟩ := ha.wrapped hx hd (hde.2.trans hnext)
    have hc := h c
    rw [hz, Option.map_some] at hc
    obtain ⟨w, hw, hwz⟩ := Option.map_eq_some_iff.1 hc
    refine ⟨w, hw, ?_⟩
    have hlen : w.entries.length = z.entries.length := by
      have := congrArg (·.2.2.2.2.length) hwz
      simpa [Container.shape] using this
    rw [← hde.1, hwrapped, show w.synthetic = z.synthetic from congrArg (·.2.2.2.1) hwz, hlen]
  top_length {c y} hy hp := by
    obtain ⟨x, hx, hshape⟩ := exists_shape h hy
    rw [← show x.path.length = y.path.length from congrArg (·.1) hshape]
    exact ha.top_length hx ((congrArg (·.2.1) hshape).trans hp)
  step_length {c y p} hy hp := by
    obtain ⟨x, hx, hshape⟩ := exists_shape h hy
    obtain ⟨z, hz, hlen⟩ := ha.step_length hx ((congrArg (·.2.1) hshape).trans hp)
    have hc := h p
    rw [hz, Option.map_some] at hc
    obtain ⟨w, hw, hwz⟩ := Option.map_eq_some_iff.1 hc
    refine ⟨w, hw, ?_⟩
    rw [← show x.path.length = y.path.length from congrArg (·.1) hshape,
      show w.path.length = z.path.length from congrArg (·.1) hwz]
    exact hlen

/-! ### Containers on top -/

/-- A container on top without entries is linked to nothing. -/
theorem Linked.alloc_top (ha : a.Linked base) {c : Container} (hp : c.parent? = none)
    (hc : c.children = []) (he : c.entries = []) (hlen : c.path.length = base) :
    (a.alloc c).1.Linked base where
  parent_lt {d p} h := by
    rw [parent?_alloc, hp] at h
    split at h
    · cases h
    · exact ha.parent_lt h
  mem_children {p x d} hx := by
    rw [parent?_alloc, hp]
    rcases get?_alloc_top_cases hp hx with ⟨rfl, rfl⟩ | hx
    · -- nothing stands below the new container
      rw [hc]
      simp only [List.not_mem_nil, false_iff]
      split
      · exact fun h => by cases h
      · exact fun h => Nat.lt_irrefl _ (ha.parent_lt_size h)
    · rw [ha.mem_children hx]
      split
      · next hd =>
        rw [hd, parent?, get?_size, Option.bind_none]
      · rfl
  nodup_children hx := by
    rcases get?_alloc_top_cases hp hx with ⟨-, rfl⟩ | hx
    · rw [hc]
      exact List.nodup_nil
    · exact ha.nodup_children hx
  children_eq hx := by
    rcases get?_alloc_top_cases hp hx with ⟨-, rfl⟩ | hx
    · rw [hc, he]
      rfl
    · exact ha.children_eq hx
  next_iff hx hmem := by
    rcases get?_alloc_top_cases hp hx with ⟨-, rfl⟩ | hx
    · rw [he] at hmem
      cases hmem
    · exact ha.next_iff hx hmem
  wrapped hx hmem hnext := by
    rcases get?_alloc_top_cases hp hx with ⟨-, rfl⟩ | hx
    · rw [he] at hmem
      cases hmem
    · obtain ⟨y, hy, hw⟩ := ha.wrapped hx hmem hnext
      exact ⟨y, get?_alloc_top_of_get? hp hy, hw⟩
  top_length hx hnone := by
    rcases get?_alloc_top_cases hp hx with ⟨-, rfl⟩ | hx
    · exact hlen
    · exact ha.top_length hx hnone
  step_length hx hsome := by
    rcases get?_alloc_top_cases hp hx with ⟨-, rfl⟩ | hx
    · rw [hp] at hsome
      cases hsome
    · obtain ⟨y, hy, h⟩ := ha.step_length hx hsome
      exact ⟨y, get?_alloc_top_of_get? hp hy, h⟩

/-! ### Open containers -/

/-- A container that entries and containers may be put into: no container made for a value. -/
def Open (a : Arena) (p : Nat) : Prop :=
  ∃ x, a.get? p = some x ∧ (x.synthetic = true → x.parent? = none)

theorem Open.lt_size {p : Nat} (h : a.Open p) : p < a.size := by
  obtain ⟨x, hx, -⟩ := h
  exact get?_lt hx

/-- An entry that points to an open container is not that of a leaf-list. -/
theorem Linked.kind_of_open (ha : a.Linked base) {p q : Nat} {x : Container} {e : Entry}
    (hopen : a.Open p) (hx : a.get? q = some x) (he : e ∈ x.entries) (hnext : e.next? = some p) :
    e.kind ≠ .leafList ∧ ∀ y, a.get? p = some y → y.synthetic = false := by
  obtain ⟨z, hz, hsyn⟩ := hopen
  have hchild : p ∈ x.children := by
    rw [ha.children_eq hx]
    exact List.mem_filterMap.2 ⟨e, he, hnext⟩
  have hparent := (ha.mem_children hx).1 hchild
  rw [parent?_of_get? hz] at hparent
  have hfalse : z.synthetic = false := by
    cases hs : z.synthetic with
    | false => rfl
    | true =>
      rw [hsyn hs] at hparent
      cases hparent
  refine ⟨fun hkind => ?_, fun y hy => ?_⟩
  · obtain ⟨y, hy, hw⟩ := ha.wrapped hx he hnext
    obtain rfl := Option.some.inj (hy.symm.trans hz)
    have := (hw.1 hkind).1
    rw [hfalse] at this
    cases this
  · obtain rfl := Option.some.inj (hy.symm.trans hz)
    exact hfalse

/-! ### Changes of one container -/

/-- All containers stay where they are, and only the one at the given place may change, but neither
where it stands in the schema nor what it was made for. -/
def Keeps (p : Nat) (a b : Arena) : Prop :=
  ∀ j x, a.get? j = some x → ∃ y, b.get? j = some y ∧ y.path = x.path ∧
    y.synthetic = x.synthetic ∧ (p ≠ j → y = x)

/-- An entry that was there points to a container that was there. If that one has changed, it is
open, so it was not made for a value before nor is it now. -/
theorem Linked.wrapped_of_keeps (ha : a.Linked base) {p : Nat} (hopen : a.Open p)
    (hkeep : a.Keeps p b) {q : Nat} {x : Container} {e : Entry} {c : Nat} (hx : a.get? q = some x)
    (he : e ∈ x.entries) (hnext : e.next? = some c) :
    ∃ y, b.get? c = some y ∧ (e.kind = .leafList ↔ y.synthetic = true ∧ y.entries.length = 1) := by
  obtain ⟨z, hz, hwrapped⟩ := ha.wrapped hx he hnext
  obtain ⟨y, hy, -, hsyn, hsame⟩ := hkeep c z hz
  refine ⟨y, hy, ?_⟩
  by_cases hc : p = c
  · subst hc
    obtain ⟨hkind, hfalse⟩ := ha.kind_of_open hopen hx he hnext
    rw [hsyn, hfalse z hz]
    exact ⟨fun h => absurd h hkind, fun h => by cases h.1⟩
  · rw [hsame hc]
    exact hwrapped

/-- A container that was there still stands one level below the one above. -/
theorem Linked.step_length_of_keeps (ha : a.Linked base) {p : Nat} (hkeep : a.Keeps p b) {c q : Nat}
    {x : Container} (hx : a.get? c = some x) (hq : x.parent? = some q) :
    ∃ y, b.get? q = some y ∧ x.path.length = y.path.length + 1 := by
  obtain ⟨z, hz, hlen⟩ := ha.step_length hx hq
  obtain ⟨y, hy, hpath, -⟩ := hkeep q z hz
  exact ⟨y, hy, by rw [hpath]; exact hlen⟩

/-! ### Values -/

theorem keeps_modify_push (a : Arena) (p : Nat) (e : Entry) :
    a.Keeps p (a.modify p (·.push e)) := by
  intro j x hx
  rw [get?_modify]
  by_cases hj : p = j
  · rw [if_pos hj, hx]
    exact ⟨_, rfl, rfl, rfl, fun h => absurd hj h⟩
  · rw [if_neg hj]
    exact ⟨x, hx, rfl, rfl, fun _ => rfl⟩

/-- Adding a value to an open container keeps the links. -/
theorem Linked.modify_push (ha : a.Linked base) {p : Nat} (hopen : a.Open p) {e : Entry}
    (hkind : e.kind = .leaf) (hnext : e.next? = none) : (a.modify p (·.push e)).Linked base where
  parent_lt {c q} h := by
    rw [parent?_modify (f := (·.push e)) fun _ => rfl] at h
    exact ha.parent_lt h
  mem_children {q y c} hy := by
    rw [parent?_modify (f := (·.push e)) fun _ => rfl]
    obtain ⟨x, hx, ⟨-, rfl⟩ | ⟨-, rfl⟩⟩ := exists_get?_of_modify hy
    · rw [← ha.mem_children hx]
      rfl
    · exact ha.mem_children hx
  nodup_children {q y} hy := by
    obtain ⟨x, hx, ⟨-, rfl⟩ | ⟨-, rfl⟩⟩ := exists_get?_of_modify hy
    · have hnodup := ha.nodup_children hx
      exact hnodup
    · exact ha.nodup_children hx
  children_eq {q y} hy := by
    obtain ⟨x, hx, ⟨-, rfl⟩ | ⟨-, rfl⟩⟩ := exists_get?_of_modify hy
    · rw [Container.push, List.filterMap_append, ← ha.children_eq hx]
      simp [hnext]
    · exact ha.children_eq hx
  next_iff {q y d} hy hd := by
    obtain ⟨x, hx, ⟨-, rfl⟩ | ⟨-, rfl⟩⟩ := exists_get?_of_modify hy
    · rcases List.mem_append.1 hd with hd | hd
      · exact ha.next_iff hx hd
      · obtain rfl := List.mem_singleton.1 hd
        rw [hkind, hnext]
        simp
    · exact ha.next_iff hx hd
  wrapped {q y d c} hy hd hc := by
    have hkeep := a.keeps_modify_push p e
    obtain ⟨x, hx, ⟨-, rfl⟩ | ⟨-, rfl⟩⟩ := exists_get?_of_modify hy
    · rcases List.mem_append.1 hd with hd | hd
      · exact ha.wrapped_of_keeps hopen hkeep hx hd hc
      · rw [List.mem_singleton.1 hd, hnext] at hc
        cases hc
    · exact ha.wrapped_of_keeps hopen hkeep hx hd hc
  top_length {c y} hy hnone := by
    obtain ⟨x, hx, ⟨-, rfl⟩ | ⟨-, rfl⟩⟩ := exists_get?_of_modify hy
    · have hlen := ha.top_length hx hnone
      exact hlen
    · exact ha.top_length hx hnone
  step_length {c y q} hy hq := by
    have hkeep := a.keeps_modify_push p e
    obtain ⟨x, hx, ⟨-, rfl⟩ | ⟨-, rfl⟩⟩ := exists_get?_of_modify hy
    · have hstep := ha.step_length_of_keeps hkeep hx hq
      exact hstep
    · exact ha.step_length_of_keeps hkeep hx hq

/-- Adding a value to an open container keeps the links, whatever else changes beside them. -/
theorem Linked.modify_value (ha : a.Linked base) {p : Nat} (hopen : a.Open p) {e : Entry}
    (hkind : e.kind = .leaf) (hnext : e.next? = none) {f : Container → Container}
    (hf : ∀ x, (f x).shape = (x.push e).shape) :
    (a.modify p f).Linked base := by
  refine (ha.modify_push hopen hkind hnext).congr fun i => ?_
  rw [get?_modify, get?_modify]
  by_cases hi : p = i
  · rw [if_pos hi, if_pos hi, Option.map_map, Option.map_map]
    exact congrArg (fun g => Option.map g (a.get? i)) (funext hf)
  · rw [if_neg hi, if_neg hi]

/-! ### Containers below others -/

theorem keeps_hang {p : Nat} (hp : p < a.size) (c : Container) (e : Entry) :
    a.Keeps p (a.hang p c e) := by
  intro j x hx
  rw [get?_hang hp, if_neg (Nat.ne_of_lt (get?_lt hx))]
  by_cases hj : p = j
  · rw [if_pos hj, hx]
    exact ⟨_, rfl, rfl, rfl, fun h => absurd hj h⟩
  · rw [if_neg hj]
    exact ⟨x, hx, rfl, rfl, fun _ => rfl⟩

theorem parent?_hang (a : Arena) (p : Nat) (c : Container) (e : Entry) (j : Nat) :
    (a.hang p c e).parent? j = if j = a.size then some p else a.parent? j := by
  rw [hang_eq, parent?_modify (f := (·.push (e.pointingTo a.size))) fun _ => rfl]
  exact parent?_alloc a _ j

/-- A container after one has been hung below another is the new one or one from before, which
holds the new one if that was hung below it. -/
theorem get?_hang_cases {p : Nat} (hp : p < a.size) {c : Container} {e : Entry} {j : Nat}
    {y : Container} (hy : (a.hang p c e).get? j = some y) :
    (j = a.size ∧ y = { c with parent? := some p }) ∨
      ∃ x, a.get? j = some x ∧ ((p = j ∧ y = x.holding a.size e) ∨ (p ≠ j ∧ y = x)) := by
  rw [get?_hang hp] at hy
  by_cases hj : j = a.size
  · rw [if_pos hj] at hy
    exact .inl ⟨hj, (Option.some.inj hy).symm⟩
  · rw [if_neg hj, ← get?_modify] at hy
    exact .inr (exists_get?_of_modify hy)

/-- The new container becomes a child of the one it is hung below; all else stands as before. -/
theorem Linked.mem_children_hang (ha : a.Linked base) {p : Nat} (hp : p < a.size) {c : Container}
    {e : Entry} (hchildren : c.children = []) {q d : Nat} {y : Container}
    (hy : (a.hang p c e).get? q = some y) :
    d ∈ y.children ↔ (a.hang p c e).parent? d = some q := by
  rw [parent?_hang]
  rcases get?_hang_cases hp hy with ⟨rfl, rfl⟩ | ⟨x, hx, ⟨rfl, rfl⟩ | ⟨hq, rfl⟩⟩
  · -- nothing stands below the new container
    simp only [hchildren, List.not_mem_nil, false_iff]
    split
    · intro h
      exact absurd (Option.some.inj h) (Nat.ne_of_lt hp)
    · intro h
      exact absurd (ha.parent_lt_size h) (Nat.lt_irrefl _)
  · rw [Container.holding, List.mem_append, List.mem_singleton, ha.mem_children hx]
    by_cases hd : d = a.size
    · simp [hd]
    · simp [hd]
  · rw [ha.mem_children hx]
    by_cases hd : d = a.size
    · rw [if_pos hd, hd, parent?, get?_size, Option.bind_none]
      simp only [reduceCtorEq, Option.some.injEq, false_iff]
      exact hq
    · rw [if_neg hd]

/-- The new child has not been listed before. -/
theorem Linked.nodup_children_hang (ha : a.Linked base) {p : Nat} {x : Container}
    (hx : a.get? p = some x) : (x.children ++ [a.size]).Nodup := by
  refine List.nodup_append.2 ⟨ha.nodup_children hx, List.nodup_singleton _, ?_⟩
  intro d hd d' hd' heq
  obtain ⟨w, hw, -⟩ := get?_of_parent? ((ha.mem_children hx).1 hd)
  have := get?_lt hw
  have := List.mem_singleton.1 hd'
  omega

/-- Hanging a container one level below an open one keeps the links. The container holds
values only, and exactly one if it is made for a leaf-list. -/
theorem Linked.hang (ha : a.Linked base) {p : Nat} (hopen : a.Open p) {c : Container} {e : Entry}
    (hchildren : c.children = []) (hvalues : ∀ d ∈ c.entries, d.kind = .leaf ∧ d.next? = none)
    (hkind : e.kind ≠ .leaf)
    (hwrapped : e.kind = .leafList ↔ c.synthetic = true ∧ c.entries.length = 1)
    (hlen : ∀ x, a.get? p = some x → c.path.length = x.path.length + 1) :
    (a.hang p c e).Linked base where
  parent_lt {d q} h := by
    obtain ⟨z, hz, -⟩ := hopen
    rw [parent?_hang] at h
    split at h
    · next hd =>
      rw [hd, ← Option.some.inj h]
      exact get?_lt hz
    · exact ha.parent_lt h
  mem_children hy := ha.mem_children_hang hopen.lt_size hchildren hy
  nodup_children hy := by
    rcases get?_hang_cases hopen.lt_size hy with ⟨rfl, rfl⟩ | ⟨x, hx, ⟨rfl, rfl⟩ | ⟨-, rfl⟩⟩
    · rw [show ({ c with parent? := some p } : Container).children = [] from hchildren]
      exact List.nodup_nil
    · exact ha.nodup_children_hang hx
    · exact ha.nodup_children hx
  children_eq hy := by
    rcases get?_hang_cases hopen.lt_size hy with ⟨rfl, rfl⟩ | ⟨x, hx, ⟨rfl, rfl⟩ | ⟨-, rfl⟩⟩
    · symm
      show c.entries.filterMap _ = c.children
      rw [hchildren, List.filterMap_eq_nil_iff]
      exact fun d hd => (hvalues d hd).2
    · simp only [Container.holding, List.filterMap_append, ← ha.children_eq hx]
      rfl
    · exact ha.children_eq hx
  next_iff hy hd := by
    rcases get?_hang_cases hopen.lt_size hy with ⟨rfl, rfl⟩ | ⟨x, hx, ⟨rfl, rfl⟩ | ⟨-, rfl⟩⟩
    · rw [(hvalues _ hd).1, (hvalues _ hd).2]
      simp
    · rcases List.mem_append.1 hd with hd | hd
      · exact ha.next_iff hx hd
      · obtain rfl := List.mem_singleton.1 hd
        exact ⟨fun _ => hkind, fun _ => rfl⟩
    · exact ha.next_iff hx hd
  wrapped hy hd hi := by
    have hp := hopen.lt_size
    have hkeep := keeps_hang hp c e
    rcases get?_hang_cases hp hy with ⟨rfl, rfl⟩ | ⟨x, hx, ⟨rfl, rfl⟩ | ⟨-, rfl⟩⟩
    · rw [(hvalues _ hd).2] at hi
      cases hi
    · rcases List.mem_append.1 hd with hd | hd
      · exact ha.wrapped_of_keeps hopen hkeep hx hd hi
      · obtain rfl := List.mem_singleton.1 hd
        obtain rfl := Option.some.inj hi
        exact ⟨{ c with parent? := some p }, by rw [get?_hang hp, if_pos rfl], hwrapped⟩
    · exact ha.wrapped_of_keeps hopen hkeep hx hd hi
  top_length hy hnone := by
    rcases get?_hang_cases hopen.lt_size hy with ⟨rfl, rfl⟩ | ⟨x, hx, ⟨rfl, rfl⟩ | ⟨-, rfl⟩⟩
    · cases hnone
    · have hbase := ha.top_length hx hnone
      exact hbase
    · exact ha.top_length hx hnone
  step_length hy hq := by
    have hkeep := keeps_hang hopen.lt_size c e
    rcases get?_hang_cases hopen.lt_size hy with ⟨rfl, rfl⟩ | ⟨x, hx, ⟨rfl, rfl⟩ | ⟨-, rfl⟩⟩
    · obtain rfl := Option.some.inj hq
      obtain ⟨z, hz, -⟩ := hopen
      obtain ⟨w, hw, hpath, -⟩ := hkeep p z hz
      exact ⟨w, hw, by rw [hpath]; exact hlen z hz⟩
    · have hstep := ha.step_length_of_keeps hkeep hx hq
      exact hstep
    · exact ha.step_length_of_keeps hkeep hx hq

end Arena

end YangPartition
