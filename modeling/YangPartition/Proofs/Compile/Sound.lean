import YangPartition.Compile.Finish
import YangPartition.Proofs.Compile.Step
import YangPartition.Proofs.Container.Links

/-!
# Resources at any time

What holds of a resource whatever has been compiled into it: its containers are
linked, those on top are known, and the container at a depth of the level stack
stands that deep below the resource. Every visit keeps this, whether the walk as a
whole comes to its end or not.
-/

namespace YangPartition

namespace Resource

/-! ### Putting nodes into containers -/

section Put

variable {x : Resource} {v : Visit} {parent : Nat} {boundary : Bool} {ref? : Option Reference}

/-- Recording a reference changes no outline. -/
theorem outline_record (ref : Reference) (j : Nat) :
    ((x.record parent ref).arena.get? j).map Container.outline =
      (x.arena.get? j).map Container.outline := by
  refine Arena.outline_modify x.arena parent ?_ j
  intro c
  rfl

theorem outline_putNode (hp : parent < x.arena.size) (target? : Option Path) (j : Nat) :
    ((x.putNode v parent boundary target?).arena.get? j).map Container.outline =
      if j = x.arena.size ∧ v.decl.kind.hasContainer = true then
        some (v.path, some parent, v.decl.kind == .leafList)
      else (x.arena.get? j).map Container.outline := by
  have hleaf : ((x.putLeaf v parent target?).arena.get? j).map Container.outline =
      (x.arena.get? j).map Container.outline := by
    refine Arena.outline_modify x.arena parent ?_ j
    intro c
    rfl
  rw [putNode]
  cases v.decl.kind with
  | container | list =>
    simp only [Kind.hasContainer, Kind.isBranch, Bool.true_or, and_true]
    exact Arena.outline_hang hp _ _ j
  | leafList =>
    simp only [Kind.hasContainer, beq_self_eq_true, Bool.or_true, and_true]
    exact Arena.outline_hang hp _ _ j
  | leaf | choice | case | rpc =>
    rw [if_neg (by simp [Kind.hasContainer, Kind.isBranch])]
    exact hleaf

/-- Putting a node in a container adds at most a container for the node below it. -/
theorem outline_put (hp : parent < x.arena.size) (j : Nat) :
    ((x.put v parent boundary ref?).arena.get? j).map Container.outline =
      if j = x.arena.size ∧ v.decl.kind.hasContainer = true then
        some (v.path, some parent, v.decl.kind == .leafList)
      else (x.arena.get? j).map Container.outline := by
  cases ref? with
  | none => exact outline_putNode hp none j
  | some ref =>
    exact (outline_record ref j).trans (outline_putNode hp (some ref.target) j)

theorem linked_putNode {base : Nat} (h : x.arena.Linked base) (hopen : x.arena.Open parent)
    (hlen : ∀ y, x.arena.get? parent = some y → v.path.length = y.path.length + 1)
    (target? : Option Path) : (x.putNode v parent boundary target?).arena.Linked base := by
  have hentry : (Entry.ofDeclaration v.decl v.listKeys).kind = .ofKind v.decl.kind := rfl
  rw [putNode]
  cases hkind : v.decl.kind with
  | container | list =>
    rw [hkind] at hentry
    refine h.hang hopen rfl (fun d hd => by cases hd) ?_ ?_ hlen
    · rw [hentry]
      decide
    · rw [hentry]
      simp [EntryKind.ofKind, Container.ofDeclaration]
  | leafList =>
    rw [hkind] at hentry
    refine h.hang hopen rfl ?_ ?_ ?_ hlen
    · intro d hd
      obtain rfl := List.mem_singleton.1 hd
      exact ⟨rfl, rfl⟩
    · rw [hentry]
      decide
    · rw [hentry]
      simp [EntryKind.ofKind, Container.ofDeclaration, Container.pushValue]
  | leaf | choice | case | rpc =>
    rw [hkind] at hentry
    exact h.modify_value hopen (e := { Entry.ofDeclaration v.decl v.listKeys with target? })
      hentry rfl fun _ => rfl

/-- A container found after a node has been put is the new one or has the outline it had. -/
theorem exists_get?_of_put (hp : parent < x.arena.size) {c : Nat} {y : Container}
    (hy : (x.put v parent boundary ref?).arena.get? c = some y) :
    (c = x.arena.size ∧ y.parent? = some parent) ∨
      ∃ z, x.arena.get? c = some z ∧ z.outline = y.outline := by
  have hc : ((x.put v parent boundary ref?).arena.get? c).map Container.outline = _ :=
    outline_put hp c
  rw [hy, Option.map_some] at hc
  split at hc
  · next hnew => exact .inl ⟨hnew.1, congrArg (·.2.1) (Option.some.inj hc)⟩
  · exact .inr (Option.map_eq_some_iff.1 hc.symm)

/-- A container that was there keeps its outline. -/
theorem exists_put_of_get? (hp : parent < x.arena.size) {c : Nat} {z : Container}
    (hz : x.arena.get? c = some z) :
    ∃ y, (x.put v parent boundary ref?).arena.get? c = some y ∧ y.outline = z.outline := by
  have hc : ((x.put v parent boundary ref?).arena.get? c).map Container.outline = _ :=
    outline_put hp c
  rw [if_neg fun hnew => Nat.ne_of_lt (Arena.get?_lt hz) hnew.1, hz, Option.map_some] at hc
  exact Option.map_eq_some_iff.1 hc

/-- A node that others stand below gets a container at the end. -/
theorem exists_put_of_isBranch (hp : parent < x.arena.size)
    (hbranch : v.decl.kind.isBranch = true) :
    ∃ y, (x.put v parent boundary ref?).arena.get? x.arena.size = some y ∧ y.path = v.path ∧
      y.synthetic = false := by
  have hnew : ((x.put v parent boundary ref?).arena.get? x.arena.size).map Container.outline = _ :=
    outline_put hp x.arena.size
  rw [if_pos ⟨rfl, by rw [Kind.hasContainer, hbranch, Bool.true_or]⟩] at hnew
  obtain ⟨y, hy, houtline⟩ := Option.map_eq_some_iff.1 hnew
  have hkind : (v.decl.kind == .leafList) = false :=
    beq_eq_false_iff_ne.2 (Kind.ne_leafList_of_isBranch hbranch)
  exact ⟨y, hy, congrArg (·.1) houtline, (congrArg (·.2.2) houtline).trans hkind⟩

/-- Dropping a node leaves all containers alone. -/
theorem arena_abandon (x : Resource) (v : Visit) : (x.abandon v).arena = x.arena := by
  rw [abandon]
  split <;> rfl

/-- The levels after a node has been dropped were there, above the node if others could stand
below it. -/
theorem level_abandon {i c : Nat} (hc : (x.abandon v).levels.levels[i]? = some c) :
    x.levels.levels[i]? = some c ∧ (v.decl.kind.isScalar = false → i < x.depthOf v.path) := by
  rw [abandon] at hc
  split at hc
  · next hscalar => exact ⟨hc, fun h => absurd hscalar (by simp [h])⟩
  · obtain ⟨hi, hc⟩ := LevelStack.getElem?_truncate_iff.1 hc
    exact ⟨hc, fun _ => hi⟩

/-- Of the levels after a node has been placed, that of the node has the new container if others
stand below the node; all others were there. -/
theorem level_placeBelow (hp : x.parentFor? v = some parent) {i c : Nat}
    (hc : (x.placeBelow v parent boundary ref?).levels.levels[i]? = some c) :
    (x.levels.levels[i]? = some c ∧ (v.decl.kind.isBranch = true → i < x.depthOf v.path)) ∨
      (v.decl.kind.isBranch = true ∧ i = x.depthOf v.path ∧ c = x.arena.size) := by
  obtain ⟨n, hdepth, hlevel⟩ := LevelStack.parentFor?_eq_some.1 hp
  have hn := (List.getElem?_eq_some_iff.1 hlevel).1
  rw [placeBelow] at hc
  simp only at hc
  split at hc
  · next hbranch =>
    rw [LevelStack.getElem?_enter (by omega)] at hc
    split at hc
    · next hi => exact .inl ⟨hc, fun _ => hi⟩
    · split at hc
      · next hi => exact .inr ⟨hbranch, hi, (Option.some.inj hc).symm⟩
      · cases hc
  · next hbranch => exact .inl ⟨hc, fun h => absurd h hbranch⟩

/-- Putting a node in an open container one level above keeps the links. -/
theorem linked_put {base : Nat} (h : x.arena.Linked base) (hopen : x.arena.Open parent)
    (hlen : ∀ y, x.arena.get? parent = some y → v.path.length = y.path.length + 1) :
    (x.put v parent boundary ref?).arena.Linked base := by
  cases ref? with
  | none => exact linked_putNode h hopen hlen none
  | some ref =>
    have hnode : (x.putNode v parent boundary (some ref.target)).arena.Linked base :=
      linked_putNode h hopen hlen (some ref.target)
    refine hnode.congr fun i => ?_
    show Option.map _ ((Arena.modify _ parent _).get? i) = _
    rw [Arena.get?_modify]
    split
    · rw [Option.map_map]
      rfl
    · rfl

@[simp] theorem root?_put : (x.put v parent boundary ref?).root? = x.root? := by
  have hnode : ∀ target?, (x.putNode v parent boundary target?).root? = x.root? := by
    intro target?
    rw [putNode]
    cases v.decl.kind <;> rfl
  cases ref? with
  | none => exact hnode none
  | some ref => exact hnode (some ref.target)

@[simp] theorem size_put : (x.put v parent boundary ref?).arena.size =
    if v.decl.kind.hasContainer then x.arena.size + 1 else x.arena.size := by
  have hnode : ∀ target?, (x.putNode v parent boundary target?).arena.size =
      if v.decl.kind.hasContainer then x.arena.size + 1 else x.arena.size := by
    intro target?
    rw [putNode]
    cases v.decl.kind with
    | container | list | leafList => exact Arena.size_hang _ _ _ _
    | leaf | choice | case | rpc => exact Arena.size_modify _ _ _
  cases ref? with
  | none => exact hnode none
  | some ref => exact (Arena.size_modify _ _ _).trans (hnode (some ref.target))

end Put

/-! ### Soundness -/

/-- What holds of a resource at any time; `tops` are the places of the containers
without one above, in the order in which they were made. -/
structure Sound (tops : List Nat) (x : Resource) : Prop where
  /-- The containers are linked. -/
  linked : x.arena.Linked x.path.length
  /-- The containers on top are those known to be. -/
  top_iff : ∀ {c y}, x.arena.get? c = some y → (y.parent? = none ↔ c ∈ tops)
  /-- They are there. -/
  top_lt : ∀ {c}, c ∈ tops → c < x.arena.size
  /-- They have no node in the resource of the whole schema, and have one in the others. -/
  top_synthetic : ∀ {c y}, x.arena.get? c = some y → y.parent? = none →
    (y.synthetic = true ↔ x.path.length = 0)
  /-- The root container is the one last made on top. -/
  root_eq : x.root? = tops.getLast?
  /-- The container at a depth stands that deep below the resource and may be put into. -/
  level : ∀ {i c}, x.levels.levels[i]? = some c → ∃ y, x.arena.get? c = some y ∧
    y.path.length = x.path.length + i ∧ (y.synthetic = true → y.parent? = none)

variable {s : ResourceSet} {o : Options} {x y : Resource} {tops : List Nat} {v : Visit}

theorem sound_blank (x : Resource) : x.blank.Sound [] where
  linked := Arena.linked_empty _
  top_iff h := by cases h
  top_lt h := by cases h
  top_synthetic h := by cases h
  root_eq := rfl
  level h := by cases h

/-- Without containers on top there are no containers. -/
theorem Sound.size_eq_zero (h : x.Sound []) : x.arena.size = 0 := by
  by_contra hsize
  obtain ⟨y, hy⟩ := Arena.exists_get? (Nat.pos_of_ne_zero hsize)
  cases hp : y.parent? with
  | none => cases (h.top_iff hy).1 hp
  | some p =>
    have := h.linked.parent_lt ((Arena.parent?_of_get? hy).trans hp)
    omega

/-- With at most the first container on top, that is the root container if there are any. -/
theorem root?_eq_of_sound (h : x.Sound [] ∨ x.Sound [0]) :
    x.root? = if x.arena.size = 0 then none else some 0 := by
  rcases h with h | h
  · rw [if_pos h.size_eq_zero]
    exact h.root_eq
  · rw [if_neg (Nat.ne_of_gt (h.top_lt List.mem_cons_self))]
    exact h.root_eq

/-! ### What a visit keeps -/

/-- Changes of the contents of containers beside links and paths, and dropping levels, keep
a resource sound. -/
theorem Sound.congr (h : x.Sound tops) (hpath : y.path = x.path) (hroot : y.root? = x.root?)
    (hsize : y.arena.size = x.arena.size)
    (hshape : ∀ i, (y.arena.get? i).map Container.shape = (x.arena.get? i).map Container.shape)
    (hlevels : y.levels.levels <+: x.levels.levels) : y.Sound tops where
  linked := by
    rw [hpath]
    exact h.linked.congr hshape
  top_iff {c z} hz := by
    obtain ⟨w, hw, hwz⟩ := Arena.exists_shape hshape hz
    rw [← show w.parent? = z.parent? from congrArg (·.2.1) hwz]
    exact h.top_iff hw
  top_lt hc := by
    rw [hsize]
    exact h.top_lt hc
  top_synthetic {c z} hz hp := by
    obtain ⟨w, hw, hwz⟩ := Arena.exists_shape hshape hz
    rw [← show w.synthetic = z.synthetic from congrArg (·.2.2.2.1) hwz, hpath]
    exact h.top_synthetic hw ((congrArg (·.2.1) hwz).trans hp)
  root_eq := hroot.trans h.root_eq
  level {i c} hc := by
    have hold : x.levels.levels[i]? = some c := by
      obtain ⟨hi, rfl⟩ := List.getElem?_eq_some_iff.1 hc
      exact List.prefix_iff_getElem?.1 hlevels i hi
    obtain ⟨w, hw, hlen, hopen⟩ := h.level hold
    obtain ⟨z, hz, hzw⟩ := Arena.exists_shape (fun i => (hshape i).symm) hw
    refine ⟨z, hz, ?_, fun hsyn => ?_⟩
    · rw [show z.path.length = w.path.length from congrArg (·.1) hzw, hpath]
      exact hlen
    · rw [show z.parent? = w.parent? from congrArg (·.2.1) hzw]
      exact hopen ((congrArg (·.2.2.2.1) hzw).symm.trans hsyn)

theorem Sound.abandon (h : x.Sound tops) (v : Visit) : (x.abandon v).Sound tops := by
  rw [Resource.abandon]
  split
  · exact h
  · exact h.congr rfl rfl rfl (fun _ => rfl) (List.take_prefix _ _)

/-- A container on top is added to those known, and becomes the root container. -/
theorem Sound.alloc_top (h : x.Sound tops) {c : Container} (hp : c.parent? = none)
    (hc : c.children = []) (he : c.entries = []) (hlen : c.path.length = x.path.length)
    (hsyn : c.synthetic = true ↔ x.path.length = 0) :
    Sound (tops ++ [x.arena.size])
      { x with
        arena := (x.arena.alloc c).1
        root? := some x.arena.size
        levels := x.levels.reset x.arena.size } := by
  refine ⟨h.linked.alloc_top hp hc he hlen, ?_, ?_, ?_, ?_, ?_⟩
  · intro i y hy
    rw [List.mem_append, List.mem_singleton]
    rcases Arena.get?_alloc_top_cases hp hy with ⟨hi, rfl⟩ | hy
    · simp [hp, hi]
    · rw [h.top_iff hy]
      simp [Nat.ne_of_lt (Arena.get?_lt hy)]
  · intro i hi
    rw [Arena.size_alloc]
    rcases List.mem_append.1 hi with hi | hi
    · have := h.top_lt hi
      omega
    · have := List.mem_singleton.1 hi
      omega
  · intro i y hy hnone
    rcases Arena.get?_alloc_top_cases hp hy with ⟨-, rfl⟩ | hy
    · exact hsyn
    · exact h.top_synthetic hy hnone
  · simp
  · intro i d hd
    obtain ⟨rfl, rfl⟩ := (LevelStack.getElem?_reset_iff (l := x.levels)).1 hd
    exact ⟨c, by rw [Arena.get?_alloc_top hp, if_pos rfl], hlen, fun _ => hp⟩

/-- The container of the resource's own node is the only one on top. -/
theorem Sound.placeRoot (h : x.Sound []) (hlen : v.path.length = x.path.length)
    (boundary : Bool) : (x.placeRoot v boundary).Sound [0] := by
  have hsound : (x.placeRoot v boundary).Sound ([] ++ [x.arena.size]) := by
    refine h.alloc_top (c := { Container.ofDeclaration v.decl v.path none with boundary })
      rfl rfl rfl hlen ?_
    rw [← hlen]
    simp [Container.ofDeclaration]
  rw [h.size_eq_zero] at hsound
  exact hsound

/-- The container of the resource's own node stands behind those that were there. -/
theorem get?_placeRoot (x : Resource) (v : Visit) (boundary : Bool) (i : Nat) :
    (x.placeRoot v boundary).arena.get? i =
      if i = x.arena.size then some { Container.ofDeclaration v.decl v.path none with boundary }
      else x.arena.get? i :=
  Arena.get?_alloc_top (c := { Container.ofDeclaration v.decl v.path none with boundary })
    rfl x.arena i

/-- A container on top stands behind those that were there. -/
theorem get?_placeTop (x : Resource) (i : Nat) : x.placeTop.arena.get? i =
    if i = x.arena.size then some (.ofName "root" none) else x.arena.get? i :=
  Arena.get?_alloc_top (c := .ofName "root" none) rfl x.arena i

theorem Sound.placeTop (h : x.Sound tops) (hlen : x.path.length = 0) :
    x.placeTop.Sound (tops ++ [x.arena.size]) :=
  h.alloc_top (c := .ofName "root" none) rfl rfl rfl hlen.symm (by simp [Container.ofName, hlen])

/-- The container for a node stands one level above the node and may be put into. -/
theorem Sound.parent (h : x.Sound tops) {parent : Nat} (hp : x.parentFor? v = some parent) :
    x.arena.Open parent ∧
      ∀ y, x.arena.get? parent = some y → v.path.length = y.path.length + 1 := by
  obtain ⟨n, hdepth, hlevel⟩ := LevelStack.parentFor?_eq_some.1 hp
  obtain ⟨y, hy, hlen, hopen⟩ := h.level hlevel
  refine ⟨⟨y, hy, hopen⟩, fun z hz => ?_⟩
  obtain rfl := Option.some.inj (hy.symm.trans hz)
  rw [depthOf] at hdepth
  omega

theorem Sound.placeBelow (h : x.Sound tops) {parent : Nat} (hp : x.parentFor? v = some parent)
    (boundary : Bool) (ref? : Option Reference) :
    (x.placeBelow v parent boundary ref?).Sound tops := by
  obtain ⟨hopen, hlen⟩ := h.parent hp
  have hlt := hopen.lt_size
  have hpath : (x.placeBelow v parent boundary ref?).path = x.path :=
    path_of_blank (blank_placeBelow x v parent boundary ref?)
  refine ⟨?_, ?_, ?_, ?_, ?_, ?_⟩
  · rw [hpath]
    exact linked_put h.linked hopen hlen
  · intro c y hy
    rcases exists_get?_of_put hlt hy with ⟨rfl, hparent⟩ | ⟨z, hz, hzy⟩
    · rw [hparent]
      constructor
      · intro hnone
        cases hnone
      · intro hc
        exact absurd (h.top_lt hc) (Nat.lt_irrefl _)
    · rw [← Container.parent?_of_outline hzy]
      exact h.top_iff hz
  · intro c hc
    have hsize : x.arena.size ≤ (x.put v parent boundary ref?).arena.size := by
      rw [size_put]
      split <;> omega
    exact Nat.lt_of_lt_of_le (h.top_lt hc) hsize
  · intro c y hy hnone
    rcases exists_get?_of_put hlt hy with ⟨-, hparent⟩ | ⟨z, hz, hzy⟩
    · rw [hparent] at hnone
      cases hnone
    · rw [hpath, ← Container.synthetic_of_outline hzy]
      exact h.top_synthetic hz ((Container.parent?_of_outline hzy).trans hnone)
  · exact root?_put.trans h.root_eq
  · intro i c hc
    rw [hpath]
    rcases level_placeBelow hp hc with ⟨hc, -⟩ | ⟨hbranch, rfl, rfl⟩
    · obtain ⟨z, hz, hzlen, hzopen⟩ := h.level hc
      obtain ⟨y, hy, hyz⟩ := exists_put_of_get? hlt hz
      refine ⟨y, hy, ?_, ?_⟩
      · rw [Container.path_of_outline hyz]
        exact hzlen
      · rw [Container.synthetic_of_outline hyz, Container.parent?_of_outline hyz]
        exact hzopen
    · obtain ⟨y, hy, hypath, hsyn⟩ := exists_put_of_isBranch hlt hbranch
      obtain ⟨n, hdepth, -⟩ := LevelStack.parentFor?_eq_some.1 hp
      refine ⟨y, hy, ?_, fun htrue => ?_⟩
      · rw [hypath]
        rw [depthOf] at hdepth ⊢
        omega
      · rw [hsyn] at htrue
        cases htrue

/-- A visit keeps the containers on top that are known, or makes the first one for the
resource's own node. -/
theorem Sound.see (h : x.Sound tops)
    (hlen : Owns s x.id v.path → x.path.length ≤ v.path.length) (hy : x.see s o v = .ok y) :
    y.Sound tops ∨
      (tops = [] ∧ Owns s x.id v.path ∧ v.path.length = x.path.length ∧ y.Sound [0]) := by
  rcases see_cases hy with ⟨rfl, -⟩ | ⟨-, -, -, rfl⟩ | ⟨-, hown, -, hdepth, hroot, rfl⟩ |
    ⟨parent, -, -, -, -, hparent, rfl⟩
  · exact .inl h
  · exact .inl (h.abandon v)
  · have htops : tops = [] := by
      rw [h.root_eq, List.getLast?_eq_none_iff] at hroot
      exact hroot
    subst htops
    have heq := (depthOf_eq_zero_iff (hlen hown)).1 hdepth
    exact .inr ⟨rfl, hown, heq, h.placeRoot heq _⟩
  · exact .inl (h.placeBelow hparent _ _)

end Resource

end YangPartition
