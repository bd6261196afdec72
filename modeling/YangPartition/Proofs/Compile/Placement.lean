import YangPartition.Proofs.Compile.Slots

/-!
# Which nodes are placed

Whether a node is placed in a resource can be told from the node and the data nodes above
it. The containers that compilation makes are those of the placed nodes, in the order of
the schema, and no level stack has a part in it.
-/

namespace YangPartition

/-! ### Nodes and those above -/

/-- A data node of a forest and the data nodes above it. -/
structure Site where
  /-- The node. -/
  visit : Visit
  /-- The data nodes above, the nearest first. -/
  above : List Visit
  deriving DecidableEq

namespace Node

mutual

/-- The data nodes among a node and those below it. -/
def sites (above : List Visit) (below : Path) (listKeys : List String) : Node → List Site
  | ⟨decl, children⟩ =>
    if decl.kind.isTransparent then sitesAll above below listKeys children
    else
      let v : Visit := ⟨below, listKeys, decl⟩
      ⟨v, above⟩ :: sitesAll (v :: above) v.path decl.keysBelow children
termination_by structural n => n

/-- The data nodes among nodes that stand beside each other and those below them. -/
def sitesAll (above : List Visit) (below : Path) (listKeys : List String) :
    List (String × Node) → List Site
  | [] => []
  | (_, n) :: rest => n.sites above below listKeys ++ sitesAll above below listKeys rest
termination_by structural ns => ns

end

end Node

/-- The data nodes of a forest, each before those below it. -/
def Forest.sites (f : Forest) : List Site :=
  f.modules.flatMap fun m => Node.sitesAll [] .root [] m.nodes

/-! ### Placed nodes -/

namespace Resource

variable (s : ResourceSet) (o : Options) (x : Resource)

/-- Whether a node below others is placed in a resource: the resource takes it, and it is a
container or list at the resource's own path or stands right below a placed container or list.
The top of the whole schema counts as one. -/
def isPlaced (v : Visit) : List Visit → Bool
  | [] => x.takes s o v && (x.isOwnNode v || decide (HasTop s x))
  | u :: above => x.takes s o v && (x.isOwnNode v || (u.decl.kind.isBranch && isPlaced u above))

/-- Whether a container stands for what is right above a node. -/
def isHosted : List Visit → Bool
  | [] => decide (HasTop s x)
  | u :: above => u.decl.kind.isBranch && x.isPlaced s o u above

variable {s o x}

theorem isPlaced_eq (v : Visit) (above : List Visit) :
    x.isPlaced s o v above = (x.takes s o v && (x.isOwnNode v || x.isHosted s o above)) := by
  cases above <;> rfl

/-- A node is placed exactly when its resource owns the path without excluding it, the node is
no procedure and no unwanted state, and there is a container for it or it becomes the root. -/
theorem isPlaced_iff (v : Visit) (above : List Visit) :
    x.isPlaced s o v above = true ↔
      (s.bestMatch? v.path).map (·.id) = some x.id ∧ (∀ p ∈ x.excludes, ¬ p.names <+: v.path.names) ∧
        v.decl.kind ≠ .rpc ∧ (v.decl.readOnly = true → o.includeState = true) ∧
        ((v.path.length = x.path.length ∧ v.decl.kind.isBranch = true) ∨
          x.isHosted s o above = true) := by
  have hexcluded : x.excludes.any (·.isAbove v.path) = false ↔
      ∀ p ∈ x.excludes, ¬ p.names <+: v.path.names := by
    rw [List.any_eq_false]
    exact forall₂_congr fun p _ => not_congr (Path.isAbove_iff p v.path)
  rw [isPlaced_eq, takes, isOwnNode, leavesOut]
  simp only [Bool.and_eq_true, Bool.not_eq_true', Bool.or_eq_false_iff,
    Bool.or_eq_true, beq_iff_eq, beq_eq_false_iff_ne, hexcluded, Owns]
  cases v.decl.readOnly <;> cases o.includeState <;> simp [and_assoc]

end Resource

namespace Resource

variable {s : ResourceSet} {o : Options} {x : Resource} {v : Visit}

/-- A node that is taken and holds no other nodes holds values. -/
theorem isScalar_of_takes (hdata : v.decl.kind.isTransparent = false)
    (htakes : x.takes s o v = true) (hbranch : v.decl.kind.isBranch = false) :
    v.decl.kind.isScalar = true := by
  obtain ⟨-, hout⟩ := takes_iff.1 htakes
  cases hscalar : v.decl.kind.isScalar with
  | true => rfl
  | false =>
    rw [isBranch_of_placed hdata hscalar (ne_rpc_of_not_leavesOut hout)] at hbranch
    cases hbranch

end Resource

/-! ### The plan -/

namespace Planned

theorem flattenAll_append (ps qs : List Planned) :
    flattenAll (ps ++ qs) = flattenAll ps ++ flattenAll qs := by
  induction ps with
  | nil => rfl
  | cons p ps ih => rw [List.cons_append, flattenAll, flattenAll, ih, List.append_assoc]

end Planned

namespace Node

open Planned

variable {s : ResourceSet} {o : Options} {x : Resource}

mutual

/-- The planned nodes are the placed ones. -/
theorem flatten_plan (above : List Visit) (below : Path) (listKeys : List String) (n : Node) :
    flattenAll (n.plan s o x (x.isHosted s o above) below listKeys) =
      ((n.sites above below listKeys).filter fun i => x.isPlaced s o i.visit i.above).map
        (·.visit) := by
  obtain ⟨decl, children⟩ := n
  rw [plan, sites]
  split
  · exact flatten_planAll above below listKeys children
  · simp only
    generalize hv : (⟨below, listKeys, decl⟩ : Visit) = v
    -- what stands right above the children decides whether there is a container for them
    have hnext : x.isHosted s o (v :: above) = (decl.kind.isBranch && x.isPlaced s o v above) := by
      rw [← hv]
      rfl
    have hchildren := flatten_planAll (v :: above) v.path decl.keysBelow children
    rw [List.filter_cons, ← Resource.isPlaced_eq]
    cases hplaced : x.isPlaced s o v above with
    | true =>
      rw [hnext, hplaced, Bool.and_true] at hchildren
      rw [if_pos rfl, if_pos rfl, flattenAll, flatten, flattenAll, List.append_nil, List.map_cons,
        hchildren]
    | false =>
      rw [hnext, hplaced, Bool.and_false] at hchildren
      rw [if_neg Bool.false_ne_true, if_neg Bool.false_ne_true]
      exact hchildren
termination_by structural n

theorem flatten_planAll (above : List Visit) (below : Path) (listKeys : List String)
    (ns : List (String × Node)) :
    flattenAll (planAll s o x (x.isHosted s o above) below listKeys ns) =
      ((sitesAll above below listKeys ns).filter fun i => x.isPlaced s o i.visit i.above).map
        (·.visit) := by
  match ns with
  | [] => rfl
  | (_, n) :: rest =>
    rw [planAll, sitesAll, flattenAll_append, List.filter_append, List.map_append,
      flatten_plan above below listKeys n, flatten_planAll above below listKeys rest]
termination_by structural ns

end

end Node

/-- The planned nodes of a forest are the placed ones, in the order of the schema. -/
theorem Forest.flatten_plan (s : ResourceSet) (o : Options) (x : Resource) (f : Forest) :
    Planned.flattenAll (f.plan s o x) =
      (f.sites.filter fun i => x.isPlaced s o i.visit i.above).map (·.visit) := by
  rw [plan, sites]
  induction f.modules with
  | nil => rfl
  | cons m modules ih =>
    rw [List.flatMap_cons, List.flatMap_cons, Planned.flattenAll_append, List.filter_append,
      List.map_append, ih]
    congr 1
    exact Node.flatten_planAll [] .root [] m.nodes

/-! ### Paths of containers -/

section

variable {s : ResourceSet} {o : Options}

/-- A node that is placed in a container leaves its outline as it is. -/
theorem Container.outline_receive (id : Nat) (c : Container) (place : Nat) (v : Visit) :
    (c.receive s o id place v).outline = c.outline := by
  unfold Container.receive
  cases Resource.referenceOf? s o id v with
  | none => cases v.decl.kind.hasContainer <;> rfl
  | some ref => cases v.decl.kind.hasContainer <;> rfl

theorem Container.path_made (id : Nat) (parent? : Option Nat) (v : Visit) :
    (Container.made s o id parent? v).path = v.path := by
  rw [Container.made]
  split <;> rfl

end

namespace Node

open Planned

variable {s : ResourceSet} {o : Options} {x : Resource}

mutual

/-- The slots are those of the planned nodes that have containers, in their order. -/
theorem visits_slots (hosted : Bool) (below : Path) (listKeys : List String)
    (parent? : Option Nat) (start : Nat) (n : Node) (hbare : n.scalarsBare = true) :
    (slotsAll parent? start (n.plan s o x hosted below listKeys)).map (·.visit) =
      (flattenAll (n.plan s o x hosted below listKeys)).filter (·.decl.kind.hasContainer) := by
  obtain ⟨decl, children⟩ := n
  rw [scalarsBare, Bool.and_eq_true] at hbare
  rw [plan]
  split
  · exact visits_slotsAll hosted below listKeys parent? start children hbare.2
  · next hdata =>
    simp only
    generalize hv : (⟨below, listKeys, decl⟩ : Visit) = v
    have hdecl : v.decl = decl := by rw [← hv]
    split
    · next hplaced =>
      rw [slotsAll, slotsAll, List.append_nil, flattenAll, flattenAll, List.append_nil,
        flatten, slots, List.filter_cons, hdecl]
      cases hbranch : decl.kind.isBranch with
      | true =>
        rw [if_pos rfl, if_pos (by simp [Kind.hasContainer, hbranch]), List.map_cons,
          visits_slotsAll true v.path decl.keysBelow (some start) (start + 1) children hbare.2]
      | false =>
        -- a leaf or leaf-list has nothing below
        have hscalar : decl.kind.isScalar = true := by
          rw [← hdecl] at hdata hbranch ⊢
          rw [Bool.and_eq_true] at hplaced
          exact Resource.isScalar_of_takes (by simpa using hdata) hplaced.1 hbranch
        rw [hscalar, Bool.not_true, Bool.false_or, List.isEmpty_iff] at hbare
        rw [if_neg Bool.false_ne_true, hbare.1, planAll, flattenAll]
        by_cases hkind : decl.kind = .leafList
        · rw [if_pos hkind, if_pos (by simp [Kind.hasContainer, hkind])]
          rfl
        · rw [if_neg hkind, if_neg (by simp [Kind.hasContainer, hbranch, hkind])]
          rfl
    · exact visits_slotsAll false v.path decl.keysBelow parent? start children hbare.2
termination_by structural n

theorem visits_slotsAll (hosted : Bool) (below : Path) (listKeys : List String)
    (parent? : Option Nat) (start : Nat) (ns : List (String × Node))
    (hbare : scalarsBareAll ns = true) :
    (slotsAll parent? start (planAll s o x hosted below listKeys ns)).map (·.visit) =
      (flattenAll (planAll s o x hosted below listKeys ns)).filter (·.decl.kind.hasContainer) := by
  match ns with
  | [] => rfl
  | (_, n) :: rest =>
    rw [scalarsBareAll, Bool.and_eq_true] at hbare
    rw [planAll, slotsAll_append, flattenAll_append, List.filter_append, List.map_append,
      visits_slots hosted below listKeys parent? start n hbare.1,
      visits_slotsAll hosted below listKeys parent? _ rest hbare.2]
termination_by structural ns

end

end Node

namespace Forest

open Planned

variable {s : ResourceSet} {o : Options} {x : Resource} {f : Forest}

/-- The slots of a forest are those of the planned nodes that have containers, in their order. -/
theorem visits_slots (hbare : f.scalarsBare = true) :
    (f.slots s o x).map (·.visit) =
      (flattenAll (f.plan s o x)).filter (·.decl.kind.hasContainer) := by
  have hmodules : ∀ (modules : List Module) (hosted : Bool) (parent? : Option Nat) (start : Nat),
      (modules.all fun m => Node.scalarsBareAll m.nodes) = true →
      (slotsAll parent? start
        (modules.flatMap fun m => Node.planAll s o x hosted .root [] m.nodes)).map (·.visit) =
      (flattenAll (modules.flatMap fun m => Node.planAll s o x hosted .root [] m.nodes)).filter
        (·.decl.kind.hasContainer) := by
    intro modules hosted parent? start hbare
    induction modules generalizing start with
    | nil => rfl
    | cons m modules ih =>
      rw [List.all_cons, Bool.and_eq_true] at hbare
      rw [List.flatMap_cons, slotsAll_append, flattenAll_append, List.filter_append,
        List.map_append, ih _ hbare.2,
        Node.visits_slotsAll hosted .root [] parent? start m.nodes hbare.1]
  exact hmodules f.modules _ _ _ hbare

/-- The containers are those of the planned nodes that have one, in their order; that of the
top of the whole schema comes first. -/
theorem path_layout (hbare : f.scalarsBare = true) :
    (f.layout s o x).map (·.path) =
      (if Resource.HasTop s x then [Path.root] else []) ++
        ((flattenAll (f.plan s o x)).filter (·.decl.kind.hasContainer)).map (·.path) := by
  rw [layout_eq_slots, List.map_append, List.map_map, ← visits_slots hbare, List.map_map]
  congr 1
  · rw [top]
    split
    · rfl
    · rfl
  · exact List.map_congr_left fun t _ => t.path_container

end Forest

/-! ### Nodes above slots -/

namespace Site

/-- The path below the nearest of the data nodes above, or the top. -/
def pathBelow : List Visit → Path
  | [] => .root
  | u :: _ => u.path

/-- The keys of the nearest of the data nodes above, if it is a list. -/
def keysBelow : List Visit → List String
  | [] => []
  | u :: _ => u.decl.keysBelow

/-- Whether a node stands where the data nodes above it say, and is told the keys of the nearest of
them. -/
structure Fits (i : Site) : Prop where
  /-- It stands right below the nearest data node. -/
  below_eq : i.visit.below = pathBelow i.above
  /-- It is told the keys of that node. -/
  listKeys_eq : i.visit.listKeys = keysBelow i.above

end Site

namespace Node

mutual

theorem fits_of_mem_sites (above : List Visit) (n : Node) {i : Site}
    (h : i ∈ n.sites above (Site.pathBelow above) (Site.keysBelow above)) : i.Fits := by
  obtain ⟨decl, children⟩ := n
  rw [sites] at h
  split at h
  · -- choices and cases pass on what they are told
    exact fits_of_mem_sitesAll above children h
  · rcases List.mem_cons.1 h with rfl | h
    · exact ⟨rfl, rfl⟩
    · exact fits_of_mem_sitesAll (⟨_, _, decl⟩ :: above) children h
termination_by structural n

theorem fits_of_mem_sitesAll (above : List Visit) (ns : List (String × Node)) {i : Site}
    (h : i ∈ sitesAll above (Site.pathBelow above) (Site.keysBelow above) ns) : i.Fits := by
  match ns with
  | [] => cases h
  | (_, n) :: rest =>
    rw [sitesAll] at h
    rcases List.mem_append.1 h with h | h
    · exact fits_of_mem_sites above n h
    · exact fits_of_mem_sitesAll above rest h
termination_by structural ns

end

end Node

/-- However many choices and cases are between a node and the nearest data node above, it stands
right below that node and is told its keys. -/
theorem Forest.fits_of_mem_sites {f : Forest} {i : Site} (h : i ∈ f.sites) : i.Fits := by
  obtain ⟨m, -, hm⟩ := List.mem_flatMap.1 h
  exact Node.fits_of_mem_sitesAll [] m.nodes hm

namespace Node

open Planned

variable {s : ResourceSet} {o : Options} {x : Resource}

mutual

/-- What is placed in the container of a node are data nodes right below it. -/
theorem relates_sites (hs : s.Instantiated) (hx : s.get? x.id = some x.blank) (hosted : Bool)
    (above : List Visit) (below : Path) (listKeys : List String) (n : Node) {l : List Site}
    (hl : n.sites above below listKeys ⊆ l)
    (hdeep : hosted = true → x.path.length ≤ below.length) :
    RelatesAll (fun u v => ∃ upper, ⟨v, u :: upper⟩ ∈ l) (fun v => hosted = true → ⟨v, above⟩ ∈ l)
      (n.plan s o x hosted below listKeys) := by
  obtain ⟨decl, children⟩ := n
  rw [plan]
  rw [sites] at hl
  split
  · next htransparent =>
    rw [if_pos htransparent] at hl
    exact relatesAll_sites hs hx hosted above below listKeys children hl hdeep
  next hdata =>
  rw [if_neg hdata] at hl
  simp only at hl ⊢
  generalize hv : (⟨below, listKeys, decl⟩ : Visit) = v at hl ⊢
  have hpush : v.path.length = below.length + 1 := by rw [← hv, Visit.length_path]
  obtain ⟨hself, hchildren⟩ := List.cons_subset.1 hl
  split
  · next hplaced =>
    rw [Bool.and_eq_true, Resource.takes_iff] at hplaced
    have hlen := Resource.length_le_of_owns hs hx hplaced.1.1
    refine ⟨fun _ => hself, ?_, trivial⟩
    rw [Relates]
    cases hbranch : decl.kind.isBranch with
    | true =>
      exact (relatesAll_sites hs hx true (v :: above) v.path decl.keysBelow children hchildren
        fun _ => hlen).imp fun w hw => ⟨above, hw rfl⟩
    | false =>
      rw [planAll_deep hlen]
      trivial
  · cases hosted with
    | false =>
      exact (relatesAll_sites hs hx false (v :: above) _ _ children hchildren
        fun h => (by cases h)).imp fun w _ h => (by cases h)
    | true =>
      have := hdeep rfl
      rw [planAll_deep (by omega)]
      trivial
termination_by structural n

theorem relatesAll_sites (hs : s.Instantiated) (hx : s.get? x.id = some x.blank) (hosted : Bool)
    (above : List Visit) (below : Path) (listKeys : List String) (ns : List (String × Node))
    {l : List Site} (hl : sitesAll above below listKeys ns ⊆ l)
    (hdeep : hosted = true → x.path.length ≤ below.length) :
    RelatesAll (fun u v => ∃ upper, ⟨v, u :: upper⟩ ∈ l) (fun v => hosted = true → ⟨v, above⟩ ∈ l)
      (planAll s o x hosted below listKeys ns) := by
  match ns with
  | [] => exact trivial
  | (_, n) :: rest =>
    rw [sitesAll] at hl
    obtain ⟨hfirst, hrest⟩ := List.append_subset.1 hl
    rw [planAll]
    exact (relates_sites hs hx hosted above below listKeys n hfirst hdeep).append
      (relatesAll_sites hs hx hosted above below listKeys rest hrest hdeep)
termination_by structural ns

end

end Node

namespace Forest

open Planned

variable {s : ResourceSet} {o : Options} {x : Resource} {f : Forest}

/-- What is placed in the container of a node are data nodes right below it, and what is placed in
that of the top of the whole schema are data nodes on top. -/
theorem relates_sites (hs : s.Instantiated) (hx : s.get? x.id = some x.blank) :
    RelatesAll (fun u v => ∃ upper, ⟨v, u :: upper⟩ ∈ f.sites)
      (fun v => Resource.HasTop s x → ⟨v, []⟩ ∈ f.sites) (f.plan s o x) := by
  refine RelatesAll.flatMap fun m hm => ?_
  have hsites : Node.sitesAll [] .root [] m.nodes ⊆ f.sites := fun i hi =>
    List.mem_flatMap.2 ⟨m, hm, hi⟩
  refine (Node.relatesAll_sites hs hx _ [] .root [] m.nodes hsites fun htop => ?_).imp
    fun v hv htop => hv (decide_eq_true htop)
  have htop : Resource.HasTop s x := of_decide_eq_true htop
  have hpath : x.blank.path = .root := hs.path_root hs.blank (by rw [← htop.2, hx])
  exact Nat.le_of_eq (congrArg Path.length hpath)

/-- What is placed in the container of a node stands right below the node, and what is placed in
that of the top of the whole schema stands on top. -/
theorem relates_path_of_blank (hs : s.Instantiated) (hx : s.get? x.id = some x.blank) :
    RelatesAll (fun u v => v.below = u.path) (fun v => Resource.HasTop s x → v.below = .root)
      (f.plan s o x) :=
  (relates_sites hs hx).mono (fun _ _ ⟨_, h⟩ => (fits_of_mem_sites h).below_eq)
    fun _ h htop => (fits_of_mem_sites (h htop)).below_eq

theorem relates_path (hs : s.Instantiated) {id : Nat} (hx : s.get? id = some x) :
    RelatesAll (fun u v => v.below = u.path) (fun v => Resource.HasTop s x → v.below = .root)
      (f.plan s o x) :=
  relates_path_of_blank hs (hs.get?_self hs.blank hx)

end Forest

/-! ### The result -/

namespace ResourceSet

/-- What compilation makes of a resource is what a recursion makes of it that hands each child
the container of its parent. Its containers are laid out along the plan, which holds the placed
nodes in the order of the schema; a node is placed when its resource takes it and it is the root
of the resource or there is a container for what is right above it. -/
theorem compile_eq_recursion {m : ResourceMap} {mode : Mode} {s : ResourceSet}
    (hs : ofMap m mode = .ok s) {o : Options} {f : Forest} (hbare : f.scalarsBare = true)
    {t : ResourceSet} {stats : Stats} (h : s.compile o f = (t, .ok stats)) {id : Nat}
    {x : Resource} (hx : s.get? id = some x) :
    t.get? id = some (f.grow s o x) ∧
    (f.grow s o x).arena.toList = f.layout s o x ∧
    Planned.flattenAll (f.plan s o x) =
      (f.sites.filter fun i => x.isPlaced s o i.visit i.above).map (·.visit) ∧
    (f.grow s o x).arena.toList.map (·.path) =
      (if Resource.HasTop s x then [Path.root] else []) ++
        (((f.sites.filter fun i => x.isPlaced s o i.visit i.above).map (·.visit)).filter
          (·.decl.kind.hasContainer)).map (·.path) ∧
    ∀ v above, x.isPlaced s o v above = true ↔
      (s.bestMatch? v.path).map (·.id) = some id ∧ (∀ p ∈ x.excludes, ¬ p.names <+: v.path.names) ∧
        v.decl.kind ≠ .rpc ∧ (v.decl.readOnly = true → o.includeState = true) ∧
        ((v.path.length = x.path.length ∧ v.decl.kind.isBranch = true) ∨
          x.isHosted s o above = true) := by
  have hinst := instantiated_ofMap hs
  have hlist := Forest.toList_grow (o := o) hinst hx f
  have hplan := Forest.flatten_plan s o x f
  refine ⟨Forest.grow_of_compile hinst hbare h hx, hlist, hplan, ?_, fun v above => ?_⟩
  · rw [hlist, Forest.path_layout hbare, hplan]
  · rw [← hinst.id_eq hinst.blank hx]
    exact Resource.isPlaced_iff v above

/-- A node that is excluded takes those below it with it, but for a resource further down; a
choice stands for its cases. -/
theorem compile_eq_recursion_nested :
    let b : Node := ⟨{ name := "b", kind := .container },
      [("c", ⟨{ name := "c", kind := .container }, [("l", .ofLeaf "l" "string")]⟩),
        ("e", .ofLeaf "e" "string")]⟩
    let choice : Node := ⟨{ name := "h", kind := .choice },
      [("k", ⟨{ name := "k", kind := .case }, [("d", .ofKind .container "d")]⟩)]⟩
    let f : Forest := { modules := [{ name := "m", nodes :=
      [("a", ⟨{ name := "a", kind := .container }, [("b", b), ("h", choice)]⟩)] }] }
    ∃ s t stats, ofMap { declared := [("/a", { excludes := ["b"], hierarchy? := some [("b/c", {})] })] }
        .declared = .ok s ∧ s.compile {} f = (t, .ok stats) ∧
      ∃ x, s.get? 1 = some x ∧ t.get? 1 = some (f.grow s {} x) ∧
        (f.grow s {} x).arena.toList.map (·.path.names) = [["a"], ["a", "d"]] := by
  intro b choice f
  obtain ⟨s, hs, htest⟩ := exists_ok_of_any
    (p := fun s => (s.compile {} f).2.toOption.isSome && (s.get? 1).isSome &&
      ((s.compile {} f).1.get? 1).any fun y =>
        y.arena.toList.map (·.path.names) == [["a"], ["a", "d"]])
    (show (ofMap { declared := [("/a", { excludes := ["b"], hierarchy? := some [("b/c", {})] })] }
      .declared).toOption.any _ = true by decide +kernel)
  simp only [Bool.and_eq_true, Option.any_eq_true, beq_iff_eq] at htest
  obtain ⟨⟨hok, hget⟩, y, hy, hnames⟩ := htest
  obtain ⟨x, hx⟩ := Option.isSome_iff_exists.1 hget
  obtain ⟨stats, hstats, -⟩ := exists_ok_of_any (p := fun _ => true) (by
    rw [Option.any_true]
    exact hok)
  have hgrown := (compile_eq_recursion hs (by decide) (Prod.ext rfl hstats) hx).1
  refine ⟨s, _, stats, hs, Prod.ext rfl hstats, x, hx, hgrown, ?_⟩
  obtain rfl := Option.some.inj (hy.symm.trans hgrown)
  exact hnames

end ResourceSet

end YangPartition
