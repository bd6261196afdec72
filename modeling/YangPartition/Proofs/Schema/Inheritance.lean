import Mathlib.Data.List.Nodup
import YangPartition.Schema.Forest

/-!
# Inheritance

After inheritance a node has the name under which it stands, is state when it or a node above it
was declared as state, and belongs to the module, namespace and prefix that the nearest of it and
the nodes above it states, or else to those of the schema module. Nodes that have all they inherit
inherit nothing more, so the order in which nodes are added to a module does not matter, and
modules that are built in this way are only sorted when they make up a forest.
-/

namespace YangPartition

namespace Node

/-! ### Inheriting again -/

mutual

theorem inherit_inherit (name : String) (outer : Identity) (state : Bool) (n : Node) :
    (n.inherit name outer state).inherit name outer state = n.inherit name outer state := by
  obtain ⟨decl, children⟩ := n
  have hdecl : (decl.inherit name outer state).inherit name outer state =
      decl.inherit name outer state := by
    simp [Declaration.inherit]
  rw [inherit, inherit, hdecl, inheritAll_inheritAll]
termination_by structural n

theorem inheritAll_inheritAll (outer : Identity) (state : Bool) (ns : List (String × Node)) :
    inheritAll outer state (inheritAll outer state ns) = inheritAll outer state ns := by
  match ns with
  | [] => rfl
  | (name, n) :: rest =>
    rw [inheritAll, inheritAll, inherit_inherit, inheritAll_inheritAll]
termination_by structural ns

end

/-! ### Nodes under their names -/

theorem inheritAll_eq_map (outer : Identity) (state : Bool) (ns : List (String × Node)) :
    inheritAll outer state ns = ns.map fun p => (p.1, p.2.inherit p.1 outer state) := by
  induction ns with
  | nil => rfl
  | cons p ns ih =>
    rw [List.map_cons, ← ih]
    rfl

theorem names_inheritAll (outer : Identity) (state : Bool) (ns : List (String × Node)) :
    (inheritAll outer state ns).map (·.1) = ns.map (·.1) := by
  rw [inheritAll_eq_map, List.map_map]
  rfl

theorem find?_inheritAll (outer : Identity) (state : Bool) (ns : List (String × Node))
    (name : String) : NameMap.find? name (inheritAll outer state ns) =
      (NameMap.find? name ns).map (·.inherit name outer state) := by
  rw [inheritAll_eq_map]
  exact NameMap.find?_map (fun name n => n.inherit name outer state) name ns

theorem inheritAll_insert (outer : Identity) (state : Bool) (name : String) (n : Node)
    (ns : List (String × Node)) :
    inheritAll outer state (NameMap.insert name n ns) =
      NameMap.insert name (n.inherit name outer state) (inheritAll outer state ns) := by
  rw [inheritAll_eq_map, inheritAll_eq_map]
  exact NameMap.insert_map (fun name n => n.inherit name outer state) name n ns

/-! ### The nearest node that states -/

/-- The nodes that names lead through, the outermost first. -/
def trail? : List String → List (String × Node) → Option (List Node)
  | [], _ => some []
  | name :: names, ns =>
    (NameMap.find? name ns).bind fun n => (trail? names n.children).map (n :: ·)

/-- What the nearest of the nodes states, from the last one up. -/
def nearest? (stated : Declaration → Option String) (trail : List Node) : Option String :=
  trail.reverse.findSome? fun n => stated n.decl

theorem nearest?_cons (stated : Declaration → Option String) (n : Node) (trail : List Node) :
    nearest? stated (n :: trail) = (nearest? stated trail).or (stated n.decl) := by
  rw [nearest?, List.reverse_cons, List.findSome?_append, ← nearest?]
  cases h : stated n.decl <;> simp [h]

theorem nearest?_cons_getD (stated : Declaration → Option String) (n : Node) (trail : List Node)
    (own : String) : (nearest? stated (n :: trail)).getD own =
      (nearest? stated trail).getD ((stated n.decl).getD own) := by
  rw [nearest?_cons]
  cases nearest? stated trail <;> rfl

theorem trail?_eq_none_of_inheritAll {names : List String} {ns : List (String × Node)}
    (h : trail? names ns = none) (outer : Identity) (state : Bool) :
    trail? names (inheritAll outer state ns) = none := by
  induction names generalizing ns outer state with
  | nil => cases h
  | cons name names ih =>
    rw [trail?] at h ⊢
    rw [find?_inheritAll]
    cases hn : NameMap.find? name ns with
    | none => rfl
    | some n =>
      obtain ⟨decl, children⟩ := n
      rw [hn, Option.bind_some, Option.map_eq_none_iff] at h
      rw [Option.map_some, Option.bind_some, Option.map_eq_none_iff, inherit]
      exact ih h _ _

/-- The declaration of a node under a name: state when one of the nodes that lead to it is, with
the identity that the nearest of them states, or else the given one. -/
def declAlong (name : String) (outer : Identity) (trail : List Node)
    (d : Declaration) : Declaration :=
  { d with
    name
    readOnly := trail.any (·.decl.readOnly)
    moduleName? := some ((nearest? (·.moduleName?) trail).getD outer.moduleName)
    namespaceUri? := some ((nearest? (·.namespaceUri?) trail).getD outer.namespaceUri)
    shortName? := some ((nearest? (·.shortName?) trail).getD outer.shortName) }

/-- What the node inherits to which names lead. -/
theorem exists_trail?_inheritAll {names : List String} {name : String}
    {ns : List (String × Node)} {trail : List Node} {n : Node}
    (h : trail? (names ++ [name]) ns = some (trail ++ [n])) (outer : Identity) (state : Bool) :
    ∃ trail' n', trail? (names ++ [name]) (inheritAll outer state ns) = some (trail' ++ [n']) ∧
      n'.decl = { declAlong name outer (trail ++ [n]) n.decl with
        readOnly := (trail ++ [n]).any (·.decl.readOnly) || state } ∧
      n'.children.map (·.1) = n.children.map (·.1) := by
  induction names generalizing ns trail outer state with
  | nil =>
    rw [List.nil_append, trail?] at h
    obtain ⟨a, ha, htrail⟩ := Option.bind_eq_some_iff.1 h
    obtain ⟨rfl, rfl⟩ : trail = [] ∧ n = a := by
      simpa [trail?, eq_comm, List.append_eq_singleton_iff] using htrail
    refine ⟨[], n.inherit name outer state, ?_, ?_, ?_⟩
    · rw [List.nil_append, trail?, find?_inheritAll, ha]
      rfl
    · obtain ⟨decl, children⟩ := n
      simp [inherit, declAlong, Declaration.inherit, nearest?]
    · obtain ⟨decl, children⟩ := n
      exact names_inheritAll _ _ _
  | cons above names ih =>
    rw [List.cons_append, trail?] at h
    obtain ⟨a, ha, htrail⟩ := Option.bind_eq_some_iff.1 h
    obtain ⟨rest, hrest, hcons⟩ := Option.map_eq_some_iff.1 htrail
    obtain ⟨trail, rfl, rfl⟩ : ∃ t, trail = a :: t ∧ rest = t ++ [n] := by
      cases trail with
      | nil =>
        -- a way along two names or more has two nodes or more
        obtain ⟨-, rfl⟩ := List.cons.inj hcons
        cases names <;> simp [trail?, Option.bind_eq_some_iff] at hrest
      | cons b t =>
        obtain ⟨rfl, rfl⟩ := List.cons.inj hcons
        exact ⟨t, rfl, rfl⟩
    obtain ⟨decl, children⟩ := a
    obtain ⟨trail', n', htrail', hdecl, hnames⟩ := ih hrest
      (decl.inherit above outer state).identity (decl.inherit above outer state).readOnly
    refine ⟨inherit above outer state ⟨decl, children⟩ :: trail', n', ?_, ?_, hnames⟩
    · rw [List.cons_append, trail?, find?_inheritAll, ha, Option.map_some, Option.bind_some,
        inherit, htrail']
      rfl
    · rw [hdecl, declAlong, declAlong, List.cons_append, nearest?_cons_getD, nearest?_cons_getD,
        nearest?_cons_getD, List.any_cons]
      simp only [Declaration.inherit, Declaration.identity, Option.getD_some]
      rw [Bool.or_left_comm, Bool.or_assoc]

end Node

namespace Module

/-! ### Adding nodes -/

theorem inherited_inherited (m : Module) : m.inherited.inherited = m.inherited := by
  rw [inherited, inherited]
  congr 1
  exact Node.inheritAll_inheritAll _ _ _

/-- A module without nodes, or one to which a node was added last. -/
inductive IsBuilt : Module → Prop where
  /-- Nothing was added. -/
  | empty (name namespaceUri shortName : String) :
    IsBuilt { name, namespaceUri, shortName, nodes := [] }
  /-- A node was added last. -/
  | withNode (m : Module) (n : Node) : IsBuilt (m.withNode n)

theorem IsBuilt.inherited_eq {m : Module} (h : m.IsBuilt) : m.inherited = m := by
  cases h with
  | empty => rfl
  | withNode m n => exact inherited_inherited _

theorem withNode_inherited (m : Module) (n : Node) :
    m.inherited.withNode n = m.withNode n := by
  rw [withNode, withNode, inherited, inherited, inherited]
  congr 1
  rw [Node.inheritAll_insert, Node.inheritAll_insert]
  congr 1
  exact Node.inheritAll_inheritAll _ _ _

theorem withNode_comm (m : Module) {a b : Node} (h : a.decl.name ≠ b.decl.name) :
    (m.withNode a).withNode b = (m.withNode b).withNode a := by
  have hadd : ∀ a b : Node, (m.withNode a).withNode b = inherited { m with
      nodes := NameMap.insert b.decl.name b (NameMap.insert a.decl.name a m.nodes) } := by
    intro a b
    rw [withNode.eq_def m a, withNode_inherited, withNode]
  rw [hadd, hadd, NameMap.insert_comm h]

/-- Nodes of different names may be added in any order. -/
theorem foldl_withNode_perm (m : Module) {ns ns' : List Node} (h : ns.Perm ns')
    (hnodup : (ns.map (·.decl.name)).Nodup) :
    ns.foldl withNode m = ns'.foldl withNode m := by
  refine h.foldl_eq' (fun a ha b hb l => ?_) m
  by_cases hname : a.decl.name = b.decl.name
  · rw [List.inj_on_of_nodup_map hnodup ha hb hname]
  · exact withNode_comm l hname

end Module

/-! ### Forests -/

namespace Forest

/-- Modules that inherit nothing more are only sorted, and those of one name keep their order. -/
theorem modules_ofModules {ms : List Module} (h : ∀ m ∈ ms, m.inherited = m) :
    (ofModules ms).modules.Perm ms ∧ (ofModules ms).modules.Pairwise (·.name ≤ ·.name) ∧
    ∀ name, (ofModules ms).modules.filter (·.name = name) = ms.filter (·.name = name) := by
  have hmodules : (ofModules ms).modules = ms.mergeSort fun a b => a.name ≤ b.name := by
    rw [ofModules, List.map_congr_left h, List.map_id']
  have htrans : ∀ a b c : Module, decide (a.name ≤ b.name) = true →
      decide (b.name ≤ c.name) = true → decide (a.name ≤ c.name) = true :=
    fun a b c hab hbc => decide_eq_true
      (String.le_trans (of_decide_eq_true hab) (of_decide_eq_true hbc))
  have htotal : ∀ a b : Module, (decide (a.name ≤ b.name) || decide (b.name ≤ a.name)) = true :=
    fun a b => by simpa using String.le_total a.name b.name
  have hperm := List.mergeSort_perm ms fun a b => decide (a.name ≤ b.name)
  rw [hmodules]
  refine ⟨hperm, (List.pairwise_mergeSort htrans htotal ms).imp of_decide_eq_true, fun name => ?_⟩
  -- modules of one name are in order as they stand, so sorting leaves them as they are
  have hsame : (ms.filter (·.name = name)).Pairwise fun a b => decide (a.name ≤ b.name) = true := by
    refine List.pairwise_of_forall_mem_list fun a ha b hb => decide_eq_true ?_
    have ha' : a.name = name := of_decide_eq_true (List.mem_filter.1 ha).2
    have hb' : b.name = name := of_decide_eq_true (List.mem_filter.1 hb).2
    exact ha'.trans hb'.symm ▸ String.le_refl a.name
  have hsub := (List.sublist_mergeSort htrans htotal hsame List.filter_sublist).filter
    fun m => decide (m.name = name)
  simp only [List.filter_filter, Bool.and_self] at hsub
  exact (hsub.eq_of_length (hperm.filter _).length_eq.symm).symm

end Forest

/-! ### Inheritance of modules -/

namespace Module

/-- What the nodes of a module inherit. The node to which names lead has the last of them for its
name, is state when it or a node above it was declared as state, and has the module, the namespace
and the prefix of the nearest of them that states one, or else those of the module; all else of its
declaration and the names below it stay, and no other names lead to a node. Inheriting again
changes nothing, so nodes of different names may be added in any order, and modules that are built
by adding nodes are only sorted when they make up a forest. -/
theorem inherited_from_nearest (m : Module) :
    (∀ names name trail n, Node.trail? (names ++ [name]) m.nodes = some (trail ++ [n]) →
      ∃ trail' n', Node.trail? (names ++ [name]) m.inherited.nodes = some (trail' ++ [n']) ∧
        n'.decl = Node.declAlong name m.identity (trail ++ [n]) n.decl ∧
        n'.children.map (·.1) = n.children.map (·.1)) ∧
    (∀ names, Node.trail? names m.nodes = none → Node.trail? names m.inherited.nodes = none) ∧
    m.inherited.inherited = m.inherited ∧
    (∀ ns ns' : List Node, ns.Perm ns' → (ns.map (·.decl.name)).Nodup →
      ns.foldl withNode m = ns'.foldl withNode m) ∧
    ∀ ms, (∀ l ∈ ms, IsBuilt l) →
      (Forest.ofModules ms).modules.Perm ms ∧
      (Forest.ofModules ms).modules.Pairwise (·.name ≤ ·.name) ∧
      ∀ name, (Forest.ofModules ms).modules.filter (·.name = name) = ms.filter (·.name = name) := by
  refine ⟨fun names name trail n h => ?_, fun names h => ?_, inherited_inherited m,
    fun ns ns' => foldl_withNode_perm m, fun ms h => ?_⟩
  · obtain ⟨trail', n', htrail', hdecl, hnames⟩ :=
      Node.exists_trail?_inheritAll h m.identity false
    refine ⟨trail', n', htrail', ?_, hnames⟩
    rw [hdecl, Bool.or_false]
    rfl
  · exact Node.trail?_eq_none_of_inheritAll h _ _
  · exact Forest.modules_ofModules fun l hl => (h l hl).inherited_eq

/-- A leaf below state whose namespace is stated by a node above it, two nodes that are added in
both orders, and two modules in the wrong order. -/
theorem inherited_from_nearest_system :
    let leaf : Node := ⟨{ name := "", kind := .leaf, typeName := "uint64" }, []⟩
    let state : Node := ⟨{
      name := "other", kind := .container, readOnly := true, namespaceUri? := some "urn:aug" },
      [("uptime", leaf)]⟩
    let system : Node := ⟨{ name := "", kind := .container }, [("state", state)]⟩
    let m : Module :=
      { name := "sys", namespaceUri := "urn:sys", shortName := "s", nodes := [("system", system)] }
    let a := Node.ofLeaf "a" "string"
    let b := Node.ofLeaf "b" "string"
    let first : Module := { name := "first" }
    Node.trail? (["system", "state"] ++ ["uptime"]) m.nodes = some ([system, state] ++ [leaf]) ∧
    (∃ trail' n', Node.trail? (["system", "state"] ++ ["uptime"]) m.inherited.nodes =
        some (trail' ++ [n']) ∧
      n'.decl = {
        name := "uptime", kind := .leaf, typeName := "uint64", readOnly := true,
        moduleName? := some "sys", namespaceUri? := some "urn:aug", shortName? := some "s" }) ∧
    Node.trail? ["system", "leaf"] m.nodes = none ∧
    Node.trail? ["system", "leaf"] m.inherited.nodes = none ∧
    [a, b].Perm [b, a] ∧ ([a, b].map (·.decl.name)).Nodup ∧
    [a, b].foldl withNode m = [b, a].foldl withNode m ∧
    (∀ l ∈ [m.withNode a, first], IsBuilt l) ∧
    (Forest.ofModules [m.withNode a, first]).modules.Perm [m.withNode a, first] := by
  intro leaf state system m a b first
  obtain ⟨hdecl, hnone, -, horder, hforest⟩ := inherited_from_nearest m
  have htrail : Node.trail? (["system", "state"] ++ ["uptime"]) m.nodes =
      some ([system, state] ++ [leaf]) := rfl
  have hmissing : Node.trail? ["system", "leaf"] m.nodes = none := rfl
  have hperm : [a, b].Perm [b, a] := List.Perm.swap b a []
  have hnodup : ([a, b].map (·.decl.name)).Nodup := by decide
  have hbuilt : ∀ l ∈ [m.withNode a, first], IsBuilt l := by
    rw [List.forall_mem_cons, List.forall_mem_singleton]
    exact ⟨.withNode m a, .empty "first" "" ""⟩
  obtain ⟨trail', n', htrail', hn', -⟩ := hdecl _ _ _ _ htrail
  exact ⟨htrail, ⟨trail', n', htrail', hn'⟩, hmissing, hnone _ hmissing, hperm, hnodup,
    horder _ _ hperm hnodup, hbuilt, (hforest _ hbuilt).1⟩

end Module

end YangPartition
