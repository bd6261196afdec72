import YangPartition.Resource.Basic

/-!
# Dependencies between resources

The declared resources are the nodes of a graph. An edge leads from a resource
to each resource declared right below it, and to each other resource that a
reference of it leads to. Resources are ordered so that those above come before
those below, and those referred to before those that refer to them. Which of the
orders that do so is taken is left to a topological sort.
-/

namespace YangPartition

/-! ### Graphs -/

/-- Why one resource points to another. -/
inductive EdgeKind where
  /-- It is declared above the other. -/
  | hierarchy
  /-- It holds a reference to the other. -/
  | reference
  deriving DecidableEq, Repr

/-- An edge between two resources. -/
structure Edge where
  /-- The resource that points. -/
  source : Nat
  /-- The resource it points to. -/
  target : Nat
  /-- Why it points there. -/
  kind : EdgeKind
  deriving DecidableEq, Repr

/-- A node: a declared resource with its texts. -/
structure GraphNode where
  /-- The resource. -/
  id : Nat
  /-- Its written path. -/
  pathText : String
  /-- Its name. -/
  name : String
  deriving DecidableEq, Repr

/-- The graph of the declared resources. -/
structure ResourceGraph where
  /-- The nodes, in ascending order of the resources. -/
  nodes : List GraphNode
  /-- The edges, in the order in which they were found; none occurs twice. -/
  edges : List Edge
  deriving DecidableEq, Repr

namespace ResourceGraph

/-- The edges from a resource, as they are found: down the hierarchy, then along
the references that lead to another resource. -/
def edgesFrom (r : Resource) : List Edge :=
  r.children.map (fun child => ⟨r.id, child, .hierarchy⟩) ++
    r.outerReferences.filterMap fun ref =>
      match ref.scope with
      | .outside (some target) => if target = r.id then none else some ⟨r.id, target, .reference⟩
      | _ => none

/-- The graph of a set of resources. Edges to what is no declared resource are left out. -/
def ofSet (s : ResourceSet) : ResourceGraph :=
  let nodes := s.declared.map fun r => ⟨r.id, r.pathText, r.name⟩
  let found := (s.declared.flatMap edgesFrom).filter fun e => nodes.any (·.id == e.target)
  { nodes
    edges := found.foldl (fun es e => if es.contains e then es else es ++ [e]) [] }

/-- The resources that edges of a kind lead to from a resource, in ascending order. -/
def neighbors (g : ResourceGraph) (id : Nat) (kind : EdgeKind) : List Nat :=
  ((g.edges.filter fun e => e.source == id && e.kind == kind).map (·.target)).mergeSort

/-! ### Order -/

/-- The pairs of resources of which the first has to come before the second, in
the order of the edges. -/
def constraints (g : ResourceGraph) : List (Nat × Nat) :=
  g.edges.map fun e =>
    match e.kind with
    | .hierarchy => (e.source, e.target)
    | .reference => (e.target, e.source)

/-- A topological sort takes nodes and pairs of nodes of which the first has to come before the
second; it gives an order of the nodes, or nothing when there is none. -/
abbrev TopologicalSort := List Nat → List (Nat × Nat) → Option (List Nat)

/-- The resources in the order that a topological sort finds for the constraints; in ascending
order when there is none. -/
def dependencyOrderWith (sort : TopologicalSort) (g : ResourceGraph) : List Nat :=
  let ids := (g.nodes.map (·.id)).mergeSort
  (sort ids g.constraints).getD ids

/-! ### A topological sort -/

/-- The nodes that have to come after one. -/
def followers (constraints : List (Nat × Nat)) (id : Nat) : List Nat :=
  (constraints.filter (·.1 == id)).map (·.2)

/-- A search through the followers: what has been seen, and what has been
finished, last first. -/
structure Search where
  /-- Nodes seen. -/
  seen : List Nat := []
  /-- Nodes whose followers have all been finished, the last one first. -/
  order : List Nat := []

/-- Searches from a node, `fuel` steps down at most: it is finished after
its followers, which are searched in order. -/
def Search.from (next : Nat → List Nat) : Nat → Search → Nat → Search
  | 0, s, _ => s
  | fuel + 1, s, id =>
    if s.seen.contains id then s
    else
      let s := (next id).foldl (Search.from next fuel) { s with seen := id :: s.seen }
      { s with order := id :: s.order }

/-- Whether the first of each pair comes before the second in a list. -/
def respects (order : List Nat) (constraints : List (Nat × Nat)) : Bool :=
  constraints.all fun (a, b) => order.idxOf a < order.idxOf b

/-- The topological sort that searches from each node in turn: what is finished
last comes first. -/
def depthFirst : TopologicalSort := fun ids constraints =>
  let order := (ids.foldl (Search.from (followers constraints) (ids.length + 1)) {}).order
  if respects order constraints then some order else none

/-- The resources in the order that the search finds. -/
def dependencyOrder (g : ResourceGraph) : List Nat := g.dependencyOrderWith depthFirst

/-! ### Drawing -/

/-- The identifier of a node in a drawing. -/
def drawnId (pathText : String) : String :=
  String.ofList ((pathText.toList.dropWhile (· == '/')).map fun c =>
    if c = '/' ∨ c = '-' ∨ c = '.' then '_' else c)

/-- The written path of a node. -/
def pathTextOf (g : ResourceGraph) (id : Nat) : String :=
  ((g.nodes.find? (·.id == id)).map (·.pathText)).getD ""

/-- The line of a node. -/
def nodeLine (n : GraphNode) : String :=
  "  \"" ++ drawnId n.pathText ++ "\" [label=\"" ++ n.name ++ "\\n" ++ n.pathText ++ "\"];\n"

/-- The line of an edge. -/
def edgeLine (g : ResourceGraph) (e : Edge) : String :=
  let style := match e.kind with
    | .hierarchy => ""
    | .reference => " [style=dashed, label=\"leafref\"]"
  "  \"" ++ drawnId (g.pathTextOf e.source) ++ "\" -> \"" ++ drawnId (g.pathTextOf e.target) ++
    "\"" ++ style ++ ";\n"

/-- Whether an edge is drawn no later than another. -/
def drawnBefore (a b : Edge) : Bool :=
  a.source < b.source || (a.source == b.source && a.target ≤ b.target)

/-- The graph in the DOT language. -/
def toDot (g : ResourceGraph) : String :=
  "digraph Resources \x7b\n  rankdir=LR;\n" ++
    "  node [shape=box, style=rounded, fontname=\"Helvetica\", fontsize=10];\n\n" ++
    String.join ((g.nodes.mergeSort fun a b => a.id ≤ b.id).map nodeLine) ++ "\n" ++
    String.join ((g.edges.mergeSort drawnBefore).map g.edgeLine) ++ "\x7d\n"

end ResourceGraph

end YangPartition
