import Mathlib.Data.List.Nodup
import YangPartition.Graph
import YangPartition.Proofs.Compile.Boundaries
import YangPartition.Proofs.Compile.Outgoing
import YangPartition.Proofs.Resource.Declarations
import YangPartition.Proofs.Resource.Scope

/-!
# Edges between resources

The graph of a set has one node for each declared resource, one edge for each declared resource
below another, and one for each two resources of which the first has any references to the second,
whatever references are recorded with the resources. When they have been recorded by calls, these
are the resources of which one holds a value that refers to a path of the other.
-/

namespace YangPartition

/-! ### Edges found once -/

namespace ResourceGraph

section

variable {α : Type} [DecidableEq α]

/-- What is added unless it is there is there in the end. -/
theorem mem_foldl_insert (l es : List α) (e : α) :
    e ∈ l.foldl (fun es e => if es.contains e then es else es ++ [e]) es ↔ e ∈ es ∨ e ∈ l := by
  induction l generalizing es with
  | nil => simp
  | cons a l ih =>
    rw [List.foldl_cons, ih, List.mem_cons]
    by_cases ha : a ∈ es
    · rw [if_pos (List.contains_iff_mem.2 ha)]
      constructor
      · exact Or.imp_right .inr
      · rintro (he | rfl | he)
        · exact .inl he
        · exact .inl ha
        · exact .inr he
    · rw [if_neg fun h => ha (List.contains_iff_mem.1 h), List.mem_append, List.mem_singleton,
        or_assoc]

/-- Nothing is added twice. -/
theorem nodup_foldl_insert (l : List α) {es : List α} (h : es.Nodup) :
    (l.foldl (fun es e => if es.contains e then es else es ++ [e]) es).Nodup := by
  induction l generalizing es with
  | nil => exact h
  | cons a l ih =>
    rw [List.foldl_cons]
    refine ih ?_
    split
    · exact h
    · next ha =>
      refine List.nodup_append.2 ⟨h, List.nodup_singleton a, fun b hb c hc hbc => ?_⟩
      rw [List.mem_singleton.1 hc] at hbc
      exact ha (List.contains_iff_mem.2 (hbc ▸ hb))

end

theorem nodup_edges (t : ResourceSet) : (ofSet t).edges.Nodup :=
  nodup_foldl_insert _ List.nodup_nil

/-- The edges are those found that lead to a declared resource. -/
theorem mem_edges_iff {t : ResourceSet} {e : Edge} :
    e ∈ (ofSet t).edges ↔
      (∃ x ∈ t.declared, e ∈ edgesFrom x) ∧ ∃ y ∈ t.declared, y.id = e.target := by
  rw [ofSet]
  simp only [mem_foldl_insert, List.not_mem_nil, false_or, List.mem_filter, List.mem_flatMap,
    List.any_map, List.any_eq_true, Function.comp_apply, beq_iff_eq]

theorem mem_edgesFrom_hierarchy {x : Resource} {a b : Nat} :
    ⟨a, b, .hierarchy⟩ ∈ edgesFrom x ↔ x.id = a ∧ b ∈ x.children := by
  rw [edgesFrom, List.mem_append, or_iff_left]
  · rw [List.mem_map]
    constructor
    · rintro ⟨child, hchild, heq⟩
      cases heq
      exact ⟨rfl, hchild⟩
    · rintro ⟨rfl, hb⟩
      exact ⟨b, hb, rfl⟩
  · rw [List.mem_filterMap]
    rintro ⟨r, -, heq⟩
    split at heq
    · split at heq
      · cases heq
      · cases heq
    · cases heq

theorem mem_edgesFrom_reference {x : Resource} {a b : Nat} :
    ⟨a, b, .reference⟩ ∈ edgesFrom x ↔
      x.id = a ∧ a ≠ b ∧ ∃ r ∈ x.outerReferences, r.scope = .outside (some b) := by
  rw [edgesFrom, List.mem_append, or_iff_right]
  · rw [List.mem_filterMap]
    constructor
    · rintro ⟨r, hr, heq⟩
      split at heq
      · next target hscope =>
        split at heq
        · cases heq
        · next hne =>
          cases heq
          exact ⟨rfl, fun h => hne h.symm, r, hr, hscope⟩
      · cases heq
    · rintro ⟨rfl, hne, r, hr, hscope⟩
      exact ⟨r, hr, by rw [hscope]; simp [hne.symm]⟩
  · rw [List.mem_map]
    rintro ⟨child, -, heq⟩
    cases heq

/-! ### Neighbours -/

variable {g : ResourceGraph}

theorem mem_neighbors_iff {id : Nat} {kind : EdgeKind} {k : Nat} :
    k ∈ g.neighbors id kind ↔ ⟨id, k, kind⟩ ∈ g.edges := by
  rw [neighbors, (List.mergeSort_perm _ _).mem_iff, List.mem_map]
  constructor
  · rintro ⟨e, he, rfl⟩
    obtain ⟨he, hmatch⟩ := List.mem_filter.1 he
    rw [Bool.and_eq_true, beq_iff_eq, beq_iff_eq] at hmatch
    rw [← hmatch.1, ← hmatch.2]
    exact he
  · intro he
    exact ⟨_, List.mem_filter.2 ⟨he, by simp⟩, rfl⟩

/-- Where no edge occurs twice, neither does a neighbour. -/
theorem pairwise_neighbors (h : g.edges.Nodup) (id : Nat) (kind : EdgeKind) :
    (g.neighbors id kind).Pairwise (· < ·) := by
  have hnodup : (g.neighbors id kind).Nodup := by
    refine (List.mergeSort_perm _ _).nodup_iff.2 ((h.filter _).map_on fun a ha b hb hab => ?_)
    have hfixed : ∀ e ∈ g.edges.filter fun e => e.source == id && e.kind == kind,
        e.source = id ∧ e.kind = kind := by
      intro e he
      simpa using (List.mem_filter.1 he).2
    obtain ⟨hsource, hkind⟩ := hfixed a ha
    obtain ⟨hsource', hkind'⟩ := hfixed b hb
    cases a
    cases b
    simp_all
  have hsorted : (g.neighbors id kind).Pairwise (· ≤ ·) := by
    refine (List.pairwise_mergeSort (fun a b c hab hbc => ?_) (fun a b => ?_) _).imp
      fun h => of_decide_eq_true h
    · simp only [decide_eq_true_eq] at hab hbc ⊢
      omega
    · simp only [Bool.or_eq_true, decide_eq_true_eq]
      omega
  exact (hsorted.and hnodup).imp fun h => Nat.lt_of_le_of_ne h.1 h.2

end ResourceGraph

/-! ### Declared resources -/

namespace ResourceSet

variable {s t : ResourceSet}

/-- Two resources of one number are the same, whatever has been compiled. -/
theorem Instantiated.eq_of_id_eq (hs : s.Instantiated) (ht : t.blank = s) {x y : Resource}
    (hx : x ∈ t.toList) (hy : y ∈ t.toList) (h : x.id = y.id) : x = y := by
  have hget := hs.get?_of_mem ht hx
  rw [h, hs.get?_of_mem ht hy] at hget
  exact (Option.some.inj hget).symm

theorem mem_toList_of_declared {x : Resource} (h : x ∈ t.declared) : x ∈ t.toList :=
  List.mem_of_mem_drop h

/-- The declared resources are numbered in ascending order. -/
theorem Instantiated.pairwise_declared (hs : s.Instantiated) (ht : t.blank = s) :
    (t.declared.map (·.id)).Pairwise (· < ·) := by
  have hids : t.toList.map (·.id) = List.range s.size := by
    rw [← hs.ids, ← ht, toList_blank, List.map_map]
    rfl
  rw [declared, List.map_drop, hids]
  exact List.pairwise_lt_range.sublist (List.drop_sublist _ _)

/-- No declared resource has the number of the root resource. -/
theorem Instantiated.rootId_not_mem (hs : s.Instantiated) (ht : t.blank = s) :
    Resource.rootId ∉ t.declared.map (·.id) := by
  rw [List.mem_map]
  rintro ⟨x, hx, hid⟩
  refine hs.id_ne_rootId (r := x.blank) ?_ hid
  rw [← ht, declared_blank]
  exact List.mem_map_of_mem hx

/-- The declared resources of a map have the same numbers with contents and without. -/
theorem exists_declared_iff_of_blank (ht : t.blank = s) (i : Nat) :
    (∃ y ∈ t.declared, y.id = i) ↔ ∃ y ∈ s.declared, y.id = i := by
  rw [← ht, declared_blank]
  constructor
  · rintro ⟨y, hy, rfl⟩
    exact ⟨y.blank, List.mem_map_of_mem hy, rfl⟩
  · rintro ⟨y, hy, rfl⟩
    obtain ⟨x, hx, rfl⟩ := List.mem_map.1 hy
    exact ⟨x, hx, rfl⟩

/-- The resources below a resource are those that have it above them. -/
theorem Builds.mem_children_iff {as : List MapEntry} (h : s.Builds as) (ht : t.blank = s)
    {p : Resource} (hp : p ∈ t.toList) {k : Nat} :
    k ∈ p.children ↔ ∃ c ∈ t.toList, c.id = k ∧ c.parent? = some p.id := by
  have hblank : p.blank ∈ s.toList := by
    rw [← ht, toList_blank]
    exact List.mem_map_of_mem hp
  rw [show p.children = p.blank.children from rfl, h.children_of_mem hblank, idsBelow, ← ht,
    toList_blank, List.mem_map]
  constructor
  · rintro ⟨c, hc, rfl⟩
    obtain ⟨hmem, hparent⟩ := List.mem_filter.1 hc
    obtain ⟨d, hd, rfl⟩ := List.mem_map.1 hmem
    exact ⟨d, hd, rfl, beq_iff_eq.1 hparent⟩
  · rintro ⟨c, hc, rfl, hparent⟩
    exact ⟨c.blank, List.mem_filter.2 ⟨List.mem_map_of_mem hc, beq_iff_eq.2 hparent⟩, rfl⟩

/-- The resources of a map are those of its declarations. -/
theorem builds_ofMap {m : ResourceMap} {mode : Mode} (hs : ofMap m mode = .ok s) :
    s.Builds m.entries := by
  rcases yields_ofMap m mode with ⟨u, hu, hbuilds⟩ | ⟨⟨e, he⟩, -⟩
  · obtain rfl := Except.ok.inj (hs.symm.trans hu)
    exact hbuilds
  · rw [hs] at he
    cases he

/-! ### What edges stand for -/

/-- A declared resource stands right below another. -/
def StandsAbove (t : ResourceSet) (a b : Nat) : Prop :=
  ∃ p ∈ t.declared, ∃ c ∈ t.declared, p.id = a ∧ c.id = b ∧ c.parent? = some a

/-- A reference of a declared resource leads to another one. -/
def RefersTo (t : ResourceSet) (a b : Nat) : Prop :=
  a ≠ b ∧ ∃ x ∈ t.declared, ∃ y ∈ t.declared, x.id = a ∧ y.id = b ∧
    ∃ r ∈ x.outerReferences, r.scope = .outside (some b)

theorem Builds.mem_edges_hierarchy {as : List MapEntry} (h : s.Builds as) (ht : t.blank = s)
    {a b : Nat} : ⟨a, b, .hierarchy⟩ ∈ (ResourceGraph.ofSet t).edges ↔ t.StandsAbove a b := by
  rw [ResourceGraph.mem_edges_iff]
  simp only [ResourceGraph.mem_edgesFrom_hierarchy]
  constructor
  · rintro ⟨⟨p, hp, rfl, hb⟩, c, hc, hid⟩
    rw [h.mem_children_iff ht (mem_toList_of_declared hp)] at hb
    obtain ⟨c', hc', hid', hparent⟩ := hb
    obtain rfl := h.inst.eq_of_id_eq ht (mem_toList_of_declared hc) hc' (hid.trans hid'.symm)
    exact ⟨p, hp, c, hc, rfl, hid, hparent⟩
  · rintro ⟨p, hp, c, hc, rfl, rfl, hparent⟩
    exact ⟨⟨p, hp, rfl, (h.mem_children_iff ht (mem_toList_of_declared hp)).2
      ⟨c, mem_toList_of_declared hc, rfl, hparent⟩⟩, c, hc, rfl⟩

theorem mem_edges_reference {a b : Nat} :
    ⟨a, b, .reference⟩ ∈ (ResourceGraph.ofSet t).edges ↔ t.RefersTo a b := by
  rw [ResourceGraph.mem_edges_iff]
  simp only [ResourceGraph.mem_edgesFrom_reference]
  constructor
  · rintro ⟨⟨x, hx, hid, hne, hrefers⟩, y, hy, hid'⟩
    exact ⟨hne, x, hx, y, hy, hid, hid', hrefers⟩
  · rintro ⟨hne, x, hx, y, hy, hid, hid', hrefers⟩
    exact ⟨⟨x, hx, hid, hne, hrefers⟩, y, hy, hid'⟩

/-- There is one node for each declared resource. -/
theorem map_nodes (t : ResourceSet) :
    (ResourceGraph.ofSet t).nodes.map (·.id) = t.declared.map (·.id) := by
  show (t.declared.map fun r => (⟨r.id, r.pathText, r.name⟩ : GraphNode)).map (·.id) = _
  rw [List.map_map]
  rfl

/-- An edge leads between declared resources. -/
theorem ends_of_mem_edges {e : Edge} (he : e ∈ (ResourceGraph.ofSet t).edges) :
    e.source ∈ t.declared.map (·.id) ∧ e.target ∈ t.declared.map (·.id) := by
  obtain ⟨⟨x, hx, hfrom⟩, y, hy, hid⟩ := ResourceGraph.mem_edges_iff.1 he
  refine ⟨List.mem_map.2 ⟨x, hx, ?_⟩, List.mem_map.2 ⟨y, hy, hid⟩⟩
  obtain ⟨a, b, kind⟩ := e
  cases kind with
  | hierarchy => exact (ResourceGraph.mem_edgesFrom_hierarchy.1 hfrom).1
  | reference => exact (ResourceGraph.mem_edgesFrom_reference.1 hfrom).1

/-! ### The result -/

/-- After any calls on the declared resources of a map, references lead from one to another exactly
when a value of the first refers to a path that the other owns. -/
theorem refersTo_iff_of_performAll (hs : s.Instantiated) (hmode : s.mode = .declared)
    (cs : List Call) {a b : Nat} : (s.performAll cs).RefersTo a b ↔
      a ≠ b ∧ ∃ x ∈ (s.performAll cs).declared, x.id = a ∧ ∃ e p y, x.Has e ∧
        e.target? = some p ∧ y.id = b ∧ IsLongest p s.declared (some y) := by
  have hlasting := Resource.lasting_filesOutside s
  have hall := hlasting.performAll hs hs.sound (hlasting.all hs) cs
  have hblank := (hs.sound.performAll hs cs).blank
  have hfiles : ∀ x ∈ (s.performAll cs).declared, x.FilesOutside s := by
    intro x hx
    obtain ⟨i, hi⟩ := mem_declared_iff.1 hx
    exact hall _ x hi
  have hscope : ∀ (x : Resource) (p : Path), Reference.scopeOf s x.id p = .outside (some b) ↔
      b ≠ x.id ∧ ∃ y, y.id = b ∧ IsLongest p s.declared (some y) := fun x p =>
    (Reference.scopeOf_declared (x := x) (p := p) hs hmode).1 b
  constructor
  · rintro ⟨hne, x, hx, -, -, rfl, -, hrefers⟩
    obtain ⟨e, p, he, htarget, hleads⟩ := ((hfiles x hx).exists_reference_iff _).1 hrefers
    obtain ⟨-, y, hy, hlongest⟩ := (hscope x p).1 hleads
    exact ⟨hne, x, hx, rfl, e, p, y, he, htarget, hy, hlongest⟩
  · rintro ⟨hne, x, hx, rfl, e, p, y, he, htarget, hy, hlongest⟩
    obtain ⟨y', hy', hid⟩ := (exists_declared_iff_of_blank hblank b).2 ⟨y, hlongest.1, hy⟩
    exact ⟨hne, x, hx, y', hy', rfl, hid, ((hfiles x hx).exists_reference_iff _).2
      ⟨e, p, he, htarget, (hscope x p).2 ⟨hne.symm, y, hy, hlongest⟩⟩⟩

/-- The graph of the resources of a map, whatever references are recorded with them. It has one node
for each declared resource. No edge occurs twice; there is one down the hierarchy for each declared
resource right below another, and one for each two different ones of which the first has references
to the second. The neighbours of a resource are the targets of its edges, in strictly ascending
order; the root resource and numbers of no resource have none. When the references have been
recorded by calls on declared resources, those edges lead from each resource to every other one that
owns a path which a value of the first refers to. -/
theorem edges_exact {m : ResourceMap} {mode : Mode} (hs : ofMap m mode = .ok s)
    (ht : t.blank = s) :
    let g := ResourceGraph.ofSet t
    (g.nodes.map (·.id) = t.declared.map (·.id) ∧ (g.nodes.map (·.id)).Nodup) ∧
    g.edges.Nodup ∧
    (∀ a b, ⟨a, b, .hierarchy⟩ ∈ g.edges ↔ t.StandsAbove a b) ∧
    (∀ a b, ⟨a, b, .reference⟩ ∈ g.edges ↔ t.RefersTo a b) ∧
    (∀ id kind, (g.neighbors id kind).Pairwise (· < ·) ∧
      ∀ k, k ∈ g.neighbors id kind ↔ ⟨id, k, kind⟩ ∈ g.edges) ∧
    (∀ kind, g.neighbors Resource.rootId kind = []) ∧
    (∀ id kind, id ∉ t.declared.map (·.id) → g.neighbors id kind = []) ∧
    ∀ cs, mode = .declared → t = s.performAll cs → ∀ a b, ⟨a, b, .reference⟩ ∈ g.edges ↔
      a ≠ b ∧ ∃ x ∈ t.declared, x.id = a ∧ ∃ e p y, x.Has e ∧ e.target? = some p ∧
        y.id = b ∧ IsLongest p s.declared (some y) := by
  intro g
  have hbuilds := builds_ofMap hs
  have hmode : s.mode = mode := (exists_root_ofMap hs).1
  have hids : g.nodes.map (·.id) = t.declared.map (·.id) := map_nodes t
  have hnone : ∀ id kind, id ∉ t.declared.map (·.id) → g.neighbors id kind = [] := by
    intro id kind hid
    rw [List.eq_nil_iff_forall_not_mem]
    intro k hk
    exact hid (ends_of_mem_edges (ResourceGraph.mem_neighbors_iff.1 hk)).1
  have hascending := hbuilds.inst.pairwise_declared ht
  refine ⟨⟨hids, hids ▸ hascending.imp Nat.ne_of_lt⟩, ResourceGraph.nodup_edges t,
    fun a b => hbuilds.mem_edges_hierarchy ht, fun a b => mem_edges_reference,
    fun id kind => ⟨ResourceGraph.pairwise_neighbors (ResourceGraph.nodup_edges t) id kind,
      fun k => ResourceGraph.mem_neighbors_iff⟩,
    fun kind => hnone _ kind (hbuilds.inst.rootId_not_mem ht), hnone, ?_⟩
  rintro cs hdeclared rfl a b
  rw [mem_edges_reference]
  exact refersTo_iff_of_performAll hbuilds.inst (hmode.trans hdeclared) cs

/-- Two leaves of a resource that refer to a third one, and one of the resource below that refers to
the resource above. -/
theorem edges_exact_build :
    let m : ResourceMap := { declared := [("/a", { hierarchy? := some [("b", {})] }), ("/c", {})] }
    let leafref (name expr : String) : Node :=
      ⟨({ name, kind := .leaf } : Declaration).withReference expr, []⟩
    let b : Node := (Node.ofKind .container "b").withChild (leafref "y" "/a/n")
    let a : Node := ((((Node.ofKind .container "a").withChild (.ofLeaf "n" "uint8")).withChild
      (leafref "q" "/c/x")).withChild (leafref "r" "/c/x")).withChild b
    let c : Node := (Node.ofKind .container "c").withChild (.ofLeaf "x" "string")
    let f := Forest.ofModules [{ name := "m", nodes := [("a", a), ("c", c)] }]
    ∃ s, ofMap m .declared = .ok s ∧
      let t := s.performAll [.build {} f]
      let g := ResourceGraph.ofSet t
      t.blank = s ∧ g.edges = [⟨1, 2, .hierarchy⟩, ⟨1, 3, .reference⟩, ⟨2, 1, .reference⟩] ∧
      t.StandsAbove 1 2 ∧ t.RefersTo 1 3 ∧ g.neighbors 1 .reference = [3] ∧
      (∀ kind, g.neighbors 0 kind = []) ∧
      ∃ x ∈ t.declared, x.id = 1 ∧ ∃ e p y, x.Has e ∧ e.target? = some p ∧ y.id = 3 ∧
        IsLongest p s.declared (some y) := by
  intro m leafref b a c f
  obtain ⟨s, hs, htest⟩ := exists_ok_of_any
    (p := fun s =>
      let g := ResourceGraph.ofSet (s.performAll [.build {} f])
      g.edges == [⟨1, 2, .hierarchy⟩, ⟨1, 3, .reference⟩, ⟨2, 1, .reference⟩] &&
        g.neighbors 1 .reference == [3])
    (show (ofMap m .declared).toOption.any _ = true by decide +kernel)
  simp only [Bool.and_eq_true, beq_iff_eq] at htest
  obtain ⟨hedges, hneighbors⟩ := htest
  have hinst := instantiated_ofMap hs
  have hblank := (hinst.sound.performAll hinst [.build {} f]).blank
  obtain ⟨-, -, hhierarchy, hreference, -, hroot, -, hcalls⟩ := edges_exact hs hblank
  have hown := (hcalls _ rfl rfl 1 3).1 (by rw [hedges]; simp)
  exact ⟨s, hs, hblank, hedges, (hhierarchy 1 2).1 (by rw [hedges]; simp),
    (hreference 1 3).1 (by rw [hedges]; simp), hneighbors, hroot, hown.2⟩

end ResourceSet

end YangPartition
