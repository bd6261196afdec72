import YangPartition.Proofs.Compile.Success

/-!
# Resources apart from each other

The paths of the nodes below a top-level node start with its name, so a resource whose path
starts with another name owns none of them. Leaving such nodes out of the schema changes
nothing in the resource, and it stops no compilation.
-/

namespace YangPartition

/-! ### Leaving top-level nodes out -/

/-- Top-level nodes of which some have been left out: data nodes of other names than the
given one. -/
inductive Node.Thinned (name : String) : List (String × Node) → List (String × Node) → Prop where
  /-- Without nodes there is nothing to leave out. -/
  | nil : Thinned name [] []
  /-- The first node stays. -/
  | keep (p : String × Node) {ns ms : List (String × Node)} :
      Thinned name ns ms → Thinned name (p :: ns) (p :: ms)
  /-- The first node is left out. -/
  | drop {p : String × Node} {ns ms : List (String × Node)} :
      p.2.decl.kind.isTransparent = false → p.2.decl.name ≠ name →
        Thinned name ns ms → Thinned name (p :: ns) ms

/-- A forest of which some top-level nodes have been left out, in any of the modules: data nodes
of other names than the given one. -/
def Forest.Thinned (name : String) (f g : Forest) : Prop :=
  List.Forall₂ (fun m l => Node.Thinned name m.nodes l.nodes) f.modules g.modules

/-! ### Paths below a node -/

namespace Node

/-- The paths of a data node and of the nodes below it go through the node. -/
theorem prefix_of_mem_visits_data {below : Path} {listKeys : List String} {n : Node}
    (hdata : n.decl.kind.isTransparent = false) {v : Visit} (h : v ∈ n.visits below listKeys) :
    below.names ++ [n.decl.name] <+: v.path.names := by
  obtain ⟨decl, children⟩ := n
  have hself := Visit.names_path ⟨below, listKeys, decl⟩
  rw [visits] at h
  simp only [hdata, Bool.false_eq_true, if_false] at h
  rcases List.mem_cons.1 h with rfl | h
  · exact ⟨[], by rw [hself, List.append_nil]⟩
  · rw [← hself]
    exact (prefix_of_mem_visitsAll children h).trans v.prefix_path

end Node

/-! ### One resource -/

namespace Resource

variable {s : ResourceSet} {o : Options} {x : Resource} {name : String}

/-- Visits of nodes that a resource does not own change nothing in it. -/
theorem seeAll_of_not_owns {vs : List Visit} (h : ∀ v ∈ vs, ¬ Owns s x.id v.path) :
    x.seeAll s o vs = .ok x := by
  induction vs with
  | nil => rfl
  | cons v vs ih =>
    rw [List.forall_mem_cons] at h
    rw [seeAll, see, if_neg fun hboth => h.1 hboth.2]
    exact ih h.2

/-- A resource does not own nodes below a top-level node of another name. -/
theorem not_owns_of_thinned (hs : s.Instantiated) (hx : s.get? x.id = some x.blank)
    (hname : x.path.names.head? = some name) {n : Node}
    (hdata : n.decl.kind.isTransparent = false) (hne : n.decl.name ≠ name) :
    ∀ v ∈ n.visits .root [], ¬ Owns s x.id v.path := by
  intro v hv hown
  obtain ⟨-, -, hpre⟩ := hs.above_of_owns hs.blank hx hown
  obtain ⟨rest, hrest⟩ := hpre
  obtain ⟨below, hbelow⟩ := Node.prefix_of_mem_visits_data hdata hv
  rw [Resource.blank] at hrest
  rw [← hbelow, Path.names_root, List.nil_append] at hrest
  obtain ⟨first, more, hnames⟩ := List.exists_cons_of_ne_nil
    (show x.path.names ≠ [] by intro hnil; rw [hnil] at hname; cases hname)
  rw [hnames] at hrest hname
  obtain rfl := Option.some.inj hname
  exact hne (List.cons.inj hrest).1.symm

/-- What a resource becomes does not depend on the top-level nodes of other names. -/
theorem seeAll_of_thinned (hs : s.Instantiated) (hx : s.get? x.id = some x.blank)
    (hname : x.path.names.head? = some name) {ns ms : List (String × Node)}
    (h : Node.Thinned name ns ms) :
    x.seeAll s o (Node.visitsAll .root [] ms) = x.seeAll s o (Node.visitsAll .root [] ns) := by
  induction h generalizing x with
  | nil => rfl
  | keep p h ih =>
    obtain ⟨_, n⟩ := p
    rw [Node.visitsAll, Node.visitsAll, seeAll_append, seeAll_append]
    cases hy : x.seeAll s o (n.visits .root []) with
    | error e => rfl
    | ok y =>
      have hblank := blank_of_seeAll hy
      exact ih (get?_of_blank hblank hx) (by rw [path_of_blank hblank, hname])
  | drop hdata hne h ih =>
    rw [ih hx hname, Node.visitsAll, seeAll_append,
      seeAll_of_not_owns (not_owns_of_thinned hs hx hname hdata hne)]
    rfl

theorem seeAll_of_thinned_forest (hs : s.Instantiated) (hx : s.get? x.id = some x.blank)
    (hname : x.path.names.head? = some name) {f g : Forest} (h : f.Thinned name g) :
    x.seeAll s o g.visits = x.seeAll s o f.visits := by
  obtain ⟨modules, _, _⟩ := f
  obtain ⟨thinned, _, _⟩ := g
  simp only [Forest.Thinned, Forest.visits] at h ⊢
  induction h generalizing x with
  | nil => rfl
  | cons hm h ih =>
    rw [List.flatMap_cons, List.flatMap_cons, seeAll_append, seeAll_append,
      seeAll_of_thinned hs hx hname hm]
    cases hy : x.seeAll s o (Node.visitsAll .root [] _) with
    | error e => rfl
    | ok y =>
      have hblank := blank_of_seeAll hy
      exact ih (get?_of_blank hblank hx) (by rw [path_of_blank hblank, hname])

end Resource

/-! ### The whole run -/

/-- Without some nodes the visits are some of those there were, in their order. -/
theorem Node.Thinned.sublist {name : String} {ns ms : List (String × Node)}
    (h : Node.Thinned name ns ms) :
    (Node.visitsAll .root [] ms).Sublist (Node.visitsAll .root [] ns) := by
  induction h with
  | nil => exact List.Sublist.refl _
  | keep p h ih =>
    rw [Node.visitsAll, Node.visitsAll]
    exact ih.append_left _
  | drop hdata hne h ih =>
    rw [Node.visitsAll]
    exact ih.trans (List.sublist_append_right _ _)

theorem Forest.Thinned.sublist {name : String} {f g : Forest} (h : f.Thinned name g) :
    g.visits.Sublist f.visits := by
  rw [Forest.visits, Forest.visits]
  obtain ⟨modules, _, _⟩ := f
  obtain ⟨thinned, _, _⟩ := g
  simp only [Forest.Thinned] at h ⊢
  induction h with
  | nil => exact List.Sublist.refl _
  | cons hm h ih =>
    rw [List.flatMap_cons, List.flatMap_cons]
    exact hm.sublist.append ih

namespace ResourceSet

/-- A compilation that comes to its end still does when fewer nodes are visited. -/
theorem Instantiated.exists_compile_of_sublist {s : ResourceSet} (hs : s.Instantiated)
    {o : Options} {f g : Forest} (hsub : g.visits.Sublist f.visits)
    (h : ∃ t stats, s.compile o f = (t, .ok stats)) :
    ∃ t stats, s.compile o g = (t, .ok stats) := by
  obtain ⟨hnames, hcount⟩ := (exists_compile_iff hs f).1 h
  refine (exists_compile_iff hs g).2 ⟨fun v hv => hnames v (hsub.subset hv), fun {id x} hx => ?_⟩
  exact Nat.le_trans (Nat.add_le_add_left (hsub.countP_le ..) _) (hcount hx)

/-- A declared resource does not depend on the top-level data nodes of other names than the first
of its path: without some of them the compilation still comes to its end, and the resource ends
with the same containers, the same root and the same references. -/
theorem compile_eq_of_thinned {m : ResourceMap} {s : ResourceSet} (hs : ofMap m .declared = .ok s)
    {id : Nat} {x : Resource} (hx : s.get? id = some x) {name : String}
    (hname : x.path.names.head? = some name) {o : Options} {f g : Forest}
    (hthinned : f.Thinned name g) {t : ResourceSet} {stats : Stats}
    (h : s.compile o f = (t, .ok stats)) :
    ∃ t' stats' y, s.compile o g = (t', .ok stats') ∧ t.get? id = some y ∧ t'.get? id = some y := by
  have hinst := instantiated_ofMap hs
  have hself : s.get? x.id = some x.blank := by
    rw [hinst.id_eq hinst.blank hx, hx, hinst.blank_eq hx]
  obtain ⟨t', stats', h'⟩ :=
    hinst.exists_compile_of_sublist hthinned.sublist ⟨t, stats, h⟩
  obtain ⟨y, hy, hget⟩ := Forest.seeAll_of_compile hinst hinst.blank h hx
  obtain ⟨y', hy', hget'⟩ := Forest.seeAll_of_compile hinst hinst.blank h' hx
  have hblank := Resource.blank_started s x
  have hsame := Resource.seeAll_of_thinned_forest (x := x.started s) (o := o) hinst
    (by rw [Resource.id_of_blank hblank, hblank, hself])
    (by rw [Resource.path_of_blank hblank, hname]) hthinned
  rw [hsame] at hy'
  obtain rfl := Except.ok.inj (hy.symm.trans hy')
  exact ⟨t', stats', y.unlevelled, h', hget, hget'⟩

/-- Two resources below one module: the second does not show in the first, which refers to it. -/
theorem compile_eq_of_thinned_reference :
    let leaf : Node := ⟨{ name := "l", kind := .leaf, reference? := some "/b/k" }, []⟩
    let a : Node := ⟨{ name := "a", kind := .container }, [("l", leaf)]⟩
    let b : Node := ⟨{ name := "b", kind := .container }, [("k", .ofLeaf "k" "string")]⟩
    let f : Forest := { modules := [{ name := "m", nodes := [("a", a), ("b", b)] }] }
    let g : Forest := { modules := [{ name := "m", nodes := [("a", a)] }] }
    ∃ s t stats t' stats' x y, ofMap { declared := [("/a", {}), ("/b", {})] } .declared = .ok s ∧
      s.get? 1 = some x ∧ x.path.names.head? = some "a" ∧ f.Thinned "a" g ∧
      s.compile {} f = (t, .ok stats) ∧ s.compile {} g = (t', .ok stats') ∧
      t.get? 1 = some y ∧ t'.get? 1 = some y ∧ y.outerReferences.length = 1 := by
  intro leaf a b f g
  have hthinned : f.Thinned "a" g :=
    .cons (.keep _ (.drop (by decide) (by decide) .nil)) .nil
  obtain ⟨s, hs, htest⟩ := exists_ok_of_any
    (p := fun s => (s.compile {} f).2.toOption.isSome &&
      (s.get? 1).any (fun x => x.path.names.head? == some "a") &&
      ((s.compile {} f).1.get? 1).any fun y => y.outerReferences.length == 1)
    (show (ofMap { declared := [("/a", {}), ("/b", {})] } .declared).toOption.any _ = true by
      decide +kernel)
  simp only [Bool.and_eq_true, Option.any_eq_true, beq_iff_eq] at htest
  obtain ⟨⟨hok, x, hx, hname⟩, y, hy, hreferences⟩ := htest
  obtain ⟨stats, hstats⟩ := exists_ok_of_isSome hok
  obtain ⟨t', stats', z, h', hz, hz'⟩ :=
    compile_eq_of_thinned hs hx hname hthinned (Prod.ext rfl hstats)
  obtain rfl := Option.some.inj (hy.symm.trans hz)
  exact ⟨s, _, stats, t', stats', x, y, hs, hx, hname, hthinned, Prod.ext rfl hstats, h', hy, hz',
    hreferences⟩

end ResourceSet

end YangPartition
