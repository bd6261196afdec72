import YangPartition.Proofs.Compile.Attachment
import YangPartition.Proofs.Compile.History

/-!
# Accounts

Every node of a forest is counted once: as a choice or case, as a node that no resource owns,
under the reason for which it has been left out, or for what it has become. What is counted as
containers, entries and references is what stands in the resources after a compilation.
-/

namespace YangPartition

/-! ### Counting nodes -/

namespace Node

mutual

/-- The number of nodes of a tree. -/
def size : Node → Nat
  | ⟨_, children⟩ => sizeAll children + 1
termination_by structural n => n

/-- The number of nodes of trees that stand beside each other. -/
def sizeAll : List (String × Node) → Nat
  | [] => 0
  | (_, n) :: rest => n.size + sizeAll rest
termination_by structural ns => ns

end

mutual

theorem length_visits (below : Path) (listKeys : List String) (n : Node) :
    (n.visits below listKeys).length = n.size := by
  obtain ⟨decl, children⟩ := n
  rw [visits, size]
  split
  · rw [List.length_cons, length_visitsAll]
  · rw [List.length_cons, length_visitsAll]
termination_by structural n

theorem length_visitsAll (below : Path) (listKeys : List String) (ns : List (String × Node)) :
    (visitsAll below listKeys ns).length = sizeAll ns := by
  match ns with
  | [] => rfl
  | (_, n) :: rest =>
    rw [visitsAll, sizeAll, List.length_append, length_visits, length_visitsAll]
termination_by structural ns

end

end Node

/-- The number of nodes of a forest. -/
def Forest.size (f : Forest) : Nat := (f.modules.map fun m => Node.sizeAll m.nodes).sum

theorem Forest.length_visits (f : Forest) : f.visits.length = f.size := by
  rw [visits, size, List.length_flatMap]
  simp only [Node.length_visitsAll]

/-! ### Verdicts -/

theorem Visit.verdict_eq_group {s : ResourceSet} {o : Options} {v : Visit} :
    v.verdict s o = .group ↔ v.decl.kind.isTransparent = true := by
  rw [verdict]
  cases v.decl.kind.isTransparent with
  | true => simp
  | false =>
    cases s.matchPath v.path with
    | unowned | excluded id => simp
    | owned id =>
      simp only [Bool.false_eq_true, if_false, iff_false]
      split
      · simp
      · split <;> simp

theorem Visit.verdict_eq_unowned {s : ResourceSet} {o : Options} {v : Visit} :
    v.verdict s o = .unowned ↔
      v.decl.kind.isTransparent = false ∧ s.matchPath v.path = .unowned := by
  rw [verdict]
  cases v.decl.kind.isTransparent with
  | true => simp
  | false =>
    cases s.matchPath v.path with
    | unowned | excluded id => simp
    | owned id =>
      simp only [Bool.false_eq_true, if_false, reduceCtorEq, and_false, iff_false]
      split
      · simp
      · split <;> simp

/-- The number of visited nodes of a verdict. -/
def Visit.countOf (s : ResourceSet) (o : Options) (vs : List Visit) (k : Verdict) : Nat :=
  vs.countP (·.verdict s o = k)

/-- Each node has one verdict. -/
theorem Visit.length_eq_countOf (s : ResourceSet) (o : Options) (vs : List Visit) :
    vs.length = countOf s o vs .group + countOf s o vs .unowned + countOf s o vs .excluded +
      countOf s o vs .procedure + countOf s o vs .state + countOf s o vs .wanted := by
  induction vs with
  | nil => rfl
  | cons v vs ih =>
    simp only [countOf] at ih
    simp only [countOf, List.length_cons, List.countP_cons, ih]
    cases v.verdict s o <;> simp <;> omega

theorem Visit.countOf_snoc (s : ResourceSet) (o : Options) (vs : List Visit) (v : Visit)
    (k : Verdict) :
    countOf s o (vs ++ [v]) k = countOf s o vs k + if v.verdict s o = k then 1 else 0 := by
  rw [countOf, List.countP_append, List.countP_singleton]
  simp only [countOf, decide_eq_true_eq]

/-! ### Totals -/

/-- A change of one item of a list changes the sum as it changes the item. -/
theorem sum_map_modify {α : Type} (w : α → Nat) (f : α → α) {l : List α} {i : Nat} {a : α}
    (h : l[i]? = some a) :
    ((l.modify i f).map w).sum + w a = (l.map w).sum + w (f a) := by
  induction l generalizing i with
  | nil => cases h
  | cons b l ih =>
    cases i with
    | zero =>
      obtain rfl := Option.some.inj h
      simp only [List.modify_zero_cons, List.map_cons, List.sum_cons]
      omega
    | succ i =>
      have := ih (i := i) h
      simp only [List.modify_succ_cons, List.map_cons, List.sum_cons]
      omega

/-- What the containers of an arena weigh together. -/
def Arena.total (w : Container → Nat) (a : Arena) : Nat := (a.toList.map w).sum

namespace ResourceSet

/-- What the containers of all resources weigh together. -/
def total (w : Container → Nat) (t : ResourceSet) : Nat := (t.toList.map (·.arena.total w)).sum

/-- The containers of all resources are the same. -/
def SameArenas (t u : ResourceSet) : Prop := u.toList.map (·.arena) = t.toList.map (·.arena)

variable {t u : ResourceSet} {w : Container → Nat}

theorem SameArenas.total_eq (h : t.SameArenas u) (w : Container → Nat) : u.total w = t.total w := by
  have hmap (v : ResourceSet) : v.total w = ((v.toList.map (·.arena)).map (Arena.total w)).sum := by
    rw [total, List.map_map]
    rfl
  rw [hmap, hmap, show u.toList.map (·.arena) = t.toList.map (·.arena) from h]

theorem sameArenas_modify (t : ResourceSet) (id : Nat) {f : Resource → Resource}
    (hf : ∀ x, (f x).arena = x.arena) : t.SameArenas (t.modify id f) := by
  refine List.ext_getElem? fun i => ?_
  rw [List.getElem?_map, List.getElem?_map, ← get?_eq_toList, ← get?_eq_toList, get?_modify]
  split
  · rw [Option.map_map]
    exact congrArg (Option.map · _) (funext hf)
  · rfl

/-- A change of one resource changes the total as it changes that of the resource. -/
theorem total_modify {id : Nat} {x : Resource} (hx : t.get? id = some x)
    (f : Resource → Resource) :
    (t.modify id f).total w + x.arena.total w = t.total w + (f x).arena.total w := by
  have hmodify : (t.modify id f).toList = t.toList.modify id f := by
    simp [toList, modify]
  rw [total, hmodify, total]
  rw [get?_eq_toList] at hx
  exact sum_map_modify (fun x : Resource => x.arena.total w) f hx

end ResourceSet

namespace Resource

variable {s : ResourceSet} {o : Options} {x : Resource} {v : Visit} {w : Container → Nat}

/-- A root container adds what it weighs. -/
theorem total_placeRoot (hbranch : v.decl.kind.isBranch = true) :
    (x.placeRoot v (s.isBoundary x.id v.path)).arena.total w =
      x.arena.total w + w (Container.made s o x.id none v) := by
  have hlist : (x.placeRoot v (s.isBoundary x.id v.path)).arena.toList = _ :=
    toList_openRoot (s := s) (o := o) hbranch
  rw [Arena.total, hlist, List.map_append, List.sum_append]
  simp [Arena.total]

/-- A node that is put into a container changes what this one weighs, and may add a container of
its own. -/
theorem total_placeBelow {home : Nat} {c : Container} (hc : x.arena.get? home = some c) :
    (x.placeBelow v home (s.isBoundary x.id v.path) (referenceOf? s o x.id v)).arena.total w + w c =
      x.arena.total w + w (c.receive s o x.id x.arena.size v) +
        if v.decl.kind.hasContainer then w (Container.made s o x.id (some home) v) else 0 := by
  have hlist : (x.placeBelow v home (s.isBoundary x.id v.path)
      (referenceOf? s o x.id v)).arena.toList = _ := toList_put (s := s) (o := o) (Arena.get?_lt hc)
  have hmodified := sum_map_modify w (·.receive s o x.id x.arena.size v)
    (show x.arena.toList[home]? = some c by rw [Arena.toList, Array.getElem?_toList]; exact hc)
  rw [Arena.total, hlist, List.map_append, List.sum_append, Arena.total]
  cases v.decl.kind.hasContainer with
  | true =>
    simp only [if_true, List.map_cons, List.map_nil, List.sum_cons, List.sum_nil]
    omega
  | false =>
    simp only [Bool.false_eq_true, if_false, List.map_nil, List.sum_nil]
    omega

end Resource

/-! ### What containers weigh -/

namespace Container

/-- Whether a container has been made for the one value of a leaf-list. -/
def isWrapper (c : Container) : Bool := c.synthetic && c.parent?.isSome

/-- The number of values in a container, but for that of a leaf-list in the container of its own. -/
def leafCount (c : Container) : Nat :=
  if c.isWrapper then 0 else c.entries.countP (·.kind == .leaf)

variable {s : ResourceSet} {o : Options} {id : Nat} {v : Visit}

/-- No container into which nodes are put has been made for the value of a leaf-list. -/
theorem isWrapper_eq_false {c : Container} (h : c.synthetic = true → c.parent? = none) :
    c.isWrapper = false := by
  rw [isWrapper]
  cases hsyn : c.synthetic with
  | false => rfl
  | true => rw [h hsyn, Option.isSome_none, Bool.and_false]

theorem isWrapper_receive (c : Container) (place : Nat) :
    (c.receive s o id place v).isWrapper = c.isWrapper := by
  have houtline := outline_receive (s := s) (o := o) id c place v
  rw [isWrapper, isWrapper, synthetic_of_outline houtline, parent?_of_outline houtline]

theorem references_receive (c : Container) (place : Nat) :
    (c.receive s o id place v).references =
      c.references ++ (Resource.referenceOf? s o id v).toList := by
  rw [receive_eq_filled, filled]
  cases href : Resource.referenceOf? s o id v <;> simp [href]

/-- A container gets one more entry, of the kind of the node. -/
theorem exists_entries_receive (s : ResourceSet) (o : Options) (id : Nat) (v : Visit)
    (c : Container) (place : Nat) :
    ∃ e, (c.receive s o id place v).entries = c.entries ++ [e] ∧ e.kind = .ofKind v.decl.kind := by
  obtain ⟨e, hentries, hunlinked⟩ := entries_receive (s := s) (o := o) id c place v
  exact ⟨e, hentries, congrArg (·.kind) hunlinked⟩

theorem length_entries_receive (c : Container) (place : Nat) :
    (c.receive s o id place v).entries.length = c.entries.length + 1 := by
  obtain ⟨e, hentries, -⟩ := exists_entries_receive s o id v c place
  rw [hentries, List.length_append, List.length_singleton]

/-- A node without a container of its own is one more value, outside that of a leaf-list. -/
theorem leafCount_receive {c : Container} (h : c.isWrapper = false) (place : Nat) :
    (c.receive s o id place v).leafCount =
      c.leafCount + if v.decl.kind.hasContainer then 0 else 1 := by
  obtain ⟨e, hentries, hkind⟩ := exists_entries_receive s o id v c place
  rw [leafCount, leafCount, isWrapper_receive, h, hentries, List.countP_append,
    List.countP_singleton, hkind]
  cases v.decl.kind <;> rfl

/-- A container that has been made for a node. -/
theorem made_eq_container (parent? : Option Nat) :
    made s o id parent? v = Slot.container s o id ⟨v, parent?, []⟩ :=
  (filled_nil _).symm

theorem references_made (parent? : Option Nat) : (made s o id parent? v).references = [] := by
  rw [made_eq_container, Slot.container_eq]
  rfl

theorem synthetic_made (parent? : Option Nat) :
    (made s o id parent? v).synthetic = (v.decl.kind == .leafList) := by
  rw [made_eq_container, Slot.container_eq]

theorem length_entries_made (parent? : Option Nat) :
    (made s o id parent? v).entries.length = if v.decl.kind = .leafList then 1 else 0 := by
  rw [made_eq_container, Slot.container_eq]
  simp only [Slot.entries, Slot.ownEntries, List.map_nil, List.append_nil]
  split <;> rfl

/-- The only value in a container that has been made is that of a leaf-list below another one. -/
theorem leafCount_made (parent? : Option Nat)
    (h : v.decl.kind = .leafList → parent?.isSome = true) :
    (made s o id parent? v).leafCount = 0 := by
  have hlen : (made s o id parent? v).entries.length = _ := length_entries_made parent?
  rw [leafCount, isWrapper, synthetic_made, parent?_made]
  by_cases hkind : v.decl.kind = .leafList
  · rw [hkind, beq_self_eq_true, h hkind]
    rfl
  · rw [if_neg hkind, List.length_eq_zero_iff] at hlen
    rw [hlen]
    simp

end Container

namespace ResourceSet

variable {s t : ResourceSet} {o : Options} {x : Resource} {v : Visit}

theorem total_placeRoot (hx : t.get? x.id = some x) (w : Container → Nat)
    (hbranch : v.decl.kind.isBranch = true) :
    (t.modify x.id (·.placeRoot v (s.isBoundary x.id v.path))).total w =
      t.total w + w (Container.made s o x.id none v) := by
  have hset := total_modify (w := w) hx (·.placeRoot v (s.isBoundary x.id v.path))
  have hplaced := Resource.total_placeRoot (s := s) (o := o) (x := x) (w := w) hbranch
  omega

theorem total_placeBelow (hx : t.get? x.id = some x) (w : Container → Nat) {home : Nat}
    {c : Container} (hc : x.arena.get? home = some c) :
    (t.modify x.id (·.placeBelow v home (s.isBoundary x.id v.path)
        (Resource.referenceOf? s o x.id v))).total w + w c =
      t.total w + w (c.receive s o x.id x.arena.size v) +
        if v.decl.kind.hasContainer then w (Container.made s o x.id (some home) v) else 0 := by
  have hset := total_modify (w := w) hx (·.placeBelow v home (s.isBoundary x.id v.path)
    (Resource.referenceOf? s o x.id v))
  have hplaced := Resource.total_placeBelow (s := s) (o := o) (v := v) (w := w) hc
  omega

end ResourceSet

/-! ### One visit -/

/-- What placing a node does to the accounts and the containers. -/
inductive Run.Places (s : ResourceSet) (o : Options) (x : Resource) (v : Visit) (r r' : Run) :
    Prop where
  /-- There is no container for the node. -/
  | nowhere (stats : r'.stats = { r.stats with unplaced := r.stats.unplaced + 1 })
    (same : r.set.SameArenas r'.set)
  /-- The node becomes the root container. -/
  | onTop (branch : v.decl.kind.isBranch = true)
    (stats : r'.stats = { r.stats with containers := r.stats.containers + 1 })
    (set : r'.set = r.set.modify x.id (·.placeRoot v (s.isBoundary x.id v.path)))
  /-- The node is put into a container. -/
  | below (home : Nat) (parent : x.parentFor? v = some home)
    (stats : r'.stats = { r.stats with
      containers := r.stats.containers + if v.decl.kind.hasContainer then 1 else 0
      entries := r.stats.entries + if v.decl.kind = .leafList then 2 else 1
      references := r.stats.references +
        if (Resource.referenceOf? s o x.id v).isSome then 1 else 0 })
    (set : r'.set = r.set.modify x.id (·.placeBelow v home (s.isBoundary x.id v.path)
      (Resource.referenceOf? s o x.id v)))

namespace Run

variable {s : ResourceSet} {o : Options} {x : Resource} {r r' : Run} {v : Visit}

/-- Leaving a node out changes no container. -/
theorem sameArenas_abandon (t : ResourceSet) (id : Nat) (v : Visit) :
    t.SameArenas (t.modify id (·.abandon v)) := by
  refine ResourceSet.sameArenas_modify t id fun x => ?_
  rw [Resource.abandon]
  split <;> rfl

theorem places_of_place (hr : r.set.blank = s) (hdata : v.decl.kind.isTransparent = false)
    (hrpc : v.decl.kind ≠ .rpc) (h : r.place o x v = .ok r') : Places s o x v r r' := by
  rw [place_eq hr] at h
  split at h
  · split at h
    · obtain rfl := Except.ok.inj h
      exact .nowhere rfl rfl
    · next hscalar =>
      split at h
      · cases h
      · obtain rfl := Except.ok.inj h
        exact .onTop (Resource.isBranch_of_placed hdata (by simpa using hscalar) hrpc) rfl rfl
  · split at h
    · obtain rfl := Except.ok.inj h
      exact .nowhere rfl (sameArenas_abandon _ _ _)
    · next home hparent =>
      obtain rfl := Except.ok.inj h
      refine .below home hparent ?_ rfl
      rw [placeBelow]
      cases hkind : v.decl.kind with
      | container | list | leafList | leaf => rfl
      | choice | case =>
        rw [hkind] at hdata
        cases hdata
      | rpc => exact absurd hkind hrpc

/-- A visit counts the node under its verdict and changes no container, or places the node. -/
theorem visit_verdict (hs : s.Instantiated) (hr : r.set.blank = s) (h : r.visit o v = .ok r') :
    (v.verdict s o ≠ .wanted ∧ r'.stats = r.stats.count (v.verdict s o) ∧
      r.set.SameArenas r'.set) ∨
    (v.verdict s o = .wanted ∧ ∃ x, r.set.get? x.id = some x ∧
      Places s o x v (r.count .wanted) r') := by
  rw [visit_eq hr] at h
  by_cases htransparent : v.decl.kind.isTransparent = true
  · rw [if_pos htransparent] at h
    obtain rfl := Except.ok.inj h
    rw [Visit.verdict_eq_group.2 htransparent]
    exact .inl ⟨by simp, rfl, rfl⟩
  rw [if_neg htransparent] at h
  have hdata : v.decl.kind.isTransparent = false := by simpa using htransparent
  split at h
  · cases h
  cases hbest : r.set.bestMatch? v.path with
  | none =>
    rw [hbest] at h
    obtain rfl := Except.ok.inj h
    have hunowned : s.matchPath v.path = .unowned := by
      rw [← hr, ResourceSet.matchPath_blank, ResourceSet.matchPath, hbest]
    rw [Visit.verdict_eq_unowned.2 ⟨hdata, hunowned⟩]
    exact .inl ⟨by simp, rfl, rfl⟩
  | some x =>
    rw [hbest] at h
    simp only at h
    have hwanted := verdict_eq_wanted_iff (o := o) hr hdata hbest
    split at h
    case isTrue hout =>
      obtain rfl := Except.ok.inj h
      refine .inl ⟨?_, rfl, sameArenas_abandon _ _ _⟩
      rw [ne_eq, hwanted, hout]
      simp
    case isFalse hout =>
      have htaken : x.leavesOut o v = false := by simpa using hout
      refine .inr ⟨hwanted.2 htaken, x, hs.get?_of_bestMatch? hr hbest, ?_⟩
      exact places_of_place (r := r.count .wanted) hr hdata
        (Resource.ne_rpc_of_not_leavesOut htaken) h

/-! ### The balance -/

/-- What the accounts of a run say of the visited nodes and of the resources. -/
structure Balanced (s : ResourceSet) (o : Options) (vs : List Visit) (r : Run) : Prop where
  nodes : r.stats.nodes = vs.length
  excluded : r.stats.excluded = Visit.countOf s o vs .excluded
  procedures : r.stats.skippedRpc = Visit.countOf s o vs .procedure
  state : r.stats.skippedState = Visit.countOf s o vs .state
  /-- A node that is to be placed is unplaced, has a container, or is a value. -/
  wanted : Visit.countOf s o vs .wanted =
    r.stats.unplaced + r.stats.containers + r.set.total (·.leafCount)
  /-- One more container stands for the top of the whole schema. -/
  containers : r.set.total (fun _ => 1) = r.stats.containers + if s.mode = .full then 1 else 0
  entries : r.set.total (·.entries.length) = r.stats.entries
  references : r.set.total (·.references.length) = r.stats.references

/-- A node that is not placed is counted under its verdict. -/
theorem Balanced.skip {vs : List Visit} (h : Balanced s o vs r) (hverdict : v.verdict s o ≠ .wanted)
    (hstats : r'.stats = r.stats.count (v.verdict s o)) (hset : r.set.SameArenas r'.set) :
    Balanced s o (vs ++ [v]) r' where
  nodes := by simp [hstats, h.nodes]
  excluded := by simp [hstats, Visit.countOf_snoc, h.excluded]
  procedures := by simp [hstats, Visit.countOf_snoc, h.procedures]
  state := by simp [hstats, Visit.countOf_snoc, h.state]
  wanted := by simp [hstats, hset.total_eq, Visit.countOf_snoc, hverdict, h.wanted]
  containers := by simp [hstats, hset.total_eq, h.containers]
  entries := by simp [hstats, hset.total_eq, h.entries]
  references := by simp [hstats, hset.total_eq, h.references]

/-- A node that is put into a container becomes a container or a value. -/
theorem Balanced.put {vs : List Visit} (h : Balanced s o vs r)
    (hverdict : v.verdict s o = .wanted) (hx : r.set.get? x.id = some x) {home : Nat}
    (hopen : x.arena.Open home)
    (hstats : r'.stats = { r.stats.count .wanted with
      containers := r.stats.containers + if v.decl.kind.hasContainer then 1 else 0
      entries := r.stats.entries + if v.decl.kind = .leafList then 2 else 1
      references := r.stats.references +
        if (Resource.referenceOf? s o x.id v).isSome then 1 else 0 })
    (hset : r'.set = r.set.modify x.id (·.placeBelow v home (s.isBoundary x.id v.path)
      (Resource.referenceOf? s o x.id v))) : Balanced s o (vs ++ [v]) r' := by
  obtain ⟨c, hc, hfree⟩ := hopen
  have hcount := Visit.countOf_snoc s o vs v
  have htotal (w : Container → Nat) :=
    ResourceSet.total_placeBelow (s := s) (o := o) (v := v) hx w hc
  have hcounted := htotal fun _ => 1
  have hlengths := htotal (·.entries.length)
  have hrecorded := htotal (·.references.length)
  have hvalues := htotal (·.leafCount)
  simp only [Container.length_entries_receive, Container.length_entries_made,
    Container.references_receive, Container.references_made, List.length_append,
    List.length_nil, Container.leafCount_receive (Container.isWrapper_eq_false hfree),
    Container.leafCount_made (some home) fun _ => rfl, ite_self, Option.length_toList]
    at hlengths hrecorded hvalues
  have hown : v.decl.kind = .leafList → v.decl.kind.hasContainer = true := by
    intro hkind
    rw [hkind]
    rfl
  obtain ⟨hnodes, hexcluded, hprocedures, hstate, hwanted, hcontainers, hentries, hreferences⟩ := h
  constructor <;>
    simp only [hstats, hset, Stats.count, hcount, hverdict, List.length_append,
      List.length_singleton, reduceCtorEq, if_true, if_false]
  case entries =>
    by_cases hkind : v.decl.kind = .leafList
    · rw [if_pos (hown hkind)] at hlengths
      rw [if_pos hkind] at hlengths ⊢
      omega
    · simp only [if_neg hkind, ite_self] at hlengths ⊢
      omega
  case wanted =>
    cases hcontainer : v.decl.kind.hasContainer with
    | true =>
      simp only [hcontainer, if_true] at hvalues ⊢
      omega
    | false =>
      simp only [hcontainer, Bool.false_eq_true, if_false] at hvalues ⊢
      omega
  all_goals omega

/-- A node that is placed becomes a container or a value, unless there is no container for it. -/
theorem Balanced.place {vs : List Visit} (h : Balanced s o vs r)
    (hverdict : v.verdict s o = .wanted) (hx : r.set.get? x.id = some x)
    (hopen : ∀ home, x.parentFor? v = some home → x.arena.Open home)
    (hplaces : Places s o x v (r.count .wanted) r') :
    Balanced s o (vs ++ [v]) r' := by
  have hcount := Visit.countOf_snoc s o vs v
  cases hplaces with
  | nowhere hstats hset =>
    obtain ⟨hnodes, hexcluded, hprocedures, hstate, hwanted, hcontainers, hentries,
      hreferences⟩ := h
    constructor <;>
      simp only [hstats, hset.total_eq, set_count, stats_count, Stats.count, hcount, hverdict,
        List.length_append, List.length_singleton, reduceCtorEq, if_true, if_false] <;> omega
  | onTop hbranch hstats hset =>
    have hkind := Kind.ne_leafList_of_isBranch hbranch
    have htotal (w : Container → Nat) :=
      ResourceSet.total_placeRoot (s := s) (o := o) hx w hbranch
    obtain ⟨hnodes, hexcluded, hprocedures, hstate, hwanted, hcontainers, hentries,
      hreferences⟩ := h
    constructor <;>
      simp only [hstats, hset, set_count, stats_count, htotal,
        Container.leafCount_made none (absurd · hkind), Container.length_entries_made,
        Container.references_made, hkind, Stats.count, hcount, hverdict, List.length_append,
        List.length_singleton, List.length_nil, reduceCtorEq, if_true, if_false] <;> omega
  | below home hparent hstats hset =>
    exact h.put hverdict hx (hopen home hparent) hstats hset

/-- After a run that succeeds the accounts balance. -/
theorem Balanced.visitAll (hs : s.Instantiated) {installed : List Nat} {vs ws : List Visit}
    (hsound : s.Sound installed r.set) (h : Balanced s o vs r)
    (hrun : Run.visitAll o r ws = (r', none)) : Balanced s o (vs ++ ws) r' := by
  induction ws generalizing r vs with
  | nil =>
    obtain rfl := (Prod.mk.inj hrun).1
    rw [List.append_nil]
    exact h
  | cons w ws ih =>
    rw [Run.visitAll] at hrun
    split at hrun
    · next r₁ hr₁ =>
      rw [List.append_cons]
      refine ih (hsound.visit hs hr₁) ?_ hrun
      rcases visit_verdict hs hsound.blank hr₁ with ⟨hverdict, hstats, hset⟩ |
        ⟨hverdict, x, hx, hplaces⟩
      · exact h.skip hverdict hstats hset
      · obtain ⟨tops, htops⟩ := (hsound.each hx).exists_sound
        exact h.place hverdict hx (fun home hparent => (htops.parent hparent).1) hplaces
    · cases (Prod.mk.inj hrun).2

end Run

namespace ResourceSet

variable {s t : ResourceSet} {o : Options}

/-- Resources without contents weigh nothing. -/
theorem total_blank (s : ResourceSet) (w : Container → Nat) : s.blank.total w = 0 := by
  rw [total, toList_blank, List.map_map]
  simp [Function.comp_def, Resource.blank, Arena.total, Arena.toList]

/-- Before the first visit there is at most the container for the top of the whole schema. -/
theorem Instantiated.total_prepared (hs : s.Instantiated) (w : Container → Nat) :
    s.prepared.total w = if s.mode = .full then w (.ofName "root" none) else 0 := by
  have hempty : s.total w = 0 := by
    rw [← hs.blank]
    exact total_blank s w
  rw [prepared]
  cases hmode : s.mode with
  | declared => exact hempty
  | full =>
    obtain ⟨x, hx, -⟩ := hs.top
    have hset := total_modify (w := w) hx (·.placeTop)
    have hlist : x.placeTop.arena.total w = w (.ofName "root" none) := by
      rw [← hs.blank_eq hx]
      rfl
    have hnone : x.arena.total w = 0 := by
      rw [← hs.blank_eq hx]
      rfl
    simp only [if_true]
    omega

theorem Instantiated.balanced_prepared (hs : s.Instantiated) :
    Run.Balanced s o [] { set := s.prepared } := by
  constructor <;> simp [hs.total_prepared, Visit.countOf, Container.leafCount, Container.ofName,
    Container.isWrapper]

theorem sameArenas_settled (t : ResourceSet) : t.SameArenas t.settled := by
  simp [SameArenas, settled, toList, Function.comp_def]

/-- After a compilation that succeeds the accounts balance. -/
theorem Instantiated.balanced_compile (hs : s.Instantiated) {f : Forest} {stats : Stats}
    (h : s.compile o f = (t, .ok stats)) : Run.Balanced s o f.visits ⟨t, stats⟩ := by
  rw [compile] at h
  split at h
  · next r hr =>
    have hbalanced := hs.balanced_prepared.visitAll hs (hs.sound.prepared hs) hr
    rw [List.nil_append] at hbalanced
    rw [Prod.mk.injEq, Except.ok.injEq] at h
    obtain ⟨rfl, rfl⟩ := h
    obtain ⟨hnodes, hexcluded, hprocedures, hstate, hwanted, hcontainers, hentries, hreferences⟩ :=
      hbalanced
    have hsame := sameArenas_settled r.set
    constructor <;> simp only [hsame.total_eq] <;> assumption
  · cases (Prod.mk.inj h).2

/-! ### The result -/

/-- Every node of a forest is accounted for exactly once. All nodes are counted; containers and
entries are counted as they stand in the resources, but for the container that stands for the top
of the whole schema. Each node is a choice or case, or is owned by no resource, or is counted as
left out or unplaced, or has a container, or is a value outside the container of a leaf-list. -/
theorem nodes_accounted {m : ResourceMap} {mode : Mode} (hs : ofMap m mode = .ok s) {f : Forest}
    {stats : Stats} (h : s.compile o f = (t, .ok stats)) :
    stats.nodes = f.size ∧
    (t.toList.map (·.arena.size)).sum = stats.containers + (if mode = .full then 1 else 0) ∧
    t.total (·.entries.length) = stats.entries ∧
    stats.excluded = Visit.countOf s o f.visits .excluded ∧
    stats.skippedRpc = Visit.countOf s o f.visits .procedure ∧
    stats.skippedState = Visit.countOf s o f.visits .state ∧
    stats.nodes =
      f.visits.countP (·.decl.kind.isTransparent) +
      f.visits.countP (fun v =>
        !v.decl.kind.isTransparent && s.matchPath v.path == .unowned) +
      stats.excluded + stats.skippedRpc + stats.skippedState + stats.unplaced +
      stats.containers + t.total (·.leafCount) := by
  have hinst := instantiated_ofMap hs
  obtain ⟨hmode, -⟩ := exists_root_ofMap hs
  have hbalanced := hinst.balanced_compile h
  have hgroup : Visit.countOf s o f.visits .group =
      f.visits.countP (·.decl.kind.isTransparent) := by
    refine List.countP_congr fun v _ => ?_
    rw [decide_eq_true_iff, Visit.verdict_eq_group]
  have hunowned : Visit.countOf s o f.visits .unowned = f.visits.countP (fun v =>
      !v.decl.kind.isTransparent && s.matchPath v.path == .unowned) := by
    refine List.countP_congr fun v _ => ?_
    rw [decide_eq_true_iff, Visit.verdict_eq_unowned]
    simp
  have hsizes : t.total (fun _ => 1) = (t.toList.map (·.arena.size)).sum := by
    simp [total, Arena.total, Arena.size, Arena.toList]
  have hnodes := hbalanced.nodes
  have hverdicts := Visit.length_eq_countOf s o f.visits
  have hwanted := hbalanced.wanted
  refine ⟨?_, ?_, hbalanced.entries, hbalanced.excluded, hbalanced.procedures, hbalanced.state, ?_⟩
  · rw [← f.length_visits]
    exact hnodes
  · rw [← hsizes, ← hmode]
    exact hbalanced.containers
  · rw [← hgroup, ← hunowned, hbalanced.excluded, hbalanced.procedures, hbalanced.state]
    simp only at hnodes hwanted
    omega

/-- Of nodes of all kinds one is a choice, one stands beside the resource, one is excluded, one is
a procedure, one is state, one is a leaf beside the root, four are containers, one of them for the
value of a leaf-list, and two are values. -/
theorem nodes_accounted_each :
    let state : Node := ⟨{ name := "s", kind := .leaf, readOnly := true }, []⟩
    let choice : Node := ⟨{ name := "h", kind := .choice }, [("d", .ofLeaf "d" "string")]⟩
    let list : Node := ⟨{ name := "l", kind := .list, key? := some "k" },
      [("k", .ofLeaf "k" "string"), ("c", .ofKind .container "c")]⟩
    let a : Node := ⟨{ name := "a", kind := .container },
      [("b", .ofKind .container "b"), ("h", choice), ("l", list),
        ("m", ⟨{ name := "m", kind := .leafList, typeName := "string" }, []⟩),
        ("r", .ofKind .rpc "r"), ("s", state)]⟩
    let f : Forest := { modules := [{ name := "m", nodes :=
      [("a", a), ("x", .ofKind .container "x")] }, { name := "n", nodes :=
      [("a", .ofLeaf "a" "string")] }] }
    ∃ s t stats, ofMap { declared := [("/a", { excludes := ["b"] })] } .declared = .ok s ∧
      s.compile {} f = (t, .ok stats) ∧ stats.nodes = 12 ∧
      stats.nodes = 1 + 1 + stats.excluded + stats.skippedRpc + stats.skippedState +
        stats.unplaced + stats.containers + t.total (·.leafCount) ∧
      (stats.excluded, stats.skippedRpc, stats.skippedState, stats.unplaced, stats.containers) =
        (1, 1, 1, 1, 4) := by
  intro state choice list a f
  obtain ⟨s, hs, htest⟩ := exists_ok_of_any
    (p := fun s => (s.compile {} f).2.toOption.any fun stats =>
      f.size == 12 && f.visits.countP (·.decl.kind.isTransparent) == 1 &&
        f.visits.countP (fun v =>
          !v.decl.kind.isTransparent && s.matchPath v.path == .unowned) == 1 &&
        decide ((stats.excluded, stats.skippedRpc, stats.skippedState, stats.unplaced,
          stats.containers) = (1, 1, 1, 1, 4)))
    (show (ofMap { declared := [("/a", { excludes := ["b"] })] }
      .declared).toOption.any _ = true by decide +kernel)
  obtain ⟨stats, hstats, hcounts⟩ := exists_ok_of_any htest
  simp only [Bool.and_eq_true, beq_iff_eq, decide_eq_true_eq] at hcounts
  obtain ⟨⟨⟨hsize, hgroups⟩, hunowned⟩, hcounts⟩ := hcounts
  have haccounted := nodes_accounted hs (Prod.ext rfl hstats)
  rw [hgroups, hunowned] at haccounted
  exact ⟨s, _, stats, hs, Prod.ext rfl hstats, haccounted.1.trans hsize,
    haccounted.2.2.2.2.2.2, hcounts⟩

end ResourceSet

end YangPartition
