import Mathlib.Data.List.Induction
import YangPartition.Proofs.Compile.Placement
import YangPartition.Proofs.Compile.Sound

/-!
# Where nodes are attached

A node is put into the container that the level stack holds at the depth above. That is
the container of the last node visited at that depth, leaves and leaf-lists apart: these
leave the stack as it is. So a node below a container or list is attached to it, and a node
below a leaf or leaf-list to whatever container was left standing beside that.
-/

namespace YangPartition

/-! ### Data nodes in order -/

namespace Resource

variable {s : ResourceSet} {o : Options}

/-- Choices and cases change nothing. -/
theorem seeAll_filter (x : Resource) (vs : List Visit) :
    x.seeAll s o (vs.filter fun v => !v.decl.kind.isTransparent) = x.seeAll s o vs := by
  induction vs generalizing x with
  | nil => rfl
  | cons v vs ih =>
    rw [List.filter_cons, seeAll]
    cases hdata : v.decl.kind.isTransparent with
    | true =>
      have hsee : x.see s o v = .ok x := by
        rw [see, if_neg]
        rintro ⟨hno, -⟩
        exact hno hdata
      rw [hsee, Bool.not_true, if_neg Bool.false_ne_true, ih]
      rfl
    | false =>
      rw [Bool.not_false, if_pos rfl, seeAll]
      congr 1
      funext y
      exact ih y

end Resource

namespace Node

mutual

/-- The data nodes among the visited ones are those that have been told with the nodes above. -/
theorem filter_visits (above : List Visit) (below : Path) (listKeys : List String) (n : Node) :
    ((n.visits below listKeys).filter fun v => !v.decl.kind.isTransparent) =
      (n.sites above below listKeys).map (·.visit) := by
  obtain ⟨decl, children⟩ := n
  rw [visits, sites]
  cases hdata : decl.kind.isTransparent with
  | true =>
    simp only [if_true, List.filter_cons, hdata, Bool.not_true, Bool.false_eq_true, if_false]
    exact filter_visitsAll above below listKeys children
  | false =>
    simp only [Bool.false_eq_true, if_false, List.filter_cons, hdata, Bool.not_false, if_true,
      List.map_cons]
    congr 1
    exact filter_visitsAll _ _ _ children
termination_by structural n

theorem filter_visitsAll (above : List Visit) (below : Path) (listKeys : List String)
    (ns : List (String × Node)) :
    ((visitsAll below listKeys ns).filter fun v => !v.decl.kind.isTransparent) =
      (sitesAll above below listKeys ns).map (·.visit) := by
  match ns with
  | [] => rfl
  | (_, n) :: rest =>
    rw [visitsAll, sitesAll, List.filter_append, List.map_append,
      filter_visits above below listKeys n,
      filter_visitsAll above below listKeys rest]
termination_by structural ns

end

end Node

theorem Forest.filter_visits (f : Forest) :
    (f.visits.filter fun v => !v.decl.kind.isTransparent) = f.sites.map (·.visit) := by
  rw [visits, sites]
  induction f.modules with
  | nil => rfl
  | cons m modules ih =>
    rw [List.flatMap_cons, List.flatMap_cons, List.filter_append, List.map_append, ih,
      Node.filter_visitsAll []]

/-! ### Parents come before children -/

/-- In a list of data nodes below a path, each stands right below that path or below a node of
the list from which it is parted by nodes below that one only. -/
structure Sited (above : List Visit) (below : Path) (l : List Site) : Prop where
  /-- All nodes are below the path. -/
  deep : ∀ i ∈ l, below.length < i.visit.path.length
  /-- Each node has its parent outside the list or before it. -/
  parent : ∀ {before i after}, l = before ++ i :: after →
    (i.above = above ∧ i.visit.below = below) ∨
    ∃ u upper first between, i.above = u :: upper ∧ i.visit.below = u.path ∧
      before = first ++ ⟨u, upper⟩ :: between ∧ ∀ j ∈ between, u.path.length < j.visit.path.length

namespace Sited

variable {above : List Visit} {below : Path}

theorem nil : Sited above below [] where
  deep i hi := by cases hi
  parent h := by
    have := congrArg List.length h
    simp at this

theorem append {l m : List Site} (hl : Sited above below l) (hm : Sited above below m) :
    Sited above below (l ++ m) where
  deep i hi := by
    rcases List.mem_append.1 hi with hi | hi
    · exact hl.deep i hi
    · exact hm.deep i hi
  parent {before i after} h := by
    rcases List.append_eq_append_iff.1 h with ⟨as, hbefore, hm'⟩ | ⟨bs, hl', hafter⟩
    · -- in the second list
      rcases hm.parent hm' with htop | ⟨u, upper, first, between, hu, hbelow, rfl, hdeep⟩
      · exact .inl htop
      · exact .inr ⟨u, upper, l ++ first, between, hu, hbelow, by rw [hbefore, List.append_assoc],
          hdeep⟩
    · cases bs with
      | nil =>
        rw [List.append_nil] at hl'
        rw [List.nil_append] at hafter
        have hfirst : m = [] ++ i :: after := hafter.symm
        rcases hm.parent hfirst with htop | ⟨u, upper, first, between, hu, hbelow, hnil, hdeep⟩
        · exact .inl htop
        · simp at hnil
      | cons b bs =>
        rw [List.cons_append, List.cons.injEq] at hafter
        obtain ⟨rfl, -⟩ := hafter
        exact hl.parent hl'

/-- A node and the data nodes below it. -/
theorem cons {v : Visit} {l : List Site} (hv : v.below = below)
    (hl : Sited (v :: above) v.path l) : Sited above below (⟨v, above⟩ :: l) where
  deep i hi := by
    have hpush : v.path.length = below.length + 1 := by rw [v.length_path, hv]
    rcases List.mem_cons.1 hi with rfl | hi
    · show below.length < v.path.length
      omega
    · have := hl.deep i hi
      omega
  parent {before i after} h := by
    cases before with
    | nil =>
      obtain rfl := (List.cons.inj h).1
      exact .inl ⟨rfl, hv⟩
    | cons b before =>
      rw [List.cons_append, List.cons.injEq] at h
      obtain ⟨rfl, h⟩ := h
      rcases hl.parent h with ⟨habove, hbelow⟩ | ⟨u, upper, first, between, hu, hbelow, rfl, hdeep⟩
      · refine .inr ⟨v, above, [], before, habove, hbelow, rfl, fun j hj => hl.deep j ?_⟩
        rw [h]
        exact List.mem_append_left _ hj
      · exact .inr ⟨u, upper, _ :: first, between, hu, hbelow, rfl, hdeep⟩

end Sited

namespace Node

mutual

theorem sited_sites (above : List Visit) (below : Path) (listKeys : List String) (n : Node) :
    Sited above below (n.sites above below listKeys) := by
  obtain ⟨decl, children⟩ := n
  rw [sites]
  split
  · exact sited_sitesAll above below listKeys children
  · exact .cons rfl (sited_sitesAll _ _ _ children)
termination_by structural n

theorem sited_sitesAll (above : List Visit) (below : Path) (listKeys : List String)
    (ns : List (String × Node)) : Sited above below (sitesAll above below listKeys ns) := by
  match ns with
  | [] => exact .nil
  | (_, n) :: rest =>
    exact (sited_sites above below listKeys n).append (sited_sitesAll above below listKeys rest)
termination_by structural ns

end

end Node

theorem Forest.sited_sites (f : Forest) : Sited [] .root f.sites := by
  rw [sites]
  induction f.modules with
  | nil => exact .nil
  | cons m modules ih => exact (Node.sited_sitesAll [] .root [] m.nodes).append ih

/-! ### What is left standing -/

namespace Resource

variable {s : ResourceSet} {o : Options} {x y : Resource} {v : Visit} {tops : List Nat}

/-- Whether a visit changes the levels of a resource down to those of paths of a length. -/
def marks (s : ResourceSet) (x : Resource) (length : Nat) (v : Visit) : Bool :=
  decide (Owns s x.id v.path) && !v.decl.kind.isScalar && decide (v.path.length ≤ length)

theorem marks_iff {length : Nat} : x.marks s length v = true ↔
    Owns s x.id v.path ∧ v.decl.kind.isScalar = false ∧ v.path.length ≤ length := by
  rw [marks]
  simp [and_assoc]

theorem marks_of_lt {length : Nat} (h : length < v.path.length) : x.marks s length v = false := by
  rw [← Bool.not_eq_true, marks_iff]
  exact fun hmarks => Nat.not_lt.2 hmarks.2.2 h

theorem marks_of_isScalar (h : v.decl.kind.isScalar = true) (length : Nat) :
    x.marks s length v = false := by
  rw [marks, h, Bool.not_true, Bool.and_false, Bool.false_and]

/-- A visit does not change the levels above the depth of its node. -/
theorem marks_of_above {d : Nat} (h : v.decl.kind.isScalar = false → d < x.depthOf v.path) :
    x.marks s (x.path.length + d) v = false := by
  cases hscalar : v.decl.kind.isScalar with
  | true => exact marks_of_isScalar hscalar _
  | false =>
    have hd := h hscalar
    rw [depthOf] at hd
    exact marks_of_lt (by omega)

/-- The last of some visits that has changed the levels of a resource down to those of paths
of a length. -/
def standing? (s : ResourceSet) (x : Resource) (visits : List Visit) (length : Nat) :
    Option Visit :=
  (visits.filter (x.marks s length)).getLast?

/-- One more visit is the last if it changes those levels. -/
theorem standing?_snoc (x : Resource) (vs : List Visit) (v : Visit) (length : Nat) :
    x.standing? s (vs ++ [v]) length =
      if x.marks s length v then some v else x.standing? s vs length := by
  rw [standing?, standing?, List.filter_append, List.filter_singleton]
  cases x.marks s length v with
  | true => simp
  | false => simp

/-- Visits further down do not change the levels of shorter paths. -/
theorem standing?_append_deep (x : Resource) (vs ws : List Visit) {length : Nat}
    (h : ∀ w ∈ ws, length < w.path.length) :
    x.standing? s (vs ++ ws) length = x.standing? s vs length := by
  have hnone : ws.filter (x.marks s length) = [] := by
    rw [List.filter_eq_nil_iff]
    intro w hw
    rw [marks_of_lt (h w hw)]
    exact Bool.false_ne_true
  rw [standing?, standing?, List.filter_append, hnone, List.append_nil]

/-- The path that a container at the level of a length stands for after some visits. -/
def standingPath (s : ResourceSet) (x : Resource) (visits : List Visit) (length : Nat) : Path :=
  ((x.standing? s visits length).map (·.path)).getD .root

/-- The container at a depth of the level stack is that of the last visit that has changed the
levels down to there. -/
def Recalls (s : ResourceSet) (visits : List Visit) (x : Resource) : Prop :=
  ∀ {d c y}, x.levels.levels[d]? = some c → x.arena.get? c = some y →
    y.path = x.standingPath s visits (x.path.length + d)

theorem standingPath_of_blank (h : y.blank = x.blank) (vs : List Visit) (length : Nat) :
    y.standingPath s vs length = x.standingPath s vs length := by
  have hmarks : y.marks s length = x.marks s length := by
    funext v
    rw [marks, marks, id_of_blank h]
  rw [standingPath, standingPath, standing?, standing?, hmarks]

/-- A visit of a node that holds values, or that the resource does not own, leaves the levels
as they are, and so does one further down. -/
theorem standingPath_snoc_of_not_marks {vs : List Visit} {length : Nat}
    (h : x.marks s length v = false) :
    x.standingPath s (vs ++ [v]) length = x.standingPath s vs length := by
  rw [standingPath, standing?_snoc, h, if_neg Bool.false_ne_true]
  rfl

/-- A visit that changes the levels of a length is what stands there. -/
theorem standingPath_snoc_of_marks {vs : List Visit} {length : Nat}
    (h : x.marks s length v = true) : x.standingPath s (vs ++ [v]) length = v.path := by
  rw [standingPath, standing?_snoc, if_pos h]
  rfl

/-- The containers that were there keep their outlines. -/
theorem outline_see (h : x.Sound tops) (hy : x.see s o v = .ok y) {c : Nat} {z : Container}
    (hz : x.arena.get? c = some z) :
    ∃ w, y.arena.get? c = some w ∧ w.outline = z.outline := by
  have hlt := Arena.get?_lt hz
  rcases see_cases hy with ⟨rfl, -⟩ | ⟨-, -, -, rfl⟩ | ⟨-, -, -, -, -, rfl⟩ |
    ⟨parent, -, -, -, -, hparent, rfl⟩
  · exact ⟨z, hz, rfl⟩
  · exact ⟨z, by rw [arena_abandon]; exact hz, rfl⟩
  · exact ⟨z, by rw [get?_placeRoot, if_neg (Nat.ne_of_lt hlt)]; exact hz, rfl⟩
  · exact exists_put_of_get? (h.parent hparent).1.lt_size hz

/-- A visit keeps a container of the stack recalled if it does not change the levels down to
there. -/
theorem Recalls.of_not_marks (h : x.Sound tops) {vs : List Visit} (hr : Recalls s vs x)
    (hy : x.see s o v = .ok y) {d c : Nat} {w : Container} (hlevel : x.levels.levels[d]? = some c)
    (hw : y.arena.get? c = some w) (hmarks : x.marks s (x.path.length + d) v = false) :
    w.path = y.standingPath s (vs ++ [v]) (y.path.length + d) := by
  have hblank := blank_of_see hy
  obtain ⟨z, hz, -⟩ := h.level hlevel
  obtain ⟨w', hw', houtline⟩ := outline_see h hy hz
  obtain rfl := Option.some.inj (hw.symm.trans hw')
  rw [standingPath_of_blank hblank, path_of_blank hblank, standingPath_snoc_of_not_marks hmarks,
    Container.path_of_outline houtline]
  exact hr hlevel hz

/-- After one more visit the stack holds the container of the last visit that has changed the
levels down to there. -/
theorem Recalls.see (h : x.Sound tops) {vs : List Visit} (hr : Recalls s vs x)
    (hdata : v.decl.kind.isTransparent = false)
    (hlen : Owns s x.id v.path → x.path.length ≤ v.path.length) (hy : x.see s o v = .ok y) :
    Recalls s (vs ++ [v]) y := by
  have hkeep : ∀ {d c w}, x.levels.levels[d]? = some c → y.arena.get? c = some w →
      x.marks s (x.path.length + d) v = false →
        w.path = y.standingPath s (vs ++ [v]) (y.path.length + d) :=
    fun hlevel hw => hr.of_not_marks h hy hlevel hw
  -- a branch that is owned is recalled at its own depth
  have hown : Owns s x.id v.path → v.decl.kind.isBranch = true → ∀ {length},
      v.path.length = length → y.standingPath s (vs ++ [v]) length = v.path := by
    intro hown hbranch length hlength
    rw [standingPath_of_blank (blank_of_see hy)]
    exact standingPath_snoc_of_marks
      (marks_iff.2 ⟨hown, Kind.isScalar_of_isBranch hbranch, Nat.le_of_eq hlength⟩)
  have hpath := path_of_blank (blank_of_see hy)
  intro d c w hlevel hw
  rcases see_cases hy with ⟨rfl, hidle⟩ | ⟨-, -, -, rfl⟩ | ⟨-, howns, hbranch, hdepth, -, rfl⟩ |
    ⟨parent, -, howns, hout, -, hparent, rfl⟩
  · refine hkeep hlevel hw ?_
    rcases hidle with htransparent | hno
    · rw [hdata] at htransparent
      cases htransparent
    · rw [← Bool.not_eq_true, marks_iff]
      exact fun hmarks => hno hmarks.1
  · obtain ⟨hlevel, habove⟩ := level_abandon hlevel
    exact hkeep hlevel hw (marks_of_above habove)
  · -- the root container is the only one on the stack
    obtain ⟨rfl, rfl⟩ := (LevelStack.getElem?_reset_iff (l := x.levels)).1 hlevel
    have hlength := (depthOf_eq_zero_iff (hlen howns)).1 hdepth
    rw [get?_placeRoot, if_pos rfl] at hw
    rw [← Option.some.inj hw]
    exact (hown howns hbranch hlength).symm
  · rcases level_placeBelow hparent hlevel with ⟨hlevel, habovenode⟩ | ⟨hbranch, hd, rfl⟩
    · refine hkeep hlevel hw (marks_of_above fun hscalar => habovenode ?_)
      exact isBranch_of_placed hdata hscalar (ne_rpc_of_not_leavesOut hout)
    · obtain ⟨w', hw', hwpath, -⟩ := exists_put_of_isBranch (h.parent hparent).1.lt_size hbranch
      obtain rfl := Option.some.inj (hw.symm.trans hw')
      obtain ⟨n, hdepth, -⟩ := LevelStack.parentFor?_eq_some.1 hparent
      rw [depthOf] at hd hdepth
      rw [hown howns hbranch (by rw [hpath]; omega)]
      exact hwpath

end Resource

/-! ### Where containers and entries come from -/

/-- The entry without the container it points to and the path its value refers to. -/
def Entry.unlinked (e : Entry) : Entry := { e with next? := none, target? := none }

theorem Container.entries_receive {s : ResourceSet} {o : Options} (id : Nat) (c : Container)
    (place : Nat) (v : Visit) :
    ∃ e, (c.receive s o id place v).entries = c.entries ++ [e] ∧
      e.unlinked = .ofDeclaration v.decl v.listKeys := by
  unfold Container.receive
  cases Resource.referenceOf? s o id v with
  | none =>
    cases v.decl.kind.hasContainer with
    | true => exact ⟨_, rfl, rfl⟩
    | false => exact ⟨_, rfl, rfl⟩
  | some ref =>
    cases v.decl.kind.hasContainer with
    | true => exact ⟨_, rfl, rfl⟩
    | false => exact ⟨_, rfl, rfl⟩

theorem Container.parent?_made {s : ResourceSet} {o : Options} (id : Nat) (parent? : Option Nat)
    (v : Visit) : (Container.made s o id parent? v).parent? = parent? := by
  rw [Container.made]
  split <;> rfl

/-- A container is made without entries, but for the value of a leaf-list. -/
theorem Container.mem_entries_made {s : ResourceSet} {o : Options} {id : Nat}
    {parent? : Option Nat} {v : Visit} {e : Entry}
    (he : e ∈ (Container.made s o id parent? v).entries) :
    v.decl.kind = .leafList ∧ e.unlinked = .value v.decl := by
  rw [Container.made] at he
  split at he
  · next hkind =>
    obtain rfl := List.mem_singleton.1 he
    exact ⟨hkind, rfl⟩
  · cases he

namespace Resource

variable {s : ResourceSet} {o : Options} {x y : Resource} {v : Visit} {tops : List Nat}

theorem get?_put {home : Nat} (h : home < x.arena.size) (j : Nat) :
    (x.put v home (s.isBoundary x.id v.path) (referenceOf? s o x.id v)).arena.get? j =
      if j = x.arena.size ∧ v.decl.kind.hasContainer = true then
        some (Container.made s o x.id (some home) v)
      else if home = j then (x.arena.get? j).map (·.receive s o x.id x.arena.size v)
      else x.arena.get? j := by
  have hlist := toList_put (s := s) (o := o) (v := v) h
  have hget : ∀ a : Arena, a.get? j = a.toList[j]? := fun a => (Array.getElem?_toList ..).symm
  have hlen : (x.arena.toList.modify home (·.receive s o x.id x.arena.size v)).length =
      x.arena.size := List.length_modify _ _ _
  rw [hget, hlist, hget]
  by_cases hj : j < x.arena.size
  · have hnew : ¬ (j = x.arena.size ∧ v.decl.kind.hasContainer = true) := fun hboth => by omega
    rw [List.getElem?_append_left (by omega), List.getElem?_modify, if_neg hnew]
    split
    · rfl
    · cases x.arena.toList[j]? <;> rfl
  · have hnone : x.arena.toList[j]? = none := by
      rw [List.getElem?_eq_none_iff, Arena.length_toList]
      omega
    rw [List.getElem?_append_right (by omega), hlen, hnone, Option.map_none, ite_self]
    cases v.decl.kind.hasContainer with
    | true =>
      rw [if_pos rfl, List.getElem?_singleton]
      by_cases heq : j = x.arena.size
      · rw [if_pos (by omega), if_pos ⟨heq, rfl⟩]
      · rw [if_neg (by omega), if_neg fun hboth => heq hboth.1]
    | false => simp

/-- A container found after a visit was there before, has been made for the node, or has received
the node. -/
theorem get?_see_cases (hx : x.Sound tops) (hy : x.see s o v = .ok y) {c : Nat} {z : Container}
    (hz : y.arena.get? c = some z) :
    x.arena.get? c = some z ∨
    (v.decl.kind.isBranch = true ∧ z = Container.made s o x.id none v) ∨
    ∃ home, x.homeFor? s o v = some home ∧ x.leavesOut o v = false ∧
      (v.decl.kind.hasContainer = true ∧ z = Container.made s o x.id (some home) v ∨
        ∃ w, x.arena.get? c = some w ∧ home = c ∧ z = w.receive s o x.id x.arena.size v) := by
  rcases see_cases hy with ⟨rfl, -⟩ | ⟨-, -, -, rfl⟩ | ⟨-, -, hbranch, -, -, rfl⟩ |
    ⟨parent, -, -, hout, hhome, hparent, rfl⟩
  · exact .inl hz
  · rw [arena_abandon] at hz
    exact .inl hz
  · -- the root container of the resource
    have hlist := toList_openRoot (s := s) (o := o) (x := x) hbranch
    change (x.openRoot v _).arena.get? c = some z at hz
    rw [Arena.get?, ← Array.getElem?_toList, ← Arena.toList, hlist, List.getElem?_append] at hz
    split at hz
    · rw [Arena.toList, Array.getElem?_toList] at hz
      exact .inl hz
    · rw [List.getElem?_singleton] at hz
      split at hz
      · exact .inr (.inl ⟨hbranch, (Option.some.inj hz).symm⟩)
      · cases hz
  · change (x.put v parent _ _).arena.get? c = some z at hz
    rw [get?_put (hx.parent hparent).1.lt_size] at hz
    split at hz
    · next hnew =>
      exact .inr (.inr ⟨parent, hhome, hout, .inl ⟨hnew.2, (Option.some.inj hz).symm⟩⟩)
    · split at hz
      · next hc =>
        obtain ⟨w, hw, rfl⟩ := Option.map_eq_some_iff.1 hz
        exact .inr (.inr ⟨parent, hhome, hout, .inr ⟨w, hw, hc, rfl⟩⟩)
      · exact .inl hz

/-- A visit leaves all containers alone, or it is that of a node which the resource takes. -/
theorem takes_of_see (hy : x.see s o v = .ok y) : y.arena = x.arena ∨ x.takes s o v = true := by
  rw [see] at hy
  split at hy
  · next hboth =>
    cases hout : x.leavesOut o v with
    | true =>
      rw [absorb, if_pos hout] at hy
      obtain rfl := Except.ok.inj hy
      exact .inl (arena_abandon x v)
    | false => exact .inr (takes_iff.2 ⟨hboth.2, hout⟩)
  · obtain rfl := Except.ok.inj hy
    exact .inl rfl

/-- The container that a resource puts a node into after some visits. -/
def homeAfter? (s : ResourceSet) (o : Options) (x : Resource) (visits : List Visit) (v : Visit) :
    Option Nat :=
  match x.seeAll s o visits with
  | .ok y => y.homeFor? s o v
  | .error _ => none

theorem homeAfter?_eq {vs : List Visit} (h : x.seeAll s o vs = .ok y) (v : Visit) :
    x.homeAfter? s o vs v = y.homeFor? s o v := by
  rw [homeAfter?, h]

/-- Among some visits there is one of a node that has been put into the given container. -/
def PutAmong (s : ResourceSet) (o : Options) (x : Resource) (visits : List Visit) (home : Nat)
    (p : Visit → Prop) : Prop :=
  ∃ before v after, visits = before ++ v :: after ∧ x.homeAfter? s o before v = some home ∧ p v

theorem PutAmong.append {vs : List Visit} {home : Nat} {p : Visit → Prop}
    (h : PutAmong s o x vs home p) (ws : List Visit) : PutAmong s o x (vs ++ ws) home p := by
  obtain ⟨before, v, after, rfl, hhome, hp⟩ := h
  exact ⟨before, v, after ++ ws, by simp, hhome, hp⟩

/-- All containers and entries come from the nodes that have been put into containers. -/
structure Accounts (s : ResourceSet) (o : Options) (start : Resource) (visits : List Visit)
    (x : Resource) : Prop where
  /-- A container below another one is that of a node put into the other one. -/
  container : ∀ {c y p}, x.arena.get? c = some y → y.parent? = some p →
    PutAmong s o start visits p fun v => y.path = v.path
  /-- An entry is that of a node put into its container, or the value of a leaf-list in the
  container of its own. -/
  entry : ∀ {p y e}, x.arena.get? p = some y → e ∈ y.entries →
    (PutAmong s o start visits p fun v => e.unlinked = .ofDeclaration v.decl v.listKeys) ∨
    ∃ q, y.parent? = some q ∧ PutAmong s o start visits q fun v =>
      v.decl.kind = .leafList ∧ y.path = v.path ∧ e.unlinked = .value v.decl

theorem Accounts.append {start : Resource} {vs : List Visit} (h : Accounts s o start vs x)
    (ws : List Visit) : Accounts s o start (vs ++ ws) x where
  container hy hp := (h.container hy hp).append ws
  entry hy he := (h.entry hy he).imp (fun hput => hput.append ws) fun ⟨q, hq, hput⟩ =>
    ⟨q, hq, hput.append ws⟩

/-- One more visit is accounted for. -/
theorem Accounts.see {start : Resource} {vs : List Visit} (h : Accounts s o start vs x)
    (hx : x.Sound tops) (hstart : start.seeAll s o vs = .ok x) (hy : x.see s o v = .ok y) :
    Accounts s o start (vs ++ [v]) y := by
  have hnew : ∀ {home : Nat} {p : Visit → Prop}, x.homeFor? s o v = some home → p v →
      PutAmong s o start (vs ++ [v]) home p := by
    intro home p hhome hp
    exact ⟨vs, v, [], rfl, (homeAfter?_eq hstart v).trans hhome, hp⟩
  refine ⟨fun {c z p} hz hp => ?_, fun {p z e} hz he => ?_⟩
  · rcases get?_see_cases hx hy hz with hz | ⟨-, rfl⟩ | ⟨home, hhome, -, ⟨-, rfl⟩ | ⟨w, hw, -, rfl⟩⟩
    · exact (h.append [v]).container hz hp
    · -- the root container has none above
      rw [Container.parent?_made] at hp
      cases hp
    · rw [Container.parent?_made] at hp
      obtain rfl := Option.some.inj hp
      exact hnew hhome (Container.path_made ..)
    · have houtline := Container.outline_receive (s := s) (o := o) x.id w x.arena.size v
      rw [Container.parent?_of_outline houtline] at hp
      rw [Container.path_of_outline houtline]
      exact (h.append [v]).container hw hp
  · rcases get?_see_cases hx hy hz with
      hz | ⟨hbranch, rfl⟩ | ⟨home, hhome, -, ⟨-, rfl⟩ | ⟨w, hw, rfl, rfl⟩⟩
    · exact (h.append [v]).entry hz he
    · -- and no entries
      obtain ⟨hkind, -⟩ := Container.mem_entries_made he
      rw [hkind] at hbranch
      cases hbranch
    · obtain ⟨hkind, hvalue⟩ := Container.mem_entries_made he
      exact .inr ⟨home, Container.parent?_made ..,
        hnew hhome ⟨hkind, Container.path_made .., hvalue⟩⟩
    · obtain ⟨e', hentries, hunlinked⟩ :=
        Container.entries_receive (s := s) (o := o) x.id w x.arena.size v
      have houtline := Container.outline_receive (s := s) (o := o) x.id w x.arena.size v
      rw [hentries] at he
      rw [Container.parent?_of_outline houtline, Container.path_of_outline houtline]
      rcases List.mem_append.1 he with he | he
      · exact (h.append [v]).entry hw he
      · obtain rfl := List.mem_singleton.1 he
        exact .inl (hnew hhome hunlinked)

/-! ### The whole run -/

theorem sound_started (hs : s.Instantiated) {id : Nat} (hx : s.get? id = some x) :
    ∃ tops, (x.started s).Sound tops := by
  have hsound : x.Sound [] := by
    rw [← hs.blank_eq hx]
    exact sound_blank x
  rw [started]
  split
  · next htop =>
    have hpath : x.path = .root := by
      refine hs.path_root hs.blank ?_
      rw [← htop.2, hs.id_eq hs.blank hx]
      exact hx
    exact ⟨_, hsound.placeTop (congrArg Path.length hpath)⟩
  · exact ⟨_, hsound⟩

/-- Before the first visit there is at most the container of the top, without entries. -/
theorem get?_started (hs : s.Instantiated) {id : Nat} (hx : s.get? id = some x) {c : Nat}
    {z : Container} (hz : (x.started s).arena.get? c = some z) : z = .ofName "root" none := by
  have hempty : x.arena = {} := by
    rw [← hs.blank_eq hx]
    rfl
  rw [started] at hz
  split at hz
  · rw [get?_placeTop, hempty] at hz
    split at hz
    · exact (Option.some.inj hz).symm
    · cases hz
  · rw [hempty] at hz
    cases hz

/-- A visit keeps a resource sound, whatever stands on top. -/
theorem exists_sound_see (hs : s.Instantiated) (hget : s.get? x.id = some x.blank)
    (hx : ∃ tops, x.Sound tops) (hy : x.see s o v = .ok y) : ∃ tops, y.Sound tops := by
  obtain ⟨tops, hsound⟩ := hx
  rcases hsound.see (length_le_of_owns hs hget) hy with h | ⟨-, -, -, h⟩
  · exact ⟨_, h⟩
  · exact ⟨_, h⟩

/-- What every visit of a sound resource keeps holds after any visits. -/
theorem seeAll_induction (hs : s.Instantiated) {P : Resource → Prop} {vs : List Visit}
    (hstep : ∀ {y z v tops}, v ∈ vs → y.blank = x.blank → y.Sound tops → y.see s o v = .ok z →
      P y → P z)
    (hget : s.get? x.id = some x.blank) (hx : ∃ tops, x.Sound tops) (h : P x)
    (hy : x.seeAll s o vs = .ok y) : P y := by
  -- the resource stays sound on the way
  have hall : (∃ tops, y.Sound tops) ∧ P y := by
    induction vs using List.reverseRecOn generalizing y with
    | nil =>
      obtain rfl := Except.ok.inj hy
      exact ⟨hx, h⟩
    | append_singleton vs v ih =>
      obtain ⟨z, hz, hy⟩ := seeAll_snoc_eq_ok.1 hy
      obtain ⟨⟨tops, hsound⟩, hP⟩ := ih (fun hv => hstep (List.mem_append_left _ hv)) hz
      have hblank := blank_of_seeAll hz
      exact ⟨exists_sound_see hs (get?_of_blank hblank hget) ⟨tops, hsound⟩ hy,
        hstep (by simp) hblank hsound hy hP⟩
  exact hall.2

/-- What holds of the containers of a resource, of those that it makes and of one that has received
one more node holds of its containers after any visits. -/
theorem containers_induction (hs : s.Instantiated) {P : Container → Prop} {start : Resource}
    {vs : List Visit}
    (hmade : ∀ {v parent?}, v ∈ vs → start.takes s o v = true → v.decl.kind.hasContainer = true →
      P (Container.made s o start.id parent? v))
    (hreceive : ∀ {v w place}, v ∈ vs → start.takes s o v = true → P w →
      P (w.receive s o start.id place v))
    (hget : s.get? x.id = some x.blank) (hblank : x.blank = start.blank)
    (hx : ∃ tops, x.Sound tops) (h : ∀ {c z}, x.arena.get? c = some z → P z)
    (hy : x.seeAll s o vs = .ok y) {c : Nat} {z : Container} (hz : y.arena.get? c = some z) :
    P z := by
  refine seeAll_induction hs (P := fun y => ∀ {c z}, y.arena.get? c = some z → P z)
    (fun {y y' v tops} hv hyx hsound hy' hP c u hu => ?_) hget hx h hy hz
  have hstart := hyx.trans hblank
  rcases takes_of_see hy' with harena | htakes
  · exact hP (harena ▸ hu)
  rw [takes_of_blank hstart] at htakes
  rcases get?_see_cases hsound hy' hu with hold | ⟨hbranch, rfl⟩ |
    ⟨home, -, -, ⟨hown, rfl⟩ | ⟨above, ha, -, rfl⟩⟩
  · exact hP hold
  · exact id_of_blank hstart ▸ hmade hv htakes (by rw [Kind.hasContainer, hbranch, Bool.true_or])
  · exact id_of_blank hstart ▸ hmade hv htakes hown
  · exact id_of_blank hstart ▸ hreceive hv htakes (hP ha)

/-- What holds at any time of the run of a resource. -/
theorem run_seeAll (hs : s.Instantiated) {id : Nat} (hx : s.get? id = some x) {vs : List Visit}
    (hdata : ∀ v ∈ vs, v.decl.kind.isTransparent = false)
    (hy : (x.started s).seeAll s o vs = .ok y) :
    (∃ tops, y.Sound tops) ∧ Recalls s vs y ∧ Accounts s o (x.started s) vs y := by
  induction vs using List.reverseRecOn generalizing y with
  | nil =>
    obtain rfl := Except.ok.inj hy
    refine ⟨sound_started hs hx, fun {d c z} _ hz => ?_, fun hz hp => ?_, fun hz he => ?_⟩
    · rw [get?_started hs hx hz]
      rfl
    · rw [get?_started hs hx hz] at hp
      cases hp
    · rw [get?_started hs hx hz] at he
      cases he
  | append_singleton vs v ih =>
    obtain ⟨z, hz, hy⟩ := seeAll_snoc_eq_ok.1 hy
    obtain ⟨⟨tops, hsound⟩, hrecalls, haccounts⟩ :=
      ih (fun w hw => hdata w (List.mem_append_left _ hw)) hz
    have hblank := (blank_of_seeAll hz).trans (blank_started s x)
    have hget := get?_of_blank hblank (hs.get?_self hs.blank hx)
    have hlen : Owns s z.id v.path → z.path.length ≤ v.path.length := length_le_of_owns hs hget
    exact ⟨exists_sound_see hs hget ⟨tops, hsound⟩ hy,
      hrecalls.see hsound (hdata v (by simp)) hlen hy, haccounts.see hsound hz hy⟩

/-- The containers that were there at some time keep their outlines to the end. -/
theorem outline_seeAll (hs : s.Instantiated) {vs : List Visit} (hget : s.get? x.id = some x.blank)
    (hx : ∃ tops, x.Sound tops) (hy : x.seeAll s o vs = .ok y) {c : Nat} {z : Container}
    (hz : x.arena.get? c = some z) : ∃ w, y.arena.get? c = some w ∧ w.outline = z.outline := by
  refine seeAll_induction hs (P := fun y => ∃ w, y.arena.get? c = some w ∧ w.outline = z.outline)
    (fun _ _ hsound hy' ⟨w, hw, hout⟩ => ?_) hget hx ⟨z, hz, rfl⟩ hy
  obtain ⟨w', hw', hout'⟩ := outline_see hsound hy' hw
  exact ⟨w', hw', hout'.trans hout⟩

/-- The container of a node is that of the last visit that has changed the levels down to the
node's parent. -/
theorem path_homeAfter (hs : s.Instantiated) {id : Nat} (hx : s.get? id = some x)
    {vs ws : List Visit} (hdata : ∀ v ∈ vs, v.decl.kind.isTransparent = false)
    (hy : (x.started s).seeAll s o (vs ++ ws) = .ok y) {home : Nat}
    (hhome : (x.started s).homeAfter? s o vs v = some home) :
    Owns s x.id v.path ∧ x.path.length ≤ v.below.length ∧
      ∃ w, y.arena.get? home = some w ∧ w.path = x.standingPath s vs v.below.length ∧
        w.path.length = v.below.length := by
  obtain ⟨z, hz, hy⟩ := seeAll_append_eq_ok.1 hy
  obtain ⟨⟨tops, hsound⟩, hrecalls, -⟩ := run_seeAll hs hx hdata hz
  have hblank := (blank_of_seeAll hz).trans (blank_started s x)
  have hget := get?_of_blank hblank (hs.get?_self hs.blank hx)
  rw [homeAfter?_eq hz, homeFor?] at hhome
  split at hhome
  · next htaken =>
    obtain ⟨n, hdepth, hlevel⟩ := LevelStack.parentFor?_eq_some.1 hhome
    obtain ⟨c, hc, hlen, -⟩ := hsound.level hlevel
    obtain ⟨w, hw, houtline⟩ := outline_seeAll hs hget ⟨tops, hsound⟩ hy hc
    have hpath := path_of_blank hblank
    have hpush := v.length_path
    have hbelow : x.path.length + n = v.below.length := by
      rw [depthOf, hpath] at hdepth
      omega
    rw [id_of_blank hblank] at htaken
    refine ⟨htaken.2.1, by omega, w, hw, ?_, ?_⟩
    · rw [Container.path_of_outline houtline, hrecalls hlevel hc, standingPath_of_blank hblank,
        hpath, hbelow]
    · rw [Container.path_of_outline houtline, hlen, hpath, hbelow]
  · cases hhome

end Resource

namespace ResourceSet

/-- What holds of the container of the top, of every container that is made and of one that has
received one more node holds of all containers after a compilation. -/
theorem Instantiated.forall_containers {s t : ResourceSet} (hs : s.Instantiated) {o : Options}
    {f : Forest} {stats : Stats} (h : s.compile o f = (t, .ok stats)) {id : Nat} {x y : Resource}
    (hx : s.get? id = some x) (hy : t.get? id = some y) {P : Container → Prop}
    (top : P (.ofName "root" none))
    (made : ∀ {v parent?}, v ∈ f.visits → x.takes s o v = true → v.decl.kind.hasContainer = true →
      P (Container.made s o x.id parent? v))
    (receive : ∀ {v w place}, v ∈ f.visits → x.takes s o v = true → P w →
      P (w.receive s o x.id place v)) {c : Nat} {z : Container}
    (hz : y.arena.get? c = some z) : P z := by
  obtain ⟨w, hw, hget⟩ := Forest.seeAll_of_compile hs hs.blank h hx
  obtain rfl := Option.some.inj (hy.symm.trans hget)
  have hblank := Resource.blank_started s x
  refine Resource.containers_induction hs made receive ?_ hblank (Resource.sound_started hs hx)
    (fun hstart => ?_) hw hz
  · exact Resource.get?_of_blank hblank (hs.get?_self hs.blank hx)
  · rw [Resource.get?_started hs hx hstart]
    exact top

end ResourceSet

/-! ### The result -/

namespace Forest

open Resource

/-- The container of a resource that a data node of a forest is put into, when the nodes before
it have been visited. -/
def homeOf? (s : ResourceSet) (o : Options) (x : Resource) (before : List Site) (i : Site) :
    Option Nat :=
  (x.started s).homeAfter? s o (before.map (·.visit)) i.visit

/-- A data node stands below a leaf or leaf-list beside which another node was left standing. -/
def Strays (s : ResourceSet) (x : Resource) (before : List Site) (i : Site) : Prop :=
  ∃ u above w, i.above = u :: above ∧ u.decl.kind.isScalar = true ∧
    x.standing? s (before.map (·.visit)) u.path.length = some w ∧ w.path.names ≠ u.path.names

variable {s : ResourceSet} {o : Options} {x : Resource} {f : Forest}

/-- A visit of a data node is that of a node told with the nodes above. -/
theorem exists_site {before after : List Visit} {v : Visit}
    (h : f.sites.map (·.visit) = before ++ v :: after) :
    ∃ first i last, f.sites = first ++ i :: last ∧ first.map (·.visit) = before ∧ i.visit = v := by
  obtain ⟨first, rest, hsites, hfirst, hrest⟩ := List.map_eq_append_iff.1 h
  obtain ⟨i, last, rfl, hi, -⟩ := List.map_eq_cons_iff.1 hrest
  exact ⟨first, i, last, hsites, hfirst, hi⟩

theorem isTransparent_of_mem_sites {v : Visit} (h : v ∈ f.sites.map (·.visit)) :
    v.decl.kind.isTransparent = false := by
  rw [← filter_visits, List.mem_filter] at h
  simpa using h.2

/-- A node on top does not stray. -/
theorem not_strays_of_top {before : List Site} {i : Site} (htop : i.above = []) :
    ¬ Strays s x before i := by
  rintro ⟨u, above, -, habove, -⟩
  rw [htop] at habove
  cases habove

/-- Nor does one below a container or list. -/
theorem not_strays_of_not_scalar {before : List Site} {i : Site} {u : Visit} {upper : List Visit}
    (hu : i.above = u :: upper) (hscalar : u.decl.kind.isScalar = false) :
    ¬ Strays s x before i := by
  rintro ⟨u', above, -, habove, hscalar', -⟩
  rw [hu] at habove
  obtain ⟨rfl, -⟩ := List.cons.inj habove
  rw [hscalar] at hscalar'
  cases hscalar'

/-- One below a leaf or leaf-list strays when another path is left standing beside that. -/
theorem strays_iff_of_scalar {before : List Site} {i : Site} {u : Visit} {upper : List Visit}
    (hu : i.above = u :: upper) (hscalar : u.decl.kind.isScalar = true) {w : Visit}
    (hw : x.standing? s (before.map (·.visit)) u.path.length = some w) :
    Strays s x before i ↔ w.path.names ≠ u.path.names := by
  constructor
  · rintro ⟨u', above, w', habove, -, hw', hne⟩
    rw [hu] at habove
    obtain ⟨rfl, -⟩ := List.cons.inj habove
    rw [hw] at hw'
    obtain rfl := Option.some.inj hw'
    exact hne
  · exact fun hne => ⟨u, upper, w, hu, hscalar, hw, hne⟩

/-- A node is attached to the container of its parent unless it strays. -/
theorem names_home_iff (hs : s.Instantiated) {id : Nat} (hx : s.get? id = some x)
    {before after : List Site} {i : Site} (hsites : f.sites = before ++ i :: after)
    {w : Container} (hown : Owns s x.id i.visit.path) (hlen : x.path.length ≤ i.visit.below.length)
    (hpath : w.path = x.standingPath s (before.map (·.visit)) i.visit.below.length)
    (hwlen : w.path.length = i.visit.below.length) :
    w.path.names = i.visit.path.parent.names ↔ ¬ Strays s x before i := by
  have hself := hs.get?_self hs.blank hx
  rw [Visit.path, Path.parent_push]
  rcases f.sited_sites.parent hsites with ⟨htop, hroot⟩ |
    ⟨u, upper, first, between, hu, hbelow, hbefore, hdeep⟩
  · -- on top there is only the container of the whole schema
    refine iff_of_true ?_ (not_strays_of_top htop)
    rw [hroot] at hwlen ⊢
    exact List.eq_nil_of_length_eq_zero ((Path.length_names _).trans hwlen)
  rw [standingPath, hbelow] at hpath
  rw [hbelow] at hwlen ⊢
  cases hscalar : u.decl.kind.isScalar with
  | false =>
    -- the parent is the last node that has changed the levels down to its own
    have howns : Owns s x.id u.path := by
      rw [← hbelow]
      exact owns_of_push hs hself hown hlen
    have hmarks : x.marks s u.path.length u = true :=
      marks_iff.2 ⟨howns, hscalar, Nat.le_refl _⟩
    have hstanding : x.standing? s (before.map (·.visit)) u.path.length = some u := by
      rw [hbefore, List.map_append, List.map_cons, List.append_cons, standing?_append_deep,
        standing?_snoc, if_pos hmarks]
      intro v hv
      obtain ⟨j, hj, rfl⟩ := List.mem_map.1 hv
      exact hdeep j hj
    rw [hstanding] at hpath
    exact iff_of_true (by rw [hpath]; rfl) (not_strays_of_not_scalar hu hscalar)
  | true =>
    cases hlast : x.standing? s (before.map (·.visit)) u.path.length with
    | none =>
      rw [hlast] at hpath
      rw [hpath, Visit.length_path] at hwlen
      cases hwlen
    | some v =>
      rw [hlast] at hpath
      have hpath' : w.path = v.path := hpath
      rw [hpath', strays_iff_of_scalar hu hscalar hlast, not_not]

end Forest

namespace ResourceSet

open Resource Forest

/-- Every container and every entry of a compiled resource comes from a data node that has been
put into a container: the one above, or the one that holds the entry; the value of a leaf-list
stands in the container of its own. That is the container of the node's parent exactly when the
node does not stand below a leaf or leaf-list beside which another node was left standing. -/
theorem attached_to_parent_iff {m : ResourceMap} {mode : Mode} {s : ResourceSet}
    (hs : ofMap m mode = .ok s) {o : Options} {f : Forest} {t : ResourceSet} {stats : Stats}
    (h : s.compile o f = (t, .ok stats)) {id : Nat} {x y : Resource} (hx : s.get? id = some x)
    (hy : t.get? id = some y) :
    (∀ c z p, y.arena.get? c = some z → z.parent? = some p →
      ∃ before i after, f.sites = before ++ i :: after ∧ homeOf? s o x before i = some p ∧
        z.path = i.visit.path) ∧
    (∀ p z e, y.arena.get? p = some z → e ∈ z.entries →
      (∃ before i after, f.sites = before ++ i :: after ∧ homeOf? s o x before i = some p ∧
        e.unlinked = .ofDeclaration i.visit.decl i.visit.listKeys) ∨
      ∃ q before i after, z.parent? = some q ∧ f.sites = before ++ i :: after ∧
        homeOf? s o x before i = some q ∧ i.visit.decl.kind = .leafList ∧
        z.path = i.visit.path ∧ e.unlinked = .value i.visit.decl) ∧
    ∀ before i after p, f.sites = before ++ i :: after → homeOf? s o x before i = some p →
      ∃ z, y.arena.get? p = some z ∧
        (z.path.names = i.visit.path.parent.names ↔ ¬ Strays s x before i) := by
  have hinst := instantiated_ofMap hs
  obtain ⟨y', hrun, hget⟩ := Forest.seeAll_of_compile hinst hinst.blank h hx
  obtain rfl := Option.some.inj (hget.symm.trans hy)
  rw [← seeAll_filter, Forest.filter_visits] at hrun
  have hdata : ∀ v ∈ f.sites.map (·.visit), v.decl.kind.isTransparent = false :=
    fun v hv => isTransparent_of_mem_sites hv
  obtain ⟨-, -, haccounts⟩ := run_seeAll hinst hx hdata hrun
  refine ⟨fun c z p hz hp => ?_, fun p z e hz he => ?_, fun before i after p hsites hhome => ?_⟩
  · obtain ⟨before, v, after, hvisits, hhome, hpath⟩ := haccounts.container hz hp
    obtain ⟨first, i, last, hsites, rfl, rfl⟩ := exists_site hvisits
    exact ⟨first, i, last, hsites, hhome, hpath⟩
  · rcases haccounts.entry hz he with ⟨before, v, after, hvisits, hhome, hentry⟩ |
      ⟨q, hq, before, v, after, hvisits, hhome, hkind, hpath, hvalue⟩
    · obtain ⟨first, i, last, hsites, rfl, rfl⟩ := exists_site hvisits
      exact .inl ⟨first, i, last, hsites, hhome, hentry⟩
    · obtain ⟨first, i, last, hsites, rfl, rfl⟩ := exists_site hvisits
      exact .inr ⟨q, first, i, last, hq, hsites, hhome, hkind, hpath, hvalue⟩
  · rw [hsites, List.map_append] at hrun hdata
    obtain ⟨hown, hlen, z, hz, hpath, hzlen⟩ := path_homeAfter hinst hx
      (fun v hv => hdata v (List.mem_append_left _ hv)) hrun hhome
    exact ⟨z, hz, names_home_iff hinst hx hsites hown hlen hpath hzlen⟩

/-- A leaf below a leaf is attached to the container that stands before the upper leaf. -/
theorem leaf_below_leaf_strays :
    let f : Forest := { modules := [{ name := "m", nodes :=
      [("a", ⟨{ name := "a", kind := .container },
        [("b", ⟨{ name := "b", kind := .container }, [("x", .ofLeaf "x" "string")]⟩),
          ("c", ⟨{ name := "c", kind := .leaf }, [("y", .ofLeaf "y" "string")]⟩)]⟩)] }] }
    ∃ s t stats y z e, ofMap { declared := [("/a", {})] } .declared = .ok s ∧
      s.compile {} f = (t, .ok stats) ∧ t.get? 1 = some y ∧ y.arena.get? 1 = some z ∧
      e ∈ z.entries ∧ e.name = "y" ∧ z.path.names = ["a", "b"] ∧
      ∀ i ∈ f.sites, i.visit.decl.name = "y" → i.visit.path.parent.names = ["a", "c"] := by
  intro f
  obtain ⟨s, hs, htest⟩ := exists_ok_of_any
    (p := fun s => (s.compile {} f).2.toOption.isSome && ((s.compile {} f).1.get? 1).any fun y =>
      (y.arena.get? 1).any fun z => z.path.names == ["a", "b"] && z.entries.any (·.name == "y"))
    (show (ofMap { declared := [("/a", {})] } .declared).toOption.any _ = true by decide +kernel)
  simp only [Bool.and_eq_true, Option.any_eq_true, beq_iff_eq, List.any_eq_true] at htest
  obtain ⟨hok, y, hy, z, hz, hnames, e, he, hname⟩ := htest
  obtain ⟨stats, hstats, -⟩ := exists_ok_of_any (p := fun _ => true) (by
    rw [Option.any_true]
    exact hok)
  exact ⟨s, _, stats, y, z, e, hs, Prod.ext rfl hstats, hy, hz, he, hname, hnames, by decide⟩

/-- Of two containers below each other the inner one has been put into the outer one. -/
theorem attached_to_parent_inner :
    let f : Forest := { modules := [{ name := "m", nodes :=
      [("a", ⟨{ name := "a", kind := .container }, [("b", .ofKind .container "b")]⟩)] }] }
    ∃ s t stats x y, ofMap { declared := [("/a", {})] } .declared = .ok s ∧
      s.compile {} f = (t, .ok stats) ∧ s.get? 1 = some x ∧ t.get? 1 = some y ∧
      ∃ z, y.arena.get? 1 = some z ∧ z.parent? = some 0 ∧
      ∃ before i after, f.sites = before ++ i :: after ∧ homeOf? s {} x before i = some 0 ∧
        z.path = i.visit.path := by
  intro f
  obtain ⟨s, hs, htest⟩ := exists_ok_of_any
    (p := fun s => (s.compile {} f).2.toOption.isSome && (s.get? 1).isSome &&
      ((s.compile {} f).1.get? 1).any fun y => (y.arena.get? 1).any fun z => z.parent? == some 0)
    (show (ofMap { declared := [("/a", {})] } .declared).toOption.any _ = true by decide +kernel)
  simp only [Bool.and_eq_true, Option.any_eq_true, beq_iff_eq] at htest
  obtain ⟨⟨hok, hget⟩, y, hy, z, hz, hparent⟩ := htest
  obtain ⟨x, hx⟩ := Option.isSome_iff_exists.1 hget
  obtain ⟨stats, hstats, -⟩ := exists_ok_of_any (p := fun _ => true) (by
    rw [Option.any_true]
    exact hok)
  have hattached := attached_to_parent_iff hs (Prod.ext rfl hstats) hx hy
  exact ⟨s, _, stats, x, y, hs, Prod.ext rfl hstats, hx, hy, z, hz, hparent,
    hattached.1 1 z 0 hz hparent⟩

end ResourceSet

end YangPartition
