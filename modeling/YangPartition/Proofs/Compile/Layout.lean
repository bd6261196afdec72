import YangPartition.Proofs.Compile.Recursion
import YangPartition.Proofs.Container.Arena

/-!
# What is placed where

Which nodes are placed in a resource is decided from the top down and makes a forest of
its own. The containers of a resource are laid out along it, each followed by those below
it, so the place of every container and the entries of each can be told from the forest.
-/

namespace YangPartition

/-! ### Planned nodes -/

/-- A node that is placed and the nodes placed below it. -/
structure Planned where
  /-- The node. -/
  visit : Visit
  /-- The nodes placed below. -/
  children : List Planned

namespace Resource

variable (s : ResourceSet) (o : Options)

/-- Whether a resource takes a node: it owns its path and does not leave it out. -/
def takes (x : Resource) (v : Visit) : Bool :=
  decide (Owns s x.id v.path) && !x.leavesOut o v

/-- Whether a node is that of the resource's own path. -/
def isOwnNode (x : Resource) (v : Visit) : Bool :=
  v.path.length == x.path.length && v.decl.kind.isBranch

end Resource

namespace Node

variable (s : ResourceSet) (o : Options) (x : Resource)

mutual

/-- What is placed of a node and the nodes below it; `hosted` tells whether the data node
above has a container for it. -/
def plan (hosted : Bool) (below : Path) (listKeys : List String) : Node → List Planned
  | ⟨decl, children⟩ =>
    if decl.kind.isTransparent then planAll hosted below listKeys children
    else
      let v : Visit := ⟨below, listKeys, decl⟩
      if x.takes s o v && (x.isOwnNode v || hosted) then
        [⟨v, planAll decl.kind.isBranch v.path decl.keysBelow children⟩]
      else planAll false v.path decl.keysBelow children
termination_by structural n => n

/-- What is placed of nodes that stand beside each other and of those below them. -/
def planAll (hosted : Bool) (below : Path) (listKeys : List String) :
    List (String × Node) → List Planned
  | [] => []
  | (_, n) :: rest => n.plan hosted below listKeys ++ planAll hosted below listKeys rest
termination_by structural ns => ns

end

end Node

/-- What is placed of a forest. -/
def Forest.plan (s : ResourceSet) (o : Options) (x : Resource) (f : Forest) : List Planned :=
  f.modules.flatMap fun m => Node.planAll s o x (decide (Resource.HasTop s x)) .root [] m.nodes

namespace Planned

mutual

/-- The placed nodes, each before those below it. -/
def flatten : Planned → List Visit
  | ⟨v, children⟩ => v :: flattenAll children
termination_by structural p => p

/-- The nodes placed beside each other, each before those below it. -/
def flattenAll : List Planned → List Visit
  | [] => []
  | p :: ps => p.flatten ++ flattenAll ps
termination_by structural ps => ps

end

mutual

/-- The number of containers of a placed node and those below it. -/
def size : Planned → Nat
  | ⟨v, children⟩ =>
    if v.decl.kind.isBranch then sizeAll children + 1
    else if v.decl.kind = .leafList then 1
    else 0
termination_by structural p => p

/-- The number of containers of nodes placed beside each other and those below them. -/
def sizeAll : List Planned → Nat
  | [] => 0
  | p :: ps => p.size + sizeAll ps
termination_by structural ps => ps

end

end Planned

/-! ### Containers of planned nodes -/

section

variable (s : ResourceSet) (o : Options) (id : Nat)

/-- A container with one more node placed in it, whose own container, if it has one, is at the
given place. -/
def Container.receive (c : Container) (place : Nat) (v : Visit) : Container :=
  let ref? := Resource.referenceOf? s o id v
  let received :=
    if v.decl.kind.hasContainer then c.holding place (.ofDeclaration v.decl v.listKeys)
    else c.pushValue { Entry.ofDeclaration v.decl v.listKeys with target? := ref?.map Reference.target }
  match ref? with
  | some ref => { received with references := received.references ++ [ref] }
  | none => received

/-- A container with nodes placed in it, whose containers start at a place. -/
def Container.receiveAll (c : Container) (start : Nat) : List Planned → Container
  | [] => c
  | p :: ps => receiveAll (c.receive s o id start p.visit) (start + p.size) ps

/-- The container that is made for a node, with no nodes placed below it yet. -/
def Container.made (parent? : Option Nat) (v : Visit) : Container :=
  if v.decl.kind = .leafList then
    { Container.ofDeclaration v.decl v.path parent? with synthetic := true }.pushValue
      { Entry.value v.decl with target? := (Resource.referenceOf? s o id v).map Reference.target }
  else { Container.ofDeclaration v.decl v.path parent? with boundary := s.isBoundary id v.path }

namespace Planned

mutual

/-- The containers of a placed node and those below it, from a place on. -/
def containers (parent? : Option Nat) (start : Nat) : Planned → List Container
  | ⟨v, children⟩ =>
    if v.decl.kind.isBranch then
      (Container.made s o id parent? v).receiveAll s o id (start + 1) children ::
        containersAll (some start) (start + 1) children
    else if v.decl.kind = .leafList then [Container.made s o id parent? v]
    else []
termination_by structural p => p

/-- The containers of nodes placed beside each other and of those below them, from a place on. -/
def containersAll (parent? : Option Nat) (start : Nat) : List Planned → List Container
  | [] => []
  | p :: ps => p.containers parent? start ++ containersAll parent? (start + p.size) ps
termination_by structural ps => ps

end

end Planned

end

/-- The containers of a resource: that of the top of the whole schema, if it has one, and those
of the placed nodes. -/
def Forest.layout (s : ResourceSet) (o : Options) (x : Resource) (f : Forest) : List Container :=
  let ps := f.plan s o x
  if Resource.HasTop s x then
    (Container.ofName "root" none).receiveAll s o x.id 1 ps ::
      Planned.containersAll s o x.id (some 0) 1 ps
  else Planned.containersAll s o x.id none 0 ps

/-! ### Putting nodes into containers -/

namespace Resource

variable {s : ResourceSet} {o : Options} {x : Resource} {v : Visit} {home : Nat}

/-- The containers after a node has been put into one of them. -/
theorem toList_put (h : home < x.arena.size) :
    (x.put v home (s.isBoundary x.id v.path) (referenceOf? s o x.id v)).arena.toList =
      x.arena.toList.modify home (·.receive s o x.id x.arena.size v) ++
        if v.decl.kind.hasContainer then [Container.made s o x.id (some home) v] else [] := by
  -- without the reference
  have hnode : (x.putNode v home (s.isBoundary x.id v.path)
      ((referenceOf? s o x.id v).map Reference.target)).arena.toList =
      x.arena.toList.modify home (fun c =>
        if v.decl.kind.hasContainer then c.holding x.arena.size (.ofDeclaration v.decl v.listKeys)
        else c.pushValue { Entry.ofDeclaration v.decl v.listKeys with
          target? := (referenceOf? s o x.id v).map Reference.target }) ++
        if v.decl.kind.hasContainer then [Container.made s o x.id (some home) v] else [] := by
    rw [putNode, Container.made]
    cases v.decl.kind with
    | container | list | leafList => exact Arena.toList_hang h _ _
    | leaf | choice | case | rpc =>
      exact (Arena.toList_modify _ _ _).trans (List.append_nil _).symm
  unfold put Container.receive
  cases hreference : referenceOf? s o x.id v with
  | none =>
    rw [hreference] at hnode
    exact hnode
  | some ref =>
    rw [hreference] at hnode
    simp only [record, Arena.toList_modify]
    rw [hnode, Arena.modify_append_left (by rw [List.length_modify]; exact h),
      List.modify_modify_eq]
    rfl

/-- The containers after the root container has been made. -/
theorem toList_openRoot (hbranch : v.decl.kind.isBranch = true) :
    (x.openRoot v (s.isBoundary x.id v.path)).arena.toList =
      x.arena.toList ++ [Container.made s o x.id none v] := by
  have hmade : Container.made s o x.id none v =
      { Container.ofDeclaration v.decl v.path none with boundary := s.isBoundary x.id v.path } := by
    rw [Container.made, if_neg]
    intro hkind
    rw [hkind] at hbranch
    cases hbranch
  rw [hmade]
  simp [openRoot, Arena.alloc, Arena.toList, Container.ofDeclaration]

theorem takes_iff : x.takes s o v = true ↔ Owns s x.id v.path ∧ x.leavesOut o v = false := by
  simp [takes]

theorem takes_of_blank {y : Resource} (h : y.blank = x.blank) (v : Visit) :
    y.takes s o v = x.takes s o v := by
  simp only [takes, leavesOut, id_of_blank h, excludes_of_blank h]

theorem isOwnNode_of_blank {y : Resource} (h : y.blank = x.blank) (v : Visit) :
    y.isOwnNode v = x.isOwnNode v := by
  simp only [isOwnNode, path_of_blank h]

/-- A node is left alone, becomes the root container or is put into the container of its
parent. -/
theorem host_cases (s : ResourceSet) (o : Options) (x : Resource) (v : Visit) (home? : Option Nat)
    (hdata : v.decl.kind.isTransparent = false)
    (hdeep : ∀ home, home? = some home → x.path.length ≤ v.below.length) :
    ((x.takes s o v && (x.isOwnNode v || home?.isSome)) = false ∧
      x.host s o home? v = (x, none)) ∨
    ((x.takes s o v && (x.isOwnNode v || home?.isSome)) = true ∧ home? = none ∧
      v.decl.kind.isBranch = true ∧
      x.host s o home? v = (x.openRoot v (s.isBoundary x.id v.path), some x.arena.size)) ∨
    ∃ home, home? = some home ∧ x.takes s o v = true ∧
      x.host s o home? v =
        (x.put v home (s.isBoundary x.id v.path) (referenceOf? s o x.id v),
          if v.decl.kind.isBranch then some x.arena.size else none) := by
  have hpush := v.length_path
  by_cases htakes : x.takes s o v = true
  · obtain ⟨hown, hout⟩ := takes_iff.1 htakes
    by_cases hlen : v.path.length = x.path.length
    · rw [host_own home? hown hout hlen]
      have hnone : home? = none := by
        cases home? with
        | none => rfl
        | some home =>
          have := hdeep home rfl
          omega
      cases hscalar : v.decl.kind.isScalar with
      | true =>
        have hbranch : v.decl.kind.isBranch = false := by
          rw [← Bool.not_eq_true]
          intro hbranch
          rw [Kind.isScalar_of_isBranch hbranch] at hscalar
          cases hscalar
        refine .inl ⟨?_, rfl⟩
        rw [isOwnNode, hbranch, hnone]
        simp
      | false =>
        have hbranch := isBranch_of_placed hdata hscalar (ne_rpc_of_not_leavesOut hout)
        refine .inr (.inl ⟨?_, hnone, hbranch, rfl⟩)
        rw [htakes, isOwnNode, hbranch, hlen]
        simp
    · rw [host_below home? hown hout hlen]
      cases home? with
      | none =>
        refine .inl ⟨?_, rfl⟩
        rw [isOwnNode, beq_false_of_ne hlen]
        simp
      | some home => exact .inr (.inr ⟨home, rfl, htakes, rfl⟩)
  · refine .inl ⟨by simp [htakes], host_of_not_taken home? ?_⟩
    by_contra hnot
    rw [not_or, not_not, Bool.not_eq_true] at hnot
    exact htakes (takes_iff.2 hnot)

end Resource

/-! ### Growth along the plan -/

namespace Planned

variable (s : ResourceSet) (o : Options) (id : Nat)

/-- Containers after nodes have been placed in one of them, if it is given. -/
def placedIn (cs : List Container) (ps : List Planned) : Option Nat → List Container
  | none => cs
  | some home => cs.modify home (·.receiveAll s o id cs.length ps)

/-- Containers with planned nodes added: those on top are placed in a container, if one is
given, and the containers of all follow. -/
def laidOut (home? : Option Nat) (cs : List Container) (ps : List Planned) : List Container :=
  placedIn s o id cs ps home? ++ containersAll s o id home? cs.length ps

variable {s o id}

mutual

theorem length_containers (parent? : Option Nat) (start : Nat) (p : Planned) :
    (p.containers s o id parent? start).length = p.size := by
  obtain ⟨v, children⟩ := p
  rw [containers, size]
  split
  · rw [List.length_cons, length_containersAll]
  · split
    · rfl
    · rfl
termination_by structural p

theorem length_containersAll (parent? : Option Nat) (start : Nat) (ps : List Planned) :
    (containersAll s o id parent? start ps).length = sizeAll ps := by
  match ps with
  | [] => rfl
  | p :: ps =>
    rw [containersAll, sizeAll, List.length_append, length_containers, length_containersAll]
termination_by structural ps

end

theorem sizeAll_append (ps qs : List Planned) : sizeAll (ps ++ qs) = sizeAll ps + sizeAll qs := by
  induction ps with
  | nil => simp [sizeAll]
  | cons p ps ih => simp only [List.cons_append, sizeAll, ih, Nat.add_assoc]

theorem containersAll_append (parent? : Option Nat) (start : Nat) (ps qs : List Planned) :
    containersAll s o id parent? start (ps ++ qs) =
      containersAll s o id parent? start ps ++
        containersAll s o id parent? (start + sizeAll ps) qs := by
  induction ps generalizing start with
  | nil => simp [containersAll, sizeAll]
  | cons p ps ih =>
    simp only [List.cons_append, containersAll, sizeAll, ih, List.append_assoc, Nat.add_assoc]

theorem receiveAll_append (c : Container) (start : Nat) (ps qs : List Planned) :
    c.receiveAll s o id start (ps ++ qs) =
      (c.receiveAll s o id start ps).receiveAll s o id (start + sizeAll ps) qs := by
  induction ps generalizing c start with
  | nil => rfl
  | cons p ps ih =>
    simp only [List.cons_append, Container.receiveAll, sizeAll, ih, Nat.add_assoc]

/-- Without planned nodes nothing is added. -/
theorem laidOut_nil (home? : Option Nat) (cs : List Container) :
    laidOut s o id home? cs [] = cs := by
  rw [laidOut, containersAll, List.append_nil]
  cases home? with
  | none => rfl
  | some home => exact List.modify_id home cs

theorem length_placedIn (home? : Option Nat) (cs : List Container) (ps : List Planned) :
    (placedIn s o id cs ps home?).length = cs.length := by
  cases home? with
  | none => rfl
  | some home => exact List.length_modify _ _ _

/-- Nodes are added one after the other. -/
theorem laidOut_append {home? : Option Nat} {cs : List Container} (ps qs : List Planned)
    (h : ∀ home, home? = some home → home < cs.length) :
    laidOut s o id home? (laidOut s o id home? cs ps) qs = laidOut s o id home? cs (ps ++ qs) := by
  have hlen : (laidOut s o id home? cs ps).length = cs.length + sizeAll ps := by
    rw [laidOut, List.length_append, length_containersAll, length_placedIn]
  have hplaced : placedIn s o id (laidOut s o id home? cs ps) qs home? =
      placedIn s o id cs (ps ++ qs) home? ++ containersAll s o id home? cs.length ps := by
    cases home? with
    | none => rfl
    | some home =>
      rw [placedIn, hlen, laidOut, Arena.modify_append_left
        (by rw [length_placedIn]; exact h home rfl), placedIn, List.modify_modify_eq, placedIn]
      congr 2
      funext c
      exact (receiveAll_append c _ ps qs).symm
  rw [laidOut, hplaced, hlen, laidOut, containersAll_append, List.append_assoc]

/-- A node is put into the container of its parent, and its containers follow. -/
theorem laidOut_single (home : Nat) (cs : List Container) (v : Visit) (ps : List Planned) :
    laidOut s o id (some home) cs [⟨v, ps⟩] =
      cs.modify home (·.receive s o id cs.length v) ++
        containers s o id (some home) cs.length ⟨v, ps⟩ := by
  rw [laidOut, placedIn, containersAll, containersAll, List.append_nil]
  rfl

/-- A node with a container of its own and the nodes below it are added at once. -/
theorem laidOut_made {v : Visit} (hbranch : v.decl.kind.isBranch = true) (parent? : Option Nat)
    (cs : List Container) (ps : List Planned) :
    laidOut s o id (some cs.length) (cs ++ [Container.made s o id parent? v]) ps =
      cs ++ containers s o id parent? cs.length ⟨v, ps⟩ := by
  rw [laidOut, placedIn, containers, if_pos hbranch, List.length_append, List.length_singleton,
    Arena.modify_append_right, List.append_assoc]
  rfl

end Planned

/-- A node is put into the container of its parent as planned, together with what is laid out in
the container for its children. -/
theorem laidOut_put {s : ResourceSet} {o : Options} {y : Resource} {v : Visit} {home : Nat}
    (hlt : home < y.arena.size) {ps : List Planned}
    (hps : v.decl.kind.isBranch = false → ps = []) :
    Planned.laidOut s o y.id (if v.decl.kind.isBranch then some y.arena.size else none)
        (y.put v home (s.isBoundary y.id v.path) (Resource.referenceOf? s o y.id v)).arena.toList
        ps =
      Planned.laidOut s o y.id (some home) y.arena.toList [⟨v, ps⟩] := by
  have hmodified : (y.arena.toList.modify home
      (·.receive s o y.id y.arena.size v)).length = y.arena.size := List.length_modify _ _ _
  rw [Planned.laidOut_single, Resource.toList_put hlt, Arena.length_toList]
  cases hbranch : v.decl.kind.isBranch with
  | true =>
    have hcontainer : v.decl.kind.hasContainer = true := by simp [Kind.hasContainer, hbranch]
    rw [if_pos rfl, if_pos hcontainer]
    generalize y.arena.toList.modify home (·.receive s o y.id y.arena.size v) = cs
      at hmodified ⊢
    rw [← hmodified]
    exact Planned.laidOut_made hbranch (some home) cs ps
  | false =>
    have hcontainer : v.decl.kind.hasContainer = (v.decl.kind == .leafList) := by
      simp [Kind.hasContainer, hbranch]
    have hcontainers : Planned.containers s o y.id (some home) y.arena.size ⟨v, []⟩ =
        if v.decl.kind = .leafList then [Container.made s o y.id (some home) v] else [] := by
      rw [Planned.containers, if_neg (by simp [hbranch])]
    rw [hps hbranch, if_neg Bool.false_ne_true, Planned.laidOut_nil, hcontainers, hcontainer]
    simp only [beq_iff_eq]

/-- One node is added as planned: what is laid out in the container for its children comes out
as laid out with the node in the container of its parent. -/
theorem laidOut_host {s : ResourceSet} {o : Options} {x y : Resource} {v : Visit}
    {home? : Option Nat} (hy : y.blank = x.blank) (hdata : v.decl.kind.isTransparent = false)
    (hhome : ∀ home, home? = some home → x.path.length ≤ v.below.length ∧ home < y.arena.size) :
    (y.host s o home? v).1.blank = x.blank ∧
      (∀ home, (y.host s o home? v).2 = some home →
        x.path.length ≤ v.path.length ∧ home < (y.host s o home? v).1.arena.size) ∧
      (y.host s o home? v).2.isSome =
        (x.takes s o v && (x.isOwnNode v || home?.isSome) && v.decl.kind.isBranch) ∧
      ∀ ps, ((y.host s o home? v).2 = none → ∀ home, home? = some home → ps = []) →
        Planned.laidOut s o x.id (y.host s o home? v).2 (y.host s o home? v).1.arena.toList ps =
          Planned.laidOut s o x.id home? y.arena.toList
            (if x.takes s o v && (x.isOwnNode v || home?.isSome) then [⟨v, ps⟩] else ps) := by
  have hpush := v.length_path
  have hid := Resource.id_of_blank hy
  have hcases := Resource.host_cases s o y v home? hdata fun home h => by
    rw [Resource.path_of_blank hy]
    exact (hhome home h).1
  rw [Resource.takes_of_blank hy, Resource.isOwnNode_of_blank hy] at hcases
  rcases hcases with ⟨hleft, hhost⟩ | ⟨hplaced, rfl, hbranch, hhost⟩ | ⟨home, rfl, htakes, hhost⟩
  · rw [hhost, hleft]
    refine ⟨hy, fun home h => (by cases h), rfl, fun ps hps => ?_⟩
    rw [if_neg Bool.false_ne_true]
    cases home? with
    | none => rfl
    | some home => rw [hps rfl home rfl, Planned.laidOut_nil, Planned.laidOut_nil]
  · -- the root container of the resource
    have hopened := Resource.toList_openRoot (s := s) (o := o) (x := y) hbranch
    have hlen : x.path.length ≤ v.path.length := by
      rw [Option.isSome_none, Bool.or_false, Bool.and_eq_true, Resource.isOwnNode,
        Bool.and_eq_true, beq_iff_eq] at hplaced
      exact Nat.le_of_eq hplaced.2.1.symm
    rw [hhost, hplaced, hbranch]
    refine ⟨hy, fun home h => ⟨hlen, ?_⟩, rfl, fun ps _ => ?_⟩
    · obtain rfl := Option.some.inj h
      rw [← Arena.length_toList, ← Arena.length_toList, hopened, List.length_append]
      exact Nat.lt_succ_self _
    · rw [if_pos rfl, hopened, hid, ← Arena.length_toList, Planned.laidOut_made hbranch,
        Planned.laidOut, Planned.placedIn, Planned.containersAll, Planned.containersAll,
        List.append_nil]
  · -- a node in the container of its parent
    obtain ⟨hdeep, hlt⟩ := hhome home rfl
    rw [hhost, htakes, Option.isSome_some, Bool.or_true, Bool.and_self, Bool.true_and]
    refine ⟨(Resource.blank_put ..).trans hy, fun place h => ?_, ?_, fun ps hps => ?_⟩
    · split at h
      · next hbranch =>
        obtain rfl := Option.some.inj h
        have hcontainer : v.decl.kind.hasContainer = true := by simp [Kind.hasContainer, hbranch]
        rw [← Arena.length_toList (Resource.put ..).arena, Resource.toList_put hlt,
          List.length_append, List.length_modify, Arena.length_toList, if_pos hcontainer]
        exact ⟨by omega, Nat.lt_succ_self _⟩
      · cases h
    · cases v.decl.kind.isBranch <;> rfl
    · rw [if_pos rfl, ← hid]
      refine laidOut_put hlt fun hbranch => hps ?_ home rfl
      rw [hbranch, if_neg Bool.false_ne_true]

/-! ### Growth of all nodes -/

namespace Node

open Resource Planned

variable {s : ResourceSet} {o : Options} {x : Resource}

mutual

/-- Below its own node a resource places nothing without a container for it. -/
theorem plan_deep {below : Path} {listKeys : List String} (h : x.path.length ≤ below.length)
    (n : Node) : n.plan s o x false below listKeys = [] := by
  obtain ⟨decl, children⟩ := n
  rw [plan]
  split
  · exact planAll_deep h children
  · have hpush : (Visit.path ⟨below, listKeys, decl⟩).length = below.length + 1 := by
      rw [Visit.length_path]
    have hnot : x.isOwnNode ⟨below, listKeys, decl⟩ = false := by
      rw [isOwnNode, beq_false_of_ne (by omega), Bool.false_and]
    simp only [hnot, Bool.false_or, Bool.and_false, Bool.false_eq_true, if_false]
    exact planAll_deep (by omega) children
termination_by structural n

theorem planAll_deep {below : Path} {listKeys : List String} (h : x.path.length ≤ below.length)
    (ns : List (String × Node)) : planAll s o x false below listKeys ns = [] := by
  match ns with
  | [] => rfl
  | (_, n) :: rest => rw [planAll, plan_deep h n, planAll_deep h rest, List.append_nil]
termination_by structural ns

end

mutual

/-- Handing containers down adds what is planned to the containers of a resource, and changes
nothing but its contents. -/
theorem toList_grow {y : Resource} (home? : Option Nat) (below : Path) (listKeys : List String)
    (n : Node) (hy : y.blank = x.blank)
    (hhome : ∀ home, home? = some home → x.path.length ≤ below.length ∧ home < y.arena.size) :
    (n.grow s o home? below listKeys y).arena.toList =
        laidOut s o x.id home? y.arena.toList (n.plan s o x home?.isSome below listKeys) ∧
      (n.grow s o home? below listKeys y).blank = x.blank := by
  obtain ⟨decl, children⟩ := n
  rw [grow, plan]
  cases hdata : decl.kind.isTransparent with
  | true =>
    simp only [if_true]
    exact toList_growAll home? below listKeys children hy hhome
  | false =>
    simp only [Bool.false_eq_true, if_false]
    generalize hv : (⟨below, listKeys, decl⟩ : Visit) = v
    have hbelow : v.below = below := by rw [← hv]
    have hdecl : v.decl = decl := by rw [← hv]
    obtain ⟨hblank, hnext, hsome, hlaid⟩ := laidOut_host (s := s) (o := o) (v := v) hy
      (by rw [hdecl]; exact hdata) (by rw [hbelow]; exact hhome)
    obtain ⟨hlist, hblank'⟩ := toList_growAll (y.host s o home? v).2 v.path decl.keysBelow children
      hblank hnext
    refine ⟨hlist.trans ?_, hblank'⟩
    -- below a node that is not placed nothing is, unless the root of the resource is to come
    rw [hlaid _ fun hnone home h => ?_, hsome, hdecl]
    · cases hplaced : x.takes s o v && (x.isOwnNode v || home?.isSome) with
      | true => rw [Bool.true_and, if_pos rfl, if_pos rfl]
      | false => rw [Bool.false_and, if_neg Bool.false_ne_true, if_neg Bool.false_ne_true]
    · rw [hnone]
      refine planAll_deep ?_ children
      rw [Visit.length_path, hbelow]
      exact Nat.le_succ_of_le (hhome home h).1
termination_by structural n

theorem toList_growAll {y : Resource} (home? : Option Nat) (below : Path) (listKeys : List String)
    (ns : List (String × Node)) (hy : y.blank = x.blank)
    (hhome : ∀ home, home? = some home → x.path.length ≤ below.length ∧ home < y.arena.size) :
    (growAll s o home? below listKeys y ns).arena.toList =
        laidOut s o x.id home? y.arena.toList (planAll s o x home?.isSome below listKeys ns) ∧
      (growAll s o home? below listKeys y ns).blank = x.blank := by
  match ns with
  | [] =>
    rw [growAll, planAll, laidOut_nil]
    exact ⟨rfl, hy⟩
  | (_, n) :: rest =>
    obtain ⟨hlist, hblank⟩ := toList_grow home? below listKeys n hy hhome
    have hsize : y.arena.size ≤ (n.grow s o home? below listKeys y).arena.size := by
      rw [← Arena.length_toList, ← Arena.length_toList, hlist, laidOut, List.length_append,
        length_placedIn]
      exact Nat.le_add_right _ _
    have hrest := toList_growAll home? below listKeys rest hblank fun home h =>
      ⟨(hhome home h).1, Nat.lt_of_lt_of_le (hhome home h).2 hsize⟩
    rw [growAll, planAll]
    refine ⟨hrest.1.trans ?_, hrest.2⟩
    rw [hlist]
    exact laidOut_append _ _ fun home h => (hhome home h).2
termination_by structural ns

end

end Node

namespace Forest

open Resource Planned

variable {s : ResourceSet} {o : Options} {x : Resource}

theorem toList_growModules {y : Resource} (home? : Option Nat) (modules : List Module)
    (hy : y.blank = x.blank)
    (hhome : ∀ home, home? = some home → x.path.length = 0 ∧ home < y.arena.size) :
    (growModules s o home? y modules).arena.toList =
      laidOut s o x.id home? y.arena.toList
        (modules.flatMap fun m => Node.planAll s o x home?.isSome .root [] m.nodes) := by
  induction modules generalizing y with
  | nil => rw [List.flatMap_nil, laidOut_nil]; rfl
  | cons m modules ih =>
    obtain ⟨hlist, hblank⟩ := Node.toList_growAll (s := s) (o := o) home? .root [] m.nodes hy
      fun home h => ⟨Nat.le_of_eq (hhome home h).1, (hhome home h).2⟩
    have hsize : y.arena.size ≤ (Node.growAll s o home? .root [] y m.nodes).arena.size := by
      rw [← Arena.length_toList, ← Arena.length_toList, hlist, laidOut, List.length_append,
        length_placedIn]
      exact Nat.le_add_right _ _
    have hrest := ih hblank fun home h =>
      ⟨(hhome home h).1, Nat.lt_of_lt_of_le (hhome home h).2 hsize⟩
    rw [List.flatMap_cons]
    refine Eq.trans hrest ?_
    rw [hlist]
    exact laidOut_append _ _ fun home h => (hhome home h).2

/-- Handing containers down in the whole schema puts a container behind those that are there, and
lays out below it what is planned. -/
theorem toList_grow_full (htop : HasTop s x) (hpath : x.path.length = 0) (f : Forest) :
    (f.grow s o x).arena.toList =
      laidOut s o x.id (some x.arena.size) (x.arena.toList ++ [.ofName "root" none])
        (f.plan s o x) := by
  have hopened : x.openTop.arena.toList = x.arena.toList ++ [.ofName "root" none] := by
    simp [openTop, Arena.alloc, Arena.toList, Container.ofName]
  have hgrown := toList_growModules (s := s) (o := o) (x := x) (y := x.openTop)
    (some x.arena.size) f.modules rfl fun home h => by
      obtain rfl := Option.some.inj h
      rw [← Arena.length_toList x.openTop.arena, hopened, List.length_append, Arena.length_toList]
      exact ⟨hpath, Nat.lt_succ_self _⟩
  rw [grow, if_pos htop, hgrown, hopened, plan, decide_eq_true htop]
  rfl

/-- Handing containers down lays the containers out as planned. -/
theorem toList_grow (hs : s.Instantiated) {id : Nat} (hx : s.get? id = some x) (f : Forest) :
    (f.grow s o x).arena.toList = f.layout s o x := by
  have hempty : x.arena = {} := by
    rw [← hs.blank_eq hx]
    rfl
  rw [layout]
  by_cases htop : HasTop s x
  · have hpath : x.path = .root := by
      refine hs.path_root hs.blank ?_
      rw [← htop.2, hs.id_eq hs.blank hx]
      exact hx
    rw [toList_grow_full htop (congrArg Path.length hpath), hempty]
    simp only [if_pos htop]
    rfl
  · have hgrown := toList_growModules (s := s) (o := o) (x := x) (y := x) none f.modules rfl
      fun home h => by cases h
    rw [grow, if_neg htop, hgrown, hempty, plan, decide_eq_false htop]
    simp only [if_neg htop]
    rfl

end Forest

end YangPartition
