import YangPartition.Proofs.Compile.Erasure

/-!
# Declared resources in the whole schema

When the whole schema is compiled, all its nodes are placed but procedures and unwanted state. A
declared resource is compiled from the same nodes. It places those of them that it covers: those
below its path that it does not exclude and that belong to no resource further down.
-/

namespace YangPartition

/-! ### Procedures -/

namespace Node

mutual

/-- Whether there are no procedures among a node and those below it. -/
def withoutRpc : Node → Bool
  | ⟨decl, children⟩ => decl.kind != .rpc && withoutRpcAll children
termination_by structural n => n

/-- Whether there are no procedures among nodes and those below them. -/
def withoutRpcAll : List (String × Node) → Bool
  | [] => true
  | (_, n) :: rest => n.withoutRpc && withoutRpcAll rest
termination_by structural ns => ns

end

end Node

/-- Whether a forest has no procedures. -/
def Forest.withoutRpc (f : Forest) : Bool := f.modules.all fun m => Node.withoutRpcAll m.nodes

/-! ### Covered paths -/

namespace Resource

variable (s : ResourceSet)

/-- Whether a resource owns a path and does not exclude it. -/
def covers (x : Resource) (p : Path) : Bool :=
  decide (Owns s x.id p) && !x.excludes.any (·.isAbove p)

/-- Whether a node of the whole schema is one of a resource: the resource covers its path, and it
is a container or list or stands below the resource's own path. -/
def keeps (x : Resource) (v : Visit) : Bool :=
  x.covers s v.path && (v.decl.kind.isBranch || decide (x.path.length < v.path.length))

variable {s} {u : ResourceSet} {o : Options} {x r : Resource} {v : Visit}

theorem covers_iff {p : Path} : x.covers s p = true ↔
    Owns s x.id p ∧ x.excludes.any (·.isAbove p) = false := by
  rw [covers, Bool.and_eq_true, decide_eq_true_eq, Bool.not_eq_true']

/-- A resource that covers a path covers the paths above, down from its own. -/
theorem covers_of_push (hs : s.Instantiated) (hx : s.get? x.id = some x.blank) {p : Path} {e : Elem}
    (h : x.covers s (p.push e) = true) (hlen : x.path.length ≤ p.length) :
    x.covers s p = true := by
  rw [covers_iff] at h ⊢
  refine ⟨owns_of_push hs hx h.1 hlen, ?_⟩
  rw [← Bool.not_eq_true, List.any_eq_true]
  rintro ⟨q, hq, habove⟩
  have : x.excludes.any (·.isAbove (p.push e)) = true := by
    refine List.any_eq_true.2 ⟨q, hq, (Path.isAbove_iff ..).2 ?_⟩
    rw [Path.names_push]
    exact ((Path.isAbove_iff ..).1 habove).trans (List.prefix_append ..)
  rw [h.2] at this
  cases this

/-- Of the nodes that are no procedures and no unwanted state a resource takes those it covers. -/
theorem takes_eq_covers (hrpc : v.decl.kind ≠ .rpc)
    (hstate : (v.decl.readOnly && !o.includeState) = false) :
    x.takes s o v = x.covers s v.path := by
  rw [takes, covers, leavesOut, hstate, Bool.or_false, beq_eq_false_iff_ne.2 hrpc, Bool.or_false]

theorem takes_of_unwanted (hstate : (v.decl.readOnly && !o.includeState) = true) :
    x.takes s o v = false := by
  rw [takes, leavesOut, hstate, Bool.or_true, Bool.not_true, Bool.and_false]

/-- The root resource covers all paths when the whole schema is compiled. -/
theorem covers_root (hu : u.Instantiated) (hmode : u.mode = .full)
    (hr : u.get? rootId = some r) (hexcludes : r.excludes = []) (p : Path) :
    r.covers u p = true := by
  obtain ⟨top, htop, -, hactive⟩ := hu.active_full hmode
  obtain rfl := Option.some.inj (hr.symm.trans htop)
  refine covers_iff.2 ⟨?_, by rw [hexcludes]; rfl⟩
  have hbest : u.bestMatch? p = some r := by
    rw [hu.bestMatch?_eq_iff, hactive]
    refine ⟨List.mem_singleton_self r, ?_, fun a ha _ hne => absurd (List.mem_singleton.1 ha) hne⟩
    rw [hu.path_root hu.blank hr]
    exact List.nil_prefix
  rw [Owns, hbest]
  rfl

/-- A declared resource does not cover the top. -/
theorem not_covers_top (hs : s.Instantiated) (hmode : s.mode = .declared)
    (hx : s.get? x.id = some x.blank) : x.covers s .root = false := by
  rw [← Bool.not_eq_true, covers_iff]
  rintro ⟨hown, -⟩
  obtain ⟨-, hactive, hpre⟩ := hs.above_of_owns hs.blank hx hown
  rw [ResourceSet.active, hmode] at hactive
  exact (hs.writable _ hactive).2 (List.prefix_nil.1 hpre)

/-- A resource that excludes nothing and has no other inside covers all paths below its own. -/
theorem covers_iff_prefix (hs : s.Instantiated) (hmode : s.mode = .declared)
    (hx : s.get? x.id = some x) (hmem : x ∈ s.declared) (hexcludes : x.excludes = [])
    (halone : ∀ a ∈ s.declared, a ≠ x → ¬ x.path.names <+: a.path.names) (p : Path) :
    x.covers s p = true ↔ x.path.names <+: p.names := by
  have hactive : s.active = s.declared := by rw [ResourceSet.active, hmode]
  rw [covers_iff, hexcludes]
  constructor
  · rintro ⟨hown, -⟩
    exact (hs.above_of_owns hs.blank hx hown).2.2
  · intro hpre
    have hbest : s.bestMatch? p = some x := by
      rw [hs.bestMatch?_eq_iff, hactive]
      refine ⟨hmem, hpre, fun a ha hpa hne => ?_⟩
      by_contra hlen
      refine halone a ha hne (List.prefix_of_prefix_length_le hpre hpa ?_)
      rw [Path.length_names, Path.length_names]
      omega
    exact ⟨by rw [Owns, hbest]; rfl, rfl⟩

/-- A node that a resource covers is placed when it is that of the resource's own path or stands
below what is covered. -/
theorem isOwnNode_or_covers (hs : s.Instantiated) (hx : s.get? x.id = some x.blank)
    (hcovers : x.covers s v.path = true) :
    (x.isOwnNode v || x.covers s v.below) = x.keeps s v := by
  have hle := length_le_of_owns hs hx (covers_iff.1 hcovers).1
  have hpush := v.length_path
  rw [keeps, hcovers, Bool.true_and, isOwnNode]
  by_cases hlen : x.path.length < v.path.length
  · have habove : x.covers s v.below = true := covers_of_push hs hx hcovers (by omega)
    rw [habove, decide_eq_true hlen, Bool.or_true, Bool.or_true]
  · have hshort : x.covers s v.below = false := by
      rw [← Bool.not_eq_true]
      intro habove
      have := length_le_of_owns hs hx (covers_iff.1 habove).1
      omega
    rw [hshort, decide_eq_false hlen, Bool.or_false, Bool.or_false, beq_iff_eq.2 (by omega),
      Bool.true_and]

end Resource

/-! ### The plan of a declared resource -/

namespace Node

open Planned Resource

variable {s u : ResourceSet} {o : Options} {x r : Resource} {decl : Declaration}
  {children : List (String × Node)}

/-- What is placed and no branch has nothing below it. -/
theorem children_eq_nil (hdata : decl.kind.isTransparent = false) (hrpc : decl.kind ≠ .rpc)
    (hbare : (!decl.kind.isScalar || children.isEmpty) = true)
    (hbranch : decl.kind.isBranch = false) : children = [] := by
  have hscalar : decl.kind.isScalar = true := by
    by_contra hscalar
    rw [isBranch_of_placed hdata (Bool.eq_false_iff.2 hscalar) hrpc] at hbranch
    cases hbranch
  rw [hscalar, Bool.not_true, Bool.false_or, List.isEmpty_iff] at hbare
  exact hbare

/-- Nothing is placed below unwanted state. -/
theorem planAll_of_unwanted (s : ResourceSet) (x : Resource) (p : Path)
    (hunwanted : (decl.readOnly && !o.includeState) = true)
    (hstate : passesStateAll decl.readOnly children = true) :
    planAll s o x false p decl.keysBelow children = [] := by
  rw [Bool.and_eq_true, Bool.not_eq_true'] at hunwanted
  rw [hunwanted.1] at hstate
  exact planAll_of_state hunwanted.2 _ _ _ _ hstate

/-- A resource places a node when the node is its own. What is below is placed below it, comes to
stand on top, or is left out with it. -/
theorem selects_placed (hs : s.Instantiated) (hx : s.get? x.id = some x.blank) (v : Visit)
    (hempty : v.decl.kind.isBranch = false → children = [])
    (hchildren : Selects (x.keeps s) (x.covers s v.path)
      (planAll u o r true v.path v.decl.keysBelow children)
      (planAll s o x (x.covers s v.path) v.path v.decl.keysBelow children)) :
    Selects (x.keeps s) (x.covers s v.below)
      [⟨v, planAll u o r v.decl.kind.isBranch v.path v.decl.keysBelow children⟩]
      (if x.covers s v.path && (x.isOwnNode v || x.covers s v.below) then
        [⟨v, planAll s o x v.decl.kind.isBranch v.path v.decl.keysBelow children⟩]
      else planAll s o x false v.path v.decl.keysBelow children) := by
  cases hcovers : x.covers s v.path with
  | true =>
    rw [hcovers] at hchildren
    rw [isOwnNode_or_covers hs hx hcovers, Bool.true_and]
    cases hkeeps : x.keeps s v with
    | true =>
      rw [if_pos rfl]
      refine .keep hkeeps ?_
      cases hbranch : v.decl.kind.isBranch with
      | true => exact hchildren
      | false =>
        rw [hempty hbranch]
        exact .nil
    | false =>
      have hbranch := hkeeps
      rw [keeps, hcovers, Bool.true_and, Bool.or_eq_false_iff] at hbranch
      rw [if_neg Bool.false_ne_true, hempty hbranch.1]
      exact .drop hkeeps .nil
  | false =>
    have hkeeps : x.keeps s v = false := by rw [keeps, hcovers, Bool.false_and]
    rw [hcovers] at hchildren
    rw [Bool.false_and, if_neg Bool.false_ne_true]
    cases hbranch : v.decl.kind.isBranch with
    | false =>
      rw [hempty hbranch]
      exact .drop hkeeps .nil
    | true =>
      cases habove : x.covers s v.below with
      | false => exact .lift hkeeps hbranch hchildren
      | true =>
        -- the node has been excluded or handed over, and what is below with it
        have hlen := length_le_of_owns hs hx (covers_iff.1 habove).1
        have hdeep : x.path.length ≤ v.path.length := by
          rw [Visit.length_path]
          exact Nat.le_succ_of_le hlen
        rw [planAll_deep hdeep] at hchildren ⊢
        exact .drop hkeeps hchildren

mutual

/-- What a declared resource places are those nodes of the whole schema that are its own. -/
theorem selects_keeps (hs : s.Instantiated) (hx : s.get? x.id = some x.blank)
    (hr : ∀ p, r.covers u p = true) (below : Path) (listKeys : List String) {state : Bool}
    (n : Node) (hbare : n.scalarsBare = true) (hrpc : n.withoutRpc = true)
    (hstate : n.passesState state = true) :
    Selects (x.keeps s) (x.covers s below) (n.plan u o r true below listKeys)
      (n.plan s o x (x.covers s below) below listKeys) := by
  obtain ⟨decl, children⟩ := n
  rw [scalarsBare, Bool.and_eq_true] at hbare
  rw [withoutRpc, Bool.and_eq_true, bne_iff_ne] at hrpc
  rw [passesState, Bool.and_eq_true] at hstate
  rw [plan, plan]
  split
  · exact selectsAll_keeps hs hx hr below listKeys children hbare.2 hrpc.2 hstate.2
  next hdata =>
  simp only
  cases hunwanted : decl.readOnly && !o.includeState with
  | true =>
    -- unwanted state is left out of both with all below it
    rw [takes_of_unwanted hunwanted, takes_of_unwanted hunwanted, Bool.false_and, Bool.false_and,
      if_neg Bool.false_ne_true, if_neg Bool.false_ne_true,
      planAll_of_unwanted u r _ hunwanted hstate.2, planAll_of_unwanted s x _ hunwanted hstate.2]
    exact .nil
  | false =>
    rw [takes_eq_covers hrpc.1 hunwanted, takes_eq_covers hrpc.1 hunwanted, hr, Bool.or_true,
      Bool.true_and, if_pos rfl]
    exact selects_placed hs hx ⟨below, listKeys, decl⟩
      (children_eq_nil (Bool.eq_false_iff.2 hdata) hrpc.1 hbare.1)
      (selectsAll_keeps hs hx hr _ _ children hbare.2 hrpc.2 hstate.2)
termination_by structural n

theorem selectsAll_keeps (hs : s.Instantiated) (hx : s.get? x.id = some x.blank)
    (hr : ∀ p, r.covers u p = true) (below : Path) (listKeys : List String) {state : Bool}
    (ns : List (String × Node)) (hbare : scalarsBareAll ns = true)
    (hrpc : withoutRpcAll ns = true) (hstate : passesStateAll state ns = true) :
    Selects (x.keeps s) (x.covers s below) (planAll u o r true below listKeys ns)
      (planAll s o x (x.covers s below) below listKeys ns) := by
  match ns with
  | [] => exact .nil
  | (_, n) :: rest =>
    rw [scalarsBareAll, Bool.and_eq_true] at hbare
    rw [withoutRpcAll, Bool.and_eq_true] at hrpc
    rw [passesStateAll, Bool.and_eq_true] at hstate
    exact .append (selects_keeps hs hx hr below listKeys n hbare.1 hrpc.1 hstate.1)
      (selectsAll_keeps hs hx hr below listKeys rest hbare.2 hrpc.2 hstate.2)
termination_by structural ns

end

end Node

end YangPartition
