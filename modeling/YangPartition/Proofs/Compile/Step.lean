import Mathlib.Data.List.Basic
import YangPartition.Compile.Run
import YangPartition.Proofs.Container.Levels
import YangPartition.Proofs.Outcome
import YangPartition.Proofs.Resource.Ownership

/-!
# What a visit does

A visit changes at most the resource that owns the visited path, and what it does
there depends on that resource and on what the map declares, not on what has been
compiled into the others. So a run over all resources is, for each resource, a run
of its own. The verdict on a node, under which it is counted, depends on the map alone.
-/

namespace YangPartition

/-! ### Kinds -/

namespace Kind

/-- Whether a container is made for a node below another one. -/
def hasContainer (k : Kind) : Bool := k.isBranch || k == .leafList

variable {k : Kind}

theorem isTransparent_of_isBranch (h : k.isBranch = true) : k.isTransparent = false := by
  cases k with
  | container | list => rfl
  | leaf | leafList | choice | case | rpc => cases h

theorem isScalar_of_isBranch (h : k.isBranch = true) : k.isScalar = false := by
  cases k with
  | container | list => rfl
  | leaf | leafList | choice | case | rpc => cases h

theorem ne_leafList_of_isBranch (h : k.isBranch = true) : k ≠ .leafList := by
  rintro rfl
  cases h

end Kind

/-! ### Names of visits -/

theorem Elem.name_wild (name : String) (keys : List String) : (wild name keys).name = name := by
  have hfold : ∀ e : Elem, (keys.foldl (fun e key => e.withKey key wildcard) e).name = e.name := by
    induction keys with
    | nil => exact fun e => rfl
    | cons key keys ih => exact fun e => ih (e.withKey key wildcard)
  exact hfold (.named name)

theorem Declaration.name_elem (d : Declaration) : d.elem.name = d.name := by
  rw [elem]
  split
  · exact Elem.name_wild _ _
  · rfl

theorem Visit.names_path (v : Visit) : v.path.names = v.below.names ++ [v.decl.name] := by
  rw [path, Path.names_push, Declaration.name_elem]

@[simp] theorem Visit.length_path (v : Visit) : v.path.length = v.below.length + 1 := by
  rw [path, Path.length_push]

theorem Visit.prefix_path (v : Visit) : v.below.names <+: v.path.names := by
  rw [names_path]
  exact List.prefix_append ..

namespace Node

mutual

/-- The nodes below a path are visited there or further down. -/
theorem prefix_of_mem_visits {below : Path} {listKeys : List String} (n : Node) {v : Visit}
    (h : v ∈ n.visits below listKeys) : below.names <+: v.below.names := by
  obtain ⟨decl, children⟩ := n
  rw [visits] at h
  split at h
  · rcases List.mem_cons.1 h with rfl | h
    · exact List.prefix_rfl
    · exact prefix_of_mem_visitsAll children h
  · rcases List.mem_cons.1 h with rfl | h
    · exact List.prefix_rfl
    · exact (Visit.prefix_path ⟨below, listKeys, decl⟩).trans (prefix_of_mem_visitsAll children h)
termination_by structural n

theorem prefix_of_mem_visitsAll {below : Path} {listKeys : List String}
    (ns : List (String × Node)) {v : Visit} (h : v ∈ visitsAll below listKeys ns) :
    below.names <+: v.below.names := by
  match ns with
  | [] => cases h
  | (_, n) :: rest =>
    rw [visitsAll] at h
    rcases List.mem_append.1 h with h | h
    · exact prefix_of_mem_visits n h
    · exact prefix_of_mem_visitsAll rest h
termination_by structural ns

end

end Node

/-! ### Verdicts -/

/-- What is decided about a node before any container is looked for. -/
inductive Verdict where
  /-- A choice or case, which stands for the nodes below it. -/
  | group
  /-- No resource owns the path. -/
  | unowned
  /-- The resource excludes the path. -/
  | excluded
  /-- A procedure. -/
  | procedure
  /-- Unwanted state. -/
  | state
  /-- The node is to be placed. -/
  | wanted
  deriving DecidableEq, Repr

/-- The verdict on a node. -/
def Visit.verdict (s : ResourceSet) (o : Options) (v : Visit) : Verdict :=
  if v.decl.kind.isTransparent then .group
  else
    match s.matchPath v.path with
    | .unowned => .unowned
    | .excluded _ => .excluded
    | .owned _ =>
      if v.decl.kind = .rpc then .procedure
      else if v.decl.readOnly && !o.includeState then .state
      else .wanted

/-- The accounts with one more node of a verdict. -/
def Stats.count (a : Stats) : Verdict → Stats
  | .group | .unowned | .wanted => { a with nodes := a.nodes + 1 }
  | .excluded => { a with nodes := a.nodes + 1, excluded := a.excluded + 1 }
  | .procedure => { a with nodes := a.nodes + 1, skippedRpc := a.skippedRpc + 1 }
  | .state => { a with nodes := a.nodes + 1, skippedState := a.skippedState + 1 }

namespace Stats

variable (a : Stats) (k : Verdict)

@[simp] theorem nodes_count : (a.count k).nodes = a.nodes + 1 := by cases k <;> rfl

@[simp] theorem excluded_count :
    (a.count k).excluded = a.excluded + if k = .excluded then 1 else 0 := by cases k <;> rfl

@[simp] theorem skippedRpc_count :
    (a.count k).skippedRpc = a.skippedRpc + if k = .procedure then 1 else 0 := by cases k <;> rfl

@[simp] theorem skippedState_count :
    (a.count k).skippedState = a.skippedState + if k = .state then 1 else 0 := by cases k <;> rfl

@[simp] theorem unplaced_count : (a.count k).unplaced = a.unplaced := by cases k <;> rfl

@[simp] theorem containers_count : (a.count k).containers = a.containers := by cases k <;> rfl

@[simp] theorem entries_count : (a.count k).entries = a.entries := by cases k <;> rfl

@[simp] theorem references_count : (a.count k).references = a.references := by cases k <;> rfl

end Stats

/-- The run with one more node of a verdict counted. -/
def Run.count (r : Run) (k : Verdict) : Run := { r with stats := r.stats.count k }

@[simp] theorem Run.set_count (r : Run) (k : Verdict) : (r.count k).set = r.set := rfl

@[simp] theorem Run.stats_count (r : Run) (k : Verdict) :
    (r.count k).stats = r.stats.count k := rfl

/-! ### One resource -/

namespace Resource

variable (s : ResourceSet) (o : Options)

/-- Whether a resource leaves a node out whose path it owns: the path is excluded, or
the node is a procedure or unwanted state. -/
def leavesOut (x : Resource) (v : Visit) : Bool :=
  x.excludes.any (·.isAbove v.path) || v.decl.kind == .rpc || (v.decl.readOnly && !o.includeState)

/-- The reference of a node that has one. -/
def referenceOf? (id : Nat) (v : Visit) : Option Reference :=
  if v.decl.kind.isScalar then Reference.of? s o.overrides id v.path v.decl else none

/-- What a visit does to the resource that owns the path of the node. -/
def absorb (x : Resource) (v : Visit) : Except Error Resource :=
  if x.leavesOut o v then .ok (x.abandon v)
  else if x.depthOf v.path = 0 then
    if v.decl.kind.isScalar then .ok x
    else if x.root?.isSome then
      .error (.rootDefinedAgain (v.decl.moduleName?.getD "") v.path.nameText)
    else .ok (x.placeRoot v (s.isBoundary x.id v.path))
  else
    match x.parentFor? v with
    | none => .ok (x.abandon v)
    | some parent =>
      .ok (x.placeBelow v parent (s.isBoundary x.id v.path) (referenceOf? s o x.id v))

/-- Whether a resource owns a path. -/
def Owns (id : Nat) (p : Path) : Prop := (s.bestMatch? p).map (·.id) = some id

instance (id : Nat) (p : Path) : Decidable (Owns s id p) :=
  inferInstanceAs (Decidable (_ = _))

/-- What a visit does to any resource: nothing, unless it owns the path of a data node. -/
def see (x : Resource) (v : Visit) : Except Error Resource :=
  if ¬ v.decl.kind.isTransparent ∧ Owns s x.id v.path then x.absorb s o v else .ok x

/-- The container that a resource puts a node into, if it does. -/
def homeFor? (x : Resource) (v : Visit) : Option Nat :=
  if v.decl.kind.isTransparent = false ∧ Owns s x.id v.path ∧ x.leavesOut o v = false then
    x.parentFor? v
  else none

/-- What visits do to a resource, one after the other. -/
def seeAll : Resource → List Visit → Except Error Resource
  | x, [] => .ok x
  | x, v :: vs => x.see s o v >>= fun y => y.seeAll vs

/-! ### Contents only -/

variable {s o} {x y : Resource} {v : Visit}

@[simp] theorem blank_abandon (x : Resource) (v : Visit) : (x.abandon v).blank = x.blank := by
  rw [abandon]
  split <;> rfl

@[simp] theorem blank_placeRoot (x : Resource) (v : Visit) (boundary : Bool) :
    (x.placeRoot v boundary).blank = x.blank := rfl

@[simp] theorem blank_placeTop (x : Resource) : x.placeTop.blank = x.blank := rfl

@[simp] theorem blank_putNode (x : Resource) (v : Visit) (parent : Nat) (boundary : Bool)
    (target? : Option Path) : (x.putNode v parent boundary target?).blank = x.blank := by
  rw [putNode]
  cases v.decl.kind <;> rfl

@[simp] theorem blank_put (x : Resource) (v : Visit) (parent : Nat) (boundary : Bool)
    (ref? : Option Reference) : (x.put v parent boundary ref?).blank = x.blank := by
  cases ref? with
  | none => exact blank_putNode x v parent boundary none
  | some ref => exact blank_putNode x v parent boundary (some ref.target)

@[simp] theorem blank_placeBelow (x : Resource) (v : Visit) (parent : Nat) (boundary : Bool)
    (ref? : Option Reference) : (x.placeBelow v parent boundary ref?).blank = x.blank :=
  blank_put x v parent boundary ref?

/-- A visit changes nothing but the contents. -/
theorem blank_of_absorb (h : x.absorb s o v = .ok y) : y.blank = x.blank := by
  rw [absorb] at h
  split at h
  · obtain rfl := Except.ok.inj h
    simp
  split at h
  · split at h
    · obtain rfl := Except.ok.inj h
      rfl
    split at h
    · cases h
    · obtain rfl := Except.ok.inj h
      simp
  · split at h
    · obtain rfl := Except.ok.inj h
      simp
    · obtain rfl := Except.ok.inj h
      simp

theorem blank_of_see (h : x.see s o v = .ok y) : y.blank = x.blank := by
  rw [see] at h
  split at h
  · exact blank_of_absorb h
  · obtain rfl := Except.ok.inj h
    rfl

theorem id_of_blank (h : y.blank = x.blank) : y.id = x.id := by
  show y.blank.id = x.blank.id
  rw [h]

theorem get?_of_blank (h : y.blank = x.blank) (hx : s.get? x.id = some x.blank) :
    s.get? y.id = some y.blank := by
  rw [id_of_blank h, h]
  exact hx

theorem path_of_blank (h : y.blank = x.blank) : y.path = x.path := by
  show y.blank.path = x.blank.path
  rw [h]

theorem excludes_of_blank (h : y.blank = x.blank) : y.excludes = x.excludes := by
  show y.blank.excludes = x.blank.excludes
  rw [h]

/-! ### What a visit may do -/

/-- At depth 0 stand the paths that are as long as the resource's own. -/
theorem depthOf_eq_zero_iff {p : Path} (h : x.path.length ≤ p.length) :
    x.depthOf p = 0 ↔ p.length = x.path.length := by
  rw [depthOf]
  omega

/-- A data node that holds no values and is no procedure holds other nodes. -/
theorem isBranch_of_placed {k : Kind} (hdata : k.isTransparent = false)
    (hscalar : k.isScalar = false)
    (hrpc : k ≠ .rpc) : k.isBranch = true := by
  cases k with
  | container | list => rfl
  | leaf | leafList => cases hscalar
  | choice | case => cases hdata
  | rpc => exact absurd rfl hrpc

theorem ne_rpc_of_not_leavesOut (h : x.leavesOut o v = false) : v.decl.kind ≠ .rpc := by
  intro hrpc
  rw [leavesOut, hrpc] at h
  simp at h

/-- A visit leaves a resource alone that does not own a data node; else the resource drops the
node, makes its root container of it, or puts it into a container. -/
theorem see_cases (h : x.see s o v = .ok y) :
    (y = x ∧ (v.decl.kind.isTransparent = true ∨ ¬ Owns s x.id v.path)) ∨
    (v.decl.kind.isTransparent = false ∧ Owns s x.id v.path ∧ x.homeFor? s o v = none ∧
      y = x.abandon v) ∨
    (v.decl.kind.isTransparent = false ∧ Owns s x.id v.path ∧ v.decl.kind.isBranch = true ∧
      x.depthOf v.path = 0 ∧ x.root? = none ∧
      y = x.placeRoot v (s.isBoundary x.id v.path)) ∨
    ∃ parent, v.decl.kind.isTransparent = false ∧ Owns s x.id v.path ∧
      x.leavesOut o v = false ∧ x.homeFor? s o v = some parent ∧ x.parentFor? v = some parent ∧
      y = x.placeBelow v parent (s.isBoundary x.id v.path) (referenceOf? s o x.id v) := by
  rw [see] at h
  by_cases hboth : ¬ v.decl.kind.isTransparent ∧ Owns s x.id v.path
  case neg =>
    rw [if_neg hboth] at h
    obtain rfl := Except.ok.inj h
    refine .inl ⟨rfl, ?_⟩
    by_cases hdata : v.decl.kind.isTransparent = true
    · exact .inl hdata
    · exact .inr fun hown => hboth ⟨hdata, hown⟩
  have hdata : v.decl.kind.isTransparent = false := by simpa using hboth.1
  have hown := hboth.2
  rw [if_pos hboth, absorb] at h
  cases hout : x.leavesOut o v with
  | true =>
    rw [hout, if_pos rfl] at h
    refine .inr (.inl ⟨hdata, hown, ?_, (Except.ok.inj h).symm⟩)
    rw [homeFor?, if_neg]
    rintro ⟨-, -, htaken⟩
    rw [hout] at htaken
    cases htaken
  | false =>
    rw [hout, if_neg Bool.false_ne_true] at h
    have hhome : x.homeFor? s o v = x.parentFor? v := by
      rw [homeFor?, if_pos ⟨hdata, hown, hout⟩]
    rw [hhome]
    by_cases hdepth : x.depthOf v.path = 0
    · have hnone : x.parentFor? v = none := by
        rw [parentFor?, hdepth]
        rfl
      rw [if_pos hdepth] at h
      cases hscalar : v.decl.kind.isScalar with
      | true =>
        rw [hscalar, if_pos rfl] at h
        refine .inr (.inl ⟨hdata, hown, hnone, ?_⟩)
        rw [abandon, if_pos hscalar]
        exact (Except.ok.inj h).symm
      | false =>
        rw [hscalar, if_neg Bool.false_ne_true] at h
        split at h
        · cases h
        · next hroot =>
          refine .inr (.inr (.inl ⟨hdata, hown, ?_, hdepth, by simpa using hroot, ?_⟩))
          · exact isBranch_of_placed hdata hscalar (ne_rpc_of_not_leavesOut hout)
          · exact (Except.ok.inj h).symm
    · rw [if_neg hdepth] at h
      cases hparent : x.parentFor? v with
      | none =>
        rw [hparent] at h
        exact .inr (.inl ⟨hdata, hown, rfl, (Except.ok.inj h).symm⟩)
      | some parent =>
        rw [hparent] at h
        exact .inr (.inr (.inr ⟨parent, hdata, hown, rfl, rfl, rfl, (Except.ok.inj h).symm⟩))

/-! ### Sequences of visits -/

theorem seeAll_append (x : Resource) (vs ws : List Visit) :
    x.seeAll s o (vs ++ ws) = x.seeAll s o vs >>= fun y => y.seeAll s o ws := by
  induction vs generalizing x with
  | nil => rfl
  | cons v vs ih =>
    rw [List.cons_append, seeAll, seeAll]
    cases x.see s o v with
    | error e => rfl
    | ok y => exact ih y

theorem seeAll_append_eq_ok {x z : Resource} {vs ws : List Visit} :
    x.seeAll s o (vs ++ ws) = .ok z ↔ ∃ y, x.seeAll s o vs = .ok y ∧ y.seeAll s o ws = .ok z := by
  rw [seeAll_append, except_bind_eq_ok]

theorem seeAll_cons_eq_ok {x z : Resource} {vs : List Visit} :
    x.seeAll s o (v :: vs) = .ok z ↔ ∃ y, x.see s o v = .ok y ∧ y.seeAll s o vs = .ok z := by
  rw [seeAll, except_bind_eq_ok]

theorem seeAll_snoc_eq_ok {x z : Resource} {vs : List Visit} :
    x.seeAll s o (vs ++ [v]) = .ok z ↔ ∃ y, x.seeAll s o vs = .ok y ∧ y.see s o v = .ok z := by
  rw [seeAll_append_eq_ok]
  refine exists_congr fun y => and_congr_right fun _ => ?_
  rw [seeAll_cons_eq_ok]
  constructor
  · rintro ⟨w, hw, h⟩
    obtain rfl := Except.ok.inj h
    exact hw
  · exact fun h => ⟨z, h, rfl⟩

theorem blank_of_seeAll {vs : List Visit} (h : x.seeAll s o vs = .ok y) : y.blank = x.blank := by
  induction vs generalizing x with
  | nil =>
    obtain rfl := Except.ok.inj h
    rfl
  | cons v vs ih =>
    obtain ⟨z, hz, h⟩ := seeAll_cons_eq_ok.1 h
    rw [ih h, blank_of_see hz]

end Resource

/-! ### Numbers -/

namespace ResourceSet

variable {s t : ResourceSet}

theorem mem_toList_of_active {x : Resource} (h : x ∈ t.active) : x ∈ t.toList := by
  rw [active] at h
  split at h
  · exact List.mem_of_mem_take h
  · exact List.mem_of_mem_drop h

/-- The owner of a path is found under its number. -/
theorem Instantiated.get?_of_bestMatch? (hs : s.Instantiated) (ht : t.blank = s) {p : Path}
    {x : Resource} (h : t.bestMatch? p = some x) : t.get? x.id = some x :=
  hs.get?_of_mem ht (mem_toList_of_active (mem_of_longest h))

/-- A resource that owns a path is compiled and stands above the path. -/
theorem Instantiated.above_of_owns (hs : s.Instantiated) (ht : t.blank = s) {id : Nat}
    {x : Resource} (hx : t.get? id = some x) {p : Path} (h : Resource.Owns s id p) :
    s.bestMatch? p = some x.blank ∧ x.blank ∈ s.active ∧ x.path.names <+: p.names := by
  obtain ⟨b, hb, hid⟩ := Option.map_eq_some_iff.1 h
  have hblank : s.get? id = some x.blank := by rw [← ht, get?_blank, hx, Option.map_some]
  have hget := hs.get?_of_bestMatch? hs.blank hb
  rw [hid, hblank] at hget
  rw [← Option.some.inj hget] at hb
  obtain ⟨hmem, hpre, -⟩ := (hs.bestMatch?_eq_iff p _).1 hb
  exact ⟨hb, hmem, hpre⟩

/-- The root resource stands at the top, whatever has been compiled. -/
theorem Instantiated.path_root (hs : s.Instantiated) (ht : t.blank = s) {x : Resource}
    (hx : t.get? Resource.rootId = some x) : x.path = .root := by
  obtain ⟨r, hr, hroot⟩ := hs.top
  rw [← ht, get?_blank, hx] at hr
  rw [← hroot, ← Option.some.inj hr]
  rfl

/-- Of the whole schema only the root resource is compiled. -/
theorem Instantiated.active_full (hs : s.Instantiated) (hmode : s.mode = .full) :
    ∃ r, s.get? Resource.rootId = some r ∧ r.path = .root ∧ s.active = [r] := by
  obtain ⟨r, hr, hroot⟩ := hs.top
  refine ⟨r, hr, hroot, ?_⟩
  rw [get?_eq_toList] at hr
  rw [active, hmode]
  simp only
  cases hlist : s.toList with
  | nil =>
    rw [hlist] at hr
    cases hr
  | cons a as =>
    rw [hlist] at hr
    rw [← Option.some.inj (show some a = some r from hr)]
    rfl

theorem Instantiated.eq_rootId_of_active (hs : s.Instantiated) (ht : t.blank = s)
    (hmode : s.mode = .full) {id : Nat} {x : Resource} (hx : t.get? id = some x)
    (h : x.blank ∈ s.active) : id = Resource.rootId ∧ x.path = .root := by
  have hblank : s.get? id = some x.blank := by rw [← ht, get?_blank, hx, Option.map_some]
  obtain ⟨r, hr, hroot, hactive⟩ := hs.active_full hmode
  rw [hactive, List.mem_singleton] at h
  have hid := hs.id_eq hs.blank hblank
  rw [h, hs.id_eq hs.blank hr] at hid
  exact ⟨hid.symm, (congrArg Resource.path h).trans hroot⟩

/-- What has been compiled does not change which numbers are in use. -/
theorem exists_get?_of_blank {u : ResourceSet} (ht : t.blank = s) (hu : u.blank = s) {id : Nat}
    {y : Resource} (hy : u.get? id = some y) : ∃ x, t.get? id = some x ∧ x.blank = y.blank := by
  have hx : (t.get? id).map (·.blank) = some y.blank := by
    rw [← get?_blank, ht, ← hu, get?_blank, hy, Option.map_some]
  exact Option.map_eq_some_iff.1 hx

end ResourceSet

/-! ### The whole run -/

namespace Run

variable {s : ResourceSet} {o : Options} {r r' : Run} {v : Visit}

/-- A change of the resource under a number is a replacement of the resource found there. -/
theorem modify_eq_replace {t : ResourceSet} {id : Nat} {x : Resource} (h : t.get? id = some x)
    (f : Resource → Resource) : t.modify id f = t.modify id fun _ => f x := by
  refine ResourceSet.ext_get? rfl fun i => ?_
  rw [ResourceSet.get?_modify, ResourceSet.get?_modify]
  split
  · next hi =>
    subst hi
    rw [h]
    rfl
  · rfl

/-- Replacing a resource by itself changes nothing. -/
theorem replace_self {t : ResourceSet} {id : Nat} {x : Resource} (h : t.get? id = some x) :
    (t.modify id fun _ => x) = t := by
  refine ResourceSet.ext_get? rfl fun i => ?_
  rw [ResourceSet.get?_modify]
  split
  · next hi =>
    subst hi
    rw [h]
    rfl
  · rfl

/-- What placing a node reads of the resources is what the map declares. -/
theorem place_eq (hr : r.set.blank = s) (x : Resource) (v : Visit) :
    r.place o x v =
      if x.depthOf v.path = 0 then
        if v.decl.kind.isScalar then
          .ok { r with stats := { r.stats with unplaced := r.stats.unplaced + 1 } }
        else if x.root?.isSome then
          .error (.rootDefinedAgain (v.decl.moduleName?.getD "") v.path.nameText)
        else
          .ok { set := r.set.modify x.id (·.placeRoot v (s.isBoundary x.id v.path))
                stats := { r.stats with containers := r.stats.containers + 1 } }
      else
        match x.parentFor? v with
        | none =>
          .ok ({ r with
            stats := { r.stats with unplaced := r.stats.unplaced + 1 } }.abandon x.id v)
        | some parent =>
          .ok (r.placeBelow x.id v parent (s.isBoundary x.id v.path)
            (Resource.referenceOf? s o x.id v)) := by
  have hboundary : r.set.isBoundary x.id v.path = s.isBoundary x.id v.path := by
    rw [← hr, ResourceSet.isBoundary_blank]
  have hreference : (if v.decl.kind.isScalar then
      Reference.of? r.set o.overrides x.id v.path v.decl else none) =
        Resource.referenceOf? s o x.id v := by
    rw [Resource.referenceOf?, ← hr, ResourceSet.reference_blank]
  rw [← hboundary, ← hreference]
  rfl

/-- Placing a node that is not left out does to its owner what the visit does to it. -/
theorem place_eq_ok {x : Resource} (h : r.place o x v = .ok r') (hr : r.set.blank = s)
    (hx : r.set.get? x.id = some x) (htaken : ¬ x.leavesOut o v = true) :
    ∃ y, x.absorb s o v = .ok y ∧ r'.set = r.set.modify x.id fun _ => y := by
  rw [Resource.absorb, if_neg htaken]
  rw [place_eq hr] at h
  by_cases hdepth : x.depthOf v.path = 0
  · rw [if_pos hdepth] at h ⊢
    by_cases hscalar : v.decl.kind.isScalar = true
    · rw [if_pos hscalar] at h ⊢
      obtain rfl := Except.ok.inj h
      exact ⟨x, rfl, (replace_self hx).symm⟩
    · rw [if_neg hscalar] at h ⊢
      by_cases hroot : x.root?.isSome = true
      · rw [if_pos hroot] at h
        cases h
      · rw [if_neg hroot] at h ⊢
        obtain rfl := Except.ok.inj h
        exact ⟨_, rfl, modify_eq_replace hx _⟩
  · rw [if_neg hdepth] at h ⊢
    cases hparent : x.parentFor? v with
    | none =>
      rw [hparent] at h
      obtain rfl := Except.ok.inj h
      exact ⟨_, rfl, modify_eq_replace hx _⟩
    | some parent =>
      rw [hparent] at h
      obtain rfl := Except.ok.inj h
      exact ⟨_, rfl, modify_eq_replace hx _⟩

/-- The verdict on a node that a resource owns. -/
theorem verdict_of_bestMatch? (hr : r.set.blank = s) (hdata : v.decl.kind.isTransparent = false)
    {x : Resource} (hbest : r.set.bestMatch? v.path = some x) :
    v.verdict s o =
      if x.excludes.any (·.isAbove v.path) then .excluded
      else if v.decl.kind = .rpc then .procedure
      else if v.decl.readOnly && !o.includeState then .state
      else .wanted := by
  rw [Visit.verdict, hdata, if_neg Bool.false_ne_true, ← hr, ResourceSet.matchPath_blank,
    ResourceSet.matchPath, hbest]
  simp only
  by_cases hexcluded : x.excludes.any (·.isAbove v.path) = true
  · rw [if_pos hexcluded, if_pos hexcluded]
  · rw [if_neg hexcluded, if_neg hexcluded]

/-- A resource takes the wanted nodes and leaves all others out. -/
theorem verdict_eq_wanted_iff (hr : r.set.blank = s) (hdata : v.decl.kind.isTransparent = false)
    {x : Resource} (hbest : r.set.bestMatch? v.path = some x) :
    v.verdict s o = .wanted ↔ x.leavesOut o v = false := by
  rw [verdict_of_bestMatch? hr hdata hbest, Resource.leavesOut, Bool.or_eq_false_iff,
    Bool.or_eq_false_iff, beq_eq_false_iff_ne]
  split
  · simp [*]
  · split
    · simp [*]
    · split <;> simp [*]

/-- A visit counts the node under its verdict; the resource that owns the path leaves the node out
or places it. -/
theorem visit_eq (hr : r.set.blank = s) (v : Visit) :
    r.visit o v =
      if v.decl.kind.isTransparent then .ok (r.count .group)
      else if !v.decl.hasPathName then
        .error (.invalidNodeName (v.decl.moduleName?.getD "") v.decl.name v.below.nameText)
      else
        match r.set.bestMatch? v.path with
        | none => .ok (r.count .unowned)
        | some x =>
          if x.leavesOut o v then .ok ((r.count (v.verdict s o)).abandon x.id v)
          else (r.count .wanted).place o x v := by
  rw [visit]
  cases hdata : v.decl.kind.isTransparent with
  | true => rfl
  | false =>
    simp only [Bool.false_eq_true, if_false]
    split
    · rfl
    cases hbest : r.set.bestMatch? v.path with
    | none => rfl
    | some x =>
      simp only
      rw [verdict_of_bestMatch? hr hdata hbest, Resource.leavesOut]
      by_cases hexcluded : x.excludes.any (·.isAbove v.path) = true
      · rw [if_pos hexcluded, if_pos hexcluded, hexcluded]
        rfl
      rw [if_neg hexcluded, if_neg hexcluded, eq_false_of_ne_true hexcluded, take]
      by_cases hrpc : v.decl.kind = .rpc
      · rw [if_pos hrpc, if_pos hrpc, hrpc]
        rfl
      rw [if_neg hrpc, if_neg hrpc, beq_eq_false_iff_ne.2 hrpc]
      simp only [Bool.false_or]
      split <;> rfl

/-- A visit that succeeds either meets no owner of a data node and changes no resource,
or replaces the owner by what the visit does to it. -/
theorem visit_eq_ok (hs : s.Instantiated) (hr : r.set.blank = s) (h : r.visit o v = .ok r') :
    (r'.set = r.set ∧ (v.decl.kind.isTransparent = true ∨ r.set.bestMatch? v.path = none)) ∨
    ∃ x y, v.decl.kind.isTransparent = false ∧ r.set.bestMatch? v.path = some x ∧
      x.absorb s o v = .ok y ∧ r'.set = r.set.modify x.id fun _ => y := by
  rw [visit_eq hr] at h
  by_cases htransparent : v.decl.kind.isTransparent = true
  · rw [if_pos htransparent] at h
    obtain rfl := Except.ok.inj h
    exact .inl ⟨rfl, .inl htransparent⟩
  rw [if_neg htransparent] at h
  split at h
  · cases h
  cases hbest : r.set.bestMatch? v.path with
  | none =>
    rw [hbest] at h
    obtain rfl := Except.ok.inj h
    exact .inl ⟨rfl, .inr rfl⟩
  | some x =>
    rw [hbest] at h
    simp only at h
    have hx := hs.get?_of_bestMatch? hr hbest
    refine .inr ⟨x, ?_⟩
    by_cases hout : x.leavesOut o v = true
    · rw [if_pos hout] at h
      obtain rfl := Except.ok.inj h
      refine ⟨x.abandon v, by simpa using htransparent, rfl, ?_, modify_eq_replace hx _⟩
      rw [Resource.absorb, if_pos hout]
    · rw [if_neg hout] at h
      obtain ⟨y, hy, hset⟩ := place_eq_ok h hr hx hout
      exact ⟨y, by simpa using htransparent, rfl, hy, hset⟩

/-- A visit does to each resource what the resource makes of it. -/
theorem see_of_visit (hs : s.Instantiated) (hr : r.set.blank = s) (h : r.visit o v = .ok r') :
    r'.set.blank = s ∧ ∀ {id x}, r.set.get? id = some x →
      ∃ y, x.see s o v = .ok y ∧ r'.set.get? id = some y := by
  -- the owner of the path in the set without contents has the same number
  have howner : (s.bestMatch? v.path).map (·.id) = (r.set.bestMatch? v.path).map (·.id) := by
    rw [← hr, ResourceSet.bestMatch?_blank, Option.map_map]
    rfl
  rcases visit_eq_ok hs hr h with ⟨hset, hidle⟩ | ⟨x, y, hdata, hbest, habsorb, hset⟩
  · refine ⟨hset ▸ hr, fun {id x} hx => ⟨x, ?_, hset ▸ hx⟩⟩
    rw [Resource.see, if_neg]
    rintro ⟨hdata, hown⟩
    rcases hidle with htransparent | hnone
    · exact hdata htransparent
    · rw [Resource.Owns, howner, hnone] at hown
      cases hown
  · have hx := hs.get?_of_bestMatch? hr hbest
    have hblank := Resource.blank_of_absorb habsorb
    rw [hset]
    refine ⟨?_, fun {id z} hz => ?_⟩
    · rw [ResourceSet.blank_modify fun w hw => by rw [hblank, Option.some.inj (hw.symm.trans hx)]]
      exact hr
    · rw [ResourceSet.get?_modify]
      have hid := hs.id_eq hr hz
      by_cases heq : x.id = id
      · subst heq
        obtain rfl := Option.some.inj (hz.symm.trans hx)
        refine ⟨y, ?_, ?_⟩
        · rw [Resource.see, if_pos ⟨by simp [hdata], by rw [Resource.Owns, howner, hbest]; rfl⟩]
          exact habsorb
        · rw [if_pos rfl, hz, Option.map_some]
      · refine ⟨z, ?_, by rw [if_neg heq]; exact hz⟩
        rw [Resource.see, if_neg]
        rintro ⟨-, hown⟩
        rw [Resource.Owns, howner, hbest, hid] at hown
        exact heq (Option.some.inj hown)

/-- What is found after a visit is what the visit has made of what was there. -/
theorem exists_see_of_visit (hs : s.Instantiated) (hr : r.set.blank = s) (h : r.visit o v = .ok r')
    {id : Nat} {y : Resource} (hy : r'.set.get? id = some y) :
    ∃ x, r.set.get? id = some x ∧ x.see s o v = .ok y := by
  obtain ⟨hr', hsee⟩ := see_of_visit hs hr h
  obtain ⟨x, hx, -⟩ := ResourceSet.exists_get?_of_blank hr hr' hy
  obtain ⟨z, hz, hget⟩ := hsee hx
  obtain rfl := Option.some.inj (hget.symm.trans hy)
  exact ⟨x, hx, hz⟩

/-- A run that succeeds does to each resource what the resource makes of all visits. -/
theorem seeAll_of_visitAll (hs : s.Instantiated) {vs : List Visit} (hr : r.set.blank = s)
    (h : Run.visitAll o r vs = (r', none)) :
    r'.set.blank = s ∧ ∀ {id x}, r.set.get? id = some x →
      ∃ y, x.seeAll s o vs = .ok y ∧ r'.set.get? id = some y := by
  induction vs generalizing r with
  | nil =>
    obtain rfl := (Prod.mk.inj h).1
    exact ⟨hr, fun {id x} hx => ⟨x, rfl, hx⟩⟩
  | cons v vs ih =>
    rw [visitAll] at h
    split at h
    · next r₁ hr₁ =>
      obtain ⟨hblank, hsee⟩ := see_of_visit hs hr hr₁
      obtain ⟨hblank', hall⟩ := ih hblank h
      refine ⟨hblank', fun {id x} hx => ?_⟩
      obtain ⟨y, hy, hget⟩ := hsee hx
      obtain ⟨z, hz, hget'⟩ := hall hget
      exact ⟨z, Resource.seeAll_cons_eq_ok.2 ⟨y, hy, hz⟩, hget'⟩
    · cases (Prod.mk.inj h).2

/-- What holds at the start and is kept by every visit that succeeds holds at the end of a
run, also of one that fails. -/
theorem visitAll_induction {P : Run → Prop} {vs : List Visit} (h : P r)
    (step : ∀ {a b v}, P a → a.visit o v = .ok b → P b) : P (Run.visitAll o r vs).1 := by
  induction vs generalizing r with
  | nil => exact h
  | cons v vs ih =>
    rw [visitAll]
    split
    · next r₁ hr₁ => exact ih (step h hr₁)
    · exact h

end Run

end YangPartition
