import YangPartition.Proofs.Compile.Siblings
import YangPartition.Proofs.Compile.Targets
import YangPartition.Proofs.Compile.Types

/-!
# References and the schema

Where siblings have distinct names, the type that a reference gets is the one that the schema
declares for the node that its expression leads to. The targets are looked up by their written
forms and through the containers of the whole schema; both lead to the node of the same names.
-/

namespace YangPartition

open Planned

/-! ### Declared types -/

namespace Resource

variable {s : ResourceSet} {o : Options} {x y : Resource}

theorem isPlaced_of_blank (h : y.blank = x.blank) (v : Visit) (above : List Visit) :
    y.isPlaced s o v above = x.isPlaced s o v above := by
  have htop : decide (HasTop s y) = decide (HasTop s x) :=
    decide_eq_decide.2 (by rw [HasTop, HasTop, id_of_blank h])
  induction above generalizing v with
  | nil => rw [isPlaced, isPlaced, takes_of_blank h, isOwnNode_of_blank h, htop]
  | cons u above ih => simp only [isPlaced, takes_of_blank h, isOwnNode_of_blank h, ih]

end Resource

namespace Forest

variable (s : ResourceSet) (o : Options) (x : Resource) (f : Forest)

/-- The nodes that are placed in a resource, in the order of the schema. -/
def placed : List Visit := (f.sites.filter fun i => x.isPlaced s o i.visit i.above).map (·.visit)

/-- The type that is declared at names: that of the node placed there, or else that of a leaf-list
whose name comes twice at their end. -/
def typeAt? (names : List String) : Option String :=
  (((f.placed s o x).find? fun v => v.path.names == names).or
    ((f.placed s o x).find? fun v =>
      v.decl.kind == .leafList && v.path.names ++ [v.decl.name] == names)).map (·.decl.typeName)

variable {s o x f}

theorem placed_of_blank {y : Resource} (h : y.blank = x.blank) :
    f.placed s o y = f.placed s o x := by
  simp only [placed, Resource.isPlaced_of_blank h]

theorem typeAt?_of_blank {y : Resource} (h : y.blank = x.blank) :
    f.typeAt? s o y = f.typeAt? s o x := by
  funext names
  rw [typeAt?, typeAt?, placed_of_blank h]

theorem typeAt?_eq_none {names : List String} : f.typeAt? s o x names = none ↔
    ∀ v ∈ f.placed s o x, v.path.names ≠ names ∧
      (v.decl.kind = .leafList → v.path.names ++ [v.decl.name] ≠ names) := by
  rw [typeAt?, Option.map_eq_none_iff, Option.or_eq_none_iff, List.find?_eq_none,
    List.find?_eq_none, ← forall₂_and]
  simp

section

variable {a : Arena} {id place start : Nat} (h : a.Hosts s o id place start (f.plan s o x))
  (hfind : Findable (f.plan s o x))
  (hrel : RelatesAll (fun u v => v.below = u.path) (fun v => v.below.names = []) (f.plan s o x))

include h hfind hrel

/-- In containers that hold what is placed of the whole schema, the names of a node lead to its
entry, and those of a leaf-list with its own name once more to the one value. -/
theorem entryBelow?_of_placed {v : Visit} (hv : v ∈ f.placed s o x) :
    (∃ place?, place?.isSome = v.decl.kind.hasContainer ∧
      a.entryBelow? place v.below.names v.decl.name = some (.ofHeld s o id (v, place?))) ∧
    (v.decl.kind = .leafList →
      a.entryBelow? place v.path.names v.decl.name = some (.ofOwn s o id v)) := by
  rw [placed, ← flatten_plan s o x f] at hv
  obtain ⟨names, hnames, hentry, hown⟩ := h.entryBelow?_of_mem hfind hrel hv
  rw [List.nil_append] at hnames
  rw [Visit.names_path, hnames]
  exact ⟨hentry, hown⟩

/-- In containers that hold what is placed of the whole schema, names lead to the declared type. -/
theorem typeBelow?_eq_typeAt? (names : List String) (name : String) :
    a.typeBelow? place names name = f.typeAt? s o x (names ++ [name]) := by
  rw [typeAt?]
  cases hnode : (f.placed s o x).find? fun v => v.path.names == names ++ [name] with
  | some v =>
    have hnames := List.find?_some hnode
    rw [beq_iff_eq, Visit.names_path] at hnames
    obtain ⟨hbelow, hname⟩ := List.append_inj' hnames rfl
    obtain ⟨⟨place?, -, hfound⟩, -⟩ :=
      entryBelow?_of_placed h hfind hrel (List.mem_of_find?_eq_some hnode)
    rw [Arena.typeBelow?, ← hbelow, ← List.singleton_inj.1 hname, hfound, Option.map_some,
      Option.some_or, Option.map_some, Entry.ofHeld]
    split <;> rfl
  | none =>
    cases hlist : (f.placed s o x).find? fun v =>
        v.decl.kind == .leafList && v.path.names ++ [v.decl.name] == names ++ [name] with
    | some v =>
      have hnames := List.find?_some hlist
      rw [Bool.and_eq_true, beq_iff_eq, beq_iff_eq] at hnames
      obtain ⟨hpath, hname⟩ := List.append_inj' hnames.2 rfl
      obtain ⟨-, hfound⟩ := entryBelow?_of_placed h hfind hrel (List.mem_of_find?_eq_some hlist)
      rw [Arena.typeBelow?, ← hpath, ← List.singleton_inj.1 hname, hfound hnames.1]
      rfl
    | none =>
      -- what is found would be one of both
      rw [Arena.typeBelow?, Option.none_or, Option.map_none, Option.map_eq_none_iff]
      cases hfound : a.entryBelow? place names name with
      | none => rfl
      | some e =>
        obtain ⟨v, hv, hnames⟩ := h.exists_of_entryBelow? hrel hfound
        rw [flatten_plan s o x f, ← placed] at hv
        rw [List.nil_append] at hnames
        rw [List.find?_eq_none] at hnode hlist
        rcases hnames with hnames | ⟨hkind, hpath, hname⟩
        · exact absurd (beq_iff_eq.2 hnames) (hnode v hv)
        · exact absurd (by simp [hkind, hpath, hname]) (hlist v hv)

/-- Where names are distinct the type declared at the names of a node is that of the node. -/
theorem typeAt?_of_placed {v : Visit} (hv : v ∈ f.placed s o x) :
    f.typeAt? s o x v.path.names = some v.decl.typeName := by
  obtain ⟨⟨place?, -, hfound⟩, -⟩ := entryBelow?_of_placed h hfind hrel hv
  rw [Visit.names_path, ← typeBelow?_eq_typeAt? h hfind hrel, Arena.typeBelow?, hfound,
    Option.map_some, Entry.ofHeld]
  split <;> rfl

/-- The names of a leaf lead to the entry with its reference, and so do those of a leaf-list with
its own name once more. -/
theorem exists_entry_of_isScalar {v : Visit} (hv : v ∈ f.placed s o x)
    (hscalar : v.decl.kind.isScalar = true) : ∃ e,
      a.entryBelow? place (if v.decl.kind = .leafList then v.path.names else v.below.names)
        v.decl.name = some e ∧
      e.target? = (Resource.referenceOf? s o id v).map (·.target) := by
  obtain ⟨⟨place?, hplace, hentry⟩, hown⟩ := entryBelow?_of_placed h hfind hrel hv
  by_cases hkind : v.decl.kind = .leafList
  · rw [if_pos hkind]
    exact ⟨_, hown hkind, rfl⟩
  · have hcontainer : v.decl.kind.hasContainer = false := by
      cases hv : v.decl.kind with
      | leaf => rfl
      | leafList => exact absurd hv hkind
      | container | list | choice | case | rpc =>
        rw [hv] at hscalar
        cases hscalar
    rw [hcontainer] at hplace
    obtain rfl := Option.not_isSome_iff_eq_none.1 (Bool.eq_false_iff.1 hplace)
    rw [if_neg hkind]
    exact ⟨_, hentry, rfl⟩

end

end Forest

/-! ### Written targets -/

namespace Resource

variable {x : Resource} {root : Nat}

theorem IsTidy.isBare_of_descend? (h : x.IsTidy) {id place : Nat} {names : List String}
    (hplace : x.arena.descend? id names = some place) : ∀ n ∈ names, IsBare n := by
  induction names generalizing id with
  | nil => exact fun n hn => by cases hn
  | cons name names ih =>
    rw [Arena.descend?] at hplace
    obtain ⟨child, hchild, hplace⟩ := Option.bind_eq_some_iff.1 hplace
    rw [List.forall_mem_cons]
    refine ⟨?_, ih hplace⟩
    have hnamed := List.find?_some hchild
    obtain ⟨c, hc, hname⟩ := (Option.any_eq_true _ _).1 hnamed
    rw [← beq_iff_eq.1 hname]
    exact (h child c hc).name

/-- Names that lead to an entry are bare. -/
theorem IsTidy.isBare_of_entryBelow? (h : x.IsTidy) {names : List String} {name : String}
    {e : Entry}
    (he : x.arena.entryBelow? root names name = some e) : ∀ n ∈ names ++ [name], IsBare n := by
  obtain ⟨c, hc, he⟩ := Option.bind_eq_some_iff.1 he
  obtain ⟨place, hplace, hc⟩ := Option.bind_eq_some_iff.1 hc
  intro n hn
  rcases List.mem_append.1 hn with hn | hn
  · exact h.isBare_of_descend? hplace n hn
  · have hnamed := List.find?_some he
    rw [List.mem_singleton.1 hn, ← beq_iff_eq.1 hnamed]
    exact ((h place c hc).entry e (List.mem_of_find?_eq_some he)).1

/-- Targets that are written alike lead to the same entry or to none. -/
theorem IsTidy.entryAt?_eq_of_text (h : x.IsTidy) {p q : Path} (hp : p.IsFolded) (hq : q.IsFolded)
    (htext : p.text = q.text) : x.arena.entryAt? root p = x.arena.entryAt? root q := by
  -- a target that leads to an entry has bare names, so its written form is its own
  have hsame : ∀ {p q : Path}, p.IsFolded → q.IsFolded → p.text = q.text →
      (x.arena.entryAt? root p).isSome = true → p = q := by
    rintro _ _ ⟨ns, hns, -, rfl⟩ ⟨ms, hms, hloose, rfl⟩ htext hsome
    obtain ⟨e, he⟩ := Option.isSome_iff_exists.1 hsome
    obtain ⟨names, name, rfl⟩ := (List.eq_nil_or_concat ns).resolve_left hns
    rw [List.concat_eq_append] at htext he hns ⊢
    rw [Arena.entryAt?_ofNames] at he
    rw [Path.eq_of_text_eq hns hms (h.isBare_of_entryBelow? he) hloose htext]
  cases hfirst : x.arena.entryAt? root p with
  | some e =>
    obtain rfl := hsame hp hq htext (by rw [hfirst]; rfl)
    exact hfirst.symm
  | none =>
    cases hsecond : x.arena.entryAt? root q with
    | some e =>
      obtain rfl := hsame hq hp htext.symm (by rw [hsecond]; rfl)
      rw [hfirst] at hsecond
      cases hsecond
    | none => rfl

theorem IsTidy.isFolded_of_mem_targets (h : x.IsTidy) {p : Path} (hp : p ∈ x.targets) :
    p.IsFolded := by
  obtain ⟨e, ⟨i, c, hc, he⟩, htarget⟩ := exists_of_mem_targets hp
  exact ((h i c hc).entry e he).2 p htarget

/-- A reference leads to the entry at its own target, though targets that are written alike are
looked up for the first of them. -/
theorem IsTidy.lookup?_eq (h : x.IsTidy) (hroot : x.root? = some root) {p : Path}
    (hp : p ∈ x.targets) : x.lookup? p = x.arena.entryAt? root p := by
  rw [lookup?, hroot, Option.bind_some]
  cases hfirst : x.targets.find? (·.text == p.text) with
  | none =>
    have := List.find?_eq_none.1 hfirst p hp
    exact absurd (beq_iff_eq.2 rfl) this
  | some q =>
    have htext := List.find?_some hfirst
    rw [Option.bind_some]
    exact h.entryAt?_eq_of_text (h.isFolded_of_mem_targets (List.mem_of_find?_eq_some hfirst))
      (h.isFolded_of_mem_targets hp) (beq_iff_eq.1 htext)

/-- A reference gets the type that the names of its target lead to. -/
theorem IsTidy.type_lookup? (h : x.IsTidy) (hroot : x.root? = some root)
    {typeAt? : List String → Option String}
    (hnames : ∀ names name, x.arena.typeBelow? root names name = typeAt? (names ++ [name]))
    {p : Path} (hp : p ∈ x.targets) : (x.lookup? p).map (·.typeName) = typeAt? p.unfolded := by
  obtain ⟨names, hne, -, rfl⟩ := h.isFolded_of_mem_targets hp
  obtain ⟨names, name, rfl⟩ := (List.eq_nil_or_concat names).resolve_left hne
  rw [List.concat_eq_append] at hp ⊢
  rw [h.lookup?_eq hroot hp, Arena.entryAt?_ofNames, Path.unfolded_foldKey, ← hnames]
  rfl

end Resource

/-! ### What a pass writes -/

/-- An entry without its type, if it refers to a path. -/
def Entry.untyped (e : Entry) : Entry := if e.target?.isSome then { e with typeName := "" } else e

namespace Resource

/-- All references that are recorded with a resource and with its containers. -/
def allReferences (x : Resource) : List Reference :=
  x.innerReferences ++ x.outerReferences ++ x.arena.toList.flatMap (·.references)

/-- The resource without the types of references. -/
def untyped (x : Resource) : Resource :=
  let reference (r : Reference) : Reference := { r with resolvedType? := none }
  { x with
    arena := ⟨x.arena.containers.map fun c =>
      { c with entries := c.entries.map (·.untyped), references := c.references.map reference }⟩
    innerReferences := x.innerReferences.map reference
    outerReferences := x.outerReferences.map reference }

/-- The references of a resource have the types that are declared for the names of their targets.
Finishing counts those whose targets have types, and reports each of the others once. -/
structure IsTypedBy (typeAt? : List String → Option String) (y : Resource)
    (report : FinishReport) : Prop where
  /-- An entry that refers to a path has the type that is declared for it. -/
  entry : ∀ e p, y.Has e → e.target? = some p →
    p = (Path.ofNames p.unfolded).foldKey ∧
      e.typeName = (typeAt? p.unfolded).getD typeNotFound
  /-- So have the references to the path. -/
  reference : ∀ e p, y.Has e → e.target? = some p → ∀ r ∈ y.allReferences, r.target = p →
    r.resolvedType? = some e.typeName
  /-- Reported are the entries whose targets have no type. -/
  unresolved : report.unresolved =
    (y.arena.referring.filter fun (_, _, p) => (typeAt? p.unfolded).isNone).map
      fun (i, e, p) => ⟨y.id, y.arena.fullName i, e.name, p.text⟩
  /-- All entries that refer to a path are counted or reported. -/
  count : report.resolved + report.unresolved.length = y.arena.referring.length

variable {x : Resource} {root : Nat}

theorem typeAfter_one {e : Entry} {p : Path} (h : e.target? = some p) :
    x.typeAfter 1 e = ((x.lookup? p).map (·.typeName)).getD typeNotFound := by
  simp only [typeAfter, h]
  cases x.lookup? p with
  | none => rfl
  | some d => rfl

theorem untyped_withTypes (x : Resource) (f : Findings) : (x.withTypes f).untyped = x.untyped := by
  have hentry : ∀ e, (typedEntry f e).untyped = e.untyped := by
    intro e
    unfold Entry.untyped
    rw [target?_typedEntry, typedEntry]
    cases e.target? <;> rfl
  have hreference : ∀ r, { typedReference f r with resolvedType? := none } =
      { r with resolvedType? := none } := by
    intro r
    rw [typedReference]
    split <;> rfl
  simp only [untyped, withTypes, Array.map_map, List.map_map, Function.comp_def, hentry, hreference]

theorem allReferences_withTypes (x : Resource) (f : Findings) :
    (x.withTypes f).allReferences = x.allReferences.map (typedReference f) := by
  simp only [allReferences, withTypes, Arena.toList, Array.toList_map, List.flatMap_map,
    List.map_append, List.map_flatMap]

theorem target_typedReference (f : Findings) (r : Reference) :
    (typedReference f r).target = r.target := by
  rw [typedReference]
  split <;> rfl

/-- A reference to a path that an entry refers to gets the type that the entry gets. -/
theorem resolvedType?_typedReference (hroot : x.root? = some root) {r : Reference}
    (hr : r.target ∈ x.targets) :
    (typedReference (.ofTargets x.arena root x.targets) r).resolvedType? =
      some (((x.lookup? r.target).map (·.typeName)).getD typeNotFound) := by
  rw [typedReference, Findings.get?_ofTargets, lookup?, hroot, Option.bind_some]
  cases hfirst : x.targets.find? (·.text == r.target.text) with
  | none =>
    have := List.find?_eq_none.1 hfirst r.target hr
    exact absurd (beq_iff_eq.2 rfl) this
  | some q => rfl

theorem referring_withTypes (x : Resource) (f : Findings) :
    (x.withTypes f).arena.referring =
      x.arena.referring.map fun (i, e, p) => (i, typedEntry f e, p) := by
  simp only [Arena.referring, withTypes, Arena.toList, Array.toList_map, List.zipIdx_map,
    List.flatMap_map, List.map_flatMap, List.filterMap_map, List.map_filterMap,
    Function.comp_def, Option.map_map, target?_typedEntry, Prod.map_fst, Prod.map_snd, id_eq]

theorem fullName_withTypes (x : Resource) (f : Findings) (i : Nat) :
    (x.withTypes f).arena.fullName i = x.arena.fullName i := by
  have hname : (x.withTypes f).arena.nameAt = x.arena.nameAt := by
    funext j
    rw [Arena.nameAt, Arena.nameAt, get?_withTypes, Option.map_map]
    rfl
  have htop : (x.withTypes f).arena.isSyntheticTop = x.arena.isSyntheticTop := by
    funext j
    rw [Arena.isSyntheticTop, Arena.isSyntheticTop, get?_withTypes, Option.any_map]
  have habove : (x.withTypes f).arena.ancestors i = x.arena.ancestors i := by
    refine Arena.above_congr (fun j => ?_) i i
    rw [Arena.parent?, Arena.parent?, get?_withTypes]
    cases x.arena.get? j with
    | none => rfl
    | some c => rfl
  rw [Arena.fullName, Arena.fullName, hname, htop, habove]

/-- Finishing counts the references that lead to entries and lists the others. -/
theorem report_resolveTypes (hroot : x.root? = some root) :
    x.resolveTypes.2.resolved = x.arena.referring.countP (fun (_, _, p) => (x.lookup? p).isSome) ∧
    x.resolveTypes.2.unresolved =
      (x.arena.referring.filter fun (_, _, p) => !(x.lookup? p).isSome).map
        fun (i, e, p) => ⟨x.id, x.arena.fullName i, e.name, p.text⟩ := by
  have hfound : ∀ p, (((Findings.ofTargets x.arena root x.targets).get? p).getD none).isSome =
      (x.lookup? p).isSome := by
    intro p
    rw [Findings.get?_ofTargets, lookup?, hroot, Option.bind_some]
    cases x.targets.find? (·.text == p.text) with
    | none => rfl
    | some q => exact Option.isSome_map
  rw [resolveTypes, hroot]
  simp only [targets_eq_referring, hfound, and_self]

theorem exists_of_has_retyped (hroot : x.root? = some root) {e : Entry} (h : x.retyped.Has e) :
    ∃ d, x.Has d ∧ e = x.entryAfter 1 d := by
  obtain ⟨i, c, hc, he⟩ := h
  obtain ⟨c', hc', hentries⟩ := exists_of_retyped hroot hc
  rw [hentries] at he
  obtain ⟨d, hd, rfl⟩ := List.mem_map.1 he
  exact ⟨d, ⟨i, c', hc', hd⟩, rfl⟩

/-- Where names lead to declared types, a pass gives each reference the type that is declared for
its target. -/
theorem IsTidy.isTypedBy_retyped (h : x.IsTidy) (hroot : x.root? = some root)
    {typeAt? : List String → Option String}
    (htype : ∀ p ∈ x.targets, (x.lookup? p).map (·.typeName) = typeAt? p.unfolded) :
    x.retyped.IsTypedBy typeAt? x.resolveTypes.2 := by
  have hentry : ∀ e p, x.retyped.Has e → e.target? = some p → p ∈ x.targets ∧
      e.typeName = (typeAt? p.unfolded).getD typeNotFound := by
    intro e p he htarget
    obtain ⟨d, hd, rfl⟩ := exists_of_has_retyped hroot he
    have hp := hd.mem_targets htarget
    exact ⟨hp, by rw [← htype p hp]; exact typeAfter_one htarget⟩
  have hmem : ∀ q ∈ x.arena.referring, q.2.2 ∈ x.targets := by
    intro q hq
    rw [← targets_eq_referring]
    exact List.mem_map_of_mem hq
  have hreferring : x.retyped.arena.referring = x.arena.referring.map fun (i, e, p) =>
      (i, typedEntry (.ofTargets x.arena root x.targets) e, p) := by
    rw [retyped_eq hroot, referring_withTypes]
  obtain ⟨hresolved, hunresolved⟩ := report_resolveTypes hroot
  refine ⟨fun e p he htarget => ?_, fun e p he htarget r hr hrp => ?_, ?_, ?_⟩
  · obtain ⟨hp, htypeName⟩ := hentry e p he htarget
    obtain ⟨names, -, -, rfl⟩ := h.isFolded_of_mem_targets hp
    exact ⟨by rw [Path.unfolded_foldKey], htypeName⟩
  · obtain ⟨hp, htypeName⟩ := hentry e p he htarget
    rw [retyped_eq hroot, allReferences_withTypes] at hr
    obtain ⟨r', -, rfl⟩ := List.mem_map.1 hr
    rw [target_typedReference] at hrp
    subst hrp
    rw [resolvedType?_typedReference hroot hp, htypeName, htype _ hp]
  · rw [hunresolved, hreferring, List.filter_map, List.map_map]
    have hfilter : (x.arena.referring.filter fun (_, _, p) => !(x.lookup? p).isSome) =
        x.arena.referring.filter fun (_, _, p) => (typeAt? p.unfolded).isNone := by
      refine List.filter_congr fun (i, e, p) hq => ?_
      show (!(x.lookup? p).isSome) = (typeAt? p.unfolded).isNone
      rw [← htype p (hmem _ hq), Option.isNone_map, Option.not_isSome]
    rw [hfilter, retyped_eq hroot]
    simp only [Function.comp_def, fullName_withTypes, name_typedEntry]
    rfl
  · rw [hresolved, hunresolved, hreferring, List.length_map, List.length_map,
      ← List.countP_eq_length_filter, List.length_eq_countP_add_countP
        (fun (_, _, p) => (x.lookup? p).isSome) (l := x.arena.referring)]
    simp only [Bool.not_eq_true, Bool.decide_eq_false]

theorem has_of_entryBelow? {names : List String} {name : String} {e : Entry}
    (h : x.arena.entryBelow? root names name = some e) : x.Has e := by
  obtain ⟨c, hc, he⟩ := Option.bind_eq_some_iff.1 h
  obtain ⟨place, -, hc⟩ := Option.bind_eq_some_iff.1 hc
  exact ⟨place, c, hc, List.mem_of_find?_eq_some he⟩

theorem entryBelow?_withTypes (x : Resource) (f : Findings) (root : Nat) (names : List String)
    (name : String) : (x.withTypes f).arena.entryBelow? root names name =
      (x.arena.entryBelow? root names name).map (typedEntry f) := by
  rw [Arena.entryBelow?, Arena.entryBelow?, descend?_withTypes]
  cases x.arena.descend? root names with
  | none => rfl
  | some place => exact entryNamed?_withTypes x f place name

end Resource

/-! ### The result -/

namespace ResourceSet

open Resource

variable {s t u : ResourceSet} {o : Options} {f : Forest}

/-- After the whole schema has been compiled its new root container holds what is placed. -/
theorem hosts_of_compile (hs : s.Instantiated) (hmode : s.mode = .full) (ht : t.blank = s)
    (hbare : f.scalarsBare = true) {stats : Stats} (h : t.compile o f = (u, .ok stats))
    {x y : Resource} (hx : t.get? rootId = some x) (hy : u.get? rootId = some y) :
    y.arena.Hosts s o rootId x.arena.size (x.arena.size + 1) (f.plan s o x.unlevelled) := by
  have htop : HasTop s x := ⟨hmode, hs.id_eq ht hx⟩
  have hid : x.unlevelled.id = rootId := htop.2
  obtain rfl := Option.some.inj (hy.symm.trans (Forest.grow_of_compile_again hs ht hbare h hx))
  have hpath : x.unlevelled.path.length = 0 := congrArg Path.length (hs.path_root ht hx)
  have hlist := Forest.toList_grow_full (s := s) (o := o) (x := x.unlevelled) htop hpath f
  have hsize : x.unlevelled.arena.size = x.arena.toList.length := rfl
  rw [laidOut, placedIn, hsize, show x.unlevelled.arena = x.arena from rfl,
    Arena.modify_append_right, List.modify_zero_cons, List.length_append, List.length_singleton,
    containersAll_eq_slots, Container.receiveAll_eq_filled, hid] at hlist
  have hget : ∀ i, (f.grow s o x.unlevelled).arena.get? i =
      (f.grow s o x.unlevelled).arena.toList[i]? := by
    intro i
    rw [Arena.get?, ← Array.getElem?_toList]
    rfl
  rw [← Arena.length_toList x.arena]
  refine ⟨⟨(Container.ofName "root" none).filled s o rootId
    (placesAll (x.arena.toList.length + 1) (f.plan s o x.unlevelled)), ?_, rfl, rfl⟩,
    fun i t ht => ?_⟩
  · rw [hget, hlist, List.append_assoc, List.getElem?_append_right (Nat.le_refl _), Nat.sub_self]
    rfl
  · rw [hget, hlist, List.getElem?_append_right (by simp), List.getElem?_map]
    simp [ht]

/-- After the whole schema has been compiled, names lead to the declared types, and each placed
value has an entry that refers to the path of its reference. -/
theorem found_of_compile (hs : s.Instantiated) (hmode : s.mode = .full) (ht : t.blank = s)
    (hbare : f.scalarsBare = true) (hdistinct : f.distinctSiblings = true) {stats : Stats}
    (h : t.compile o f = (u, .ok stats)) {r x : Resource} (hr : s.get? rootId = some r)
    (hx : u.get? rootId = some x) :
    (∀ names name,
      x.arena.typeBelow? t.topSize names name = f.typeAt? s o r (names ++ [name])) ∧
    (∀ v ∈ f.placed s o r, f.typeAt? s o r v.path.names = some v.decl.typeName) ∧
    ∀ v ∈ f.placed s o r, v.decl.kind.isScalar = true → ∃ e,
      x.arena.entryBelow? t.topSize
        (if v.decl.kind = .leafList then v.path.names else v.below.names) v.decl.name = some e ∧
      e.target? = Reference.target? o.overrides v.path v.decl := by
  obtain ⟨x₀, hx₀, hblank⟩ := exists_get?_of_blank ht hs.blank hr
  have hsame : x₀.unlevelled.blank = r.blank := hblank
  have hid : x₀.unlevelled.id = rootId := show x₀.id = rootId from hs.id_eq ht hx₀
  have hself : s.get? x₀.unlevelled.id = some x₀.unlevelled.blank := by
    rw [hid, ← ht, get?_blank, hx₀]
    rfl
  have hsize : t.topSize = x₀.arena.size := by
    rw [topSize, hx₀]
    rfl
  have hhosts := hosts_of_compile hs hmode ht hbare h hx₀ hx
  have hfind : Findable (f.plan s o x₀.unlevelled) :=
    f.findable_plan (congrArg Path.length (hs.path_root ht hx₀)) hdistinct
  have hrel : RelatesAll (fun u v => v.below = u.path) (fun v => v.below.names = [])
      (f.plan s o x₀.unlevelled) :=
    (Forest.relates_path_of_blank hs hself).imp fun v hv => by
      rw [hv ⟨hmode, hid⟩]
      rfl
  rw [hsize, ← Forest.placed_of_blank hsame, ← Forest.typeAt?_of_blank hsame]
  refine ⟨Forest.typeBelow?_eq_typeAt? hhosts hfind hrel,
    fun v hv => Forest.typeAt?_of_placed hhosts hfind hrel hv, fun v hv hscalar => ?_⟩
  obtain ⟨e, he, htarget⟩ := Forest.exists_entry_of_isScalar hhosts hfind hrel hv hscalar
  exact ⟨e, he, by rw [htarget, target_referenceOf?, if_pos hscalar]⟩

/-- Finishing counts and reports what the pass over the references of the whole schema does. -/
theorem report_finish_full (hmode : u.mode = .full) {x : Resource} (hx : u.get? rootId = some x) :
    u.resolveTypes = (u.modify rootId fun _ => x.retyped, x.resolveTypes.2) ∧
      u.finish.2 = { x.resolveTypes.2 with stateful := u.finish.1.markedCount } := by
  have hresolve : u.resolveTypes = (u.modify rootId fun _ => x.retyped, x.resolveTypes.2) := by
    rw [resolveTypes, hmode, hx]
    rfl
  refine ⟨hresolve, ?_⟩
  rw [finish, hresolve]

/-- After any calls and a successful build of the whole schema, all without overrides, where leafs
and leaf-lists have nothing below them and siblings have distinct names: the pass over the
references changes their types and nothing else. A placed node has its type declared at its names;
at other names there is one only for a leaf-list whose name comes twice. Each placed value has an
entry that refers to the path of its expression. The entries that refer to a path, and the
references to it, have the type that is declared at its names; where none is, the entry is reported
once. -/
theorem references_typed_of_build {m : ResourceMap} (hs : ofMap m .full = .ok s) {cs : List Call}
    (hcs : ∀ c ∈ cs, c.IsPlain) (ho : o.overrides = {}) (hbare : f.scalarsBare = true)
    (hdistinct : f.distinctSiblings = true) {stats : Stats} {report : FinishReport}
    (h : (s.performAll cs).build o f = (t, .ok (stats, report))) :
    ∃ r w x y root, s.get? rootId = some r ∧
      (s.performAll cs).compile o f = (w, .ok stats) ∧ w.get? rootId = some x ∧
      t.get? rootId = some y ∧ y.root? = some root ∧
      w.resolveTypes.1 = w.modify rootId (fun _ => y) ∧ y.untyped = x.untyped ∧
      (∀ v ∈ f.placed s o r, f.typeAt? s o r v.path.names = some v.decl.typeName) ∧
      (∀ names, f.typeAt? s o r names = none ↔ ∀ v ∈ f.placed s o r, v.path.names ≠ names ∧
        (v.decl.kind = .leafList → v.path.names ++ [v.decl.name] ≠ names)) ∧
      (∀ v ∈ f.placed s o r, v.decl.kind.isScalar = true → ∃ e, y.Has e ∧
        y.arena.entryBelow? root
          (if v.decl.kind = .leafList then v.path.names else v.below.names) v.decl.name = some e ∧
        e.target? = v.decl.reference?.bind fun expr => (Expression.resolve expr v.path).toOption) ∧
      y.IsTypedBy (f.typeAt? s o r) report := by
  have hinst := instantiated_ofMap hs
  obtain ⟨hmode, r, hr, -⟩ := exists_root_ofMap hs
  have hsound := hinst.sound.performAll hinst cs
  have htidy := hinst.isTidy.performAll hinst hinst.sound hcs
  generalize s.performAll cs = t₀ at h hsound htidy ⊢
  obtain ⟨w, hw, hfinish⟩ := build_eq_ok h
  have hwsound := hsound.compile hinst o f
  have hwtidy := htidy.compile hinst hsound ho f
  rw [hw] at hwsound hwtidy
  obtain ⟨x, hx, -⟩ := exists_get?_of_blank hwsound.blank hinst.blank hr
  have hwmode : w.mode = .full := hwsound.mode_eq.trans hmode
  have hroot : x.root? = some t₀.topSize := root?_of_compile hinst hmode hsound hw hx
  obtain ⟨hnames, hplaced, hvalues⟩ :=
    found_of_compile hinst hmode hsound.blank hbare hdistinct hw hr hx
  have hy := get?_finish_full hwmode hx (hinst.id_eq hwsound.blank hx)
  obtain ⟨hresolve, hreport⟩ := report_finish_full hwmode hx
  rw [hfinish] at hy hreport
  -- the pass finds the declared types
  have htyped := (hwtidy _ x hx).isTypedBy_retyped hroot fun p hp =>
    (hwtidy _ x hx).type_lookup? hroot hnames hp
  refine ⟨r, w, x, x.retyped, t₀.topSize, hr, hw, hx, hy, ?_, ?_, ?_, hplaced,
    fun names => Forest.typeAt?_eq_none, fun v hv hscalar => ?_, ?_⟩
  · rw [root?_retyped, hroot]
  · rw [hresolve]
  · rw [retyped_eq hroot, untyped_withTypes]
  · obtain ⟨e, he, htarget⟩ := hvalues v hv hscalar
    have hfound := entryBelow?_withTypes x (.ofTargets x.arena t₀.topSize x.targets) t₀.topSize
      (if v.decl.kind = .leafList then v.path.names else v.below.names) v.decl.name
    rw [← retyped_eq hroot, he, Option.map_some] at hfound
    refine ⟨_, has_of_entryBelow? hfound, hfound, ?_⟩
    rw [target?_typedEntry, htarget, Reference.target?, ho]
    rfl
  · have hreport : report = { x.resolveTypes.2 with stateful := t.markedCount } := hreport
    rw [hreport]
    exact ⟨htyped.entry, htyped.reference, htyped.unresolved, htyped.count⟩

/-- A list with a key, a choice, leaf-lists and four references, compiled twice: to a leaf below a
choice, to a key in spite of a predicate, to the value of a leaf-list and to nothing. -/
theorem references_typed_of_build_twice :
    let leafref (name expr : String) (kind : Kind) : Node :=
      ⟨({ name, kind } : Declaration).withReference expr, []⟩
    let choice : Node := ⟨{ name := "c", kind := .choice },
      [("k", ⟨{ name := "k", kind := .case }, [("name", .ofLeaf "name" "string")]⟩)]⟩
    let list : Node := ((Node.ofList "b" "id").withChild (.ofLeaf "id" "uint32")).withChild
      (leafref "r" "../../name" .leaf)
    let a : Node := (((((((Node.ofKind .container "a").withChild choice).withChild list).withChild
      (.ofLeafList "tags" "uint8")).withChild (leafref "t" "/m:a/m:b[m:id='1']/m:id" .leafList)).withChild
      (leafref "u" "/a/tags/tags" .leaf))).withChild (leafref "v" "../zz" .leaf)
    let f := Forest.ofModules [{ name := "m", nodes := [("a", a)] }]
    ∃ s t stats report r y, ofMap {} .full = .ok s ∧
      (s.performAll [.build {} f]).build {} f = (t, .ok (stats, report)) ∧
      s.get? rootId = some r ∧ t.get? rootId = some y ∧ y.IsTypedBy (f.typeAt? s {} r) report ∧
      [["a", "name"], ["a", "b", "id"], ["a", "tags", "tags"], ["a", "zz"]].map (f.typeAt? s {} r) =
        [some "string", some "uint32", some "uint8", none] ∧
      report.unresolved.length = 2 := by
  intro leafref choice list a f
  obtain ⟨s, hs, htest⟩ := exists_ok_of_any
    (p := fun s => ((s.performAll [.build {} f]).build {} f).2.toOption.any
        (·.2.unresolved.length == 2) &&
      (s.get? rootId).any fun r =>
        [["a", "name"], ["a", "b", "id"], ["a", "tags", "tags"], ["a", "zz"]].map (f.typeAt? s {} r) ==
          [some "string", some "uint32", some "uint8", none])
    (show (ofMap {} .full).toOption.any _ = true by decide +kernel)
  rw [Bool.and_eq_true] at htest
  obtain ⟨⟨stats, report⟩, hresult, hcount⟩ := exists_ok_of_any htest.1
  have hcs : ∀ c ∈ [Call.build {} f], c.IsPlain := by
    intro c hc
    rw [List.mem_singleton.1 hc]
    rfl
  obtain ⟨r, w, x, y, root, hr, -, -, hy, -, -, -, -, -, -, htyped⟩ :=
    references_typed_of_build hs hcs rfl (by decide +kernel) (by decide +kernel)
      (Prod.ext rfl hresult)
  rw [hr, Option.any_some, beq_iff_eq] at htest
  exact ⟨s, _, stats, report, r, y, hs, Prod.ext rfl hresult, hr, hy, htyped, htest.2,
    beq_iff_eq.1 hcount⟩

end ResourceSet

end YangPartition
