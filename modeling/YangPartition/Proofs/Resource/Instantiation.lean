import Mathlib.Data.List.Basic
import Mathlib.Data.List.Forall2
import YangPartition.Proofs.Outcome
import YangPartition.Proofs.Path.Written
import YangPartition.Proofs.Resource.Blank
import YangPartition.Resource.Declare

/-!
# The resources of a map

A set of resources that comes from a map is numbered by the places of its
resources. The root resource stands at the empty path, and no two declared
resources have the same names: the written paths that the map's resources are
compared by tell names apart. Nothing has been compiled into the set.
-/

namespace YangPartition

namespace ResourceSet

/-- What a set of resources is before anything is compiled into it. -/
structure Instantiated (s : ResourceSet) : Prop where
  /-- The resources are numbered by their places. -/
  ids : s.toList.map (·.id) = List.range s.size
  /-- The root resource stands first, at the empty path. -/
  top : ∃ r, s.get? Resource.rootId = some r ∧ r.path = .root
  /-- The paths of the declared resources can be written and are not empty. -/
  writable : ∀ r ∈ s.declared, r.path.Writable ∧ r.path.names ≠ []
  /-- No two declared resources have the same names. -/
  distinct : s.declared.Pairwise fun a b => a.path.names ≠ b.path.names
  /-- Nothing has been compiled. -/
  blank : s.blank = s

theorem length_toList (s : ResourceSet) : s.toList.length = s.size := by
  simp [toList, size]

theorem get?_eq_toList (s : ResourceSet) (i : Nat) : s.get? i = s.toList[i]? := by
  simp [get?, toList]

theorem mem_toList_iff {s : ResourceSet} {r : Resource} :
    r ∈ s.toList ↔ ∃ i, s.get? i = some r := by
  simp only [get?_eq_toList, List.mem_iff_getElem?]

/-- The declared resources come behind the root resource. -/
theorem mem_declared_iff {s : ResourceSet} {r : Resource} :
    r ∈ s.declared ↔ ∃ i, s.get? (i + 1) = some r := by
  simp only [get?_eq_toList, declared, List.mem_iff_getElem?, List.getElem?_drop, Nat.add_comm]

theorem lt_size {s : ResourceSet} {i : Nat} {r : Resource} (h : s.get? i = some r) : i < s.size :=
  (Array.getElem?_eq_some_iff.1 h).1

/-- The resources are numbered by their places, whatever has been compiled. -/
theorem Instantiated.id_eq {s t : ResourceSet} (hs : s.Instantiated) (ht : t.blank = s) {i : Nat}
    {x : Resource} (h : t.get? i = some x) : x.id = i := by
  have hblank : s.get? i = some x.blank := by rw [← ht, get?_blank, h, Option.map_some]
  have hids := congrArg (·[i]?) hs.ids
  simp only [List.getElem?_map] at hids
  rw [← get?_eq_toList, hblank, Option.map_some] at hids
  obtain ⟨hlt, heq⟩ := List.getElem?_eq_some_iff.1 hids.symm
  rw [List.getElem_range] at heq
  exact heq.symm

/-- A resource is found under its number. -/
theorem Instantiated.get?_of_mem {s t : ResourceSet} (hs : s.Instantiated) (ht : t.blank = s)
    {x : Resource} (h : x ∈ t.toList) : t.get? x.id = some x := by
  obtain ⟨i, hi⟩ := mem_toList_iff.1 h
  rw [hs.id_eq ht hi]
  exact hi

/-- Nothing has been compiled into the resources of a map. -/
theorem Instantiated.blank_eq {s : ResourceSet} (hs : s.Instantiated) {id : Nat} {x : Resource}
    (hx : s.get? id = some x) : x.blank = x := by
  have := get?_blank s id
  rw [hs.blank, hx, Option.map_some] at this
  exact (Option.some.inj this).symm

/-- A resource without its contents is found under its number. -/
theorem Instantiated.get?_self {s t : ResourceSet} (hs : s.Instantiated) (ht : t.blank = s)
    {id : Nat} {x : Resource} (hx : t.get? id = some x) : s.get? x.id = some x.blank := by
  rw [hs.id_eq ht hx, ← ht, get?_blank, hx, Option.map_some]

/-! ### Adding a resource -/

/-- A view of resources that does not look at the resources below. -/
def IgnoresChildren {α : Type} (f : Resource → α) : Prop :=
  ∀ r children, f { r with children } = f r

/-- A view that ignores the resources below sees the set with one more resource at its end. -/
theorem map_toList_add {α : Type} {f : Resource → α} (hf : IgnoresChildren f) (s : ResourceSet)
    (r : Resource) (parent : Nat) :
    (s.add r parent).toList.map f = s.toList.map f ++ [f r] := by
  have hmodify : ∀ (l : List Resource) (i : Nat),
      (l.modify i fun above => { above with children := above.children ++ [r.id] }).map f = l.map f := by
    intro l i
    refine List.ext_getElem? fun j => ?_
    rw [List.getElem?_map, List.getElem?_map, List.getElem?_modify]
    cases l[j]? with
    | none => simp
    | some x => by_cases h : i = j <;> simp [h, hf x]
  simp only [add, modify, toList, Array.toList_modify, Array.toList_push]
  rw [hmodify, List.map_append]
  rfl

theorem size_add (s : ResourceSet) (r : Resource) (parent : Nat) :
    (s.add r parent).size = s.size + 1 := by
  simp [size, add, modify]

/-- The resources of a set with one more. -/
theorem get?_add (s : ResourceSet) (r : Resource) (parent i : Nat) :
    (s.add r parent).get? i = (if i = s.size then some r else s.get? i).map fun above =>
      if parent = i then { above with children := above.children ++ [r.id] } else above := by
  have hpush : ResourceSet.get? { s with resources := s.resources.push r } i =
      if i = s.size then some r else s.get? i := by
    simp only [get?, size]
    exact Array.getElem?_push
  rw [add, get?_modify, hpush]
  by_cases hi : parent = i
  · simp only [if_pos hi]
  · simp only [if_neg hi, Option.map_id']

/-- Another resource changes nothing about one in the set but its children. -/
theorem exists_get?_add {s : ResourceSet} {i : Nat} {x : Resource} (h : s.get? i = some x)
    (r : Resource) (parent : Nat) :
    ∃ children, (s.add r parent).get? i = some { x with children } := by
  rw [get?_add, if_neg (Nat.ne_of_lt (lt_size h)), h, Option.map_some]
  split
  · exact ⟨_, rfl⟩
  · exact ⟨_, rfl⟩

theorem exists_get?_add_size (s : ResourceSet) (r : Resource) (parent : Nat) :
    ∃ children, (s.add r parent).get? s.size = some { r with children } := by
  rw [get?_add, if_pos rfl, Option.map_some]
  split
  · exact ⟨_, rfl⟩
  · exact ⟨_, rfl⟩

theorem Instantiated.size_pos {s : ResourceSet} (h : s.Instantiated) : 0 < s.size := by
  obtain ⟨r, hr, -⟩ := h.top
  exact lt_size hr

/-- A view of the declared resources with one more resource. -/
theorem map_declared_add {α : Type} {f : Resource → α} (hf : IgnoresChildren f) {s : ResourceSet}
    (h : 0 < s.size) (r : Resource) (parent : Nat) :
    (s.add r parent).declared.map f = s.declared.map f ++ [f r] := by
  rw [declared, declared, List.map_drop, List.map_drop, map_toList_add hf,
    List.drop_append_of_le_length (by rw [List.length_map, length_toList]; exact h)]

/-- Nothing has been compiled when every resource is as it is without contents. -/
theorem blank_eq_self_iff (s : ResourceSet) : s.blank = s ↔ ∀ r ∈ s.toList, r.blank = r := by
  constructor
  · intro h r hr
    have : s.toList.map (·.blank) = s.toList.map id := by
      rw [← toList_blank, h, List.map_id]
    exact List.map_inj_left.1 this r hr
  · intro h
    refine ext_get? rfl fun i => ?_
    rw [get?_blank]
    cases hr : s.get? i with
    | none => rfl
    | some r =>
      simp [h r (mem_toList_iff.2 ⟨i, hr⟩)]

/-- Adding a blank resource with a new path keeps the set as it has to be. -/
theorem Instantiated.add {s : ResourceSet} (h : s.Instantiated) {r : Resource} {parent : Nat}
    (hid : r.id = s.size) (hblank : r.blank = r) (hw : r.path.Writable) (hne : r.path.names ≠ [])
    (hnew : ∀ a ∈ s.declared, a.path.names ≠ r.path.names) : (s.add r parent).Instantiated where
  ids := by
    rw [map_toList_add fun _ _ => rfl, h.ids, size_add, List.range_succ, hid]
  top := by
    obtain ⟨top, htop, hpath⟩ := h.top
    obtain ⟨children, hget⟩ := exists_get?_add htop r parent
    exact ⟨_, hget, hpath⟩
  writable := by
    have hmap := map_declared_add (f := (·.path)) (fun _ _ => rfl) h.size_pos r parent
    intro a ha
    have hmem : a.path ∈ (s.add r parent).declared.map (·.path) := List.mem_map_of_mem ha
    rw [hmap, List.mem_append] at hmem
    rcases hmem with hmem | hmem
    · obtain ⟨b, hb, hpath⟩ := List.mem_map.1 hmem
      rw [← hpath]
      exact h.writable b hb
    · rw [List.mem_singleton.1 hmem]
      exact ⟨hw, hne⟩
  distinct := by
    have hmap := map_declared_add (f := (·.path.names)) (fun _ _ => rfl) h.size_pos r parent
    have hpair : ((s.add r parent).declared.map (·.path.names)).Pairwise (· ≠ ·) := by
      rw [hmap, List.pairwise_append]
      refine ⟨List.pairwise_map.2 h.distinct, List.pairwise_singleton .., ?_⟩
      intro names hnames names' hnames'
      obtain ⟨a, ha, rfl⟩ := List.mem_map.1 hnames
      rw [List.mem_singleton.1 hnames']
      exact hnew a ha
    exact List.pairwise_map.1 hpair
  blank := by
    rw [blank_eq_self_iff]
    have hmap := map_toList_add (f := fun a => a.blank = a)
      (fun a _ => propext ((Resource.blank_eq_self_iff _).trans a.blank_eq_self_iff.symm)) s r parent
    intro a ha
    have hmem : (a.blank = a) ∈ (s.add r parent).toList.map fun a => a.blank = a :=
      List.mem_map_of_mem (f := fun a : Resource => a.blank = a) ha
    rw [hmap, List.mem_append] at hmem
    rcases hmem with hmem | hmem
    · obtain ⟨b, hb, hab⟩ := List.mem_map.1 hmem
      exact hab ▸ (blank_eq_self_iff s).1 h.blank b hb
    · rw [List.mem_singleton.1 hmem]
      exact hblank

/-! ### Declarations -/

theorem instantiated_ofMode (mode : Mode) : (ofMode mode).Instantiated where
  ids := rfl
  top := ⟨.top, rfl, rfl⟩
  writable := fun _ h => by cases h
  distinct := List.Pairwise.nil
  blank := by simp [ResourceSet.blank, ofMode, Resource.top, Resource.blank]

/-- Paths are read below a resource when all texts are paths. -/
theorem readBelow_eq_ok {above : Path} {texts : List String} {ps : List Path} :
    readBelow above texts = .ok ps ↔
      List.Forall₂ (fun text p => ∃ q, Path.parse text = .ok q ∧ p = above.join q.bare) texts ps := by
  induction texts generalizing ps with
  | nil =>
    constructor
    · intro h
      obtain rfl := Except.ok.inj h
      exact .nil
    · intro h
      cases h
      rfl
  | cons text texts ih =>
    rw [readBelow, List.mapM_cons, List.forall₂_cons_left_iff]
    simp only [except_bind_eq_ok]
    constructor
    · rintro ⟨p, ⟨q, hq, hp⟩, rest, hrest, hps⟩
      obtain rfl := Except.ok.inj hp
      obtain rfl := Except.ok.inj hps
      exact ⟨_, rest, ⟨q, hq, rfl⟩, ih.1 hrest, rfl⟩
    · rintro ⟨p, rest, ⟨q, hq, rfl⟩, hrest, rfl⟩
      exact ⟨_, ⟨q, hq, rfl⟩, rest, ih.2 hrest, rfl⟩

/-- What a declaration makes: a resource under the next number, at the path below the resource
above, which no declared resource has. -/
theorem declaredResource_eq_ok {s : ResourceSet} {parent r : Resource} {text : String}
    {d : Declared} : s.declaredResource parent text d = .ok r ↔
      ∃ relative excludes subResources, Path.parse text = .ok relative ∧ relative.names ≠ [] ∧
        (∀ a ∈ s.declared, a.path.nameText ≠ (parent.path.join relative.bare).nameText) ∧
        readBelow (parent.path.join relative.bare) d.excludes = .ok excludes ∧
        readBelow (parent.path.join relative.bare) d.subResources = .ok subResources ∧
        r = {
          id := s.size
          path := parent.path.join relative.bare
          topName := if parent.isRoot then relative.names.headD "" else parent.topName
          parent? := some parent.id
          excludes
          subResources } := by
  have hempty : ∀ relative : Path, relative.bare.isEmpty = true ↔ relative.names = [] := by
    intro relative
    rw [Path.isEmpty_iff, Path.names_bare]
  have hseen : ∀ path : Path, s.declared.any (·.pathText == path.nameText) = true ↔
      ¬ ∀ a ∈ s.declared, a.path.nameText ≠ path.nameText := by
    intro path
    rw [List.any_eq_true]
    simp only [beq_iff_eq, not_forall, not_not, exists_prop, Resource.pathText]
  rw [declaredResource]
  constructor
  · intro h
    obtain ⟨relative, hparse, h⟩ := except_bind_eq_ok.1 h
    simp only at h
    split at h
    · cases h
    next hne =>
    split at h
    · cases h
    next hnew =>
    obtain ⟨excludes, hexcludes, h⟩ := except_bind_eq_ok.1 h
    obtain ⟨subResources, hsub, h⟩ := except_bind_eq_ok.1 h
    obtain rfl := Except.ok.inj h
    rw [hempty] at hne
    rw [hseen, not_not] at hnew
    exact ⟨relative, excludes, subResources, hparse, hne, hnew, hexcludes, hsub,
      by rw [Path.names_bare]⟩
  · rintro ⟨relative, excludes, subResources, hparse, hne, hnew, hexcludes, hsub, rfl⟩
    rw [hparse]
    simp only [bind, Except.bind]
    rw [if_neg (fun h => hne ((hempty relative).1 h)), if_neg fun h => (hseen _).1 h hnew,
      hexcludes, hsub, Path.names_bare]
    rfl

/-- The set with the resource of a declaration is as it has to be. -/
theorem Instantiated.add_declared {s : ResourceSet} (h : s.Instantiated) {parent r : Resource}
    (hp : parent.path.Writable) {text : String} {d : Declared}
    (hr : s.declaredResource parent text d = .ok r) :
    (s.add r parent.id).Instantiated ∧ r.path.Writable := by
  obtain ⟨relative, excludes, subResources, hparse, hne, hnew, -, -, rfl⟩ :=
    declaredResource_eq_ok.1 hr
  have hw : (parent.path.join relative.bare).Writable :=
    hp.join (Path.writable_of_parse hparse).bare
  have hnames : (parent.path.join relative.bare).names ≠ [] := by
    rw [Path.names_join, Path.names_bare]
    exact List.append_ne_nil_of_right_ne_nil _ hne
  refine ⟨h.add rfl rfl hw hnames fun a ha hsame => ?_, hw⟩
  exact hnew a ha ((Path.nameText_eq_iff (h.writable a ha).1 hw).2 hsame)

mutual

theorem Instantiated.declare {s t : ResourceSet} (h : s.Instantiated) {parent : Resource}
    (hp : parent.path.Writable) {text : String} (d : Declared)
    (ht : s.declare parent text d = .ok t) : t.Instantiated := by
  obtain ⟨excludes, hierarchy?, subResources⟩ := d
  rw [ResourceSet.declare] at ht
  obtain ⟨r, hr, ht⟩ := except_bind_eq_ok.1 ht
  obtain ⟨hadd, hw⟩ := h.add_declared hp hr
  exact hadd.declareOptional hw hierarchy? ht
termination_by structural d

theorem Instantiated.declareOptional {s t : ResourceSet} (h : s.Instantiated) {parent : Resource}
    (hp : parent.path.Writable) (hierarchy? : Option (List (String × Declared)))
    (ht : s.declareOptional parent hierarchy? = .ok t) : t.Instantiated := by
  cases hierarchy? with
  | none =>
    obtain rfl := Except.ok.inj ht
    exact h
  | some hierarchy => exact h.declareAll hp hierarchy ht
termination_by structural hierarchy?

theorem Instantiated.declareAll {s t : ResourceSet} (h : s.Instantiated) {parent : Resource}
    (hp : parent.path.Writable) (ds : List (String × Declared))
    (ht : s.declareAll parent ds = .ok t) : t.Instantiated := by
  match ds with
  | [] =>
    obtain rfl := Except.ok.inj ht
    exact h
  | (text, d) :: rest =>
    rw [ResourceSet.declareAll] at ht
    obtain ⟨u, hu, ht⟩ := except_bind_eq_ok.1 ht
    exact (h.declare hp d hu).declareAll hp rest ht
termination_by structural ds

end

mutual

/-- What holds of a set and of every set with one more resource holds of all sets that
declarations make of it. -/
theorem declare_induction {P : ResourceSet → Prop}
    (hadd : ∀ {s : ResourceSet} {r : Resource} {parent : Nat}, P s → P (s.add r parent))
    {s t : ResourceSet} (h : P s) {parent : Resource} {text : String} (d : Declared)
    (ht : s.declare parent text d = .ok t) : P t := by
  obtain ⟨excludes, hierarchy?, subResources⟩ := d
  rw [ResourceSet.declare] at ht
  obtain ⟨r, -, ht⟩ := except_bind_eq_ok.1 ht
  exact declareOptional_induction hadd (hadd h) hierarchy? ht
termination_by structural d

theorem declareOptional_induction {P : ResourceSet → Prop}
    (hadd : ∀ {s : ResourceSet} {r : Resource} {parent : Nat}, P s → P (s.add r parent))
    {s t : ResourceSet} (h : P s) {parent : Resource}
    (hierarchy? : Option (List (String × Declared)))
    (ht : s.declareOptional parent hierarchy? = .ok t) : P t := by
  cases hierarchy? with
  | none =>
    obtain rfl := Except.ok.inj ht
    exact h
  | some hierarchy => exact declareAll_induction hadd h hierarchy ht
termination_by structural hierarchy?

theorem declareAll_induction {P : ResourceSet → Prop}
    (hadd : ∀ {s : ResourceSet} {r : Resource} {parent : Nat}, P s → P (s.add r parent))
    {s t : ResourceSet} (h : P s) {parent : Resource} (ds : List (String × Declared))
    (ht : s.declareAll parent ds = .ok t) : P t := by
  match ds with
  | [] =>
    obtain rfl := Except.ok.inj ht
    exact h
  | (text, d) :: rest =>
    rw [ResourceSet.declareAll] at ht
    obtain ⟨u, hu, ht⟩ := except_bind_eq_ok.1 ht
    exact declareAll_induction hadd (declare_induction hadd h d hu) rest ht
termination_by structural ds

end

/-- The root resource of a map excludes nothing. -/
theorem exists_root_ofMap {m : ResourceMap} {mode : Mode} {s : ResourceSet}
    (h : ofMap m mode = .ok s) :
    s.mode = mode ∧ ∃ r, s.get? Resource.rootId = some r ∧ r.excludes = [] := by
  refine declareAll_induction (P := fun s => s.mode = mode ∧
    ∃ r, s.get? Resource.rootId = some r ∧ r.excludes = []) (fun {s r parent} hs => ?_)
    ⟨rfl, .top, rfl, rfl⟩ m.declared h
  obtain ⟨hmode, root, hroot, hexcludes⟩ := hs
  obtain ⟨children, hget⟩ := exists_get?_add hroot r parent
  exact ⟨hmode, _, hget, hexcludes⟩

/-- The resources of a map are numbered, distinct and without contents. -/
theorem instantiated_ofMap {m : ResourceMap} {mode : Mode} {s : ResourceSet}
    (h : ofMap m mode = .ok s) : s.Instantiated :=
  (instantiated_ofMode mode).declareAll Path.writable_root m.declared h

end ResourceSet

end YangPartition
