import Mathlib.Data.List.Nodup
import YangPartition.Proofs.Resource.Entries
import YangPartition.Proofs.Resource.Instantiation

/-!
# Resources of declarations

The resources of a map are those of its declarations, in the order of the listing: the one of a
declaration comes before those in its hierarchy. A map has resources exactly when all its texts
are paths, no declaration stands under the empty path, and no two lead to the same names.
-/

namespace YangPartition

/-! ### What a declaration says -/

/-- The names that a text is read as, none when it is no path. -/
def Path.namesIn (text : String) : List String :=
  match Path.parse text with
  | .ok p => p.names
  | .error _ => []

theorem Path.namesIn_eq {text : String} {p : Path} (h : Path.parse text = .ok p) :
    namesIn text = p.names := by
  rw [namesIn, h]

/-- The path that goes on along the names of a text. -/
def Path.below (p : Path) (text : String) : Path := p.join (.ofNames (namesIn text))

theorem Path.below_eq (p : Path) {text : String} {q : Path} (h : Path.parse text = .ok q) :
    p.below text = p.join q.bare := by
  rw [below, namesIn_eq h, bare]

theorem Path.names_below (p : Path) (text : String) :
    (p.below text).names = p.names ++ namesIn text := by
  rw [below, names_join, names_ofNames]

namespace MapEntry

/-- The names that a declaration is led to by, from the top. -/
def names (a : MapEntry) : List String := a.texts.flatMap Path.namesIn

/-- Whether the texts of a declaration are paths, and its own is not the empty one. -/
structure Readable (a : MapEntry) : Prop where
  /-- It stands under a path that is not empty. -/
  text : ∃ p, Path.parse a.text = .ok p ∧ p.names ≠ []
  /-- It excludes paths. -/
  excludes : ∀ text ∈ a.declared.excludes, ∃ p, Path.parse text = .ok p
  /-- Its sub-resources have paths. -/
  subResources : ∀ text ∈ a.declared.subResources, ∃ p, Path.parse text = .ok p

/-- Whether declarations can be told apart, and each can be read. -/
def Accepts (as : List MapEntry) : Prop := (∀ a ∈ as, a.Readable) ∧ (as.map names).Nodup

theorem Accepts.nil : Accepts [] := ⟨fun a h => (by cases h), List.nodup_nil⟩

/-- Some of the declarations can be read and told apart when all can. -/
theorem Accepts.of_append {as bs : List MapEntry} (h : Accepts (as ++ bs)) : Accepts as := by
  refine ⟨fun a ha => h.1 a (List.mem_append_left bs ha), ?_⟩
  have := h.2
  rw [List.map_append] at this
  exact this.of_append_left

theorem accepts_snoc {as : List MapEntry} {a : MapEntry} :
    Accepts (as ++ [a]) ↔ Accepts as ∧ a.Readable ∧ a.names ∉ as.map names := by
  rw [Accepts, Accepts, List.map_append, List.map_singleton, List.nodup_append_comm,
    List.singleton_append, List.nodup_cons]
  constructor
  · rintro ⟨hread, hnew, hnodup⟩
    exact ⟨⟨fun b hb => hread b (List.mem_append_left _ hb), hnodup⟩, hread a (by simp), hnew⟩
  · rintro ⟨⟨hread, hnodup⟩, ha, hnew⟩
    refine ⟨fun b hb => ?_, hnew, hnodup⟩
    rcases List.mem_append.1 hb with hb | hb
    · exact hread b hb
    · exact List.mem_singleton.1 hb ▸ ha

end MapEntry

/-! ### The resource of a declaration -/

/-- What the resource of a declaration is, the declaration having the given place among others.
The declaration around it has an earlier place, and so an earlier number. -/
structure Resource.Represents (as : List MapEntry) (k : Nat) (a : MapEntry) (r : Resource) : Prop
    where
  /-- The root resource has the first number. -/
  id_eq : r.id = k + 1
  /-- The resource above is that of the declaration around it, or the root resource. -/
  parent : (a.above = [] ∧ r.parent? = some rootId) ∨
    ∃ (j : Nat) (b : MapEntry), j < k ∧ as[j]? = some b ∧ b.texts = a.above ∧
      r.parent? = some (j + 1)
  /-- The path has the names that lead to the declaration, and no keys. -/
  path_eq : r.path = .ofNames a.names
  /-- The first name is that of the path. -/
  top : a.names.head? = some r.topName
  /-- The excluded paths continue the path. -/
  excludes : r.excludes = a.declared.excludes.map r.path.below
  /-- The paths of sub-resources continue the path. -/
  subResources : r.subResources = a.declared.subResources.map r.path.below

/-- A resource for the declarations right below some texts: the root resource, or that of the
declaration which the texts lead to. -/
def Resource.IsAbove (as : List MapEntry) (above : List String) (p : Resource) : Prop :=
  (above = [] ∧ p.id = rootId ∧ p.path = .root) ∨
    ∃ (j : Nat) (b : MapEntry), as[j]? = some b ∧ b.texts = above ∧ p.Represents as j b

namespace Resource

variable {as bs : List MapEntry} {above : List String} {k : Nat} {a : MapEntry} {p r : Resource}

/-- Declarations that come later do not matter. -/
theorem Represents.append (h : r.Represents as k a) (bs : List MapEntry) :
    r.Represents (as ++ bs) k a where
  id_eq := h.id_eq
  parent := by
    refine h.parent.imp_right ?_
    rintro ⟨j, b, hj, hb, hparent⟩
    refine ⟨j, b, hj, ?_, hparent⟩
    rw [List.getElem?_append_left (List.getElem?_eq_some_iff.1 hb).1, hb]
  path_eq := h.path_eq
  top := h.top
  excludes := h.excludes
  subResources := h.subResources

theorem Represents.withChildren (h : r.Represents as k a) (children : List Nat) :
    { r with children }.Represents as k a :=
  ⟨h.id_eq, h.parent, h.path_eq, h.top, h.excludes, h.subResources⟩

theorem IsAbove.append (h : p.IsAbove as above) (bs : List MapEntry) :
    p.IsAbove (as ++ bs) above := by
  refine h.imp_right ?_
  rintro ⟨j, b, hb, htexts, hrep⟩
  refine ⟨j, b, ?_, htexts, hrep.append bs⟩
  rw [List.getElem?_append_left (List.getElem?_eq_some_iff.1 hb).1, hb]

theorem IsAbove.path_eq (h : p.IsAbove as above) :
    p.path = .ofNames (above.flatMap Path.namesIn) := by
  rcases h with ⟨rfl, -, hroot⟩ | ⟨j, b, -, rfl, hrep⟩
  · exact hroot
  · exact hrep.path_eq

/-- The path of a declaration goes on from that of the resource above it. -/
theorem IsAbove.below_eq (h : p.IsAbove as a.above) :
    p.path.below a.text = .ofNames a.names := by
  rw [h.path_eq, MapEntry.names, MapEntry.texts, List.flatMap_append, List.flatMap_singleton,
    Path.below, Path.join, Path.ofNames, Path.ofNames, Path.ofNames, List.map_append]

end Resource

/-! ### Adding resources -/

namespace ResourceSet

/-- The numbers of the resources that have a number above them, in order. -/
def idsBelow (s : ResourceSet) (i : Nat) : List Nat :=
  (s.toList.filter fun r => r.parent? == some i).map (·.id)

theorem idsBelow_add (s : ResourceSet) (r : Resource) (parent i : Nat) :
    (s.add r parent).idsBelow i = s.idsBelow i ++ if r.parent? = some i then [r.id] else [] := by
  -- which resources have a number above them does not depend on their children
  have hview : ∀ t : ResourceSet, t.idsBelow i =
      ((t.toList.map fun x => (x.parent?, x.id)).filter fun x => x.1 == some i).map (·.2) := by
    intro t
    rw [idsBelow, List.filter_map, List.map_map]
    rfl
  rw [hview, map_toList_add (f := fun x => (x.parent?, x.id)) fun _ _ => rfl, List.filter_append,
    List.map_append, ← hview]
  by_cases hr : r.parent? = some i
  · simp [hr]
  · simp [hr]

/-- What a set is after the resources of some declarations have been added to it. -/
structure Builds (s : ResourceSet) (as : List MapEntry) : Prop where
  /-- The declarations can be read and told apart. -/
  accepts : MapEntry.Accepts as
  /-- The set is as it has to be. -/
  inst : s.Instantiated
  /-- There is one resource for each, besides the root resource. -/
  size_eq : s.size = as.length + 1
  /-- The root resource has nothing but children. -/
  root : ∃ children, s.get? Resource.rootId = some { Resource.top with children }
  /-- The resources are those of the declarations, in their order. -/
  resource : ∀ {k a}, as[k]? = some a → ∃ r, s.get? (k + 1) = some r ∧ r.Represents as k a
  /-- Below each resource are those that have it above them, in their order. -/
  children : ∀ {i p}, s.get? i = some p → p.children = s.idsBelow i

variable {s : ResourceSet} {as : List MapEntry} {above : List String} {p r : Resource}

/-- The declared resources are those of the declarations. -/
theorem Builds.exists_represents (h : s.Builds as) {i : Nat} (hr : s.get? (i + 1) = some r) :
    ∃ a, as[i]? = some a ∧ r.Represents as i a := by
  have hlt : i < as.length := by
    have := lt_size hr
    rw [h.size_eq] at this
    exact Nat.lt_of_succ_lt_succ this
  obtain ⟨r', hr', hrep⟩ := h.resource (List.getElem?_eq_getElem hlt)
  obtain rfl := Option.some.inj (hr.symm.trans hr')
  exact ⟨as[i], List.getElem?_eq_getElem hlt, hrep⟩

/-- The declared resources have the names of the declarations. -/
theorem Builds.exists_declared_iff (h : s.Builds as) (names : List String) :
    (∃ r ∈ s.declared, r.path.names = names) ↔ names ∈ as.map (·.names) := by
  have hnames : ∀ {r : Resource} {k a}, r.Represents as k a → r.path.names = a.names := by
    intro r k a hrep
    rw [hrep.path_eq, Path.names_ofNames]
  rw [List.mem_map]
  constructor
  · rintro ⟨r, hr, rfl⟩
    obtain ⟨i, hi⟩ := mem_declared_iff.1 hr
    obtain ⟨a, ha, hrep⟩ := h.exists_represents hi
    exact ⟨a, List.mem_of_getElem? ha, (hnames hrep).symm⟩
  · rintro ⟨a, ha, rfl⟩
    obtain ⟨k, hk⟩ := List.mem_iff_getElem?.1 ha
    obtain ⟨r, hr, hrep⟩ := h.resource hk
    exact ⟨r, mem_declared_iff.2 ⟨k, hr⟩, hnames hrep⟩

/-- A resource stands behind the one above it. -/
theorem Builds.parent_lt (h : s.Builds as) {i j : Nat} (hr : s.get? i = some r)
    (hparent : r.parent? = some j) : j < i := by
  cases i with
  | zero =>
    obtain ⟨children, hroot⟩ := h.root
    obtain rfl := Option.some.inj (hr.symm.trans hroot)
    cases hparent
  | succ i =>
    obtain ⟨a, -, hrep⟩ := h.exists_represents hr
    rcases hrep.parent with ⟨-, htop⟩ | ⟨k, b, hk, -, -, hbelow⟩
    · rw [hparent] at htop
      rw [Option.some.inj htop]
      exact Nat.succ_pos i
    · rw [hparent] at hbelow
      rw [Option.some.inj hbelow]
      omega

/-- Nothing is below a number that is not in use. -/
theorem Builds.idsBelow_size (h : s.Builds as) : s.idsBelow s.size = [] := by
  rw [idsBelow, List.map_eq_nil_iff, List.filter_eq_nil_iff]
  intro r hr hparent
  obtain ⟨i, hi⟩ := mem_toList_iff.1 hr
  exact Nat.lt_asymm (lt_size hi) (h.parent_lt hi (beq_iff_eq.1 hparent))

/-- One more resource becomes a child of the one above it, and of no other. -/
theorem Builds.children_add (h : s.Builds as) (hparent : r.parent? = some p.id)
    (hchildren : r.children = []) {i : Nat} {x : Resource}
    (hx : (s.add r p.id).get? i = some x) : x.children = (s.add r p.id).idsBelow i := by
  rw [get?_add] at hx
  obtain ⟨y, hy, rfl⟩ := Option.map_eq_some_iff.1 hx
  rw [idsBelow_add, hparent]
  have hbefore : y.children = s.idsBelow i := by
    split at hy
    · next hi =>
      obtain rfl := Option.some.inj hy
      rw [hi, h.idsBelow_size, hchildren]
    · exact h.children hy
  by_cases hi : p.id = i
  · rw [if_pos hi, if_pos (congrArg some hi), ← hbefore]
  · rw [if_neg hi, if_neg fun h => hi (Option.some.inj h), hbefore, List.append_nil]

/-- The resource of one more declaration is added. -/
theorem Builds.add (h : s.Builds as) {a : MapEntry} (hinst : (s.add r p.id).Instantiated)
    (ha : a.Readable ∧ a.names ∉ as.map (·.names)) (hrep : r.Represents as as.length a)
    (hparent : r.parent? = some p.id) (hchildren : r.children = []) :
    (s.add r p.id).Builds (as ++ [a]) where
  accepts := MapEntry.accepts_snoc.2 ⟨h.accepts, ha⟩
  inst := hinst
  size_eq := by rw [size_add, h.size_eq, List.length_append, List.length_singleton]
  root := by
    obtain ⟨children, hroot⟩ := h.root
    exact exists_get?_add hroot r p.id
  resource := by
    intro k b hb
    rw [List.getElem?_append] at hb
    split at hb
    · obtain ⟨x, hx, hold⟩ := h.resource hb
      obtain ⟨children, hget⟩ := exists_get?_add hx r p.id
      exact ⟨_, hget, (hold.append [a]).withChildren children⟩
    · next hk =>
      rw [List.getElem?_singleton] at hb
      split at hb
      · next hzero =>
        obtain rfl : k = as.length := by omega
        obtain rfl := Option.some.inj hb
        obtain ⟨children, hget⟩ := exists_get?_add_size s r p.id
        rw [h.size_eq] at hget
        exact ⟨_, hget, (hrep.append [a]).withChildren children⟩
      · cases hb
  children := h.children_add hparent hchildren

/-! ### One declaration -/

theorem exists_readBelow_iff {path : Path} {texts : List String} :
    (∃ ps, readBelow path texts = .ok ps) ↔ ∀ text ∈ texts, ∃ q, Path.parse text = .ok q := by
  simp only [readBelow_eq_ok]
  induction texts with
  | nil => exact iff_of_true ⟨[], .nil⟩ fun text h => (by cases h)
  | cons text texts ih =>
    rw [List.forall_mem_cons, ← ih]
    constructor
    · rintro ⟨ps, h⟩
      cases h with
      | cons hq hrest =>
        obtain ⟨q, hq, -⟩ := hq
        exact ⟨⟨q, hq⟩, _, hrest⟩
    · rintro ⟨⟨q, hq⟩, ps, hps⟩
      exact ⟨_, .cons ⟨q, hq, rfl⟩ hps⟩

/-- The paths that are read go on along the names of the texts. -/
theorem readBelow_eq_map {path : Path} {texts : List String} {ps : List Path}
    (h : readBelow path texts = .ok ps) : ps = texts.map path.below := by
  have hbelow : List.Forall₂ (fun text q => path.below text = q) texts ps :=
    (readBelow_eq_ok.1 h).imp fun text q => by
      rintro ⟨r, hr, rfl⟩
      exact Path.below_eq path hr
  rw [← List.forall₂_map_left_iff, List.forall₂_eq_eq_eq] at hbelow
  exact hbelow.symm

section

variable {a : MapEntry} {d : Declared}

/-- A resource is made for a declaration exactly when the declaration can be read and told apart
from those before. -/
theorem Builds.exists_declaredResource_iff (h : s.Builds as) (hp : p.IsAbove as a.above)
    (hw : p.path.Writable) (hexcludes : d.excludes = a.declared.excludes)
    (hsub : d.subResources = a.declared.subResources) :
    (∃ r, s.declaredResource p a.text d = .ok r) ↔
      a.Readable ∧ a.names ∉ as.map (·.names) := by
  have hnew : ∀ {q : Path}, Path.parse a.text = .ok q →
      ((∀ x ∈ s.declared, x.path.nameText ≠ (p.path.join q.bare).nameText) ↔
        a.names ∉ as.map (·.names)) := by
    intro q hq
    have hwritable := hw.join (Path.writable_of_parse hq).bare
    have hnames : (p.path.join q.bare).names = a.names := by
      rw [← Path.below_eq _ hq, hp.below_eq, Path.names_ofNames]
    rw [← h.exists_declared_iff]
    simp only [not_exists, not_and]
    refine forall₂_congr fun x hx => not_congr ?_
    rw [Path.nameText_eq_iff (h.inst.writable x hx).1 hwritable, hnames]
  simp only [declaredResource_eq_ok]
  constructor
  · rintro ⟨r, q, excludes, subResources, hq, hne, hdistinct, hexcl, hsubs, -⟩
    rw [hexcludes] at hexcl
    rw [hsub] at hsubs
    exact ⟨⟨⟨q, hq, hne⟩, exists_readBelow_iff.1 ⟨_, hexcl⟩, exists_readBelow_iff.1 ⟨_, hsubs⟩⟩,
      (hnew hq).1 hdistinct⟩
  · rintro ⟨⟨⟨q, hq, hne⟩, hexcl, hsubs⟩, hdistinct⟩
    rw [← hexcludes, ← exists_readBelow_iff] at hexcl
    rw [← hsub, ← exists_readBelow_iff] at hsubs
    obtain ⟨excludes, hexcl⟩ := hexcl
    obtain ⟨subResources, hsubs⟩ := hsubs
    exact ⟨_, q, excludes, subResources, hq, hne, (hnew hq).2 hdistinct, hexcl, hsubs, rfl⟩

/-- The resource that is made for a declaration is the one it says. -/
theorem Builds.represents (h : s.Builds as) (hp : p.IsAbove as a.above)
    (hexcludes : d.excludes = a.declared.excludes)
    (hsub : d.subResources = a.declared.subResources)
    (hr : s.declaredResource p a.text d = .ok r) : r.Represents as as.length a := by
  obtain ⟨q, excludes, subResources, hq, hne, -, hexcl, hsubs, rfl⟩ := declaredResource_eq_ok.1 hr
  refine ⟨h.size_eq, ?_, (Path.below_eq _ hq).symm.trans hp.below_eq, ?_,
    hexcludes ▸ readBelow_eq_map hexcl, hsub ▸ readBelow_eq_map hsubs⟩
  · rcases hp with ⟨habove, hid, -⟩ | ⟨j, b, hb, htexts, hrep⟩
    · exact .inl ⟨habove, congrArg some hid⟩
    · exact .inr ⟨j, b, (List.getElem?_eq_some_iff.1 hb).1, hb, htexts,
        congrArg some hrep.id_eq⟩
  · -- below the root resource the own text has the first name
    rw [MapEntry.names, MapEntry.texts, List.flatMap_append, List.flatMap_singleton,
      Path.namesIn_eq hq]
    rcases hp with ⟨habove, hid, -⟩ | ⟨j, b, hb, htexts, hrep⟩
    · rw [habove, List.flatMap_nil, List.nil_append]
      obtain ⟨name, names, hnames⟩ := List.exists_cons_of_ne_nil hne
      simp [hnames, Resource.isRoot, hid]
    · have hroot : p.isRoot = false := by
        simp [Resource.isRoot, hrep.id_eq, Resource.rootId]
      have htop := hrep.top
      rw [MapEntry.names, htexts] at htop
      rw [List.head?_append, htop, hroot]
      rfl

/-- One declaration either adds its resource, or it cannot be read and told apart. -/
theorem Builds.declaredResource_cases (h : s.Builds as) (hp : p.IsAbove as a.above)
    (hw : p.path.Writable) (hexcludes : d.excludes = a.declared.excludes)
    (hsub : d.subResources = a.declared.subResources) :
    (∃ r, s.declaredResource p a.text d = .ok r ∧ (s.add r p.id).Builds (as ++ [a]) ∧
      r.IsAbove (as ++ [a]) a.texts ∧ r.path.Writable) ∨
    (∃ e, s.declaredResource p a.text d = .error e) ∧ ¬ MapEntry.Accepts (as ++ [a]) := by
  have hmade := h.exists_declaredResource_iff hp hw hexcludes hsub
  cases hr : s.declaredResource p a.text d with
  | error e =>
    refine .inr ⟨⟨e, rfl⟩, fun haccepts => ?_⟩
    obtain ⟨r, hok⟩ := hmade.2 (MapEntry.accepts_snoc.1 haccepts).2
    rw [hr] at hok
    cases hok
  | ok r =>
    have hrep := h.represents hp hexcludes hsub hr
    obtain ⟨hinst, hwritable⟩ := h.inst.add_declared hw hr
    obtain ⟨q, excludes, subResources, -, -, -, -, -, rfl⟩ := declaredResource_eq_ok.1 hr
    refine .inl ⟨_, rfl, h.add hinst (hmade.1 ⟨_, hr⟩) hrep rfl rfl, ?_, hwritable⟩
    exact .inr ⟨as.length, a, by simp, rfl, hrep.append [a]⟩

end

/-! ### All declarations -/

/-- Whether an attempt to add declarations gives the set with their resources, or fails because
they cannot all be read and told apart. -/
def Yields (x : Except Error ResourceSet) (as : List MapEntry) : Prop :=
  (∃ t, x = .ok t ∧ t.Builds as) ∨ (∃ e, x = .error e) ∧ ¬ MapEntry.Accepts as

/-- Declarations are added one after the other. -/
theorem Yields.bind {x : Except Error ResourceSet} {f : ResourceSet → Except Error ResourceSet}
    {bs : List MapEntry} (h : Yields x as) (hf : ∀ t, t.Builds as → Yields (f t) (as ++ bs)) :
    Yields (x >>= f) (as ++ bs) := by
  rcases h with ⟨t, rfl, ht⟩ | ⟨⟨e, rfl⟩, hno⟩
  · exact hf t ht
  · exact .inr ⟨⟨e, rfl⟩, fun haccepts => hno haccepts.of_append⟩

mutual

/-- A declaration and those in its hierarchy are added in the order of the listing. -/
theorem Builds.declare {s : ResourceSet} {as : List MapEntry} {above : List String} {p : Resource}
    (h : s.Builds as) (hp : p.IsAbove as above) (hw : p.path.Writable) (text : String)
    (d : Declared) :
    Yields (s.declare p text d) (as ++ d.entries above text) := by
  obtain ⟨excludes, hierarchy?, subResources⟩ := d
  rw [ResourceSet.declare, Declared.entries, ← List.singleton_append, ← List.append_assoc]
  rcases h.declaredResource_cases (a := ⟨above, text, ⟨excludes, hierarchy?, subResources⟩⟩)
    (d := ⟨excludes, none, subResources⟩) hp hw rfl rfl with
    ⟨r, hr, hbuilds, habove, hwritable⟩ | ⟨⟨e, he⟩, hno⟩
  · rw [hr]
    exact hbuilds.declareOptional habove hwritable hierarchy?
  · rw [he]
    exact .inr ⟨⟨e, rfl⟩, fun haccepts => hno haccepts.of_append⟩
termination_by structural d

theorem Builds.declareOptional {s : ResourceSet} {as : List MapEntry} {above : List String}
    {p : Resource} (h : s.Builds as) (hp : p.IsAbove as above) (hw : p.path.Writable)
    (hierarchy? : Option (List (String × Declared))) :
    Yields (s.declareOptional p hierarchy?) (as ++ Declared.entriesOptional above hierarchy?) := by
  cases hierarchy? with
  | none =>
    refine .inl ⟨s, rfl, ?_⟩
    rw [Declared.entriesOptional, List.append_nil]
    exact h
  | some hierarchy => exact h.declareAll hp hw hierarchy
termination_by structural hierarchy?

theorem Builds.declareAll {s : ResourceSet} {as : List MapEntry} {above : List String}
    {p : Resource} (h : s.Builds as) (hp : p.IsAbove as above) (hw : p.path.Writable)
    (ds : List (String × Declared)) :
    Yields (s.declareAll p ds) (as ++ Declared.entriesAll above ds) := by
  match ds with
  | [] =>
    refine .inl ⟨s, rfl, ?_⟩
    rw [Declared.entriesAll, List.append_nil]
    exact h
  | (text, d) :: rest =>
    rw [ResourceSet.declareAll, Declared.entriesAll, ← List.append_assoc]
    exact (h.declare hp hw text d).bind fun t ht => ht.declareAll (hp.append _) hw rest
termination_by structural ds

end

/-- A map has resources exactly when its declarations can be read and told apart. -/
theorem yields_ofMap (m : ResourceMap) (mode : Mode) : Yields (ofMap m mode) m.entries := by
  have hstart : (ofMode mode).Builds [] := by
    refine ⟨.nil, instantiated_ofMode mode, rfl, ⟨[], rfl⟩, fun h => (by cases h),
      fun {i p} hp => ?_⟩
    cases i with
    | zero =>
      obtain rfl := Option.some.inj hp
      rfl
    | succ i => cases hp
  exact hstart.declareAll (.inl ⟨rfl, rfl, rfl⟩) Path.writable_root m.declared

end ResourceSet

/-! ### The resources of a map -/

/-- How a resource stands right below another: later, and at the path that goes on along a text. -/
structure Resource.StandsBelow (r p : Resource) (text : String) : Prop where
  /-- The other one is above. -/
  parent : r.parent? = some p.id
  /-- The other one has a smaller number. -/
  later : p.id < r.id
  /-- The path goes on from that of the other one. -/
  path_eq : r.path = p.path.below text

/-- Whether the paths that a resource names lie within it, and none of its paths has keys. -/
structure Resource.Encloses (r : Resource) : Prop where
  /-- No path has keys. -/
  keys : ∀ q ∈ r.path :: (r.excludes ++ r.subResources), ∀ e ∈ q.elems, e.keys = []
  /-- The named paths continue that of the resource. -/
  within : ∀ q ∈ r.excludes ++ r.subResources, r.path.names <+: q.names

theorem Path.keys_ofNames {names : List String} : ∀ e ∈ (ofNames names).elems, e.keys = [] := by
  intro e he
  obtain ⟨name, -, rfl⟩ := List.mem_map.1 he
  rfl

theorem Resource.Represents.encloses {as : List MapEntry} {k : Nat} {a : MapEntry} {r : Resource}
    (h : r.Represents as k a) : r.Encloses := by
  have hbelow : ∀ q ∈ r.excludes ++ r.subResources, ∃ text, q = r.path.below text := by
    intro q hq
    rw [h.excludes, h.subResources, ← List.map_append] at hq
    obtain ⟨text, -, rfl⟩ := List.mem_map.1 hq
    exact ⟨text, rfl⟩
  have hkeys : ∀ e ∈ r.path.elems, e.keys = [] := by
    rw [h.path_eq]
    exact Path.keys_ofNames
  refine ⟨fun q hq e he => ?_, fun q hq => ?_⟩
  · rcases List.mem_cons.1 hq with rfl | hq
    · exact hkeys e he
    · obtain ⟨text, rfl⟩ := hbelow q hq
      rcases List.mem_append.1 he with he | he
      · exact hkeys e he
      · exact Path.keys_ofNames e he
  · obtain ⟨text, rfl⟩ := hbelow q hq
    rw [Path.names_below]
    exact List.prefix_append ..

namespace ResourceSet

/-- Whether the resources of a set are those of the declarations of a map. -/
structure Declares (s : ResourceSet) (m : ResourceMap) : Prop where
  /-- There is one resource for each declaration, besides the root resource. -/
  size_eq : s.size = m.declaredCount + 1
  /-- The resources are numbered by their places. -/
  ids : s.toList.map (·.id) = List.range s.size
  /-- The root resource has nothing but children. -/
  root : ∃ children, s.get? Resource.rootId = some { Resource.top with children }
  /-- The resource of each declaration stands below that of the declaration around it. -/
  resource : ∀ {k a}, m.entries[k]? = some a → ∃ r p, s.get? (k + 1) = some r ∧ p ∈ s.toList ∧
    r.Represents m.entries k a ∧ p.IsAbove m.entries a.above ∧ r.StandsBelow p a.text ∧ r.Encloses
  /-- Each resource has those right below it as its children, in their order. -/
  children : ∀ p ∈ s.toList, p.children = s.idsBelow p.id
  /-- No child is listed twice. -/
  count : ∀ p ∈ s.toList, ∀ r ∈ s.toList,
    p.children.count r.id = if r.parent? = some p.id then 1 else 0

variable {s : ResourceSet}

/-- The resource of a declaration stands below that of the declaration around it. -/
theorem Builds.exists_above {as : List MapEntry} (h : s.Builds as) {k : Nat} {a : MapEntry}
    {r : Resource} (hr : r.Represents as k a) :
    ∃ p ∈ s.toList, p.IsAbove as a.above ∧ r.StandsBelow p a.text := by
  have hbelow : ∀ {p : Resource}, p.IsAbove as a.above → r.path = p.path.below a.text :=
    fun hp => hr.path_eq.trans hp.below_eq.symm
  rcases hr.parent with ⟨habove, hparent⟩ | ⟨j, b, hj, hb, htexts, hparent⟩
  · obtain ⟨p, hp, hpath⟩ := h.inst.top
    have hid : p.id = Resource.rootId := h.inst.id_eq h.inst.blank hp
    have hp' : p.IsAbove as a.above := .inl ⟨habove, hid, hpath⟩
    refine ⟨p, mem_toList_iff.2 ⟨_, hp⟩, hp', hid ▸ hparent, ?_, hbelow hp'⟩
    rw [hid, hr.id_eq]
    exact Nat.succ_pos k
  · obtain ⟨p, hp, hrep⟩ := h.resource hb
    have hp' : p.IsAbove as a.above := .inr ⟨j, b, hb, htexts, hrep⟩
    refine ⟨p, mem_toList_iff.2 ⟨_, hp⟩, hp', hrep.id_eq ▸ hparent, ?_, hbelow hp'⟩
    rw [hrep.id_eq, hr.id_eq]
    omega

theorem Builds.children_of_mem {as : List MapEntry} (h : s.Builds as) {p : Resource}
    (hp : p ∈ s.toList) : p.children = s.idsBelow p.id :=
  h.children (h.inst.get?_of_mem h.inst.blank hp)

/-- The resources of the declarations of a map are its resources. -/
theorem Builds.declares {m : ResourceMap} (h : s.Builds m.entries) : s.Declares m where
  size_eq := by
    rw [h.size_eq, ResourceMap.entries, Declared.length_entriesAll, ResourceMap.declaredCount]
  ids := h.inst.ids
  root := h.root
  resource := by
    intro k a ha
    obtain ⟨r, hr, hrep⟩ := h.resource ha
    obtain ⟨p, hp, habove, hbelow⟩ := h.exists_above hrep
    exact ⟨r, p, hr, hp, hrep, habove, hbelow, hrep.encloses⟩
  children := fun p hp => h.children_of_mem hp
  count := by
    intro p hp r hr
    have hids : (s.toList.map (·.id)).Nodup := by
      rw [h.inst.ids]
      exact List.nodup_range
    have hnodup : p.children.Nodup := by
      rw [h.children_of_mem hp]
      exact hids.sublist (List.filter_sublist.map _)
    have hmem : r.id ∈ p.children ↔ r.parent? = some p.id := by
      rw [h.children_of_mem hp, idsBelow, List.mem_map]
      constructor
      · rintro ⟨x, hx, hid⟩
        obtain ⟨hx, hparent⟩ := List.mem_filter.1 hx
        rw [← List.inj_on_of_nodup_map hids hx hr hid]
        exact beq_iff_eq.1 hparent
      · intro hparent
        exact ⟨r, List.mem_filter.2 ⟨hr, beq_iff_eq.2 hparent⟩, rfl⟩
    split
    · next hparent => exact List.count_eq_one_of_mem hnodup (hmem.2 hparent)
    · next hparent => exact List.count_eq_zero_of_not_mem fun h => hparent (hmem.1 h)

/-- A map has resources exactly when each of its declarations can be read and no two have the same
names. They are then numbered in the order of the listing, which goes from the top down, by the
texts that lead to the declarations. -/
theorem ofMap_declares (m : ResourceMap) (mode : Mode) :
    ((∃ s, ofMap m mode = .ok s) ↔
      (∀ a ∈ m.entries, a.Readable) ∧ (m.entries.map (·.names)).Nodup) ∧
    (∀ s, ofMap m mode = .ok s → s.mode = mode ∧ s.Declares m) ∧
    (m.Ordered → m.entries.Pairwise fun a b => a.texts < b.texts) ∧
    ∀ doc, ResourceMap.read doc = .ok m → m.Ordered := by
  refine ⟨?_, fun s hs => ⟨(exists_root_ofMap hs).1, ?_⟩, fun h => h.pairwise_entries,
    fun doc h => ResourceMap.ordered_read h⟩
  · rcases yields_ofMap m mode with ⟨t, ht, hbuilds⟩ | ⟨⟨e, he⟩, hno⟩
    · exact iff_of_true ⟨t, ht⟩ hbuilds.accepts
    · refine iff_of_false ?_ hno
      rintro ⟨s, hs⟩
      rw [he] at hs
      cases hs
  · rcases yields_ofMap m mode with ⟨t, ht, hbuilds⟩ | ⟨⟨e, he⟩, -⟩
    · obtain rfl := Except.ok.inj (hs.symm.trans ht)
      exact hbuilds.declares
    · rw [hs] at he
      cases he

/-- A map that has been read, with a declaration below another, has resources; one that declares the
same names in the hierarchy and beside it has none. -/
theorem ofMap_declares_nested :
    let empty : Document := .scalar ⟨some "", none, true, true⟩
    let paths (members : List (String × Document)) : Document :=
      .mapping false [("path", .mapping false members)]
    let doc := paths [("/m:d[k='v']", empty), ("a/", .mapping false
      [("excludes", .sequence false [.scalar ⟨some "x", none, false, false⟩]),
        ("hierarchy", .mapping false [("b", empty)])])]
    let m : ResourceMap := { declared := [("/a", { hierarchy? := some [("b", {})] }),
      ("m:a/b[k=v]", {})] }
    (∃ m s, ResourceMap.read doc = .ok m ∧ ofMap m .declared = .ok s ∧ s.Declares m ∧
      (m.entries.Pairwise fun a b => a.texts < b.texts) ∧
      m.entries.map (·.names) = [["d"], ["a"], ["a", "b"]]) ∧
    ¬ ∃ s, ofMap m .full = .ok s := by
  intro empty paths doc m
  refine ⟨?_, fun h => ?_⟩
  · obtain ⟨m, hread, htest⟩ := exists_ok_of_any
      (p := fun m => (ofMap m .declared).toOption.isSome &&
        m.entries.map (·.names) == [["d"], ["a"], ["a", "b"]])
      (show (ResourceMap.read doc).toOption.any _ = true by decide +kernel)
    rw [Bool.and_eq_true, beq_iff_eq] at htest
    obtain ⟨s, hs⟩ := exists_ok_of_isSome htest.1
    obtain ⟨-, hdeclares, hsorted, hordered⟩ := ofMap_declares m .declared
    exact ⟨m, s, hread, hs, (hdeclares s hs).2, hsorted (hordered doc hread), htest.2⟩
  · have hnodup := ((ofMap_declares m .full).1.1 h).2
    revert hnodup
    decide +kernel

end ResourceSet

end YangPartition
