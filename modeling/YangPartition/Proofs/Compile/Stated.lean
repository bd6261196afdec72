import Mathlib.Data.List.Dedup
import YangPartition.Compile.Run
import YangPartition.Proofs.Compile.Targets
import YangPartition.Proofs.Outcome
import YangPartition.Proofs.Path.Written
import YangPartition.Proofs.Text.Order

/-!
# Stated references

A map states references under texts, which are read as paths. The table that is made of them has
one target for one list of names: of texts that are spelled differently and have the same names the
last one counts. Paths of nodes have names that stand apart in the written form, so the target of a
leaf is found by the names of its path alone.
-/

namespace YangPartition

namespace Overrides

open YangPartition.Path

/-- The text is read as a path with the names. -/
def Spells (text : String) (names : List String) : Prop :=
  ∃ p, parse text = .ok p ∧ p.names = names

/-- The names along which the leaves of pairs lie, as far as their texts can be read. -/
def leafNames (pairs : NameMap String) : List (List String) :=
  pairs.filterMap fun pair => (parse pair.1).toOption.map (·.names)

/-- The pairs state a target for the names: it is folded from what the pair says whose leaf has the
names and comes last in the order of bytes. -/
def States (pairs : NameMap String) (names : List String) (target : Path) : Prop :=
  ∃ leaf remote p, (leaf, remote) ∈ pairs ∧ Spells leaf names ∧ parse remote = .ok p ∧
    target = p.foldKey ∧ ∀ pair ∈ pairs, Spells pair.1 names → Text.bytes pair.1 ≤ Text.bytes leaf

variable {pairs : NameMap String} {o o' : Overrides} {leaf remote : String} {p q r : Path}
  {names : List String}

theorem mem_leafNames_iff :
    names ∈ leafNames pairs ↔ ∃ pair ∈ pairs, Spells pair.1 names := by
  simp only [leafNames, List.mem_filterMap, Option.map_eq_some_iff, except_toOption_eq_some, Spells]

theorem spells_iff (hp : parse leaf = .ok p) : Spells leaf names ↔ p.names = names := by
  rw [Spells, hp]
  exact ⟨fun ⟨_, heq, hnames⟩ => Except.ok.inj heq ▸ hnames, fun hnames => ⟨p, rfl, hnames⟩⟩

/-! ### One pair more -/

theorem ofPairs_concat_eq_ok_iff : ofPairs (pairs ++ [(leaf, remote)]) = .ok o' ↔
    ∃ o p q, ofPairs pairs = .ok o ∧ parse leaf = .ok p ∧ parse remote = .ok q ∧
      o' = ⟨o.targets.insert p.nameText q.foldKey⟩ := by
  simp only [ofPairs, List.foldlM_append, List.foldlM_cons, List.foldlM_nil, except_bind_eq_ok]
  constructor
  · rintro ⟨o, ho, o₁, ⟨p, hp, q, hq, h₁⟩, h⟩
    obtain rfl := Except.ok.inj h₁
    exact ⟨o, p, q, ho, hp, hq, (Except.ok.inj h).symm⟩
  · rintro ⟨o, p, q, ho, hp, hq, rfl⟩
    exact ⟨o, ho, _, ⟨p, hp, q, hq, rfl⟩, rfl⟩

/-- What holds of the empty table, and is kept when a pair is added behind the others, holds of
every table that is made. -/
theorem ofPairs_induction {motive : ∀ pairs o, ofPairs pairs = .ok o → Prop}
    (nil : motive [] {} rfl)
    (concat : ∀ {pairs o leaf remote p q} (ho : ofPairs pairs = .ok o) (hp : parse leaf = .ok p)
      (hq : parse remote = .ok q), motive pairs o ho →
        motive (pairs ++ [(leaf, remote)]) ⟨o.targets.insert p.nameText q.foldKey⟩
          (ofPairs_concat_eq_ok_iff.2 ⟨o, p, q, ho, hp, hq, rfl⟩))
    (ho : ofPairs pairs = .ok o) : motive pairs o ho := by
  induction pairs using List.reverseRecOn generalizing o with
  | nil =>
    obtain rfl := Except.ok.inj ho
    exact nil
  | append_singleton pairs pair ih =>
    obtain ⟨leaf, remote⟩ := pair
    obtain ⟨o, p, q, hfirst, hp, hq, rfl⟩ := ofPairs_concat_eq_ok_iff.1 ho
    exact concat hfirst hp hq (ih hfirst)

/-- The last pair decides for the names of its leaf, and for no others. -/
theorem get?_insert (hp : p.Separated) (hq : q.Separated) (target : Path) :
    get? ⟨o.targets.insert p.nameText target⟩ q =
      if p.names = q.names then some target else o.get? q := by
  simp only [get?, NameMap.find?_insert, ← hp.nameText_eq_iff hq, eq_comm]

/-- A pair behind all others decides what is stated for the names of its leaf. -/
theorem states_concat_iff (hlast : ∀ pair ∈ pairs, pair.1 < leaf) (hp : parse leaf = .ok p)
    (hr : parse remote = .ok r) {target : Path} :
    States (pairs ++ [(leaf, remote)]) names target ↔
      if p.names = names then target = r.foldKey else States pairs names target := by
  have hmem : ∀ {pair : String × String}, pair ∈ pairs ++ [(leaf, remote)] ↔
      pair ∈ pairs ∨ pair = (leaf, remote) := by
    simp only [List.mem_append, List.mem_singleton, implies_true]
  split
  · next hnames =>
    constructor
    · rintro ⟨leaf', remote', r', hpair, -, hr', rfl, hgreatest⟩
      rcases hmem.1 hpair with hpair | hpair
      · -- an earlier leaf does not come behind the last one
        have hle := hgreatest (leaf, remote) (hmem.2 (.inr rfl)) ((spells_iff hp).2 hnames)
        exact absurd (hlast _ hpair) (String.not_lt.2 (Text.bytes_le_iff.1 hle))
      · obtain ⟨rfl, rfl⟩ := Prod.mk.inj hpair
        rw [Except.ok.inj (hr'.symm.trans hr)]
    · rintro rfl
      refine ⟨leaf, remote, r, hmem.2 (.inr rfl), (spells_iff hp).2 hnames, hr, rfl, ?_⟩
      intro pair hpair _
      rw [Text.bytes_le_iff]
      rcases hmem.1 hpair with hpair | rfl
      · exact Std.le_of_lt (hlast pair hpair)
      · exact Std.le_refl leaf
  · next hnames =>
    have hother : ¬ Spells leaf names := fun h => hnames ((spells_iff hp).1 h)
    constructor
    · rintro ⟨leaf', remote', r', hpair, hspells, hr', htarget, hgreatest⟩
      rcases hmem.1 hpair with hpair | hpair
      · exact ⟨leaf', remote', r', hpair, hspells, hr', htarget, fun pair hpair =>
          hgreatest pair (hmem.2 (.inl hpair))⟩
      · obtain ⟨rfl, rfl⟩ := Prod.mk.inj hpair
        exact absurd hspells hother
    · rintro ⟨leaf', remote', r', hpair, hspells, hr', htarget, hgreatest⟩
      refine ⟨leaf', remote', r', hmem.2 (.inl hpair), hspells, hr', htarget, ?_⟩
      intro pair hpair hspells'
      rcases hmem.1 hpair with hpair | rfl
      · exact hgreatest pair hpair hspells'
      · exact absurd hspells' hother

/-! ### All pairs -/

/-- A table is made just if all texts can be read. -/
theorem exists_ofPairs_iff : (∃ o, ofPairs pairs = .ok o) ↔
    ∀ pair ∈ pairs, (∃ p, parse pair.1 = .ok p) ∧ ∃ p, parse pair.2 = .ok p := by
  induction pairs using List.reverseRecOn with
  | nil => exact iff_of_true ⟨{}, rfl⟩ nofun
  | append_singleton pairs pair ih =>
    obtain ⟨leaf, remote⟩ := pair
    simp only [ofPairs_concat_eq_ok_iff, List.forall_mem_append, List.forall_mem_singleton, ← ih]
    constructor
    · rintro ⟨-, o, p, q, ho, hp, hq, -⟩
      exact ⟨⟨o, ho⟩, ⟨p, hp⟩, q, hq⟩
    · rintro ⟨⟨o, ho⟩, ⟨p, hp⟩, q, hq⟩
      exact ⟨_, o, p, q, ho, hp, hq, rfl⟩

/-- What is found for a path is what is stated for its names. -/
theorem get?_eq_some_iff (h : pairs.Ascending) (ho : ofPairs pairs = .ok o) (hq : q.Separated)
    {target : Path} : o.get? q = some target ↔ States pairs q.names target := by
  induction ho using ofPairs_induction with
  | nil =>
    refine iff_of_false (fun hget => ?_) fun ⟨_, _, _, hpair, _⟩ => ?_
    · cases hget
    · cases hpair
  | concat _ hp hr ih =>
    obtain ⟨hpairs, -, hlast⟩ := List.pairwise_append.1 h
    rw [get?_insert (writable_of_parse hp).separated hq,
      states_concat_iff (fun pair hpair => hlast pair hpair _ (List.mem_singleton_self _)) hp hr]
    split
    · exact Option.some_inj.trans eq_comm
    · exact ih hpairs

/-- Nothing is found for a path just if no leaf has its names. -/
theorem get?_eq_none_iff (ho : ofPairs pairs = .ok o) (hq : q.Separated) :
    o.get? q = none ↔ ∀ pair ∈ pairs, ¬ Spells pair.1 q.names := by
  induction ho using ofPairs_induction with
  | nil => exact iff_of_true rfl nofun
  | concat _ hp _ ih =>
    rw [get?_insert (writable_of_parse hp).separated hq, List.forall_mem_append,
      List.forall_mem_singleton, spells_iff hp, ← ih]
    split
    · next hnames => exact iff_of_false (Option.some_ne_none _) fun hnone => hnone.2 hnames
    · next hnames => exact (and_iff_left hnames).symm

theorem ascending_targets (ho : ofPairs pairs = .ok o) : o.targets.Ascending := by
  induction ho using ofPairs_induction with
  | nil => exact List.Pairwise.nil
  | concat _ _ _ ih => exact ih.insert _ _

theorem separated_ofNames (h : names ∈ leafNames pairs) : (ofNames names).Separated := by
  obtain ⟨pair, -, p, hp, rfl⟩ := mem_leafNames_iff.1 h
  rw [Separated, names_ofNames]
  exact (writable_of_parse hp).separated

/-- The table has the written forms of the names of leaves. -/
theorem mem_names_targets_iff (ho : ofPairs pairs = .ok o) {text : String} :
    text ∈ o.targets.names ↔ ∃ names ∈ leafNames pairs, (ofNames names).nameText = text := by
  induction ho using ofPairs_induction with
  | nil => simp [leafNames, NameMap.names]
  | @concat pairs o leaf remote p q _ hp _ ih =>
    have hnames : leafNames (pairs ++ [(leaf, remote)]) = leafNames pairs ++ [p.names] := by
      simp [leafNames, hp, Except.toOption]
    have hmem : p.names ∈ leafNames (pairs ++ [(leaf, remote)]) := by simp [hnames]
    have htext : (ofNames p.names).nameText = p.nameText :=
      ((separated_ofNames hmem).nameText_eq_iff (writable_of_parse hp).separated).2
        (names_ofNames p.names)
    rw [NameMap.mem_names_insert_iff, ih, hnames]
    simp only [List.mem_append, List.mem_singleton, or_and_right, exists_or, exists_eq_left, htext]
    rw [or_comm, eq_comm]

/-- The table has one target for each list of names that some leaf has. -/
theorem size_of_ofPairs (ho : ofPairs pairs = .ok o) : o.size = (leafNames pairs).dedup.length := by
  have hinj : ∀ names ∈ (leafNames pairs).dedup, ∀ names' ∈ (leafNames pairs).dedup,
      (ofNames names).nameText = (ofNames names').nameText → names = names' := by
    intro names h names' h' heq
    rw [List.mem_dedup] at h h'
    rw [(separated_ofNames h).nameText_eq_iff (separated_ofNames h'), names_ofNames,
      names_ofNames] at heq
    exact heq
  have hperm : o.targets.names.Perm
      ((leafNames pairs).dedup.map fun names => (ofNames names).nameText) := by
    refine (List.perm_ext_iff_of_nodup (ascending_targets ho).nodup_names
      ((List.nodup_dedup _).map_on hinj)).2 fun text => ?_
    simp only [mem_names_targets_iff ho, List.mem_map, List.mem_dedup]
  have hlength := hperm.length_eq
  rw [NameMap.names, List.length_map, List.length_map] at hlength
  exact hlength

end Overrides

/-! ### Paths of nodes -/

theorem Declaration.stands_apart_of_hasPathName {d : Declaration} (h : d.hasPathName = true) :
    d.name ≠ "" ∧ '/' ∉ d.name.toList := by
  have hbare := isBare_of_hasPathName h
  refine ⟨fun hempty => ?_, fun hslash => (hbare '/' hslash).1 rfl⟩
  rw [hasPathName, hempty] at h
  cases h

namespace Run

variable {o : Options} {r r' : Run} {vs : List Visit}

/-- A visit of a data node ends with an error about its name, unless a path can hold the name. -/
theorem visit_of_hasPathName_eq_false {v : Visit} (hdata : v.decl.kind.isTransparent = false)
    (h : v.decl.hasPathName = false) : r.visit o v =
      .error (.invalidNodeName (v.decl.moduleName?.getD "") v.decl.name v.below.nameText) := by
  rw [visit, hdata, h]
  rfl

theorem hasPathName_of_visitAll (h : visitAll o r vs = (r', none)) :
    ∀ v ∈ vs, v.decl.kind.isTransparent = false → v.decl.hasPathName = true := by
  induction vs generalizing r with
  | nil => exact List.forall_mem_nil _
  | cons v vs ih =>
    rw [visitAll] at h
    split at h
    · next r₁ hr₁ =>
      refine List.forall_mem_cons.2 ⟨fun hdata => ?_, ih h⟩
      by_contra hname
      rw [visit_of_hasPathName_eq_false hdata (by simpa using hname)] at hr₁
      cases hr₁
    · cases (Prod.mk.inj h).2

/-- A data node that is reached either is refused for its name or has a path whose names stand
apart. -/
theorem separated_or_refused {below : Path} (hbelow : below.Separated)
    (hvs : Visit.Ordered below vs) {before rest : List Visit} {v : Visit}
    (hsplit : vs = before ++ v :: rest) (hdata : v.decl.kind.isTransparent = false)
    (h : visitAll o r before = (r', none)) :
    v.path.Separated ∨ r'.visit o v =
      .error (.invalidNodeName (v.decl.moduleName?.getD "") v.decl.name v.below.nameText) := by
  cases hname : v.decl.hasPathName with
  | false => exact .inr (visit_of_hasPathName_eq_false hdata hname)
  | true =>
    refine .inl fun n hn => ?_
    rw [Visit.names_path, List.mem_append, List.mem_singleton] at hn
    rcases hn with hn | rfl
    · rcases hvs before v rest hsplit hdata n hn with hn | ⟨u, hu, hdata', rfl⟩
      · exact hbelow n hn
      · exact Declaration.stands_apart_of_hasPathName (hasPathName_of_visitAll h u hu hdata')
    · exact Declaration.stands_apart_of_hasPathName hname

end Run

namespace Overrides

open YangPartition.Path

/-- What pairs of a map state is found by names. No table is made of them just if some text cannot
be read. A table has for each path whose names stand apart the folded target that is stated under
the text that comes last in the order of bytes among all that are read as paths of the same names,
and no target just if no text is; it has one target for each list of names that a leaf has. The
names of each node that compilation reaches stand apart on its path, or the node is refused for its
name. -/
theorem ofPairs_by_names (pairs : NameMap String) (h : pairs.Ascending) :
    ((∃ e, ofPairs pairs = .error e) ↔
      ∃ pair ∈ pairs, (∃ e, parse pair.1 = .error e) ∨ ∃ e, parse pair.2 = .error e) ∧
    (∀ o, ofPairs pairs = .ok o →
      (∀ q : Path, q.Separated →
        (∀ target, o.get? q = some target ↔ States pairs q.names target) ∧
        (o.get? q = none ↔ ∀ pair ∈ pairs, ¬ Spells pair.1 q.names)) ∧
      o.size = (leafNames pairs).dedup.length) ∧
    ∀ (vs before rest : List Visit) (v : Visit),
      ((∃ f : Forest, vs = f.visits) ∨
        ∃ below listKeys n, below.Separated ∧ vs = Node.visits below listKeys n) →
      vs = before ++ v :: rest → v.decl.kind.isTransparent = false →
      ∀ (opts : Options) (r r' : Run), Run.visitAll opts r before = (r', none) →
        v.path.Separated ∨ r'.visit opts v =
          .error (.invalidNodeName (v.decl.moduleName?.getD "") v.decl.name v.below.nameText) := by
  refine ⟨?_, fun o ho => ⟨fun q hq => ⟨fun target => get?_eq_some_iff h ho hq,
    get?_eq_none_iff ho hq⟩, size_of_ofPairs ho⟩, ?_⟩
  · simp only [except_exists_error_iff, exists_ofPairs_iff, not_forall, exists_prop, not_and_or]
  · rintro vs before rest v hvs hsplit hdata opts r r' hrun
    rcases hvs with ⟨f, rfl⟩ | ⟨below, listKeys, n, hbelow, rfl⟩
    · exact Run.separated_or_refused (fun n hn => by cases hn) f.ordered_visits hsplit hdata hrun
    · exact Run.separated_or_refused hbelow (n.ordered_visits below listKeys) hsplit hdata hrun

/-- Of two spellings of one leaf the later one counts, also where keys of a list are asked for. -/
theorem ofPairs_by_names_respelled :
    let pairs : NameMap String := [("/a/b", "/c/d"), ("/g", "/c/d"), ("/x:a/b[k=1]/", "/c/e")]
    pairs.Ascending ∧ ∃ o, ofPairs pairs = .ok o ∧ o.size = 2 ∧
      o.get? ⟨[.wild "a" ["k"], .named "b"]⟩ = some ⟨[.wild "c" ["e"]]⟩ ∧
      o.get? (ofNames ["a", "c"]) = none := by
  intro pairs
  have hascending : pairs.Ascending := by decide +kernel
  obtain ⟨o, ho⟩ := exists_ok_of_isSome (x := ofPairs pairs) (by decide +kernel)
  obtain ⟨-, hfound, -⟩ := ofPairs_by_names pairs hascending
  obtain ⟨hget, hsize⟩ := hfound o ho
  refine ⟨hascending, o, ho, hsize.trans (by decide +kernel), ?_, ?_⟩
  · have hleaf : ["a", "b"] ∈ leafNames [("/x:a/b[k=1]/", "/c/e")] := by decide +kernel
    obtain ⟨pair, hpair, hspells⟩ := mem_leafNames_iff.1 hleaf
    obtain rfl := List.mem_singleton.1 hpair
    obtain ⟨p, hp, htest⟩ := exists_ok_of_any (x := parse "/c/e")
      (p := (·.foldKey == ⟨[.wild "c" ["e"]]⟩)) (by decide +kernel)
    refine ((hget _ (by decide +kernel)).1 _).2
      ⟨"/x:a/b[k=1]/", "/c/e", p, by decide +kernel, hspells, hp, (beq_iff_eq.1 htest).symm, ?_⟩
    have hlast : ∀ pair ∈ pairs, Text.bytes pair.1 ≤ Text.bytes "/x:a/b[k=1]/" := by decide +kernel
    exact fun pair hpair _ => hlast pair hpair
  · have hnone : ["a", "c"] ∉ leafNames pairs := by decide +kernel
    exact ((hget _ (by decide +kernel)).2).2 fun pair hpair hspells =>
      hnone (mem_leafNames_iff.2 ⟨pair, hpair, hspells⟩)

end Overrides

end YangPartition
