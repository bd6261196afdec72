import YangPartition.Container.Types
import YangPartition.Proofs.Path.Folded

/-!
# Looking types up

A folded path is looked up by the first of the keys of its last element. That
is the name that was folded, unless the element had a key before that comes
first.
-/

namespace YangPartition

namespace Arena

/-! ### Going down -/

theorem descend?_append (a : Arena) (id : Nat) (names more : List String) :
    a.descend? id (names ++ more) =
      (a.descend? id names).bind fun place => a.descend? place more := by
  induction names generalizing id with
  | nil => rfl
  | cons name names ih =>
    rw [List.cons_append, descend?, descend?]
    cases a.childNamed? id name with
    | none => rfl
    | some child => exact ih child

/-- The entry of a name in the container that is reached along names. -/
def entryBelow? (a : Arena) (root : Nat) (names : List String) (name : String) : Option Entry :=
  ((a.descend? root names).bind a.get?).bind (·.entryNamed? name)

/-- The type of the entry of a name in the container that is reached along names. -/
def typeBelow? (a : Arena) (root : Nat) (names : List String) (name : String) : Option String :=
  (a.entryBelow? root names name).map (·.typeName)

theorem entryBelow?_nil (a : Arena) (id : Nat) (name : String) :
    a.entryBelow? id [] name = (a.get? id).bind (·.entryNamed? name) := rfl

theorem entryBelow?_cons (a : Arena) (id : Nat) (n : String) (names : List String) (name : String) :
    a.entryBelow? id (n :: names) name =
      (a.childNamed? id n).bind fun child => a.entryBelow? child names name := by
  rw [entryBelow?, descend?]
  cases a.childNamed? id n with
  | none => rfl
  | some child => rfl

/-- In a container with one entry and nothing below it, that entry is the only one found. -/
theorem entryBelow?_of_single {a : Arena} {id : Nat} {c : Container} {e : Entry}
    (hc : a.get? id = some c) (hentries : c.entries = [e]) (hchildren : c.children = [])
    (names : List String) (name : String) :
    a.entryBelow? id names name = if names = [] ∧ e.name = name then some e else none := by
  cases names with
  | nil =>
    rw [entryBelow?_nil, hc, Option.bind_some, Container.entryNamed?, hentries]
    by_cases hname : e.name = name
    · simp [hname]
    · simp [hname]
  | cons n names =>
    have hchild : a.childNamed? id n = none := by
      rw [childNamed?, hc, Option.map_some, Option.getD_some, hchildren]
      rfl
    rw [entryBelow?_cons, hchild, if_neg fun hnames => List.cons_ne_nil _ _ hnames.1]
    rfl

/-- A folded path leads to the entry of the first key of its last element. -/
theorem entryAt?_foldKey {p : Path} {above : List Elem} {owner leaf : Elem}
    (h : p.elems = above ++ [owner, leaf]) (a : Arena) (root : Nat) :
    a.entryAt? root p.foldKey =
      a.entryBelow? root p.names.dropLast (owner.leastKey leaf.name) := by
  obtain ⟨v, m, hkeys⟩ := owner.exists_keys_holding leaf.name
  have hlast : p.foldKey.last? = some (owner.holding leaf.name) := by
    rw [Path.foldKey_eq h, Path.last?, List.getLast?_concat]
  have habove : p.foldKey.parent.names = above.map (·.name) := by
    rw [Path.foldKey_eq h, Path.names_parent, Path.names, List.map_append, List.map_singleton,
      List.dropLast_concat]
  unfold entryAt? entryBelow?
  rw [hlast, habove, Path.names_dropLast h, descend?_append, Option.bind_assoc]
  simp only [Option.bind_eq_bind, Option.bind_some, hkeys, Elem.name_holding]
  cases a.descend? root (above.map (·.name)) with
  | none => rfl
  | some place =>
    simp only [Option.bind_some, descend?]
    cases a.childNamed? place owner.name with
    | none => rfl
    | some child => rfl

/-- Without keys the folded name leads to its own entry. -/
theorem entryAt?_ofNames (a : Arena) (root : Nat) (names : List String) (name : String) :
    a.entryAt? root (Path.ofNames (names ++ [name])).foldKey = a.entryBelow? root names name := by
  rcases List.eq_nil_or_concat names with rfl | ⟨above, owner, rfl⟩
  · unfold entryAt? entryBelow?
    simp [Path.ofNames, Path.foldKey, Path.last?, Path.parent, Path.names, Elem.named, descend?]
  · rw [List.concat_eq_append]
    have helems : (Path.ofNames (above ++ [owner] ++ [name])).elems =
        above.map Elem.named ++ [.named owner, .named name] := by
      simp [Path.ofNames]
    rw [entryAt?_foldKey helems]
    simp [Path.ofNames, Path.names, Elem.named, Elem.leastKey, NameMap.names, Function.comp_def]

/-! ### Which entry decides -/

/-- A container of a chain: the first has no name, the others are named in order, each has the
next one below it, and the last has one entry. -/
def chainLink (names : List String) (e : Entry) (i : Nat) : Container :=
  { Container.ofName (("" :: names)[i]?.getD "") (if i = 0 then none else some (i - 1)) with
    children := if i < names.length then [i + 1] else []
    entries := if i = names.length then [e] else [] }

/-- Containers one below the other, with one entry in the last. -/
def chain (names : List String) (e : Entry) : Arena :=
  ⟨((List.range (names.length + 1)).map (chainLink names e)).toArray⟩

theorem get?_chain {names : List String} {i : Nat} (e : Entry) (h : i ≤ names.length) :
    (chain names e).get? i = some (chainLink names e i) := by
  rw [get?, chain, List.getElem?_toArray, List.getElem?_map, List.getElem?_range (by omega),
    Option.map_some]

theorem descend?_chain (names : List String) (e : Entry) {i : Nat} (h : i ≤ names.length) :
    (chain names e).descend? i (names.drop i) = some names.length := by
  induction hn : names.length - i generalizing i with
  | zero =>
    have hi : i = names.length := by omega
    rw [hi, List.drop_length]
    rfl
  | succ n ih =>
    have hi : i < names.length := by omega
    have hchild : (chain names e).childNamed? i names[i] = some (i + 1) := by
      rw [childNamed?, get?_chain e h]
      simp [chainLink, Container.ofName, hi, get?_chain e hi]
    rw [List.drop_eq_getElem_cons hi, descend?, hchild]
    exact ih hi (by omega)

/-- In a chain with one entry that is the only one found. -/
theorem typeBelow?_chain (names : List String) (e : Entry) (name : String) :
    (chain names e).typeBelow? 0 names name = if e.name = name then some e.typeName else none := by
  have hdescend := descend?_chain names e (Nat.zero_le _)
  rw [List.drop_zero] at hdescend
  rw [typeBelow?, entryBelow?, hdescend, Option.bind_some, get?_chain e (Nat.le_refl _)]
  by_cases hname : e.name = name
  · simp [chainLink, Container.entryNamed?, hname]
  · simp [chainLink, Container.entryNamed?, hname]

/-- A folded path gives the type of the leaf it was folded from, whatever the containers are, just
if the name of the leaf comes first among the keys. -/
theorem typeAt?_foldKey_iff {p : Path} {above : List Elem} {owner leaf : Elem}
    (h : p.elems = above ++ [owner, leaf]) :
    (∀ (a : Arena) root, a.typeAt? root p.foldKey = a.typeBelow? root p.names.dropLast leaf.name) ↔
      ∀ key ∈ owner.keys.names, leaf.name ≤ key := by
  have hfolded : ∀ (a : Arena) root, a.typeAt? root p.foldKey =
      a.typeBelow? root p.names.dropLast (owner.leastKey leaf.name) := by
    intro a root
    rw [typeAt?, entryAt?_foldKey h]
    rfl
  rw [← Elem.leastKey_eq_iff]
  constructor
  · intro hall
    -- in a chain whose only entry has the first key, nothing else is found
    obtain ⟨e, hname⟩ : ∃ e : Entry, e.name = owner.leastKey leaf.name :=
      ⟨.value { name := owner.leastKey leaf.name, kind := .leaf }, rfl⟩
    have hchain := hall (chain p.names.dropLast e) 0
    rw [hfolded, typeBelow?_chain, typeBelow?_chain, if_pos hname, hname] at hchain
    split at hchain
    · next hname => exact hname
    · cases hchain
  · intro heq a root
    rw [hfolded, heq]

end Arena

end YangPartition
