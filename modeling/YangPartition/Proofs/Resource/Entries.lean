import Mathlib.Data.List.Basic
import YangPartition.Path.Parser
import YangPartition.Proofs.Outcome
import YangPartition.Resource.Map

/-!
# Declarations of a map

The declarations of a map are listed from the top down, each before those in its hierarchy. In a
map that has been read the texts beside each other ascend, so the declarations are listed in the
order of the texts that lead to them.
-/

namespace YangPartition

/-! ### The declarations, from the top down -/

/-- A declaration of a map with the texts that lead to it. -/
structure MapEntry where
  /-- The texts of the declarations around it, the outermost first. -/
  above : List String
  /-- The text under which it stands. -/
  text : String
  /-- What it declares. -/
  declared : Declared

/-- The texts that lead to a declaration, its own last. -/
def MapEntry.texts (a : MapEntry) : List String := a.above ++ [a.text]

namespace Declared

mutual

/-- A declaration under some texts and the declarations in its hierarchy, each before those in its
own. -/
def entries (above : List String) (text : String) : Declared → List MapEntry
  | ⟨excludes, hierarchy?, subResources⟩ =>
    ⟨above, text, ⟨excludes, hierarchy?, subResources⟩⟩ ::
      entriesOptional (above ++ [text]) hierarchy?
termination_by structural d => d

/-- The declarations of a hierarchy that may be missing. -/
def entriesOptional (above : List String) : Option (List (String × Declared)) → List MapEntry
  | none => []
  | some hierarchy => entriesAll above hierarchy
termination_by structural h => h

/-- The declarations under their texts, each before those in its hierarchy. -/
def entriesAll (above : List String) : List (String × Declared) → List MapEntry
  | [] => []
  | (text, d) :: rest => d.entries above text ++ entriesAll above rest
termination_by structural ds => ds

end

mutual

theorem length_entries (above : List String) (text : String) (d : Declared) :
    (d.entries above text).length = d.count := by
  obtain ⟨excludes, hierarchy?, subResources⟩ := d
  rw [entries, List.length_cons, Nat.add_comm]
  cases hierarchy? with
  | none => rfl
  | some hierarchy => rw [entriesOptional, count, length_entriesAll _ hierarchy]
termination_by structural d

theorem length_entriesAll (above : List String) (ds : List (String × Declared)) :
    (entriesAll above ds).length = countAll ds := by
  match ds with
  | [] => rfl
  | (text, d) :: rest =>
    rw [entriesAll, countAll, List.length_append, length_entries above text d,
      length_entriesAll above rest]
termination_by structural ds

end

end Declared

/-- The declarations of a map, each before those in its hierarchy. -/
def ResourceMap.entries (m : ResourceMap) : List MapEntry := Declared.entriesAll [] m.declared

/-! ### Order -/

namespace Declared

mutual

/-- Whether the texts of the declarations beside each other ascend, at all levels. -/
def Ordered : Declared → Prop
  | ⟨_, hierarchy?, _⟩ => OrderedOptional hierarchy?
termination_by structural d => d

/-- Whether the texts ascend in a hierarchy that may be missing. -/
def OrderedOptional : Option (List (String × Declared)) → Prop
  | none => True
  | some hierarchy => NameMap.Ascending hierarchy ∧ OrderedAll hierarchy
termination_by structural h => h

/-- Whether the texts ascend in the hierarchies of declarations. -/
def OrderedAll : List (String × Declared) → Prop
  | [] => True
  | (_, d) :: rest => d.Ordered ∧ OrderedAll rest
termination_by structural ds => ds

end

theorem orderedAll_iff (ds : List (String × Declared)) :
    OrderedAll ds ↔ ∀ p ∈ ds, p.2.Ordered := by
  induction ds with
  | nil => exact iff_of_true trivial fun p hp => by cases hp
  | cons p ds ih =>
    obtain ⟨text, d⟩ := p
    rw [OrderedAll, List.forall_mem_cons, ih]

mutual

/-- All texts that lead to the declarations of a hierarchy go through the text above it. -/
theorem texts_of_mem_entries {above : List String} {text : String} (d : Declared) {a : MapEntry}
    (h : a ∈ d.entries above text) : ∃ rest, a.texts = above ++ text :: rest := by
  obtain ⟨excludes, hierarchy?, subResources⟩ := d
  rw [entries] at h
  rcases List.mem_cons.1 h with rfl | h
  · exact ⟨[], rfl⟩
  cases hierarchy? with
  | none => cases h
  | some hierarchy =>
    obtain ⟨next, rest, hnext, -⟩ := texts_of_mem_entriesAll hierarchy h
    exact ⟨next :: rest, by rw [hnext, List.append_assoc, List.singleton_append]⟩
termination_by structural d

theorem texts_of_mem_entriesAll {above : List String} (ds : List (String × Declared))
    {a : MapEntry} (h : a ∈ entriesAll above ds) :
    ∃ text rest, a.texts = above ++ text :: rest ∧ text ∈ ds.map (·.1) := by
  match ds with
  | [] => cases h
  | (text, d) :: ds =>
    rw [entriesAll] at h
    rcases List.mem_append.1 h with h | h
    · obtain ⟨rest, hrest⟩ := texts_of_mem_entries d h
      exact ⟨text, rest, hrest, List.mem_cons_self⟩
    · obtain ⟨next, rest, hrest, hmem⟩ := texts_of_mem_entriesAll ds h
      exact ⟨next, rest, hrest, List.mem_cons_of_mem text hmem⟩
termination_by structural ds

end

mutual

/-- Where texts beside each other ascend, a declaration comes before all that are led to by later
texts. -/
theorem pairwise_entries (above : List String) (text : String) (d : Declared) (h : d.Ordered) :
    (d.entries above text).Pairwise fun a b => a.texts < b.texts := by
  obtain ⟨excludes, hierarchy?, subResources⟩ := d
  rw [entries]
  cases hierarchy? with
  | none => exact List.pairwise_singleton ..
  | some hierarchy =>
    rw [Ordered, OrderedOptional] at h
    refine List.pairwise_cons.2 ⟨fun b hb => ?_, pairwise_entriesAll _ hierarchy h.1 h.2⟩
    obtain ⟨next, rest, hnext, -⟩ := texts_of_mem_entriesAll hierarchy hb
    have hlt : (above ++ [text]) ++ [] < (above ++ [text]) ++ next :: rest :=
      List.append_left_lt (List.nil_lt_cons next rest)
    rw [hnext]
    rwa [List.append_nil] at hlt
termination_by structural d

theorem pairwise_entriesAll (above : List String) (ds : List (String × Declared))
    (hbeside : NameMap.Ascending ds) (h : OrderedAll ds) :
    (entriesAll above ds).Pairwise fun a b => a.texts < b.texts := by
  match ds with
  | [] => exact .nil
  | (text, d) :: ds =>
    rw [OrderedAll] at h
    rw [entriesAll]
    refine List.pairwise_append.2 ⟨pairwise_entries above text d h.1,
      pairwise_entriesAll above ds (List.Pairwise.of_cons hbeside) h.2, fun a ha b hb => ?_⟩
    obtain ⟨rest, hrest⟩ := texts_of_mem_entries d ha
    obtain ⟨next, rest', hrest', hnext⟩ := texts_of_mem_entriesAll ds hb
    rw [hrest, hrest']
    exact List.append_left_lt (List.cons_lt_cons_iff.2 (.inl (hbeside.lt_of_mem_names hnext)))
termination_by structural ds

end

end Declared

/-- Whether the texts of the declarations beside each other ascend, at all levels of a map. -/
def ResourceMap.Ordered (m : ResourceMap) : Prop :=
  NameMap.Ascending m.declared ∧ Declared.OrderedAll m.declared

/-- In a map whose texts ascend the declarations are listed in the order of the texts that lead
to them. -/
theorem ResourceMap.Ordered.pairwise_entries {m : ResourceMap} (h : m.Ordered) :
    m.entries.Pairwise fun a b => a.texts < b.texts :=
  Declared.pairwise_entriesAll [] m.declared h.1 h.2

/-! ### Reading -/

namespace Declared

/-- Declarations that are kept in a map ascend, and so do their hierarchies. -/
theorem ordered_ofPairs {ds : List (String × Declared)} (h : OrderedAll ds) :
    NameMap.Ascending (NameMap.ofPairs ds) ∧ OrderedAll (NameMap.ofPairs ds) := by
  refine ⟨NameMap.ascending_ofPairs ds, (orderedAll_iff _).2 fun p hp => ?_⟩
  exact (orderedAll_iff ds).1 h p (NameMap.mem_of_mem_ofPairs hp)

mutual

/-- A declaration that has been read ascends. -/
theorem ordered_read (doc : Document) {d : Declared} (h : read doc = .ok d) : d.Ordered := by
  cases doc with
  | mapping compact members =>
    rw [read] at h
    obtain ⟨r, -, h⟩ := except_bind_eq_ok.1 h
    obtain ⟨excludes, -, h⟩ := except_bind_eq_ok.1 h
    obtain ⟨hierarchy?, hread, h⟩ := except_bind_eq_ok.1 h
    obtain ⟨subResources, -, h⟩ := except_bind_eq_ok.1 h
    obtain rfl := Except.ok.inj h
    exact ordered_readHierarchy members hread
  | sequence compact items =>
    cases compact with
    | false => cases h
    | true =>
      rw [read] at h
      obtain ⟨r, -, h⟩ := except_bind_eq_ok.1 h
      obtain ⟨excludes, -, h⟩ := except_bind_eq_ok.1 h
      obtain ⟨hierarchy?, hread, h⟩ := except_bind_eq_ok.1 h
      obtain ⟨subResources, -, h⟩ := except_bind_eq_ok.1 h
      obtain rfl := Except.ok.inj h
      exact ordered_readHierarchyAt hierarchyPlace items hread
  | scalar s =>
    obtain ⟨text?, truth?, absent, blank⟩ := s
    cases blank with
    | false => cases h
    | true =>
      obtain rfl := Except.ok.inj h
      trivial
termination_by structural doc

theorem orderedAll_readMembers (members : List (String × Document))
    {ds : List (String × Declared)} (h : readMembers members = .ok ds) : OrderedAll ds := by
  match members with
  | [] =>
    obtain rfl := Except.ok.inj h
    trivial
  | (path, doc) :: rest =>
    rw [readMembers] at h
    obtain ⟨d, hd, h⟩ := except_bind_eq_ok.1 h
    obtain ⟨ds, hds, h⟩ := except_bind_eq_ok.1 h
    obtain rfl := Except.ok.inj h
    exact ⟨ordered_read doc hd, orderedAll_readMembers rest hds⟩
termination_by structural members

theorem ordered_readOptional (doc : Document) {hierarchy? : Option (List (String × Declared))}
    (h : readOptional doc = .ok hierarchy?) : OrderedOptional hierarchy? := by
  cases doc with
  | mapping compact members =>
    rw [readOptional] at h
    obtain ⟨ds, hds, h⟩ := except_bind_eq_ok.1 h
    obtain rfl := Except.ok.inj h
    exact ordered_ofPairs (orderedAll_readMembers members hds)
  | sequence compact items => cases h
  | scalar s =>
    obtain ⟨text?, truth?, absent, blank⟩ := s
    cases absent with
    | false => cases h
    | true =>
      obtain rfl := Except.ok.inj h
      trivial
termination_by structural doc

theorem ordered_readHierarchy (members : List (String × Document))
    {hierarchy? : Option (List (String × Declared))}
    (h : readHierarchy members = .ok hierarchy?) : OrderedOptional hierarchy? := by
  match members with
  | [] =>
    obtain rfl := Except.ok.inj h
    trivial
  | (name, doc) :: rest =>
    rw [readHierarchy] at h
    split at h
    · exact ordered_readOptional doc h
    · exact ordered_readHierarchy rest h
termination_by structural members

theorem ordered_readHierarchyAt (place : Nat) (items : List Document)
    {hierarchy? : Option (List (String × Declared))}
    (h : readHierarchyAt place items = .ok hierarchy?) : OrderedOptional hierarchy? := by
  match place, items with
  | _, [] =>
    obtain rfl := Except.ok.inj h
    trivial
  | 0, doc :: _ =>
    rw [readHierarchyAt] at h
    exact ordered_readOptional doc h
  | n + 1, _ :: rest =>
    rw [readHierarchyAt] at h
    exact ordered_readHierarchyAt n rest h
termination_by structural items

end

end Declared

/-- In a map that has been read the texts ascend. -/
theorem ResourceMap.ordered_read {doc : Document} {m : ResourceMap} (h : read doc = .ok m) :
    m.Ordered := by
  rw [read] at h
  obtain ⟨r, -, h⟩ := except_bind_eq_ok.1 h
  obtain ⟨schema?, -, h⟩ := except_bind_eq_ok.1 h
  obtain ⟨declared, hread, h⟩ := except_bind_eq_ok.1 h
  obtain ⟨overrides, -, h⟩ := except_bind_eq_ok.1 h
  obtain rfl := Except.ok.inj h
  rw [Document.Record.withDefault] at hread
  split at hread
  · next doc _ =>
    cases doc with
    | mapping compact members =>
      rw [Declared.readAll] at hread
      obtain ⟨ds, hds, hread⟩ := except_bind_eq_ok.1 hread
      obtain rfl := Except.ok.inj hread
      exact Declared.ordered_ofPairs (Declared.orderedAll_readMembers members hds)
    | sequence compact items => cases hread
    | scalar s =>
      obtain ⟨text?, truth?, absent, blank⟩ := s
      cases blank with
      | false => cases hread
      | true =>
        obtain rfl := Except.ok.inj hread
        exact ⟨.nil, trivial⟩
  · obtain rfl := Except.ok.inj hread
    exact ⟨.nil, trivial⟩

end YangPartition
