/-!
# Maps from names

A finite map from names is a list of pairs. Insertion keeps the names
ascending, by code point, and gives a name that is already there its new value;
so a map built by insertions lists each name once, and two maps with the same
look-ups are the same list.
-/

namespace YangPartition

/-- Pairs of a name and its value. -/
abbrev NameMap (α : Type) := List (String × α)

namespace NameMap

variable {α β : Type}

/-- The names ascend, so no name occurs twice. -/
def Ascending (m : NameMap α) : Prop :=
  m.Pairwise (·.1 < ·.1)

/-- Whether the names ascend is decided pair by pair. -/
instance (m : NameMap α) : Decidable (Ascending m) :=
  inferInstanceAs (Decidable (List.Pairwise _ _))

/-- Gives a name a value, in its place in the order. -/
def insert (name : String) (value : α) : NameMap α → NameMap α
  | [] => [(name, value)]
  | (n, v) :: m =>
    if name < n then (name, value) :: (n, v) :: m
    else if name = n then (name, value) :: m
    else (n, v) :: insert name value m

/-- The value of a name. -/
def find? (name : String) (m : NameMap α) : Option α :=
  List.lookup name m

/-- Whether a name has a value. -/
def contains (name : String) (m : NameMap α) : Bool :=
  (find? name m).isSome

/-- The map of a list of pairs; of pairs with one name the last counts. -/
def ofPairs (pairs : List (String × α)) : NameMap α :=
  pairs.foldl (fun m (n, v) => insert n v m) []

/-- The names, ascending. -/
def names (m : NameMap α) : List String :=
  m.map (·.1)

/-! ### Order -/

/-- Insertion adds no pair but the one inserted. -/
theorem mem_insert {name : String} {value : α} {p : String × α} {m : NameMap α}
    (h : p ∈ insert name value m) : p = (name, value) ∨ p ∈ m := by
  induction m with
  | nil => exact .inl (by simpa [insert] using h)
  | cons q m ih =>
    obtain ⟨n, v⟩ := q
    simp only [insert] at h
    split at h
    · simpa using h
    · split at h
      · rcases List.mem_cons.1 h with h | h
        · exact .inl h
        · exact .inr (List.mem_cons_of_mem _ h)
      · rcases List.mem_cons.1 h with h | h
        · exact .inr (h ▸ List.mem_cons_self)
        · exact (ih h).imp id (List.mem_cons_of_mem _)

/-- Insertion keeps the names ascending. -/
theorem Ascending.insert {m : NameMap α} (h : Ascending m) (name : String) (value : α) :
    Ascending (NameMap.insert name value m) := by
  induction m with
  | nil => simp [NameMap.insert, Ascending]
  | cons q m ih =>
    obtain ⟨n, v⟩ := q
    have hm : Ascending m := h.of_cons
    simp only [NameMap.insert]
    split
    case isTrue lt =>
      refine List.Pairwise.cons (fun p hp => ?_) h
      rcases List.mem_cons.1 hp with rfl | hp
      · exact lt
      · exact String.lt_trans lt (List.rel_of_pairwise_cons h hp)
    case isFalse nlt =>
      split
      case isTrue eq =>
        subst eq
        exact List.Pairwise.cons (fun p hp => List.rel_of_pairwise_cons h hp) hm
      case isFalse ne =>
        refine List.Pairwise.cons (fun p hp => ?_) (ih hm)
        rcases mem_insert hp with rfl | hp
        · have le : n ≤ name := String.not_lt.1 nlt
          exact Std.lt_of_le_of_ne le (Ne.symm ne)
        · exact List.rel_of_pairwise_cons h hp

/-- The names of a map of pairs ascend, whatever the order of the pairs. -/
theorem ascending_ofPairs (pairs : List (String × α)) : Ascending (ofPairs pairs) := by
  suffices ∀ m : NameMap α, Ascending m →
      Ascending (pairs.foldl (fun m (n, v) => NameMap.insert n v m) m) from
    this [] List.Pairwise.nil
  induction pairs with
  | nil => exact fun m h => h
  | cons p pairs ih => exact fun m h => ih _ (h.insert p.1 p.2)

/-- A map of pairs has no others. -/
theorem mem_of_mem_ofPairs {pairs : List (String × α)} {p : String × α} (h : p ∈ ofPairs pairs) :
    p ∈ pairs := by
  suffices ∀ m : NameMap α, p ∈ pairs.foldl (fun m (n, v) => NameMap.insert n v m) m →
      p ∈ m ∨ p ∈ pairs from
    (this [] h).resolve_left List.not_mem_nil
  clear h
  induction pairs with
  | nil => exact fun m h => .inl h
  | cons q pairs ih =>
    intro m h
    rcases ih _ h with h | h
    · rcases mem_insert h with rfl | h
      · exact .inr List.mem_cons_self
      · exact .inl h
    · exact .inr (List.mem_cons_of_mem q h)

/-- The first name comes before all others. -/
theorem Ascending.lt_of_mem_names {n : String} {v : α} {m : NameMap α} (h : Ascending ((n, v) :: m))
    {key : String} (hkey : key ∈ m.names) : n < key := by
  obtain ⟨p, hp, rfl⟩ := List.mem_map.1 hkey
  exact List.rel_of_pairwise_cons h hp

/-! ### Looking up -/

theorem find?_cons (n : String) (v : α) (m : NameMap α) (key : String) :
    find? key ((n, v) :: m) = if key = n then some v else find? key m := by
  rw [find?, List.lookup_cons]
  by_cases hkey : key = n
  · rw [if_pos hkey, beq_iff_eq.2 hkey]
  · rw [if_neg hkey, beq_eq_false_iff_ne.2 hkey]
    rfl

/-- Insertion decides what is found for its name, and nothing else. -/
theorem find?_insert (name : String) (value : α) (m : NameMap α) (key : String) :
    find? key (insert name value m) = if key = name then some value else find? key m := by
  induction m with
  | nil => exact find?_cons name value [] key
  | cons q m ih =>
    obtain ⟨n, v⟩ := q
    rw [insert]
    split
    · exact find?_cons name value ((n, v) :: m) key
    · split
      · next heq =>
        subst heq
        rw [find?_cons, find?_cons]
        split <;> rfl
      · next hne =>
        rw [find?_cons, find?_cons, ih]
        by_cases hkey : key = n
        · have hname : ¬ key = name := fun hname => hne (hname.symm.trans hkey)
          rw [if_pos hkey, if_neg hname, if_pos hkey]
        · rw [if_neg hkey, if_neg hkey]

/-- A name with a value is among the names. -/
theorem mem_names_of_contains {m : NameMap α} {key : String} (h : contains key m = true) :
    key ∈ m.names := by
  induction m with
  | nil => cases h
  | cons q m ih =>
    obtain ⟨n, v⟩ := q
    rw [contains, find?_cons] at h
    split at h
    · next heq =>
      rw [heq]
      exact List.mem_cons_self
    · exact List.mem_cons_of_mem n (ih h)

/-- Nothing is found exactly for what is not among the names. -/
theorem find?_eq_none_iff {m : NameMap α} {key : String} : find? key m = none ↔ key ∉ m.names := by
  induction m with
  | nil => exact iff_of_true rfl List.not_mem_nil
  | cons q m ih =>
    obtain ⟨n, v⟩ := q
    rw [find?_cons, names, List.map_cons, List.mem_cons, not_or, ← names]
    by_cases h : key = n
    · simp [h]
    · simp [h, ih]

theorem mem_names_insert_iff {name : String} {value : α} {m : NameMap α} {key : String} :
    key ∈ (insert name value m).names ↔ key = name ∨ key ∈ m.names := by
  rw [← Decidable.not_iff_not, ← find?_eq_none_iff, find?_insert, not_or, ← find?_eq_none_iff]
  by_cases h : key = name <;> simp [h]

/-- What is found is one of the pairs. -/
theorem mem_of_find?_eq_some {m : NameMap α} {key : String} {value : α}
    (h : find? key m = some value) : (key, value) ∈ m := by
  induction m with
  | nil => cases h
  | cons q m ih =>
    obtain ⟨n, v⟩ := q
    rw [find?_cons] at h
    split at h
    · next heq =>
      rw [heq, Option.some.inj h]
      exact List.mem_cons_self
    · exact List.mem_cons_of_mem _ (ih h)

theorem Ascending.nodup_names {m : NameMap α} (h : Ascending m) : m.names.Nodup := by
  refine List.pairwise_map.2 (List.Pairwise.imp (fun {p q} hlt heq => ?_) h)
  exact String.lt_irrefl p.1 (heq.symm ▸ hlt)

theorem insert_comm_of_lt {a b : String} (h : a < b) (x y : α) (m : NameMap α) :
    insert a x (insert b y m) = insert b y (insert a x m) := by
  have hnlt : ¬ b < a := String.lt_asymm h
  have hne : ¬ b = a := fun heq => String.lt_irrefl b (heq ▸ h)
  induction m with
  | nil => simp only [insert, if_pos h, if_neg hnlt, if_neg hne]
  | cons q m ih =>
    obtain ⟨n, v⟩ := q
    by_cases hbefore : a < n
    · simp only [insert, if_pos hbefore, if_neg hnlt, if_neg hne]
      split
      · simp only [insert, if_pos h]
      · split
        · simp only [insert, if_pos h]
        · simp only [insert, if_pos hbefore]
    · by_cases heq : a = n
      · subst heq
        simp only [insert, if_neg hnlt, if_neg hne, String.lt_irrefl, if_true, if_false]
      · have hle : n ≤ a := String.not_lt.1 hbefore
        have hlt : n < b := String.lt_trans (Std.lt_of_le_of_ne hle (Ne.symm heq)) h
        have hbne : ¬ b = n := fun heq => String.lt_irrefl b (heq ▸ hlt)
        simp only [insert, if_neg hbefore, if_neg heq, if_neg (String.lt_asymm hlt), if_neg hbne,
          ih]

/-- Values of different names may be inserted in any order. -/
theorem insert_comm {a b : String} (h : a ≠ b) (x y : α) (m : NameMap α) :
    insert a x (insert b y m) = insert b y (insert a x m) := by
  by_cases hlt : a < b
  · exact insert_comm_of_lt hlt x y m
  · have hle : b ≤ a := String.not_lt.1 hlt
    exact (insert_comm_of_lt (Std.lt_of_le_of_ne hle (Ne.symm h)) y x m).symm

/-! ### Values by their names -/

/-- Values may be replaced by what their names and they give before or after an insertion. -/
theorem insert_map (f : String → α → β) (name : String) (value : α) (m : NameMap α) :
    (insert name value m).map (fun p => (p.1, f p.1 p.2)) =
      insert name (f name value) (m.map fun p => (p.1, f p.1 p.2)) := by
  induction m with
  | nil => rfl
  | cons q m ih =>
    obtain ⟨n, v⟩ := q
    simp only [insert, List.map_cons]
    split
    · rfl
    · split
      · rfl
      · rw [List.map_cons, ih]

theorem find?_map (f : String → α → β) (key : String) (m : NameMap α) :
    find? key (m.map fun p => (p.1, f p.1 p.2)) = (find? key m).map (f key) := by
  induction m with
  | nil => rfl
  | cons q m ih =>
    obtain ⟨n, v⟩ := q
    rw [List.map_cons, find?_cons, find?_cons, ih]
    split
    · next heq => rw [heq]; rfl
    · rfl

/-! ### Maps of pairs -/

/-- Of pairs with one name the last counts. -/
theorem find?_ofPairs (pairs : List (String × α)) (key : String) :
    find? key (ofPairs pairs) = find? key pairs.reverse := by
  suffices ∀ m : NameMap α, find? key (pairs.foldl (fun m (n, v) => insert n v m) m) =
      find? key (pairs.reverse ++ m) by
    rw [ofPairs, this, List.append_nil]
  induction pairs with
  | nil => exact fun m => rfl
  | cons q pairs ih =>
    intro m
    obtain ⟨n, v⟩ := q
    rw [List.foldl_cons, ih, List.reverse_cons, List.append_assoc, List.singleton_append, find?,
      find?, List.lookup_append, List.lookup_append, ← find?, ← find?, ← find?, find?_insert,
      find?_cons]

theorem insert_eq_append {m : NameMap α} {name : String} {value : α}
    (h : ∀ p ∈ m, p.1 < name) : insert name value m = m ++ [(name, value)] := by
  induction m with
  | nil => rfl
  | cons q m ih =>
    obtain ⟨n, v⟩ := q
    have hlt : n < name := h (n, v) List.mem_cons_self
    have hne : ¬ name = n := fun heq => String.lt_irrefl name (heq ▸ hlt)
    rw [insert, if_neg (String.lt_asymm hlt), if_neg hne,
      ih fun p hp => h p (List.mem_cons_of_mem _ hp)]
    rfl

/-- Pairs whose names ascend are the map that they make up. -/
theorem ofPairs_eq_self {m : NameMap α} (h : Ascending m) : ofPairs m = m := by
  suffices ∀ l m : NameMap α, Ascending (l ++ m) →
      m.foldl (fun m (n, v) => insert n v m) l = l ++ m from this [] m h
  intro l m
  induction m generalizing l with
  | nil => exact fun _ => (List.append_nil l).symm
  | cons q m ih =>
    intro hlm
    obtain ⟨n, v⟩ := q
    have hlast : ∀ p ∈ l, p.1 < n := fun p hp =>
      (List.pairwise_append.1 hlm).2.2 p hp (n, v) List.mem_cons_self
    rw [List.foldl_cons]
    simp only [insert_eq_append hlast]
    rw [ih _ (by simpa using hlm), List.append_assoc]
    rfl

end NameMap

end YangPartition
