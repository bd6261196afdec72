import Mathlib.Data.List.Perm.Subperm
import Mathlib.Logic.Function.Iterate
import Mathlib.Logic.Relation
import YangPartition.Proofs.Compile.History

/-!
# Types of references

A pass over the references of a resource reads all types before it writes any, so each
reference gets the type that its target had. A chain of references is resolved one link
by each pass. Where no chain is cyclic it ends after no more links than there are
references, and after as many passes as the longest chain has links nothing changes any
more.
-/

namespace YangPartition

/-! ### Findings -/

namespace Findings

/-- What is found for a target is the type at the first target that is written alike. -/
theorem get?_ofTargets (a : Arena) (root : Nat) (targets : List Path) (p : Path) :
    (ofTargets a root targets).get? p =
      (targets.find? (·.text == p.text)).map (a.typeAt? root) := by
  have hfold : ∀ (ts : List Path) (f : Findings),
      (ts.foldl (fun f target => if f.contains target.text then f
        else NameMap.insert target.text (a.typeAt? root target) f) f).get? p =
      (f.get? p).or ((ts.find? (·.text == p.text)).map (a.typeAt? root)) := by
    intro ts
    induction ts with
    | nil => simp
    | cons target ts ih =>
      intro f
      rw [List.foldl_cons, ih, List.find?_cons]
      by_cases hcontains : NameMap.contains target.text f = true
      · rw [if_pos hcontains]
        by_cases htext : target.text = p.text
        · -- what has been looked up before stays
          obtain ⟨found, hfound⟩ := Option.isSome_iff_exists.1 hcontains
          rw [htext] at hfound
          rw [get?, hfound]
          rfl
        · rw [beq_eq_false_iff_ne.2 htext]
      · rw [if_neg hcontains, get?, NameMap.find?_insert]
        by_cases htext : target.text = p.text
        · have hnone : f.get? p = none := by
            rw [get?, ← htext, ← Option.not_isSome_iff_eq_none]
            exact hcontains
          rw [if_pos htext.symm, hnone, beq_iff_eq.2 htext]
          rfl
        · rw [if_neg fun h => htext h.symm, beq_eq_false_iff_ne.2 htext]
          rfl
  exact hfold targets []

end Findings

namespace Resource

/-! ### One pass -/

/-- The paths that the entries of a resource refer to. -/
def targets (x : Resource) : List Path :=
  x.arena.toList.flatMap fun c => c.entries.filterMap (·.target?)

/-- The entry that a reference leads to. Paths that are written alike are looked up once, for the
first of them. -/
def lookup? (x : Resource) (p : Path) : Option Entry :=
  x.root?.bind fun root => (x.targets.find? (·.text == p.text)).bind (x.arena.entryAt? root)

/-- The resource after one more pass over its references. -/
def retyped (x : Resource) : Resource := x.resolveTypes.1

/-- The type of an entry after a number of passes. -/
def typeAfter (x : Resource) : Nat → Entry → String
  | 0, e => e.typeName
  | n + 1, e =>
    match e.target? with
    | none => e.typeName
    | some p =>
      match x.lookup? p with
      | none => typeNotFound
      | some d => x.typeAfter n d

/-- An entry after a number of passes. -/
def entryAfter (x : Resource) (n : Nat) (e : Entry) : Entry :=
  { e with typeName := x.typeAfter n e }

variable {x : Resource} {root : Nat} {f : Findings}

theorem targets_eq_referring (x : Resource) :
    x.arena.referring.map (fun (_, _, target) => target) = x.targets := by
  unfold Arena.referring targets
  rw [List.map_flatMap]
  simp only [List.map_filterMap, Option.map_map]
  conv_rhs => rw [← List.zipIdx_map_fst 0 x.arena.toList, List.flatMap_map]
  refine congrArg (List.flatMap · _) (funext fun q => ?_)
  refine congrArg (List.filterMap · _) (funext fun e => ?_)
  cases e.target? <;> rfl

theorem retyped_eq (hroot : x.root? = some root) :
    x.retyped = x.withTypes (.ofTargets x.arena root x.targets) := by
  rw [retyped, resolveTypes, hroot]
  simp only
  rw [targets_eq_referring]

@[simp] theorem root?_retyped (x : Resource) : x.retyped.root? = x.root? := by
  unfold retyped resolveTypes
  cases hroot : x.root? with
  | none => exact hroot
  | some root => exact hroot

theorem name_typedEntry (f : Findings) (e : Entry) : (typedEntry f e).name = e.name := by
  unfold typedEntry
  split <;> rfl

theorem target?_typedEntry (f : Findings) (e : Entry) : (typedEntry f e).target? = e.target? := by
  unfold typedEntry
  split <;> rfl

/-- Writing types changes no target. -/
theorem targets_withTypes (x : Resource) (f : Findings) : (x.withTypes f).targets = x.targets := by
  simp only [targets, withTypes, Arena.toList, Array.toList_map, List.flatMap_map,
    List.filterMap_map, Function.comp_def, target?_typedEntry]

theorem childNamed?_withTypes (x : Resource) (f : Findings) (id : Nat) (name : String) :
    (x.withTypes f).arena.childNamed? id name = x.arena.childNamed? id name := by
  simp only [Arena.childNamed?, get?_withTypes, Option.map_map, Option.any_map]
  rfl

theorem descend?_withTypes (x : Resource) (f : Findings) (id : Nat) (names : List String) :
    (x.withTypes f).arena.descend? id names = x.arena.descend? id names := by
  induction names generalizing id with
  | nil => rfl
  | cons name names ih =>
    rw [Arena.descend?, Arena.descend?, childNamed?_withTypes]
    exact congrArg _ (funext ih)

theorem entryNamed?_withTypes (x : Resource) (f : Findings) (id : Nat) (name : String) :
    ((x.withTypes f).arena.get? id).bind (·.entryNamed? name) =
      ((x.arena.get? id).bind (·.entryNamed? name)).map (typedEntry f) := by
  rw [get?_withTypes]
  cases x.arena.get? id with
  | none => rfl
  | some c =>
    simp only [Option.map_some, Option.bind_some, Container.entryNamed?, List.find?_map,
      Function.comp_def, name_typedEntry]

/-- Writing types changes the entry at a path, but not which one it is. -/
theorem entryAt?_withTypes (x : Resource) (f : Findings) (root : Nat) (p : Path) :
    (x.withTypes f).arena.entryAt? root p = (x.arena.entryAt? root p).map (typedEntry f) := by
  unfold Arena.entryAt?
  simp only [Option.bind_eq_bind, descend?_withTypes, childNamed?_withTypes, Option.map_bind]
  cases p.last? with
  | none => rfl
  | some last =>
    cases x.arena.descend? root p.parent.names with
    | none => rfl
    | some above =>
      simp only [Option.bind_some, Function.comp_apply]
      cases last.keys with
      | nil => exact entryNamed?_withTypes x f above last.name
      | cons q keys =>
        simp only
        cases x.arena.childNamed? above last.name with
        | none => rfl
        | some child => exact entryNamed?_withTypes x f child q.1

/-- A pass gives an entry the type that its target has. -/
theorem typedEntry_eq_entryAfter (hroot : x.root? = some root) (e : Entry) :
    typedEntry (.ofTargets x.arena root x.targets) e = x.entryAfter 1 e := by
  unfold typedEntry entryAfter typeAfter
  obtain ⟨name, typeName, kind, key, mandatory, readOnly, default?, next?, target?,
    description?⟩ := e
  cases target? with
  | none => rfl
  | some p =>
    simp only [Findings.typeFor, Findings.get?_ofTargets, lookup?, hroot, Option.bind_some]
    cases x.targets.find? (·.text == p.text) with
    | none => rfl
    | some q =>
      simp only [Option.map_some, Option.bind_some, Option.getD_some, Arena.typeAt?]
      cases x.arena.entryAt? root q with
      | none => rfl
      | some d => rfl

/-- A pass leads a reference to the same entry, with the type that this one gets. -/
theorem lookup?_retyped (x : Resource) (p : Path) :
    x.retyped.lookup? p = (x.lookup? p).map (x.entryAfter 1) := by
  cases hroot : x.root? with
  | none =>
    rw [lookup?, root?_retyped, lookup?, hroot]
    rfl
  | some root =>
    rw [lookup?, root?_retyped, lookup?, hroot, retyped_eq hroot, targets_withTypes,
      Option.bind_some, Option.bind_some, Option.map_bind]
    refine congrArg _ (funext fun q => ?_)
    rw [entryAt?_withTypes]
    exact congrArg (Option.map · _) (funext (typedEntry_eq_entryAfter hroot))

/-- An entry that refers to none keeps its type. -/
theorem entryAfter_of_value {e : Entry} (h : e.target? = none) (n : Nat) :
    x.entryAfter n e = e := by
  cases n with
  | zero => rfl
  | succ n =>
    have htype : x.typeAfter (n + 1) e = e.typeName := by rw [typeAfter, h]
    rw [entryAfter, htype]

/-! ### Passes in a row -/

/-- Passes in a row after one pass are one pass more. -/
theorem typeAfter_retyped (x : Resource) (n : Nat) (e : Entry) :
    x.retyped.typeAfter n (x.entryAfter 1 e) = x.typeAfter (n + 1) e := by
  induction n generalizing e with
  | zero => rfl
  | succ n ih =>
    rw [typeAfter, typeAfter, show (x.entryAfter 1 e).target? = e.target? from rfl]
    cases htarget : e.target? with
    | none =>
      simp only [entryAfter, typeAfter, htarget]
    | some p =>
      simp only [lookup?_retyped]
      cases x.lookup? p with
      | none => rfl
      | some d => exact ih d

theorem entryAfter_retyped (x : Resource) (n : Nat) (e : Entry) :
    x.retyped.entryAfter n (x.entryAfter 1 e) = x.entryAfter (n + 1) e := by
  rw [entryAfter, typeAfter_retyped]
  rfl

theorem targets_iterate (x : Resource) (n : Nat) : (retyped^[n] x).targets = x.targets := by
  induction n generalizing x with
  | zero => rfl
  | succ n ih =>
    rw [Function.iterate_succ_apply, ih]
    cases hroot : x.root? with
    | none =>
      unfold retyped resolveTypes
      rw [hroot]
    | some root => rw [retyped_eq hroot, targets_withTypes]

theorem lookup?_iterate (x : Resource) (n : Nat) (p : Path) :
    (retyped^[n] x).lookup? p = (x.lookup? p).map (x.entryAfter n) := by
  induction n generalizing x with
  | zero =>
    rw [Function.iterate_zero_apply]
    exact Option.map_id_apply.symm
  | succ n ih =>
    rw [Function.iterate_succ_apply, ih, lookup?_retyped, Option.map_map]
    exact congrArg (Option.map · _) (funext (entryAfter_retyped x n))

theorem typeAfter_iterate (x : Resource) (n k : Nat) (e : Entry) :
    (retyped^[n] x).typeAfter k (x.entryAfter n e) = x.typeAfter (n + k) e := by
  induction n generalizing x e k with
  | zero =>
    rw [Nat.zero_add]
    rfl
  | succ n ih =>
    rw [Function.iterate_succ_apply, ← entryAfter_retyped, ih, typeAfter_retyped,
      Nat.add_right_comm]

/-- The entries after passes in a row. -/
theorem entries_iterate {i : Nat} {c : Container} (hroot : x.root? = some root) (n : Nat)
    (hc : x.arena.get? i = some c) :
    ∃ c', (retyped^[n] x).arena.get? i = some c' ∧ c'.entries = c.entries.map (x.entryAfter n) := by
  induction n generalizing x c with
  | zero => exact ⟨c, hc, (List.map_id _).symm⟩
  | succ n ih =>
    have hget := get?_withTypes x (.ofTargets x.arena root x.targets) i
    rw [← retyped_eq hroot, hc, Option.map_some] at hget
    obtain ⟨c', hc', hentries⟩ := ih ((root?_retyped x).trans hroot) hget
    refine ⟨c', hc', hentries.trans ?_⟩
    rw [List.map_map]
    refine List.map_congr_left fun e _ => ?_
    rw [Function.comp_apply, typedEntry_eq_entryAfter hroot, entryAfter_retyped]

/-! ### Chains -/

/-- An entry that stands in one of the containers. -/
def Has (x : Resource) (e : Entry) : Prop := ∃ i c, x.arena.get? i = some c ∧ e ∈ c.entries

/-- A reference leads from one entry to another. -/
def Follows (x : Resource) (e d : Entry) : Prop := ∃ p, e.target? = some p ∧ x.lookup? p = some d

/-- From an entry a chain of that many references leads to a type. -/
inductive Ends (x : Resource) : Nat → Entry → String → Prop where
  /-- An entry that refers to none has its type. -/
  | value {e : Entry} : e.target? = none → x.Ends 0 e e.typeName
  /-- A reference that leads nowhere has the type for those. -/
  | lost {e : Entry} {p : Path} : e.target? = some p → x.lookup? p = none → x.Ends 1 e typeNotFound
  /-- Any other reference has the type of the entry that it leads to. -/
  | link {e d : Entry} {n : Nat} {type : String} : x.Follows e d → x.Ends n d type →
    x.Ends (n + 1) e type

/-- After as many passes as a chain has links its first entry has the type at its end. -/
theorem Ends.typeAfter_eq {k : Nat} {e : Entry} {type : String} (h : x.Ends k e type) {n : Nat}
    (hn : k ≤ n) : x.typeAfter n e = type := by
  induction h generalizing n with
  | value hnone =>
    cases n with
    | zero => rfl
    | succ n => rw [typeAfter, hnone]
  | lost htarget hlost =>
    obtain ⟨n, rfl⟩ := Nat.exists_eq_succ_of_ne_zero (n := n) (by omega)
    simp only [typeAfter, htarget, hlost]
  | link hfollows _ ih =>
    obtain ⟨p, htarget, hfound⟩ := hfollows
    obtain ⟨n, rfl⟩ := Nat.exists_eq_succ_of_ne_zero (n := n) (by omega)
    simp only [typeAfter, htarget, hfound]
    exact ih (by omega)

/-- From a reference that leads somewhere the chain goes on there. -/
theorem Ends.of_follows {k : Nat} {e d : Entry} {type : String} (h : x.Ends k e type)
    (hfollows : x.Follows e d) : ∃ n, k = n + 1 ∧ x.Ends n d type := by
  obtain ⟨p, htarget, hfound⟩ := hfollows
  cases h with
  | value hnone =>
    rw [htarget] at hnone
    cases hnone
  | lost htarget' hlost =>
    obtain rfl := Option.some.inj (htarget.symm.trans htarget')
    rw [hfound] at hlost
    cases hlost
  | @link _ d' n _ hfollows hends =>
    obtain ⟨q, htarget', hfound'⟩ := hfollows
    obtain rfl := Option.some.inj (htarget.symm.trans htarget')
    obtain rfl := Option.some.inj (hfound.symm.trans hfound')
    exact ⟨n, rfl, hends⟩

/-- A chain has one length. -/
theorem Ends.unique {k n : Nat} {e : Entry} {type type' : String} (h : x.Ends k e type)
    (h' : x.Ends n e type') : k = n := by
  induction h generalizing n with
  | value hnone =>
    cases h' with
    | value => rfl
    | lost htarget =>
      rw [hnone] at htarget
      cases htarget
    | link hfollows =>
      obtain ⟨p, htarget, -⟩ := hfollows
      rw [hnone] at htarget
      cases htarget
  | lost htarget hlost =>
    cases h' with
    | value hnone =>
      rw [htarget] at hnone
      cases hnone
    | lost => rfl
    | link hfollows =>
      obtain ⟨p, htarget', hfound⟩ := hfollows
      obtain rfl := Option.some.inj (htarget.symm.trans htarget')
      rw [hlost] at hfound
      cases hfound
  | link hfollows _ ih =>
    obtain ⟨m, rfl, hends⟩ := h'.of_follows hfollows
    rw [ih hends]

/-- Whether the chain from an entry has at most that many links. -/
def endsWithin (x : Resource) : Nat → Entry → Bool
  | 0, e => e.target?.isNone
  | n + 1, e => e.target?.all fun p => (x.lookup? p).all (x.endsWithin n)

theorem endsWithin_iff {n : Nat} {e : Entry} :
    x.endsWithin n e = true ↔ ∃ k type, x.Ends k e type ∧ k ≤ n := by
  induction n generalizing e with
  | zero =>
    rw [endsWithin, Option.isNone_iff_eq_none]
    constructor
    · exact fun hnone => ⟨0, _, .value hnone, Nat.le_refl 0⟩
    · rintro ⟨k, type, hends, hk⟩
      cases hends with
      | value hnone => exact hnone
      | lost => cases hk
      | link => cases hk
  | succ n ih =>
    rw [endsWithin]
    cases htarget : e.target? with
    | none => simpa using ⟨0, ⟨_, .value htarget⟩, Nat.zero_le _⟩
    | some p =>
      cases hfound : x.lookup? p with
      | none => simpa [hfound] using ⟨1, ⟨_, .lost htarget hfound⟩, Nat.le_add_left 1 n⟩
      | some d =>
        rw [Option.all_some, hfound, Option.all_some, ih]
        constructor
        · rintro ⟨k, type, hends, hk⟩
          exact ⟨k + 1, type, .link ⟨p, htarget, hfound⟩ hends, Nat.succ_le_succ hk⟩
        · rintro ⟨k, type, hends, hk⟩
          obtain ⟨m, rfl, hrest⟩ := hends.of_follows ⟨p, htarget, hfound⟩
          exact ⟨m, type, hrest, Nat.le_of_succ_le_succ hk⟩

theorem has_of_lookup? {p : Path} {d : Entry} (h : x.lookup? p = some d) : x.Has d := by
  obtain ⟨root, -, h⟩ := Option.bind_eq_some_iff.1 h
  obtain ⟨q, -, h⟩ := Option.bind_eq_some_iff.1 h
  have hnamed : ∀ {place : Nat} {name : String},
      (x.arena.get? place).bind (·.entryNamed? name) = some d → x.Has d := by
    intro place name hd
    obtain ⟨c, hc, hd⟩ := Option.bind_eq_some_iff.1 hd
    exact ⟨place, c, hc, List.mem_of_find?_eq_some hd⟩
  unfold Arena.entryAt? at h
  obtain ⟨last, -, h⟩ := Option.bind_eq_some_iff.1 h
  obtain ⟨above, -, h⟩ := Option.bind_eq_some_iff.1 h
  split at h
  · obtain ⟨child, -, h⟩ := Option.bind_eq_some_iff.1 h
    exact hnamed h
  · exact hnamed h

/-- Where all chains end none is cyclic. -/
theorem acyclic_of_ends (h : ∀ e, x.Has e → ∃ k type, x.Ends k e type) (e : Entry) :
    ¬ Relation.TransGen x.Follows e e := by
  intro hcycle
  have hshorter : ∀ {d : Entry}, Relation.TransGen x.Follows e d → ∀ {k : Nat} {type : String},
      x.Ends k e type → ∃ n, n < k ∧ x.Ends n d type := by
    intro d hd k type hk
    induction hd with
    | single hfollows =>
      obtain ⟨n, rfl, hends⟩ := hk.of_follows hfollows
      exact ⟨n, Nat.lt_succ_self n, hends⟩
    | tail _ hfollows ih =>
      obtain ⟨m, hm, hends⟩ := ih
      obtain ⟨n, rfl, hrest⟩ := hends.of_follows hfollows
      exact ⟨n, Nat.lt_of_succ_lt hm, hrest⟩
  have hhas : x.Has e := by
    obtain ⟨d, -, p, -, hfound⟩ := Relation.TransGen.tail'_iff.1 hcycle
    exact has_of_lookup? hfound
  obtain ⟨k, type, hends⟩ := h e hhas
  obtain ⟨n, hlt, hends'⟩ := hshorter hcycle hends
  exact Nat.ne_of_lt hlt (hends'.unique hends)

/-- The entries that refer to a path. -/
def references (x : Resource) : List Entry :=
  (x.arena.toList.flatMap (·.entries)).filter (·.target?.isSome)

theorem length_references (x : Resource) : x.references.length = x.targets.length := by
  unfold references targets
  induction x.arena.toList with
  | nil => rfl
  | cons c cs ih =>
    rw [List.flatMap_cons, List.filter_append, List.length_append, ih, List.flatMap_cons,
      List.length_append, List.length_filterMap_eq_countP, List.countP_eq_length_filter]

theorem Has.mem_references {e : Entry} (h : x.Has e) {p : Path} (htarget : e.target? = some p) :
    e ∈ x.references := by
  obtain ⟨i, c, hc, he⟩ := h
  rw [Arena.get?, ← Array.getElem?_toList] at hc
  refine List.mem_filter.2 ⟨List.mem_flatMap.2 ⟨c, List.mem_of_getElem? hc, he⟩, ?_⟩
  rw [htarget]
  rfl

theorem Has.mem_targets {e : Entry} (h : x.Has e) {p : Path} (htarget : e.target? = some p) :
    p ∈ x.targets := by
  obtain ⟨i, c, hc, he⟩ := h
  rw [Arena.get?, ← Array.getElem?_toList] at hc
  exact List.mem_flatMap.2 ⟨c, List.mem_of_getElem? hc, List.mem_filterMap.2 ⟨e, he, htarget⟩⟩

theorem exists_of_mem_targets {p : Path} (h : p ∈ x.targets) :
    ∃ e, x.Has e ∧ e.target? = some p := by
  obtain ⟨c, hc, hp⟩ := List.mem_flatMap.1 h
  obtain ⟨e, he, htarget⟩ := List.mem_filterMap.1 hp
  obtain ⟨i, hi⟩ := List.mem_iff_getElem?.1 hc
  rw [Arena.toList, Array.getElem?_toList] at hi
  exact ⟨e, ⟨i, c, hi, he⟩, htarget⟩

/-- Where no chain is cyclic each has an end, and no more links than there are references: the
references on the way are all different. -/
theorem exists_ends (hacyclic : ∀ e, ¬ Relation.TransGen x.Follows e e) {e : Entry} (he : x.Has e) :
    ∃ k type, x.Ends k e type ∧ k ≤ x.targets.length := by
  have hvisited : ∀ (m : Nat) (visited : List Entry) (e : Entry), visited.Nodup →
      visited ⊆ x.references → (∀ v ∈ visited, Relation.TransGen x.Follows v e) → x.Has e →
      visited.length + m = x.references.length → ∃ k type, x.Ends k e type ∧ k ≤ m := by
    intro m
    induction m with
    | zero =>
      intro visited e hnodup hsub hreach he hlen
      cases htarget : e.target? with
      | none => exact ⟨0, _, .value htarget, Nat.le_refl 0⟩
      | some p =>
        -- all references have been visited, so this one would be visited again
        have hmem : e ∈ visited :=
          ((List.subperm_of_subset hnodup hsub).perm_of_length_le (by omega)).mem_iff.2
            (he.mem_references htarget)
        exact absurd (hreach e hmem) (hacyclic e)
    | succ m ih =>
      intro visited e hnodup hsub hreach he hlen
      cases htarget : e.target? with
      | none => exact ⟨0, _, .value htarget, Nat.zero_le _⟩
      | some p =>
        cases hfound : x.lookup? p with
        | none => exact ⟨1, _, .lost htarget hfound, Nat.succ_le_succ (Nat.zero_le m)⟩
        | some d =>
          have hfollows : x.Follows e d := ⟨p, htarget, hfound⟩
          have hnew : e ∉ visited := fun hmem => hacyclic e (hreach e hmem)
          obtain ⟨k, type, hends, hk⟩ := ih (e :: visited) d (hnodup.cons hnew)
            (List.cons_subset.2 ⟨he.mem_references htarget, hsub⟩)
            (List.forall_mem_cons.2 ⟨.single hfollows, fun v hv => (hreach v hv).tail hfollows⟩)
            (has_of_lookup? hfound) (by rw [List.length_cons]; omega)
          exact ⟨k + 1, type, .link hfollows hends, Nat.succ_le_succ hk⟩
  rw [← length_references]
  exact hvisited _ [] e List.nodup_nil (List.nil_subset _) (fun v hv => by cases hv) he
    (Nat.zero_add _)

/-! ### Fixed points -/

/-- One more pass changes nothing when the one before has not changed the type of anything that a
reference leads to. -/
theorem retyped_retyped (hroot : x.root? = some root)
    (h : ∀ p ∈ x.targets, ∀ d, x.lookup? p = some d → x.typeAfter 1 d = d.typeName) :
    x.retyped.retyped = x.retyped := by
  generalize hf : Findings.ofTargets x.arena root x.targets = f
  have hretyped : x.retyped = x.withTypes f := by rw [retyped_eq hroot, hf]
  -- both passes find the same
  have hsame : ∀ p,
      (Findings.ofTargets (x.withTypes f).arena root x.targets).get? p = f.get? p := by
    intro p
    rw [← hf, Findings.get?_ofTargets, Findings.get?_ofTargets]
    cases hfirst : x.targets.find? (·.text == p.text) with
    | none => rfl
    | some q =>
      have hself : x.targets.find? (·.text == q.text) = some q := by
        have htext := List.find?_some hfirst
        rw [beq_iff_eq.1 htext]
        exact hfirst
      rw [Option.map_some, Option.map_some, Arena.typeAt?, entryAt?_withTypes, Arena.typeAt?,
        Option.map_map]
      cases hentry : x.arena.entryAt? root q with
      | none => rfl
      | some d =>
        have hd := h q (List.mem_of_find?_eq_some hfirst) d (by
          rw [lookup?, hroot, Option.bind_some, hself, Option.bind_some, hentry])
        rw [Option.map_some, Option.map_some, Function.comp_apply,
          typedEntry_eq_entryAfter hroot, entryAfter, hd]
  generalize hg : Findings.ofTargets (x.withTypes f).arena root x.targets = g at hsame
  have hentry : ∀ e, typedEntry g (typedEntry f e) = typedEntry f e := by
    intro e
    unfold typedEntry
    cases htarget : e.target? with
    | none => simp only [htarget]
    | some p => simp only [Findings.typeFor, hsame]
  have hreference : ∀ r, typedReference g (typedReference f r) = typedReference f r := by
    intro r
    unfold typedReference
    cases hfound : f.get? r.target with
    | none => simp only [hsame, hfound]
    | some found => simp only [hsame, hfound]
  rw [hretyped, retyped_eq (x := x.withTypes f) hroot, targets_withTypes, hg]
  simp only [withTypes, Array.map_map, List.map_map, Function.comp_def, hentry, hreference]

/-- Once all chains have been resolved, one more pass changes nothing. -/
theorem retyped_iterate_of_ends (hroot : x.root? = some root) {n : Nat}
    (h : ∀ e, x.Has e → ∃ k type, x.Ends k e type ∧ k ≤ n + 1) :
    retyped^[n + 2] x = retyped^[n + 1] x := by
  have hroot' : (retyped^[n] x).root? = some root := by
    rw [← hroot]
    clear hroot h
    induction n generalizing x with
    | zero => rfl
    | succ n ih => rw [Function.iterate_succ_apply, ih, root?_retyped]
  rw [Function.iterate_succ_apply', Function.iterate_succ_apply']
  refine retyped_retyped hroot' fun p hp d hd => ?_
  rw [targets_iterate] at hp
  rw [lookup?_iterate] at hd
  obtain ⟨d', hd', rfl⟩ := Option.map_eq_some_iff.1 hd
  obtain ⟨e, he, htarget⟩ := exists_of_mem_targets hp
  obtain ⟨k, type, hends, hk⟩ := h e he
  rw [typeAfter_iterate]
  show x.typeAfter (n + 1) d' = x.typeAfter n d'
  obtain ⟨k, rfl, hrest⟩ := hends.of_follows ⟨p, htarget, hd'⟩
  rw [hrest.typeAfter_eq (Nat.le_of_succ_le hk), hrest.typeAfter_eq (Nat.le_of_succ_le_succ hk)]

/-! ### Chains after a pass -/

theorem exists_of_retyped {i : Nat} {c : Container} (hroot : x.root? = some root)
    (hc : x.retyped.arena.get? i = some c) :
    ∃ d, x.arena.get? i = some d ∧ c.entries = d.entries.map (x.entryAfter 1) := by
  rw [retyped_eq hroot, get?_withTypes] at hc
  obtain ⟨d, hd, rfl⟩ := Option.map_eq_some_iff.1 hc
  exact ⟨d, hd, List.map_congr_left fun e _ => typedEntry_eq_entryAfter hroot e⟩

theorem Has.retyped {e : Entry} (hroot : x.root? = some root) (h : x.Has e) :
    x.retyped.Has (x.entryAfter 1 e) := by
  obtain ⟨i, c, hc, he⟩ := h
  obtain ⟨c', hc', hentries⟩ := entries_iterate hroot 1 hc
  refine ⟨i, c', hc', ?_⟩
  rw [hentries]
  exact List.mem_map_of_mem he

theorem Follows.retyped {e d : Entry} (h : x.Follows e d) :
    x.retyped.Follows (x.entryAfter 1 e) (x.entryAfter 1 d) := by
  obtain ⟨p, htarget, hfound⟩ := h
  exact ⟨p, htarget, by rw [lookup?_retyped, hfound, Option.map_some]⟩

/-- A pass keeps the ends of all chains. -/
theorem ends_retyped {k : Nat} {e : Entry} {type : String} :
    x.retyped.Ends k (x.entryAfter 1 e) type ↔ x.Ends k e type := by
  constructor
  · intro h
    generalize he : x.entryAfter 1 e = e' at h
    induction h generalizing e with
    | value hnone =>
      subst he
      have hvalue : e.target? = none := hnone
      rw [entryAfter_of_value hvalue]
      exact .value hvalue
    | @lost e' p htarget hlost =>
      subst he
      rw [lookup?_retyped, Option.map_eq_none_iff] at hlost
      exact .lost (p := p) htarget hlost
    | link hfollows _ ih =>
      subst he
      obtain ⟨p, htarget, hfound⟩ := hfollows
      rw [lookup?_retyped] at hfound
      obtain ⟨d, hd, hdd⟩ := Option.map_eq_some_iff.1 hfound
      exact .link ⟨p, htarget, hd⟩ (ih hdd)
  · intro h
    induction h with
    | value hnone =>
      rw [entryAfter_of_value hnone]
      exact .value hnone
    | @lost e p htarget hlost =>
      refine .lost (p := p) htarget ?_
      rw [lookup?_retyped, hlost, Option.map_none]
    | link hfollows _ ih => exact .link hfollows.retyped ih

end Resource

/-! ### The result -/

namespace ResourceSet

open Resource

variable {s t u : ResourceSet} {o : Options} {f : Forest}

/-- After a successful compilation of the whole schema its root container is the one just made. -/
theorem root?_of_compile (hs : s.Instantiated) (hmode : s.mode = .full) {places : List Nat}
    (ht : s.Sound places t) {stats : Stats} (h : t.compile o f = (u, .ok stats)) {x : Resource}
    (hx : u.get? rootId = some x) : x.root? = some t.topSize := by
  have hsound := (ht.compile hs o f).each (by rw [h]; exact hx)
  rw [hmode, Call.installs, ht.mode_eq, hmode] at hsound
  have hroot := Resource.Sound.root_eq hsound
  rw [hroot, if_pos rfl, List.getLast?_concat]

/-- Finishing passes over the references of the whole schema once, and sets no mark there. -/
theorem get?_finish_full (hmode : u.mode = .full) {x : Resource} (hx : u.get? rootId = some x)
    (hid : x.id = rootId) : u.finish.1.get? rootId = some x.retyped := by
  rw [finish, resolveTypes, hmode, hx]
  simp only
  rw [get?, closeState, Array.getElem?_map]
  show Option.map _ ((u.modify rootId fun _ => x.resolveTypes.1).get? rootId) = _
  have hroot : x.retyped.isRoot = true := by
    rw [isRoot, show x.retyped.id = x.id from id_of_blank (blank_resolveTypes x), hid]
    rfl
  rw [get?_modify, if_pos rfl, hx, Option.map_some, Option.map_some]
  exact congrArg some (if_pos hroot)

/-- A successful build leaves the whole schema after one pass over its references. -/
theorem exists_retyped_of_build (hs : s.Instantiated) (hmode : s.mode = .full) {places : List Nat}
    (ht : s.Sound places t) {result : Stats × FinishReport} (h : t.build o f = (u, .ok result))
    {y : Resource} (hy : u.get? rootId = some y) :
    ∃ w x, t.compile o f = (w, .ok result.1) ∧ w.get? rootId = some x ∧
      x.root? = some t.topSize ∧ y = x.retyped := by
  obtain ⟨w, hw, hfinish⟩ := build_eq_ok h
  obtain rfl : w.finish.1 = u := congrArg Prod.fst hfinish
  have hsound := ht.compile hs o f
  rw [hw] at hsound
  have hblank : w.finish.1.blank = s := hsound.finish.blank
  obtain ⟨x, hx, -⟩ := exists_get?_of_blank hsound.blank hblank hy
  refine ⟨w, x, hw, hx, root?_of_compile hs hmode ht hw hx, ?_⟩
  have hretyped := get?_finish_full (hsound.mode_eq.trans hmode) hx (hs.id_eq hsound.blank hx)
  exact Option.some.inj (hy.symm.trans hretyped)

/-- After any calls and a successful build of the whole schema in which no chain of references is
cyclic: every chain ends after no more links than there are references; if no chain has more than
`n + 1` links, then `n` more passes over the references give every entry the type at the end of its
chain, and a further pass changes nothing. So where no reference leads to a reference one more
pass changes nothing. -/
theorem retyped_iterate_fixed {m : ResourceMap} (hs : ofMap m .full = .ok s) (cs : List Call)
    {result : Stats × FinishReport} (h : (s.performAll cs).build o f = (t, .ok result))
    {y : Resource} (hy : t.get? rootId = some y)
    (hacyclic : ∀ e, ¬ Relation.TransGen y.Follows e e) :
    (∀ e, y.Has e → ∃ k type, y.Ends k e type ∧ k ≤ y.targets.length) ∧
    (∀ n, (∀ e k type, y.Has e → y.Ends k e type → k ≤ n + 1) →
      retyped^[n + 1] y = retyped^[n] y ∧
      ∀ {i j k : Nat} {c e type}, y.arena.get? i = some c → c.entries[j]? = some e →
        y.Ends k e type →
        ∃ c', (retyped^[n] y).arena.get? i = some c' ∧
          c'.entries[j]? = some { e with typeName := type }) ∧
    ((∀ e d, y.Has e → y.Follows e d → d.target? = none) → y.retyped = y) := by
  have hinst := instantiated_ofMap hs
  have hmode : s.mode = .full := (exists_root_ofMap hs).1
  have hsound := hinst.sound.performAll hinst cs
  obtain ⟨w, x, -, -, hroot, rfl⟩ := exists_retyped_of_build hinst hmode hsound h hy
  -- the chains before the last pass are not cyclic either
  have hacyclic' : ∀ e, ¬ Relation.TransGen x.Follows e e := by
    intro e hcycle
    exact hacyclic (x.entryAfter 1 e) (hcycle.lift _ fun _ _ hfollows => hfollows.retyped)
  have hfixed : ∀ n, (∀ e k type, x.retyped.Has e → x.retyped.Ends k e type → k ≤ n + 1) →
      retyped^[n + 1] x.retyped = retyped^[n] x.retyped := by
    intro n hn
    rw [← Function.iterate_succ_apply, ← Function.iterate_succ_apply]
    refine retyped_iterate_of_ends hroot fun e he => ?_
    obtain ⟨k, type, hends, -⟩ := exists_ends hacyclic' he
    exact ⟨k, type, hends, hn _ k type (he.retyped hroot) (ends_retyped.2 hends)⟩
  refine ⟨fun e he => exists_ends hacyclic he, fun n hn => ⟨hfixed n hn, ?_⟩, fun hshort => ?_⟩
  · intro i j k c e type hc he hends
    have hk := hn e k type ⟨i, c, hc, List.mem_of_getElem? he⟩ hends
    obtain ⟨d, hd, hentries⟩ := exists_of_retyped hroot hc
    rw [hentries, List.getElem?_map] at he
    obtain ⟨e', he', rfl⟩ := Option.map_eq_some_iff.1 he
    obtain ⟨c', hc', hentries'⟩ := entries_iterate hroot (n + 1) hd
    rw [Function.iterate_succ_apply] at hc'
    refine ⟨c', hc', ?_⟩
    rw [hentries', List.getElem?_map, he', Option.map_some, entryAfter,
      (ends_retyped.1 hends).typeAfter_eq hk]
    rfl
  · refine hfixed 0 fun e k type he hends => ?_
    cases hends with
    | value => exact Nat.zero_le 1
    | lost => exact Nat.le_refl 1
    | link hfollows hends =>
      cases hends with
      | value => exact Nat.le_refl 1
      | lost htarget =>
        rw [hshort e _ he hfollows] at htarget
        cases htarget
      | link hfollows' =>
        obtain ⟨p, htarget, -⟩ := hfollows'
        rw [hshort e _ he hfollows] at htarget
        cases htarget

/-- A container with a leaf that refers to a leaf that refers to a third one. -/
def chained : Forest :=
  let leafref (name expr : String) : Node :=
    ⟨({ name, kind := .leaf : Declaration }).withReference expr, []⟩
  .ofModules [{ name := "m", nodes := [("a", (((Node.ofKind .container "a").withChild
    (leafref "x" "/a/y")).withChild (leafref "y" "../z")).withChild (.ofLeaf "z" "string"))] }]

/-- After a build the first of three leafs has the type that the second had before. -/
theorem exists_build_chained :
    ∃ s t result y, ofMap {} .full = .ok s ∧ s.build {} chained = (t, .ok result) ∧
      t.get? rootId = some y ∧
      y.arena.toList.map (fun c => c.entries.map (·.typeName)) =
        [[""], ["leafref", "string", "string"]] ∧
      y.retyped.arena.toList.map (fun c => c.entries.map (·.typeName)) =
        [[""], ["string", "string", "string"]] ∧
      (∀ e, ¬ Relation.TransGen y.Follows e e) ∧
      ∀ e k type, y.Has e → y.Ends k e type → k ≤ 2 := by
  obtain ⟨s, hs, htest⟩ := exists_ok_of_any
    (p := fun s => (s.build {} chained).2.toOption.isSome &&
      ((s.build {} chained).1.get? rootId).any fun y =>
        (y.arena.toList.map (fun c => c.entries.map (·.typeName)) ==
          [[""], ["leafref", "string", "string"]] &&
        y.retyped.arena.toList.map (fun c => c.entries.map (·.typeName)) ==
          [[""], ["string", "string", "string"]]) &&
        y.arena.toList.all fun c => c.entries.all (y.endsWithin 2))
    (show (ofMap {} .full).toOption.any _ = true by decide +kernel)
  rw [Bool.and_eq_true] at htest
  obtain ⟨result, hresult⟩ := exists_ok_of_isSome htest.1
  obtain ⟨y, hy, htypes⟩ := (Option.any_eq_true _ _).1 htest.2
  rw [Bool.and_eq_true, Bool.and_eq_true, beq_iff_eq, beq_iff_eq] at htypes
  obtain ⟨⟨hfirst, hsecond⟩, hwithin⟩ := htypes
  have hends : ∀ e, y.Has e → ∃ k type, y.Ends k e type ∧ k ≤ 2 := by
    rintro e ⟨i, c, hc, he⟩
    rw [Arena.get?, ← Array.getElem?_toList] at hc
    exact endsWithin_iff.1
      (List.all_eq_true.1 (List.all_eq_true.1 hwithin c (List.mem_of_getElem? hc)) e he)
  refine ⟨s, _, result, y, hs, Prod.ext rfl hresult, hy, hfirst, hsecond, ?_, ?_⟩
  · refine acyclic_of_ends fun e he => ?_
    obtain ⟨k, type, hk, -⟩ := hends e he
    exact ⟨k, type, hk⟩
  · intro e k type he hk
    obtain ⟨n, type', hn, hle⟩ := hends e he
    rw [hk.unique hn]
    exact hle

/-- Three leafs of which each but the last refers to the next: one more pass gives all of them the
type of the last, and then nothing changes any more. -/
theorem retyped_iterate_fixed_chained :
    ∃ s t result y, ofMap {} .full = .ok s ∧ s.build {} chained = (t, .ok result) ∧
      t.get? rootId = some y ∧ (∀ e, ¬ Relation.TransGen y.Follows e e) ∧
      (∀ e k type, y.Has e → y.Ends k e type → k ≤ 2) ∧
      y.retyped.arena.toList.map (fun c => c.entries.map (·.typeName)) =
        [[""], ["string", "string", "string"]] ∧
      y.retyped.retyped = y.retyped := by
  obtain ⟨s, t, result, y, hs, h, hy, -, hsecond, hacyclic, hends⟩ := exists_build_chained
  obtain ⟨-, hfixed, -⟩ := retyped_iterate_fixed hs [] h hy hacyclic
  exact ⟨s, t, result, y, hs, h, hy, hacyclic, hends, hsecond, (hfixed 1 hends).1⟩

/-- One pass does not resolve a chain of two references. -/
theorem retyped_ne_of_chained :
    ∃ s t result y, ofMap {} .full = .ok s ∧ s.build {} chained = (t, .ok result) ∧
      t.get? rootId = some y ∧ (∀ e, ¬ Relation.TransGen y.Follows e e) ∧ y.retyped ≠ y := by
  obtain ⟨s, t, result, y, hs, h, hy, hfirst, hsecond, hacyclic, -⟩ := exists_build_chained
  refine ⟨s, t, result, y, hs, h, hy, hacyclic, fun hfixed => ?_⟩
  rw [hfixed, hfirst] at hsecond
  revert hsecond
  decide

end ResourceSet

end YangPartition
