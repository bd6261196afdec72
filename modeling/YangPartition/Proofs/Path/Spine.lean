import Mathlib.Data.List.Infix
import YangPartition.Path.Spine
import YangPartition.Proofs.Path.Names

/-!
# Spines and the names of paths

Two spines are compared from their ends, and how far the longer one is climbed before that is read
off the counts; so the comparison says what it should only where the counts are right. All
operations on spines keep them right, and then a spine does what the path that it holds does. In
whatever way two spines were built, one is above the other exactly when its names are a prefix of
the other's names.
-/

namespace YangPartition.Path

namespace Spine

variable {t u : Spine}

/-- The path that a spine holds. -/
def path (t : Spine) : Path := ⟨t.elems⟩

/-- The count is the number of elements. -/
def Counted (t : Spine) : Prop := t.count = t.upward.length

@[simp] theorem names_path (t : Spine) : t.path.names = t.names := rfl

@[simp] theorem elems_push (t : Spine) (e : Elem) : (t.push e).elems = t.elems ++ [e] :=
  List.reverse_cons

theorem Counted.length_path (h : t.Counted) : t.path.length = t.count := by
  rw [h, path, elems, length, List.length_reverse]

theorem Counted.length_names (h : t.Counted) : t.names.length = t.count := by
  rw [← names_path, Path.length_names, h.length_path]

/-! ### The counts -/

theorem counted_root : root.Counted := rfl

theorem Counted.push (h : t.Counted) (e : Elem) : (t.push e).Counted := by
  rw [Counted, Spine.push, h, List.length_cons]

theorem Counted.foldl_push (h : t.Counted) (es : List Elem) : (es.foldl Spine.push t).Counted := by
  induction es generalizing t with
  | nil => exact h
  | cons e es ih => exact ih (h.push e)

theorem counted_ofElems (es : List Elem) : (ofElems es).Counted := counted_root.foldl_push es

theorem Counted.parent (h : t.Counted) : t.parent.Counted := by
  unfold Spine.parent
  split
  · next e above hup =>
    -- there is an element to leave, so the count is not zero
    rw [Counted, h, hup, List.length_cons, Nat.add_sub_cancel]
  · exact counted_root

theorem Counted.join (h : t.Counted) (u : Spine) : (t.join u).Counted := h.foldl_push u.elems

theorem counted_drop (n : Nat) (t : Spine) : (t.drop n).Counted := counted_ofElems _

theorem Counted.foldKey (h : t.Counted) : t.foldKey.Counted := by
  unfold Spine.foldKey
  split
  · exact h
  · split
    · exact h.parent.parent.push _
    · exact h

/-! ### The elements -/

theorem path_push (t : Spine) (e : Elem) : (t.push e).path = t.path.push e := by
  rw [path, elems_push]
  rfl

theorem elems_foldl_push (t : Spine) (es : List Elem) :
    (es.foldl push t).elems = t.elems ++ es := by
  induction es generalizing t with
  | nil => exact (List.append_nil _).symm
  | cons e es ih => rw [List.foldl_cons, ih, elems_push, List.append_assoc, List.singleton_append]

theorem elems_ofElems (es : List Elem) : (ofElems es).elems = es := elems_foldl_push root es

theorem path_ofNames (names : List String) : (ofNames names).path = Path.ofNames names := by
  rw [path, ofNames, elems_ofElems]
  rfl

theorem path_parent (t : Spine) : t.parent.path = t.path.parent := by
  unfold Spine.parent
  split
  · next e above hup => simp [path, elems, Path.parent, hup]
  · next hup => simp [path, elems, Path.parent, hup, root]

theorem path_join (t u : Spine) : (t.join u).path = t.path.join u.path := by
  rw [path, join, elems_foldl_push]
  rfl

theorem names_join (t u : Spine) : (t.join u).names = t.names ++ u.names := by
  rw [← names_path, path_join, Path.names_join, names_path, names_path]

theorem path_drop (n : Nat) (t : Spine) : (t.drop n).path = t.path.drop n := by
  rw [path, drop, elems_ofElems]
  rfl

theorem names_drop (n : Nat) (t : Spine) : (t.drop n).names = t.names.drop n := by
  rw [names, drop, elems_ofElems, List.map_drop, names]

/-- The count tells whether there is a name to fold and an element before it. -/
theorem Counted.path_foldKey (h : t.Counted) : t.foldKey.path = t.path.foldKey := by
  obtain ⟨upward, count⟩ := t
  obtain rfl : count = upward.length := h
  cases upward with
  | nil => rfl
  | cons leaf upward =>
    cases upward with
    | nil => rfl
    | cons owner above =>
      have hlong : ¬ (leaf :: owner :: above).length < 2 := by simp
      rw [Spine.foldKey, if_neg hlong]
      simp [Path.foldKey, path, elems, last?, Spine.parent, Spine.push]

/-! ### Comparison -/

theorem Counted.isAbove_eq (ht : t.Counted) (hu : u.Counted) :
    t.isAbove u = t.path.isAbove u.path := by
  -- the counts are the lengths, so both are climbed to the same element
  rw [isAbove, Path.isAbove, ht.length_path, hu.length_path]
  simp only [path, elems, List.reverse_reverse]

theorem Counted.sameNames_eq (ht : t.Counted) (hu : u.Counted) :
    t.sameNames u = t.path.sameNames u.path := by
  rw [sameNames, Path.sameNames, ht.isAbove_eq hu, ht.length_path, hu.length_path]

theorem Counted.isAbove_iff (ht : t.Counted) (hu : u.Counted) :
    t.isAbove u = true ↔ t.names <+: u.names := by
  rw [ht.isAbove_eq hu, Path.isAbove_iff, names_path, names_path]

/-- A spine that is counted wrong may end before the names differ. -/
example : isAbove ⟨[.named "b"], 2⟩ (ofNames ["a", "b"]) = true := by decide

theorem Counted.sameNames_iff (ht : t.Counted) (hu : u.Counted) :
    t.sameNames u = true ↔ t.names = u.names := by
  rw [ht.sameNames_eq hu, Path.sameNames_iff, names_path, names_path]

/-- What is left of a path below the end of another goes on from that end. -/
theorem Counted.names_join_drop (h : t.Counted) (hnames : t.names <+: u.names) :
    (t.join (u.drop t.count)).names = u.names := by
  obtain ⟨rest, hrest⟩ := hnames
  rw [names_join, names_drop, ← hrest, ← h.length_names, List.drop_left, hrest]

end Spine

/-! ### Built paths -/

/-- A way to build a path from lists of names. -/
inductive Construction where
  /-- Starts with elements without keys. -/
  | ofNames (names : List String)
  /-- Goes one step further down. -/
  | push (c : Construction) (e : Elem)
  /-- Leaves the last element out. -/
  | parent (c : Construction)
  /-- Goes on along another path. -/
  | join (c d : Construction)
  /-- Leaves the first elements out. -/
  | drop (n : Nat) (c : Construction)
  /-- Makes the last name a key of the element before. -/
  | foldKey (c : Construction)

namespace Construction

/-- The path that is built. -/
def path : Construction → Path
  | .ofNames names => .ofNames names
  | .push c e => c.path.push e
  | .parent c => c.path.parent
  | .join c d => c.path.join d.path
  | .drop n c => c.path.drop n
  | .foldKey c => c.path.foldKey

/-- The spine that is built. -/
def spine : Construction → Spine
  | .ofNames names => .ofNames names
  | .push c e => c.spine.push e
  | .parent c => c.spine.parent
  | .join c d => c.spine.join d.spine
  | .drop n c => c.spine.drop n
  | .foldKey c => c.spine.foldKey

/-- However a spine is built, its count is right. -/
theorem counted_spine (c : Construction) : c.spine.Counted := by
  induction c with
  | ofNames names => exact Spine.counted_ofElems _
  | push c e ih => exact ih.push e
  | parent c ih => exact ih.parent
  | join c d ihc _ => exact ihc.join d.spine
  | drop n c _ => exact Spine.counted_drop n c.spine
  | foldKey c ih => exact ih.foldKey

/-- A spine holds the path that is built in the same way. -/
theorem path_spine (c : Construction) : c.spine.path = c.path := by
  induction c with
  | ofNames names => exact Spine.path_ofNames names
  | push c e ih => rw [spine, Spine.path_push, ih, path]
  | parent c ih => rw [spine, Spine.path_parent, ih, path]
  | join c d ihc ihd => rw [spine, Spine.path_join, ihc, ihd, path]
  | drop n c ih => rw [spine, Spine.path_drop, ih, path]
  | foldKey c ih => rw [spine, c.counted_spine.path_foldKey, ih, path]

/-- However spines are built, they are compared by their names. The count of a spine is the number
of its elements; these are the elements of the path that is built in the same way, and the spine is
compared with others as that path is. It is above another one just if its names are a prefix of the
other's names, and two lead to the same node just if they have the same names. So keys do not count,
the comparison is reflexive and transitive, and two that are above each other lead to the same node.
What is left of a spine below the end of another one, put behind that one, leads to the same node
again. -/
theorem above_by_names (a b c : Construction) :
    (a.spine.count = a.spine.elems.length ∧ a.spine.elems = a.path.elems) ∧
    (a.spine.isAbove b.spine = a.path.isAbove b.path ∧
      a.spine.sameNames b.spine = a.path.sameNames b.path) ∧
    (a.spine.isAbove b.spine = true ↔ a.spine.names <+: b.spine.names) ∧
    (a.spine.sameNames b.spine = true ↔ a.spine.names = b.spine.names) ∧
    (∀ a' b' : Construction, a'.spine.names = a.spine.names → b'.spine.names = b.spine.names →
      a'.spine.isAbove b'.spine = a.spine.isAbove b.spine) ∧
    a.spine.isAbove a.spine = true ∧
    (a.spine.isAbove b.spine = true → b.spine.isAbove c.spine = true →
      a.spine.isAbove c.spine = true) ∧
    (a.spine.isAbove b.spine = true → b.spine.isAbove a.spine = true →
      a.spine.sameNames b.spine = true) ∧
    (a.spine.isAbove b.spine = true →
      (a.spine.join (b.spine.drop a.spine.count)).sameNames b.spine = true) := by
  have ha := a.counted_spine
  have hb := b.counted_spine
  have hc := c.counted_spine
  refine ⟨⟨?_, ?_⟩, ⟨?_, ?_⟩, ha.isAbove_iff hb, ha.sameNames_iff hb, ?_, ?_, ?_, ?_, ?_⟩
  · rw [← ha.length_path]
    rfl
  · rw [← a.path_spine]
    rfl
  · rw [ha.isAbove_eq hb, a.path_spine, b.path_spine]
  · rw [ha.sameNames_eq hb, a.path_spine, b.path_spine]
  · intro a' b' hnames hnames'
    rw [Bool.eq_iff_iff, a'.counted_spine.isAbove_iff b'.counted_spine, ha.isAbove_iff hb, hnames,
      hnames']
  · exact (ha.isAbove_iff ha).2 List.prefix_rfl
  · intro hab hbc
    exact (ha.isAbove_iff hc).2 (((ha.isAbove_iff hb).1 hab).trans ((hb.isAbove_iff hc).1 hbc))
  · intro hab hba
    have hdown := (ha.isAbove_iff hb).1 hab
    have hup := (hb.isAbove_iff ha).1 hba
    exact (ha.sameNames_iff hb).2 (hdown.eq_of_length_le hup.length_le)
  · intro hab
    have hnames := ha.names_join_drop ((ha.isAbove_iff hb).1 hab)
    exact ((ha.join _).sameNames_iff hb).2 hnames

/-- A path without keys is above one with a folded key, and leads to it along what is left of it. -/
theorem above_by_names_folded :
    let a : Construction := .ofNames ["network-instance", "protocols"]
    let b : Construction := .parent (.join (.foldKey (.ofNames ["network-instance", "name"]))
      (.drop 1 (.push (.ofNames ["top", "protocols", "bgp"]) (.wild "group" ["name"]))))
    b.path = ⟨[.wild "network-instance" ["name"], .named "protocols", .named "bgp"]⟩ ∧
      a.spine.isAbove b.spine = true ∧ b.spine.isAbove a.spine = false ∧
      a.spine.join (b.spine.drop a.spine.count) ≠ b.spine ∧
      (a.spine.join (b.spine.drop a.spine.count)).sameNames b.spine = true := by
  intro a b
  obtain ⟨-, -, habove, -, -, -, -, -, hrest⟩ := above_by_names a b b
  obtain ⟨-, -, hbelow, -⟩ := above_by_names b a a
  have hab := habove.2 (by decide)
  have hba := Bool.eq_false_iff.2 (mt hbelow.1 (by decide))
  exact ⟨by decide, hab, hba, by decide, hrest hab⟩

end Construction

end YangPartition.Path
