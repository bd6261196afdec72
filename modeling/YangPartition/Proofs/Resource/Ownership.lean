import Mathlib.Data.List.Induction
import Mathlib.Data.List.Pairwise
import YangPartition.Proofs.Resource.Instantiation

/-!
# Ownership

A path belongs to the active resource with the longest path above it. In a set
that comes from a map no two resources tie, so it does not matter in which order
the resources are tried or how a tie would be decided. Going down a branch, the
owner changes only where another resource is rooted.
-/

namespace YangPartition

namespace ResourceSet

/-! ### The longest path above -/

/-- The resource is the one with the longest path above `p`; nothing when no path is above. -/
def IsLongest (p : Path) (rs : List Resource) : Option Resource → Prop
  | none => ∀ r ∈ rs, ¬ r.path.names <+: p.names
  | some b => b ∈ rs ∧ b.path.names <+: p.names ∧
      ∀ r ∈ rs, r.path.names <+: p.names → r ≠ b → r.path.length < b.path.length

theorem IsLongest.unique {p : Path} {rs : List Resource} {a b : Option Resource}
    (ha : IsLongest p rs a) (hb : IsLongest p rs b) : a = b := by
  cases a with
  | none =>
    cases b with
    | none => rfl
    | some b => exact absurd hb.2.1 (ha b hb.1)
  | some a =>
    cases b with
    | none => exact absurd ha.2.1 (hb a ha.1)
    | some b =>
      by_contra hne
      have hab : a ≠ b := fun h => hne (congrArg some h)
      have h1 := ha.2.2 b hb.1 hb.2.1 hab.symm
      have h2 := hb.2.2 a ha.1 ha.2.1 hab
      omega

/-- A way to compare lengths that prefers the longer of two; it may decide ties in any way. -/
structure PrefersLonger (beats : Nat → Nat → Bool) : Prop where
  /-- A longer path beats a shorter one. -/
  longer : ∀ {new old}, old < new → beats new old = true
  /-- A shorter path does not beat a longer one. -/
  shorter : ∀ {new old}, new < old → beats new old = false

/-- One more candidate is taken if it is above the path and beats the best so far. -/
theorem longest_append (beats : Nat → Nat → Bool) (p : Path) (rs : List Resource) (r : Resource) :
    longest beats p (rs ++ [r]) =
      if r.path.isAbove p && (longest beats p rs).all fun b => beats r.path.length b.path.length
      then some r else longest beats p rs := by
  rw [longest, longest, List.foldl_append]
  rfl

/-- The search finds one of the candidates. -/
theorem mem_of_longest {beats : Nat → Nat → Bool} {p : Path} {rs : List Resource} {r : Resource}
    (h : longest beats p rs = some r) : r ∈ rs := by
  induction rs using List.reverseRecOn with
  | nil => cases h
  | append_singleton rs a ih =>
    rw [longest_append] at h
    split at h
    · rw [← Option.some.inj h]
      exact List.mem_append_right _ (List.mem_singleton_self a)
    · exact List.mem_append_left _ (ih h)

/-- One more candidate that is not above the path changes nothing. -/
theorem IsLongest.append_of_not_above {p : Path} {rs : List Resource} {r : Resource}
    {best : Option Resource} (h : IsLongest p rs best) (hr : ¬ r.path.names <+: p.names) :
    IsLongest p (rs ++ [r]) best := by
  have hold : ∀ a ∈ rs ++ [r], a.path.names <+: p.names → a ∈ rs := by
    intro a ha hp
    rcases List.mem_append.1 ha with ha | ha
    · exact ha
    · rw [List.mem_singleton.1 ha] at hp
      exact absurd hp hr
  cases best with
  | none => exact fun a ha hp => h a (hold a ha hp) hp
  | some b =>
    obtain ⟨hmem, hpre, hmax⟩ := h
    exact ⟨List.mem_append_left _ hmem, hpre, fun a ha hp => hmax a (hold a ha hp) hp⟩

/-- Nor does one that is shorter than the longest so far. -/
theorem IsLongest.append_of_shorter {p : Path} {rs : List Resource} {r b : Resource}
    (h : IsLongest p rs (some b)) (hr : r.path.length < b.path.length) :
    IsLongest p (rs ++ [r]) (some b) := by
  obtain ⟨hmem, hpre, hmax⟩ := h
  refine ⟨List.mem_append_left _ hmem, hpre, fun a ha hp hne => ?_⟩
  rcases List.mem_append.1 ha with ha | ha
  · exact hmax a ha hp hne
  · rw [List.mem_singleton.1 ha]
    exact hr

/-- One above the path that is longer than the longest so far takes its place. -/
theorem IsLongest.append_of_longer {p : Path} {rs : List Resource} {r : Resource}
    {best : Option Resource} (h : IsLongest p rs best) (hr : r.path.names <+: p.names)
    (hlonger : ∀ b ∈ best, b.path.length < r.path.length) :
    IsLongest p (rs ++ [r]) (some r) := by
  refine ⟨List.mem_append_right _ (List.mem_singleton_self r), hr, fun a ha hp hne => ?_⟩
  rcases List.mem_append.1 ha with ha | ha
  · cases best with
    | none => exact absurd hp (h a ha)
    | some b =>
      have hb := hlonger b rfl
      by_cases hab : a = b
      · rw [hab]
        exact hb
      · exact Nat.lt_trans (h.2.2 a ha hp hab) hb
  · exact absurd (List.mem_singleton.1 ha) hne

/-- Two paths above one path have different lengths when their names differ. -/
theorem length_ne_of_above {p a b : Path} (ha : a.names <+: p.names) (hb : b.names <+: p.names)
    (hne : a.names ≠ b.names) : a.length ≠ b.length := by
  intro hlen
  have hpre := List.prefix_of_prefix_length_le ha hb (by simp [hlen])
  exact hne (hpre.eq_of_length (by simp [hlen]))

/-- Among resources with different names the search finds the longest, whatever it does with ties. -/
theorem isLongest_longest {beats : Nat → Nat → Bool} (hb : PrefersLonger beats) (p : Path)
    {rs : List Resource} (hd : rs.Pairwise fun a b => a.path.names ≠ b.path.names) :
    IsLongest p rs (longest beats p rs) := by
  induction rs using List.reverseRecOn with
  | nil => exact fun r hr => by cases hr
  | append_singleton rs r ih =>
    obtain ⟨hrs, -, hr⟩ := List.pairwise_append.1 hd
    specialize ih hrs
    rw [longest_append]
    by_cases habove : r.path.isAbove p = true
    · have hrp := (Path.isAbove_iff ..).1 habove
      cases hbest : longest beats p rs with
      | none =>
        rw [hbest] at ih
        rw [if_pos (by simp [habove])]
        exact ih.append_of_longer hrp fun b hb => by cases hb
      | some b =>
        rw [hbest] at ih
        have hnames := hr b ih.1 r (List.mem_singleton_self r)
        have hlen := length_ne_of_above ih.2.1 hrp hnames
        rcases Nat.lt_or_gt_of_ne hlen with hlt | hgt
        · rw [if_pos (by simp [habove, hb.longer hlt])]
          exact ih.append_of_longer hrp (by simpa using hlt)
        · rw [if_neg (by simp [hb.shorter hgt])]
          exact ih.append_of_shorter hgt
    · rw [if_neg (by simp [habove])]
      exact ih.append_of_not_above fun h => habove ((Path.isAbove_iff ..).2 h)

/-- The search that takes the first of several longest. -/
theorem prefersLonger_lt : PrefersLonger fun new old => decide (old < new) where
  longer h := decide_eq_true h
  shorter h := decide_eq_false (Nat.not_lt_of_lt h)

/-- The search that takes the last of several longest. -/
theorem prefersLonger_le : PrefersLonger fun new old => decide (old ≤ new) where
  longer h := decide_eq_true (Nat.le_of_lt h)
  shorter h := decide_eq_false (Nat.not_le_of_lt h)

/-! ### The owner of a path -/

variable {s : ResourceSet}

/-- No two active resources have the same names. -/
theorem Instantiated.active_distinct (h : s.Instantiated) :
    s.active.Pairwise fun a b => a.path.names ≠ b.path.names := by
  rw [active]
  cases s.mode with
  | declared => exact h.distinct
  | full =>
    simp only
    cases hs : s.toList with
    | nil => exact List.Pairwise.nil
    | cons r rs => simp

theorem Instantiated.isLongest_bestMatch? (h : s.Instantiated) (p : Path) :
    IsLongest p s.active (s.bestMatch? p) :=
  isLongest_longest prefersLonger_lt p h.active_distinct

theorem Instantiated.isLongest_owner? (h : s.Instantiated) (p : Path) :
    IsLongest p s.declared (s.owner? p) :=
  isLongest_longest prefersLonger_le p h.distinct

theorem Instantiated.bestMatch?_eq_iff (h : s.Instantiated) (p : Path) (r? : Option Resource) :
    s.bestMatch? p = r? ↔ IsLongest p s.active r? := by
  constructor
  · rintro rfl
    exact h.isLongest_bestMatch? p
  · exact fun hr => (h.isLongest_bestMatch? p).unique hr

/-- The owner of a path owns every path on the way up to its own. -/
theorem Instantiated.bestMatch?_of_prefix (h : s.Instantiated) {p q : Path} {r : Resource}
    (hpq : p.names <+: q.names) (hq : s.bestMatch? q = some r) (hlen : r.path.length ≤ p.length) :
    s.bestMatch? p = some r := by
  rw [h.bestMatch?_eq_iff] at hq ⊢
  obtain ⟨hmem, hpre, hmax⟩ := hq
  refine ⟨hmem, ?_, fun a ha hp hne => hmax a ha (hp.trans hpq) hne⟩
  exact List.prefix_of_prefix_length_le hpre hpq (by simpa using hlen)

/-- A compiled resource that is rooted at a path is the owner of the path. -/
theorem Instantiated.bestMatch?_of_rooted (h : s.Instantiated) {r : Resource} (hr : r ∈ s.active)
    {p : Path} (hp : r.path.names = p.names) : s.bestMatch? p = some r := by
  have hself : r.path.names <+: p.names := hp ▸ List.prefix_rfl
  refine (h.bestMatch?_eq_iff p _).2 ⟨hr, hself, fun a ha habove hne => ?_⟩
  have : Std.Symm fun a b : Resource => a.path.names ≠ b.path.names := ⟨fun _ _ => Ne.symm⟩
  have hnames : a.path.names ≠ r.path.names := h.active_distinct.forall ha hr hne
  -- any other resource above the path has fewer names
  refine Nat.lt_of_le_of_ne ?_ (length_ne_of_above habove hself hnames)
  rw [← Path.length_names, ← Path.length_names, hp]
  exact habove.length_le

/-- A path belongs to the active resource whose names are a prefix of its names when
those of every other such resource are fewer. Going down by one element the owner
stays, unless the path is that of a resource; and among declared resources the
search from the other end finds the same owner. -/
theorem bestMatch_is_longest_prefix {m : ResourceMap} {mode : Mode} (hs : ofMap m mode = .ok s) :
    (∀ p r, s.bestMatch? p = some r ↔
      r ∈ s.active ∧ r.path.names <+: p.names ∧
        ∀ a ∈ s.active, a.path.names <+: p.names → a ≠ r → a.path.length < r.path.length) ∧
    (∀ p, s.bestMatch? p = none ↔ ∀ r ∈ s.active, ¬ r.path.names <+: p.names) ∧
    (∀ p e r, s.bestMatch? (p.push e) = some r → r.path.length ≤ p.length →
      s.bestMatch? p = some r) ∧
    (s.mode = .declared → ∀ p, s.owner? p = s.bestMatch? p) := by
  have h := instantiated_ofMap hs
  refine ⟨fun p r => h.bestMatch?_eq_iff p (some r), fun p => h.bestMatch?_eq_iff p none, ?_, ?_⟩
  · intro p e r hr hlen
    exact h.bestMatch?_of_prefix (by rw [Path.names_push]; exact List.prefix_append ..) hr hlen
  · intro hmode p
    have hactive : s.active = s.declared := by rw [active, hmode]
    exact (h.isLongest_owner? p).unique (hactive ▸ h.isLongest_bestMatch? p)

/-- Below a resource inside another one, the inner resource owns the paths. -/
theorem bestMatch_below_inner :
    ∃ s, ofMap { declared := [("/a", { hierarchy? := some [("b", {})] }), ("/m:c", {})] }
        .declared = .ok s ∧
      (s.bestMatch? (.ofNames ["a", "b", "x"])).map (·.id) = some 2 ∧
      (s.bestMatch? (.ofNames ["a", "b"])).map (·.id) = some 2 ∧
      ∀ p, s.owner? p = s.bestMatch? p := by
  obtain ⟨s, hs, htest⟩ := exists_ok_of_any
    (p := fun s => s.mode == .declared &&
      (s.bestMatch? (.ofNames ["a", "b", "x"])).any fun r => r.id == 2 && r.path.length == 2)
    (show (ofMap { declared := [("/a", { hierarchy? := some [("b", {})] }), ("/m:c", {})] }
      .declared).toOption.any _ = true by decide +kernel)
  simp only [Bool.and_eq_true, beq_iff_eq, Option.any_eq_true] at htest
  obtain ⟨hmode, r, hr, hid, hlen⟩ := htest
  obtain ⟨-, -, hup, hties⟩ := bestMatch_is_longest_prefix hs
  have hab := hup (.ofNames ["a", "b"]) (.named "x") r hr (Nat.le_of_eq hlen)
  refine ⟨s, hs, ?_, ?_, hties hmode⟩
  · rw [hr, ← hid]
    rfl
  · rw [hab, ← hid]
    rfl

end ResourceSet

end YangPartition
