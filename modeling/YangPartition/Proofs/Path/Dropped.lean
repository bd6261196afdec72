import YangPartition.Proofs.Path.Expression
import YangPartition.Proofs.Path.Image

/-!
# What is dropped

A segment is split off with its brackets counted, but a predicate is read up to its first closing
bracket, and the next one is looked for behind that. So a text in brackets is cut where a bracket
closes in it, and what stands between predicates or behind them is passed over. A segment is read
whole exactly when no bracket stands in its predicates and only blanks stand behind them; its
element then has the last value that is written for each key.
-/

namespace YangPartition

open Text YangPartition.Path

namespace Segment

variable {s : Segment}

/-- The texts in brackets. -/
def insides (s : Segment) : List (List Char) := s.predicates.map (·.1)

/-- The segment is its name with the predicates that are read of it, in brackets, and only blanks
behind each of them. -/
def IsWhole (s : Segment) : Prop :=
  ∃ t : Segment, t.text = s.text ∧ t.name = s.name ∧ t.insides = s.read ∧
    ∀ p ∈ t.predicates, ∀ c ∈ p.2, isBlank c = true

/-! ### Whole segments -/

/-- No closing bracket stands in what is read. -/
theorem Nested.ne_of_mem_read (h : s.Nested) : ∀ p ∈ s.read, ∀ c ∈ p, c ≠ ']' :=
  ne_of_mem_predicates (predicates_text h) (by simp)

/-- Where no bracket closes in a predicate, those that open in it are too many. -/
theorem count_predicatesText {ps : List (List Char × List Char)}
    (hinside : ∀ p ∈ ps, ∀ c ∈ p.1, c ≠ ']')
    (hbehind : ∀ p ∈ ps, ∀ c ∈ p.2, c ≠ '/' ∧ c ≠ '[' ∧ c ≠ ']') :
    (predicatesText ps).count '[' =
      (predicatesText ps).count ']' + (ps.flatMap (·.1)).count '[' := by
  induction ps with
  | nil => rfl
  | cons p ps ih =>
    rw [List.forall_mem_cons] at hinside hbehind
    have hclose : p.1.count ']' = 0 := List.count_eq_zero.2 fun hc => hinside.1 _ hc rfl
    have hopenBehind : p.2.count '[' = 0 :=
      List.count_eq_zero.2 fun hc => (hbehind.1 _ hc).2.1 rfl
    have hcloseBehind : p.2.count ']' = 0 :=
      List.count_eq_zero.2 fun hc => (hbehind.1 _ hc).2.2 rfl
    have hmore := ih hinside.2 hbehind.2
    rw [predicatesText_cons, List.flatMap_cons]
    simp only [List.count_cons, List.count_append, hclose, hopenBehind, hcloseBehind]
    simp
    omega

/-- The predicates are read as they are written when no bracket stands in them, and only then. -/
theorem Nested.read_eq_insides_iff (h : s.Nested) :
    s.read = s.insides ↔ ∀ inside ∈ s.insides, ∀ c ∈ inside, c ≠ '[' ∧ c ≠ ']' := by
  refine ⟨fun hread => ?_, fun hflat => read_of_flat h (List.forall_mem_map.1 hflat)⟩
  exact List.forall_mem_map.2 fun p hp =>
    (h.inside p hp).flat (h.ne_of_mem_read p.1 (hread ▸ List.mem_map_of_mem hp))

/-- A segment is read whole when no bracket stands in a predicate and only blanks stand behind,
and only then. -/
theorem Nested.isWhole_iff (h : s.Nested) :
    s.IsWhole ↔ ∀ p ∈ s.predicates, (∀ c ∈ p.1, c ≠ '[' ∧ c ≠ ']') ∧
      ∀ c ∈ p.2, isBlank c = true := by
  constructor
  · rintro ⟨t, htext, hname, hread, hblank⟩
    have hclose : ∀ p ∈ t.predicates, ∀ c ∈ p.1, c ≠ ']' := fun p hp =>
      h.ne_of_mem_read p.1 (hread ▸ List.mem_map_of_mem hp)
    have hbehind : ∀ p ∈ t.predicates, ∀ c ∈ p.2, c ≠ '/' ∧ c ≠ '[' ∧ c ≠ ']' :=
      fun p hp c hc => ne_of_isBlank (hblank p hp c hc)
    have htname : ∀ c ∈ t.name, c ≠ '/' ∧ c ≠ '[' ∧ c ≠ ']' := hname ▸ h.name
    -- brackets balance in the text, so none opens in a predicate either
    have hflat : ∀ p ∈ t.predicates, ∀ c ∈ p.1, c ≠ '[' ∧ c ≠ ']' := by
      have hbalanced : t.text.count '[' = t.text.count ']' := by
        have hclosed := h.isSegment.closed
        rw [htext]
        omega
      have hopenName : t.name.count '[' = 0 :=
        List.count_eq_zero.2 fun hc => (htname _ hc).2.1 rfl
      have hcloseName : t.name.count ']' = 0 :=
        List.count_eq_zero.2 fun hc => (htname _ hc).2.2 rfl
      have hcount := count_predicatesText hclose hbehind
      have hnone : (t.predicates.flatMap (·.1)).count '[' = 0 := by
        rw [text, List.count_append, List.count_append] at hbalanced
        omega
      refine fun p hp c hc => ⟨?_, hclose p hp c hc⟩
      rintro rfl
      exact List.count_eq_zero.1 hnone (List.mem_flatMap.2 ⟨p, hp, hc⟩)
    have hnested : t.Nested := ⟨htname, fun p hp => isBalanced_of_flat (hflat p hp), hbehind⟩
    obtain rfl := hnested.eq_of_text_eq h htext
    exact fun p hp => ⟨hflat p hp, hblank p hp⟩
  · intro hplain
    exact ⟨s, rfl, rfl, (read_of_flat h fun p hp => (hplain p hp).1).symm,
      fun p hp => (hplain p hp).2⟩

/-! ### Keys -/

/-- The last value that is read for a key counts. -/
theorem find?_keys_elem (s : Segment) (key : String) :
    NameMap.find? key s.elem.keys = NameMap.find? key (s.read.map keyOfPredicate).reverse := by
  rw [elem, keys_withPredicates, NameMap.find?_ofPairs]

/-- A predicate is read at least as far as no bracket closes in it. -/
theorem Nested.takeWhile_mem_read (h : s.Nested) :
    ∀ inside ∈ s.insides, inside.takeWhile (· != ']') ∈ s.read := by
  intro inside hinside
  obtain ⟨p, hp, rfl⟩ := List.mem_map.1 hinside
  obtain ⟨more, hmore⟩ := exists_cuts_eq_cons (h.inside p hp)
  exact List.mem_flatMap.2 ⟨p, hp, by simp [hmore]⟩

/-- No key and no value that is read has a closing bracket. -/
theorem Nested.not_mem_keys_elem (h : s.Nested) {kv : String × String}
    (hkv : ']' ∈ kv.1.toList ∨ ']' ∈ kv.2.toList) : kv ∉ s.elem.keys := by
  intro hmem
  rw [elem, keys_withPredicates] at hmem
  obtain ⟨p, hp, rfl⟩ := List.mem_map.1 (NameMap.mem_of_mem_ofPairs hmem)
  obtain ⟨hkey, hvalue⟩ := clean_keyOfPredicate (h.ne_of_mem_read p hp)
  rcases hkv with hc | hc
  · exact (hkey _ hc).2.1 rfl
  · exact hvalue _ hc rfl

end Segment

namespace Path

/-- What is read of a text, and what is dropped. A text is a path when it is written with segments
and each that is not empty has a name, whatever stands in brackets or behind them. The path has an
element for each of these segments, with its name and, for each key, the last value that is read.
The segment is read whole exactly when no bracket stands in its predicates and only blanks stand
behind them. Where no bracket stands in them the last value that is written for a key is kept, and
otherwise a predicate is cut at its first closing bracket: a key or value with one is not kept. -/
theorem parse_whole_iff (s : String) :
    ((∃ p, parse s = .ok p) ↔ ∃ ss, Segment.Spells ss (trim s.toList) ∧
      ∀ t ∈ ss, t.text ≠ [] → t.pathName ≠ "") ∧
    ∀ p ss, parse s = .ok p → Segment.Spells ss (trim s.toList) →
      p.elems = (ss.filter fun t => !t.text.isEmpty).map Segment.elem ∧
      ∀ t ∈ ss, t.elem.name = t.pathName ∧
        (∀ key, NameMap.find? key t.elem.keys =
          NameMap.find? key (t.read.map keyOfPredicate).reverse) ∧
        (t.IsWhole ↔ ∀ q ∈ t.predicates, (∀ c ∈ q.1, c ≠ '[' ∧ c ≠ ']') ∧
          ∀ c ∈ q.2, isBlank c = true) ∧
        (t.read = t.insides ↔ ∀ inside ∈ t.insides, ∀ c ∈ inside, c ≠ '[' ∧ c ≠ ']') ∧
        ∀ inside ∈ t.insides, inside.takeWhile (· != ']') ∈ t.read ∧
          (']' ∈ (keyOfPredicate inside).1.toList ∨ ']' ∈ (keyOfPredicate inside).2.toList →
            keyOfPredicate inside ∉ t.elem.keys) := by
  refine ⟨⟨?_, ?_⟩, fun p ss hp hss => ?_⟩
  · rintro ⟨p, hp⟩
    obtain ⟨ss, hss, hnamed, -⟩ := Segment.parse_eq_ok_iff_spells.1 hp
    exact ⟨ss, hss, hnamed⟩
  · rintro ⟨ss, hss, hnamed⟩
    exact ⟨_, Segment.parse_eq_ok_iff_spells.2 ⟨ss, hss, hnamed, rfl⟩⟩
  · obtain ⟨ts, hts, -, helems⟩ := Segment.parse_eq_ok_iff_spells.1 hp
    obtain rfl := hss.unique hts
    refine ⟨helems, fun t ht => ?_⟩
    have hnested := hss.nested t ht
    exact ⟨name_withPredicates _ _, t.find?_keys_elem, hnested.isWhole_iff,
      hnested.read_eq_insides_iff,
      fun inside hinside => ⟨hnested.takeWhile_mem_read inside hinside, hnested.not_mem_keys_elem⟩⟩

/-- Predicates with blanks behind them, two of which are for one key, and a name without any. -/
theorem parse_whole_iff_interface :
    let t : Segment := ⟨"interface".toList,
      [("name=lag1".toList, " ".toList), ("unit".toList, []), ("if:name = 'lag2'".toList, [])]⟩
    let ss : List Segment := [⟨[], []⟩, t, ⟨"mtu".toList, []⟩]
    ∃ p, parse "/interface[name=lag1] [unit][if:name = 'lag2']/mtu" = .ok p ∧
      Segment.Spells ss (trim "/interface[name=lag1] [unit][if:name = 'lag2']/mtu".toList) ∧
      p.elems = [t.elem, .named "mtu"] ∧ t.IsWhole ∧ t.read = t.insides ∧
      NameMap.find? "name" t.elem.keys = some "lag2" := by
  intro t ss
  have hss :
      Segment.Spells ss (trim "/interface[name=lag1] [unit][if:name = 'lag2']/mtu".toList) := by
    decide +kernel
  obtain ⟨hreadable, hread⟩ := parse_whole_iff "/interface[name=lag1] [unit][if:name = 'lag2']/mtu"
  obtain ⟨p, hp⟩ := hreadable.2 ⟨ss, hss, by decide +kernel⟩
  obtain ⟨helems, hparts⟩ := hread p ss hp hss
  obtain ⟨-, hkeys, hwhole, hflat, -⟩ := hparts t (by simp [ss])
  refine ⟨p, hp, hss, helems.trans (by decide +kernel), hwhole.2 (by decide +kernel),
    hflat.2 (by decide +kernel), (hkeys "name").trans (by decide +kernel)⟩

/-- A value with brackets is cut at the one that closes, although the segment goes on to the slash;
text behind a predicate is passed over. -/
theorem parse_drops_brackets :
    let t : Segment := ⟨"interface".toList, [("name=lag[1]".toList, [])]⟩
    let u : Segment := ⟨"a".toList, [("k=v".toList, "x".toList)]⟩
    (Segment.Spells [⟨[], []⟩, t, ⟨"mtu".toList, []⟩]
        (trim "/interface[name=lag[1]]/mtu".toList) ∧
      parse "/interface[name=lag[1]]/mtu" =
        .ok ⟨[(Elem.named "interface").withKey "name" "lag[1", .named "mtu"]⟩ ∧
      NameMap.find? "name" (t.insides.map keyOfPredicate).reverse = some "lag[1]" ∧
      ¬ t.IsWhole) ∧
    Segment.Spells [⟨[], []⟩, u] (trim "/a[k=v]x".toList) ∧
      parse "/a[k=v]x" = .ok ⟨[(Elem.named "a").withKey "k" "v"]⟩ ∧ ¬ u.IsWhole := by
  intro t u
  have ht : t.Nested := by decide +kernel
  have hu : u.Nested := by decide +kernel
  refine ⟨⟨by decide +kernel, by decide +kernel, by decide +kernel, ?_⟩,
    by decide +kernel, by decide +kernel, ?_⟩
  · rw [ht.isWhole_iff]
    decide +kernel
  · rw [hu.isWhole_iff]
    decide +kernel

end Path

end YangPartition
