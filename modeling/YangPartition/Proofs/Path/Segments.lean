import YangPartition.Proofs.Path.Reading

/-!
# Segments with predicates

A text that can stand between slashes is a name with predicates behind it, in which brackets may
stand as long as they balance, and further text behind each predicate. It can be taken apart in one
way only. What is read of a predicate ends at its first closing bracket, and further ones begin at
the opening brackets behind that; so a predicate is read as it stands exactly when no bracket
stands in it, and the text behind predicates is not read at all.
-/

namespace YangPartition

open Text YangPartition.Path

/-! ### Parts of a segment -/

/-- A segment of a written path: a name, and what stands in each predicate and behind it. -/
structure Segment where
  /-- What stands in front of the predicates. -/
  name : List Char
  /-- The predicates, each with what stands behind it. -/
  predicates : List (List Char × List Char)

namespace Segment

variable {s t : Segment} {ss : List Segment}

/-- The written form of predicates. -/
def predicatesText (ps : List (List Char × List Char)) : List Char :=
  ps.flatMap fun p => '[' :: p.1 ++ ']' :: p.2

/-- The written form. -/
def text (s : Segment) : List Char := s.name ++ predicatesText s.predicates

/-- The name that a path has for the segment. -/
def pathName (s : Segment) : String := String.ofList (afterLast ':' (trim s.name))

/-- No slash and no bracket stands outside the predicates, and the brackets in them balance. -/
structure Nested (s : Segment) : Prop where
  /-- The name has none. -/
  name : ∀ c ∈ s.name, c ≠ '/' ∧ c ≠ '[' ∧ c ≠ ']'
  /-- The brackets in a predicate balance. -/
  inside : ∀ p ∈ s.predicates, IsBalanced p.1
  /-- What stands behind a predicate has none. -/
  behind : ∀ p ∈ s.predicates, ∀ c ∈ p.2, c ≠ '/' ∧ c ≠ '[' ∧ c ≠ ']'

instance : DecidablePred Nested := fun s =>
  decidable_of_iff ((∀ c ∈ s.name, c ≠ '/' ∧ c ≠ '[' ∧ c ≠ ']') ∧
      (∀ p ∈ s.predicates, IsBalanced p.1) ∧
      ∀ p ∈ s.predicates, ∀ c ∈ p.2, c ≠ '/' ∧ c ≠ '[' ∧ c ≠ ']')
    ⟨fun h => ⟨h.1, h.2.1, h.2.2⟩, fun h => ⟨h.name, h.inside, h.behind⟩⟩

theorem predicatesText_cons (p : List Char × List Char) (ps : List (List Char × List Char)) :
    predicatesText (p :: ps) = '[' :: (p.1 ++ ']' :: (p.2 ++ predicatesText ps)) := by
  simp [predicatesText]

theorem isSegment_predicatesText {ps : List (List Char × List Char)}
    (hinside : ∀ p ∈ ps, IsBalanced p.1)
    (hbehind : ∀ p ∈ ps, ∀ c ∈ p.2, c ≠ '/' ∧ c ≠ '[' ∧ c ≠ ']') :
    IsSegment (predicatesText ps) := by
  induction ps with
  | nil => exact spans_nil_iff.2 rfl
  | cons p ps ih =>
    rw [List.forall_mem_cons] at hinside hbehind
    rw [predicatesText_cons]
    exact hinside.1.isSegment_bracket
      ((isSegment_of_plain hbehind.1).append (ih hinside.2 hbehind.2))

theorem Nested.isSegment (h : s.Nested) : IsSegment s.text :=
  (isSegment_of_plain h.name).append (isSegment_predicatesText h.inside h.behind)

/-! ### Taking a segment apart -/

/-- Outside of brackets a text is a segment with predicates; inside of them it starts with the rest
of a predicate. -/
theorem exists_nested_of_spans (cs : List Char) :
    (Spans 0 cs → ∃ s : Segment, s.Nested ∧ s.text = cs) ∧
    ∀ depth, Spans (depth + 1) cs → ∃ inside, ∃ s : Segment,
      Closes depth inside ∧ s.Nested ∧ inside ++ ']' :: s.text = cs := by
  induction cs with
  | nil =>
    refine ⟨fun _ => ⟨⟨[], []⟩, ⟨by simp, by simp, by simp⟩, rfl⟩, fun depth h => ?_⟩
    exact absurd (spans_nil_iff.1 h) (Nat.succ_ne_zero depth)
  | cons c cs ih =>
    obtain ⟨houtside, hinside⟩ := ih
    refine ⟨fun h => ?_, fun depth h => ?_⟩
    · obtain ⟨hc, h⟩ := spans_cons_iff.1 h
      have hslash : c ≠ '/' := fun heq => hc (.inl heq) rfl
      have hclose : c ≠ ']' := fun heq => hc (.inr heq) rfl
      by_cases hopen : c = '['
      · subst hopen
        obtain ⟨inside, s, hcloses, hs, rfl⟩ := hinside 0 h
        refine ⟨⟨[], (inside, s.name) :: s.predicates⟩, ⟨by simp, ?_, ?_⟩, ?_⟩
        · exact List.forall_mem_cons.2 ⟨hcloses, hs.inside⟩
        · exact List.forall_mem_cons.2 ⟨hs.name, hs.behind⟩
        · rw [text, predicatesText_cons]
          rfl
      · rw [depthBehind_of_ne hopen hclose] at h
        obtain ⟨s, hs, rfl⟩ := houtside h
        exact ⟨⟨c :: s.name, s.predicates⟩,
          ⟨List.forall_mem_cons.2 ⟨⟨hslash, hopen, hclose⟩, hs.name⟩, hs.inside, hs.behind⟩, rfl⟩
    · obtain ⟨-, h⟩ := spans_cons_iff.1 h
      by_cases hlast : c = ']' ∧ depth = 0
      · -- the bracket closes the predicate
        obtain ⟨rfl, rfl⟩ := hlast
        obtain ⟨s, hs, rfl⟩ := houtside h
        exact ⟨[], s, closes_nil_iff.2 rfl, hs, rfl⟩
      · have hdepth : c = ']' → depth ≠ 0 := fun hc h0 => hlast ⟨hc, h0⟩
        rw [depthBehind_succ hdepth] at h
        obtain ⟨inside, s, hcloses, hs, rfl⟩ := hinside _ h
        exact ⟨c :: inside, s, closes_cons_iff.2 ⟨hdepth, hcloses⟩, hs, rfl⟩

/-- What can stand between slashes is a segment with predicates. -/
theorem exists_nested_iff {cs : List Char} :
    (∃ s : Segment, s.Nested ∧ s.text = cs) ↔ IsSegment cs := by
  refine ⟨?_, (exists_nested_of_spans cs).1⟩
  rintro ⟨s, hs, rfl⟩
  exact hs.isSegment

/-- A predicate ends where its brackets balance. -/
theorem append_bracket_inj {cs ds us vs : List Char} (hcs : IsBalanced cs) (hds : IsBalanced ds)
    (h : cs ++ ']' :: us = ds ++ ']' :: vs) : cs = ds ∧ us = vs := by
  -- the longer one would close a bracket too many behind the shorter one
  have hlonger : ∀ {cs ds us vs as : List Char}, IsBalanced cs → IsBalanced ds →
      ds = cs ++ as → ']' :: us = as ++ ']' :: vs → as = [] := by
    intro cs ds us vs as hcs hds hds' has
    cases as with
    | nil => rfl
    | cons a as =>
      obtain ⟨rfl, -⟩ := List.cons.inj has
      have hwithin := hds.within (cs ++ [']']) (by simp [hds'])
      have hclosed := hcs.closed
      simp at hwithin hclosed
      omega
  rcases List.append_eq_append_iff.1 h with ⟨as, hds', has⟩ | ⟨bs, hcs', hbs⟩
  · obtain rfl := hlonger hcs hds hds' has
    exact ⟨by simpa using hds'.symm, (List.cons.inj has).2⟩
  · obtain rfl := hlonger hds hcs hcs' hbs
    exact ⟨by simpa using hcs', (List.cons.inj hbs).2.symm⟩

theorem head?_predicatesText {ps : List (List Char × List Char)} {c : Char}
    (h : c ∈ (predicatesText ps).head?) : c = '[' := by
  cases ps with
  | nil => cases h
  | cons p ps =>
    rw [predicatesText_cons] at h
    exact (Option.some.inj h).symm

/-- Outside of brackets a text goes on to the next predicate. -/
theorem append_predicatesText_inj {cs ds : List Char} {ps qs : List (List Char × List Char)}
    (hcs : ∀ c ∈ cs, c ≠ '/' ∧ c ≠ '[' ∧ c ≠ ']') (hds : ∀ c ∈ ds, c ≠ '/' ∧ c ≠ '[' ∧ c ≠ ']')
    (h : cs ++ predicatesText ps = ds ++ predicatesText qs) :
    cs = ds ∧ predicatesText ps = predicatesText qs :=
  append_inj_of_stops (p := (· == '[')) (fun c hc => beq_eq_false_iff_ne.2 (hcs c hc).2.1)
    (fun c hc => beq_eq_false_iff_ne.2 (hds c hc).2.1)
    (fun _ hc => beq_iff_eq.2 (head?_predicatesText hc))
    (fun _ hc => beq_iff_eq.2 (head?_predicatesText hc)) h

theorem predicatesText_inj {ps qs : List (List Char × List Char)}
    (hps : ∀ p ∈ ps, IsBalanced p.1 ∧ ∀ c ∈ p.2, c ≠ '/' ∧ c ≠ '[' ∧ c ≠ ']')
    (hqs : ∀ q ∈ qs, IsBalanced q.1 ∧ ∀ c ∈ q.2, c ≠ '/' ∧ c ≠ '[' ∧ c ≠ ']')
    (h : predicatesText ps = predicatesText qs) : ps = qs := by
  induction ps generalizing qs with
  | nil =>
    cases qs with
    | nil => rfl
    | cons q qs =>
      rw [predicatesText_cons] at h
      cases h
  | cons p ps ih =>
    cases qs with
    | nil =>
      rw [predicatesText_cons] at h
      cases h
    | cons q qs =>
      rw [List.forall_mem_cons] at hps hqs
      rw [predicatesText_cons, predicatesText_cons] at h
      obtain ⟨hinside, hrest⟩ := append_bracket_inj hps.1.1 hqs.1.1 (List.cons.inj h).2
      obtain ⟨hbehind, hmore⟩ := append_predicatesText_inj hps.1.2 hqs.1.2 hrest
      rw [Prod.ext hinside hbehind, ih hps.2 hqs.2 hmore]

/-- A text is the text of one segment with predicates at most. -/
theorem Nested.eq_of_text_eq (hs : s.Nested) (ht : t.Nested) (h : s.text = t.text) : s = t := by
  obtain ⟨hname, hpredicates⟩ := append_predicatesText_inj hs.name ht.name h
  have hps := predicatesText_inj (fun p hp => ⟨hs.inside p hp, hs.behind p hp⟩)
    (fun p hp => ⟨ht.inside p hp, ht.behind p hp⟩) hpredicates
  obtain ⟨name, ps⟩ := s
  obtain ⟨name', ps'⟩ := t
  rw [show name = name' from hname, show ps = ps' from hps]

/-! ### What is read of a segment -/

theorem segmentName_text (h : s.Nested) : segmentName s.text = s.pathName := by
  rw [segmentName, text, List.takeWhile_append_of_pos fun c hc => by simpa using (h.name c hc).2.1]
  cases s.predicates with
  | nil => simp [predicatesText, pathName]
  | cons p ps => simp [predicatesText, pathName]

/-- The predicates that are read of a segment. -/
def read (s : Segment) : List (List Char) := s.predicates.flatMap fun p => cuts p.1

/-- The element that a segment is read as. -/
def elem (s : Segment) : Elem := s.read.foldl withPredicate (.named s.pathName)

theorem predicates_predicatesText {ps : List (List Char × List Char)}
    (hinside : ∀ p ∈ ps, IsBalanced p.1)
    (hbehind : ∀ p ∈ ps, ∀ c ∈ p.2, c ≠ '/' ∧ c ≠ '[' ∧ c ≠ ']') :
    Path.predicates none (predicatesText ps) = some (ps.flatMap fun p => cuts p.1) := by
  induction ps with
  | nil => rfl
  | cons p ps ih =>
    rw [List.forall_mem_cons] at hinside hbehind
    have hshape : predicatesText (p :: ps) =
        '[' :: (p.1 ++ [']']) ++ (p.2 ++ predicatesText ps) := by
      simp [predicatesText_cons]
    rw [hshape, predicates_append (predicates_cuts hinside.1),
      predicates_append (predicates_of_closed fun c hc => (hbehind.1 c hc).2.1),
      ih hinside.2 hbehind.2]
    rfl

theorem predicates_text (h : s.Nested) : Path.predicates none s.text = some s.read := by
  rw [text, predicates_append (predicates_of_closed fun c hc => (h.name c hc).2.1),
    predicates_predicatesText h.inside h.behind]
  rfl

theorem read_of_flat (h : s.Nested) (hflat : ∀ p ∈ s.predicates, ∀ c ∈ p.1, c ≠ '[' ∧ c ≠ ']') :
    s.read = s.predicates.map (·.1) := by
  have hcuts : ∀ p ∈ s.predicates, cuts p.1 = [p.1] :=
    fun p hp => (cuts_eq_singleton_iff (h.inside p hp)).2 (hflat p hp)
  rw [read, List.flatMap_congr hcuts, ← List.flatMap_pure_eq_map]
  rfl

theorem segmentElem_text (h : s.Nested) : segmentElem s.text = s.elem := by
  rw [segmentElem, segmentPredicates, predicates_text h, segmentName_text h]
  rfl

/-! ### Segments of a text -/

/-- A text is written with segments, with slashes between them. -/
structure Spells (ss : List Segment) (cs : List Char) : Prop where
  /-- Brackets stand around and in predicates only. -/
  nested : ∀ s ∈ ss, s.Nested
  /-- The text is split into them. -/
  split : IsSplit cs (ss.map text)

instance (ss : List Segment) : DecidablePred (Spells ss) := fun cs =>
  decidable_of_iff ((∀ s ∈ ss, s.Nested) ∧ IsSplit cs (ss.map text))
    ⟨fun h => ⟨h.1, h.2⟩, fun h => ⟨h.nested, h.split⟩⟩

/-- Segments behind slashes follow one that is empty. -/
theorem spells_behind_slashes (h : ∀ s ∈ ss, s.Nested) {cs : List Char}
    (hcs : cs = ss.flatMap fun s => '/' :: s.text) : Spells (⟨[], []⟩ :: ss) cs where
  nested := List.forall_mem_cons.2 ⟨⟨by simp, by simp, by simp⟩, h⟩
  split := {
    ne_nil := List.cons_ne_nil _ _
    segment := List.forall_mem_cons.2
      ⟨spans_nil_iff.2 rfl, List.forall_mem_map.2 fun s hs => (h s hs).isSegment⟩
    joined := by
      rw [hcs, List.map_cons, intercalate_cons_eq, List.flatMap_map]
      rfl }

theorem eq_of_map_text_eq {ts : List Segment} (hss : ∀ s ∈ ss, s.Nested)
    (hts : ∀ t ∈ ts, t.Nested) (h : ss.map text = ts.map text) : ss = ts := by
  induction ss generalizing ts with
  | nil => exact (List.map_eq_nil_iff.1 h.symm).symm
  | cons s ss ih =>
    cases ts with
    | nil => cases h
    | cons t ts =>
      rw [List.forall_mem_cons] at hss hts
      obtain ⟨htext, hmore⟩ := List.cons.inj h
      rw [hss.1.eq_of_text_eq hts.1 htext, ih hss.2 hts.2 hmore]

theorem Spells.unique {ts : List Segment} {cs : List Char} (hss : Spells ss cs)
    (hts : Spells ts cs) : ss = ts :=
  eq_of_map_text_eq hss.nested hts.nested (hss.split.unique hts.split)

theorem exists_spells {cs : List Char} {ts : List (List Char)} (h : IsSplit cs ts) :
    ∃ ss, Spells ss cs ∧ ss.map text = ts := by
  have hparts : ∃ ss : List Segment, (∀ s ∈ ss, s.Nested) ∧ ss.map text = ts := by
    have hsegment := h.segment
    clear h
    induction ts with
    | nil => exact ⟨[], by simp, rfl⟩
    | cons t ts ih =>
      rw [List.forall_mem_cons] at hsegment
      obtain ⟨s, hs, rfl⟩ := exists_nested_iff.2 hsegment.1
      obtain ⟨ss, hss, rfl⟩ := ih hsegment.2
      exact ⟨s :: ss, List.forall_mem_cons.2 ⟨hs, hss⟩, rfl⟩
  obtain ⟨ss, hss, rfl⟩ := hparts
  exact ⟨ss, ⟨hss, h⟩, rfl⟩

theorem filled_map_text (ss : List Segment) :
    filled (ss.map text) = (ss.filter fun s => !s.text.isEmpty).map text :=
  List.filter_map

/-- A text is a path when it is written with segments and each of them that is not empty has a
name; the path has their elements. -/
theorem parse_eq_ok_iff_spells {s : String} {p : Path} :
    parse s = .ok p ↔ ∃ ss, Spells ss (trim s.toList) ∧ (∀ t ∈ ss, t.text ≠ [] → t.pathName ≠ "") ∧
      p.elems = (ss.filter fun t => !t.text.isEmpty).map elem := by
  have hread : ∀ {ss : List Segment}, Spells ss (trim s.toList) →
      ((∀ t ∈ filled (ss.map text), segmentName t ≠ "") ↔
        ∀ t ∈ ss, t.text ≠ [] → t.pathName ≠ "") ∧
      (filled (ss.map text)).map segmentElem =
        (ss.filter fun t => !t.text.isEmpty).map elem := by
    intro ss hss
    rw [filled_map_text, List.forall_mem_map, List.map_map]
    refine ⟨?_, List.map_congr_left fun t ht =>
      segmentElem_text (hss.nested t (List.mem_filter.1 ht).1)⟩
    constructor
    · intro h t ht htext
      rw [← segmentName_text (hss.nested t ht)]
      exact h t (List.mem_filter.2 ⟨ht, by simpa using htext⟩)
    · intro h t ht
      obtain ⟨ht, htext⟩ := List.mem_filter.1 ht
      rw [segmentName_text (hss.nested t ht)]
      exact h t ht (by simpa using htext)
  rw [parse_eq_ok_iff]
  constructor
  · rintro ⟨ts, hts, hnamed, helems⟩
    obtain ⟨ss, hss, rfl⟩ := exists_spells hts
    exact ⟨ss, hss, (hread hss).1.1 hnamed, helems.trans (hread hss).2⟩
  · rintro ⟨ss, hss, hnamed, helems⟩
    exact ⟨ss.map text, hss.split, (hread hss).1.2 hnamed, helems.trans (hread hss).2.symm⟩

/-- The names of a path are those of the segments that its text is written with. -/
theorem Spells.names_of_parse {s : String} {p : Path} (hss : Spells ss (trim s.toList))
    (h : parse s = .ok p) :
    p.names = (ss.filter fun t => !t.text.isEmpty).map pathName ∧
      ∀ t ∈ ss, t.text ≠ [] → t.pathName ≠ "" := by
  obtain ⟨ts, hts, hnamed, helems⟩ := parse_eq_ok_iff_spells.1 h
  obtain rfl := hss.unique hts
  refine ⟨?_, hnamed⟩
  rw [names, helems, List.map_map]
  exact List.map_congr_left fun t _ => name_withPredicates _ _

end Segment

end YangPartition
