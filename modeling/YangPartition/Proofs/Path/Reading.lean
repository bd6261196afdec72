import Mathlib.Data.List.TakeWhile
import YangPartition.Proofs.Path.Brackets

/-!
# What a text is read as

A text whose brackets do not balance is no path. Any other text is made up of segments, and the
segments that are not empty are read one by one: each gives an element, unless no name is left of
it, and the first of those without a name is the one that is reported.
-/

namespace YangPartition.Path

open Text

/-! ### Elements -/

/-- The name that a segment gives: what stands before the first bracket, without the blanks around
it and without a prefix. -/
def segmentName (segment : List Char) : String :=
  String.ofList (afterLast ':' (trim (segment.takeWhile (· != '['))))

/-- The predicates that are read from a segment. -/
def segmentPredicates (segment : List Char) : List (List Char) :=
  (predicates none segment).getD []

/-- The element that a segment with a name is read as. -/
def segmentElem (segment : List Char) : Elem :=
  (segmentPredicates segment).foldl withPredicate (.named (segmentName segment))

theorem name_withPredicates (ps : List (List Char)) (e : Elem) :
    (ps.foldl withPredicate e).name = e.name := by
  induction ps generalizing e with
  | nil => rfl
  | cons p ps ih =>
    rw [List.foldl_cons, ih]
    rfl

theorem keys_withPredicates (ps : List (List Char)) (name : String) :
    (ps.foldl withPredicate (.named name)).keys = NameMap.ofPairs (ps.map keyOfPredicate) := by
  have hfold : ∀ e : Elem, (ps.foldl withPredicate e).keys =
      (ps.map keyOfPredicate).foldl (fun m kv => NameMap.insert kv.1 kv.2 m) e.keys := by
    induction ps with
    | nil => exact fun _ => rfl
    | cons p ps ih =>
      intro e
      rw [List.foldl_cons, ih, List.map_cons, List.foldl_cons]
      rfl
  exact hfold (.named name)

@[simp] theorem name_segmentElem (segment : List Char) :
    (segmentElem segment).name = segmentName segment :=
  name_withPredicates _ _

/-- A segment gives an element unless it has no name; its predicates can always be read. -/
theorem elemOfSegment_eq {segment : List Char} (h : IsSegment segment) :
    elemOfSegment segment =
      if segmentName segment = "" then .error (.invalidPath (String.ofList segment))
      else .ok (segmentElem segment) := by
  obtain ⟨ps, hps⟩ := Option.isSome_iff_exists.1 (h.isSome_predicates none nofun)
  rw [elemOfSegment, hps, segmentElem, segmentPredicates, hps]
  by_cases hname : segmentName segment = ""
  · rw [if_pos hname]
    rw [segmentName] at hname
    rw [hname]
    rfl
  · rw [if_neg hname, if_neg (by simpa [segmentName] using hname)]
    rfl

/-! ### Predicates -/

/-- What is read of a text in brackets. -/
def cuts (inside : List Char) : List (List Char) := segmentPredicates ('[' :: (inside ++ [']']))

theorem predicates_cuts {inside : List Char} (h : IsBalanced inside) :
    predicates none ('[' :: (inside ++ [']'])) = some (cuts inside) := by
  have hsegment : IsSegment ('[' :: (inside ++ [']'])) :=
    h.isSegment_bracket (spans_nil_iff.2 rfl)
  obtain ⟨ps, hps⟩ :=
    Option.isSome_iff_exists.1 (hsegment.toCloses.isSome_predicates none nofun)
  rw [cuts, segmentPredicates, hps]
  rfl

/-- The first of what is read is what stands before the first closing bracket. -/
theorem exists_cuts_eq_cons {inside : List Char} (h : IsBalanced inside) :
    ∃ more, cuts inside = inside.takeWhile (· != ']') :: more := by
  have hread := predicates_cuts h
  simp only [predicates, if_true] at hread
  have hcut : inside ++ [']'] = inside.takeWhile (· != ']') ++
      ']' :: (inside.dropWhile (· != ']') ++ [']']).tail := by
    conv_lhs => rw [← List.takeWhile_append_dropWhile (p := (· != ']')) (l := inside)]
    rw [List.append_assoc]
    cases hrest : inside.dropWhile (· != ']') with
    | nil => rfl
    | cons c rest =>
      have hc := List.head?_dropWhile_not (· != ']') inside
      rw [hrest] at hc
      obtain rfl : c = ']' := by simpa using hc
      rfl
  rw [hcut, predicates_bracket fun c hc => ?_] at hread
  · obtain ⟨more, -, hmore⟩ := Option.map_eq_some_iff.1 hread
    exact ⟨more, hmore.symm⟩
  · simpa using List.mem_takeWhile_imp hc

/-- A predicate is read as it stands exactly when no bracket stands in it. -/
theorem cuts_eq_singleton_iff {inside : List Char} (h : IsBalanced inside) :
    cuts inside = [inside] ↔ ∀ c ∈ inside, c ≠ '[' ∧ c ≠ ']' := by
  constructor
  · intro hcuts
    obtain ⟨more, hmore⟩ := exists_cuts_eq_cons h
    have hwhole : inside.takeWhile (· != ']') = inside :=
      (List.cons.inj (hmore.symm.trans hcuts)).1
    refine h.flat ?_
    rw [← hwhole]
    exact fun c hc => by simpa using List.mem_takeWhile_imp hc
  · intro hflat
    have hread := predicates_cuts h
    simp only [predicates, if_true] at hread
    rw [predicates_bracket fun c hc => (hflat c hc).2] at hread
    exact (Option.some.inj hread).symm

/-! ### Paths -/

/-- The segments that are not empty. -/
def filled (ss : List (List Char)) : List (List Char) := ss.filter (!·.isEmpty)

/-- The first segment without a name is reported; if there is none, each gives its element. -/
theorem elemsOfSegments_eq {ss : List (List Char)} (h : ∀ s ∈ ss, IsSegment s) :
    elemsOfSegments ss =
      match (filled ss).find? (segmentName · = "") with
      | some s => .error (.invalidPath (String.ofList s))
      | none => .ok ((filled ss).map segmentElem) := by
  have hfilled : ∀ s ∈ filled ss, IsSegment s := fun s hs => h s (List.mem_filter.1 hs).1
  rw [elemsOfSegments, ← filled]
  generalize filled ss = ts at hfilled
  induction ts with
  | nil => rfl
  | cons s rest ih =>
    rw [List.forall_mem_cons] at hfilled
    rw [List.mapM_cons, elemOfSegment_eq hfilled.1, ih hfilled.2, List.find?_cons]
    by_cases hname : segmentName s = ""
    · simp only [hname, if_true, decide_true]
      rfl
    · simp only [hname, if_false, decide_false, List.map_cons]
      cases rest.find? (segmentName · = "") <;> rfl

theorem parse_of_not_isBalanced {s : String} (h : ¬ IsBalanced (trim s.toList)) :
    parse s = .error (.invalidPath (String.ofList (trim s.toList))) := by
  simp only [parse, segments_eq_none_iff.2 h]

theorem parse_of_isSplit {s : String} {ss : List (List Char)} (h : IsSplit (trim s.toList) ss) :
    parse s =
      match (filled ss).find? (segmentName · = "") with
      | some t => .error (.invalidPath (String.ofList t))
      | none => .ok ⟨(filled ss).map segmentElem⟩ := by
  simp only [parse, segments_eq_iff_isSplit.2 h, elemsOfSegments_eq h.segment]
  cases (filled ss).find? (segmentName · = "") <;> rfl

/-- A text is a path when it is made up of segments and each of them that is not empty has a name;
the path has their elements. -/
theorem parse_eq_ok_iff {s : String} {p : Path} :
    parse s = .ok p ↔ ∃ ss, IsSplit (trim s.toList) ss ∧ (∀ t ∈ filled ss, segmentName t ≠ "") ∧
      p.elems = (filled ss).map segmentElem := by
  constructor
  · intro h
    have hbalanced : IsBalanced (trim s.toList) := by
      by_contra hbalanced
      rw [parse_of_not_isBalanced hbalanced] at h
      cases h
    obtain ⟨ss, hss⟩ := exists_isSplit_iff.2 hbalanced
    rw [parse_of_isSplit hss] at h
    cases hfind : (filled ss).find? (segmentName · = "") with
    | some t =>
      rw [hfind] at h
      cases h
    | none =>
      rw [hfind] at h
      refine ⟨ss, hss, fun t ht => ?_, ?_⟩
      · simpa using List.find?_eq_none.1 hfind t ht
      · rw [← Except.ok.inj h]
  · rintro ⟨ss, hss, hnamed, helems⟩
    have hfind : (filled ss).find? (segmentName · = "") = none :=
      List.find?_eq_none.2 fun t ht => by simpa using hnamed t ht
    rw [parse_of_isSplit hss, hfind, ← helems]

end YangPartition.Path
