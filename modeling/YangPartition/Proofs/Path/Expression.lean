import Mathlib.Data.List.TakeWhile
import YangPartition.Path.Expression
import YangPartition.Proofs.Path.Segments
import YangPartition.Proofs.Path.Written

/-!
# Expressions and written paths

A reference is written as a path or as an expression. Both are read segment by
segment, a path with its predicates and an expression without them. The two
readings give the same names where a segment is a name with predicates behind
it that hold no brackets, with nothing but blanks behind each, and is no step
that stays or goes up.
-/

namespace YangPartition

open Text YangPartition.Path

/-! ### Trimming -/

/-- What is to be trimmed behind a text may as well be left out. -/
theorem Text.trimEnd_append {p : Char → Bool} {ds : List Char} (h : ∀ d ∈ ds, p d = true)
    (cs : List Char) : trimEnd p (cs ++ ds) = trimEnd p cs := by
  have hdrop : ds.reverse.dropWhile p = [] :=
    List.dropWhile_eq_nil_iff.2 fun d hd => h d (List.mem_reverse.1 hd)
  rw [trimEnd, trimEnd, List.reverse_append, List.dropWhile_append, hdrop]
  rfl

theorem Text.trim_append {ds : List Char} (h : ∀ d ∈ ds, isBlank d = true) (cs : List Char) :
    trim (cs ++ ds) = trim cs := by
  rw [trim, trimBy, trim, trimBy, List.dropWhile_append]
  split
  · next hcs =>
    rw [List.isEmpty_iff.1 hcs, List.dropWhile_eq_nil_iff.2 h]
  · exact trimEnd_append h _

/-- No blank is one of the characters that separate segments and predicates. -/
theorem Text.ne_of_isBlank {c : Char} (h : isBlank c = true) : c ≠ '/' ∧ c ≠ '[' ∧ c ≠ ']' := by
  refine ⟨?_, ?_, ?_⟩
  all_goals
    rintro rfl
    revert h
    decide

/-! ### Pieces -/

/-- A piece grows by what stands in front of it without a separator. -/
theorem Text.pieces_append {p : Char → Bool} {ds cs t : List Char} {ts : List (List Char)}
    (h : ∀ d ∈ ds, p d = false) (hcs : pieces p cs = t :: ts) :
    pieces p (ds ++ cs) = (ds ++ t) :: ts := by
  induction ds with
  | nil => exact hcs
  | cons d ds ih =>
    rw [List.forall_mem_cons] at h
    rw [List.cons_append, pieces, h.1, if_neg Bool.false_ne_true, ih h.2]
    rfl

/-- Texts behind separators are the pieces, behind one that is empty. -/
theorem Text.pieces_flatMap {p : Char → Bool} {sep : Char} (hsep : p sep = true)
    {ts : List (List Char)} (h : ∀ t ∈ ts, ∀ c ∈ t, p c = false) :
    pieces p (ts.flatMap (sep :: ·)) = [] :: ts := by
  induction ts with
  | nil => rfl
  | cons t ts ih =>
    rw [List.forall_mem_cons] at h
    rw [List.flatMap_cons, List.cons_append, pieces, if_pos hsep, pieces_append h.1 (ih h.2),
      List.append_nil]

/-! ### Segments -/

namespace Segment

variable {s : Segment} {ss : List Segment}

/-- The written form without the predicates. -/
def bareText (s : Segment) : List Char := s.name ++ s.predicates.flatMap (·.2)

/-- No bracket stands in the name or in a predicate, no slash in the name, and nothing but blanks
behind a predicate; the name is no step that stays or goes up. -/
structure Plain (s : Segment) : Prop where
  /-- The name is one. -/
  name : ∀ c ∈ s.name, c ≠ '/' ∧ c ≠ '[' ∧ c ≠ ']'
  /-- The name is not that of a step. -/
  step : String.ofList (trim s.name) ≠ "." ∧ String.ofList (trim s.name) ≠ ".." ∧
    String.ofList (trim s.name) ≠ "current()"
  /-- The predicates are flat. -/
  predicate : ∀ p ∈ s.predicates, (∀ c ∈ p.1, c ≠ '[' ∧ c ≠ ']') ∧ ∀ c ∈ p.2, isBlank c = true

/-- The test of a segment, character by character. -/
def isPlain (s : Segment) : Bool :=
  (s.name.all fun c => c != '/' && c != '[' && c != ']') &&
    !([".", "..", "current()"].contains (String.ofList (trim s.name))) &&
    s.predicates.all fun p => (p.1.all fun c => c != '[' && c != ']') && p.2.all isBlank

theorem isPlain_iff : s.isPlain = true ↔ s.Plain := by
  refine ⟨fun h => ?_, fun h => ?_⟩
  · simp only [isPlain, Bool.and_eq_true, List.all_eq_true, bne_iff_ne, and_assoc] at h
    exact ⟨h.1, by simpa using h.2.1, h.2.2⟩
  · simp only [isPlain, Bool.and_eq_true, List.all_eq_true, bne_iff_ne, and_assoc]
    exact ⟨h.name, by simpa using h.step, h.predicate⟩

instance : DecidablePred Plain := fun _ => decidable_of_iff _ isPlain_iff

theorem Plain.nested (h : s.Plain) : s.Nested where
  name := h.name
  inside := fun p hp => isBalanced_of_flat (h.predicate p hp).1
  behind := fun p hp c hc => ne_of_isBlank ((h.predicate p hp).2 c hc)

/-! ### Segments of expressions -/

theorem dropPredicates_append {ds : List Char} (h : ∀ d ∈ ds, d ≠ '[') (cs : List Char) :
    Expression.dropPredicates none (ds ++ cs) = ds ++ Expression.dropPredicates none cs := by
  induction ds with
  | nil => rfl
  | cons d ds ih =>
    rw [List.forall_mem_cons] at h
    rw [List.cons_append, Expression.dropPredicates]
    simp only [if_neg h.1]
    rw [ih h.2]
    rfl

theorem dropPredicates_inside {ds : List Char} (h : ∀ d ∈ ds, d ≠ ']') (held cs : List Char) :
    Expression.dropPredicates (some held) (ds ++ ']' :: cs) =
      Expression.dropPredicates none cs := by
  induction ds generalizing held with
  | nil => rw [List.nil_append, Expression.dropPredicates, if_pos rfl]
  | cons d ds ih =>
    rw [List.forall_mem_cons] at h
    rw [List.cons_append, Expression.dropPredicates]
    simp only [if_neg h.1]
    exact ih h.2 _

/-- A predicate ends at the first closing bracket, and nothing is left of it. -/
theorem dropPredicates_bracket {ds : List Char} (h : ∀ d ∈ ds, d ≠ ']') (cs : List Char) :
    Expression.dropPredicates none ('[' :: (ds ++ ']' :: cs)) =
      Expression.dropPredicates none cs := by
  rw [Expression.dropPredicates]
  simp only [if_true]
  exact dropPredicates_inside h ['['] cs

/-- Without its predicates a plain segment is its name and the blanks behind them. -/
theorem dropPredicates_text (h : s.Plain) (cs : List Char) :
    Expression.dropPredicates none (s.text ++ cs) =
      s.bareText ++ Expression.dropPredicates none cs := by
  have hpredicates : ∀ ps : List (List Char × List Char),
      (∀ p ∈ ps, (∀ c ∈ p.1, c ≠ '[' ∧ c ≠ ']') ∧ ∀ c ∈ p.2, isBlank c = true) →
      Expression.dropPredicates none (predicatesText ps ++ cs) =
        ps.flatMap (·.2) ++ Expression.dropPredicates none cs := by
    intro ps hps
    induction ps with
    | nil => rfl
    | cons p ps ih =>
      obtain ⟨inside, behind⟩ := p
      rw [List.forall_mem_cons] at hps
      obtain ⟨⟨hinside, hbehind⟩, hps⟩ := hps
      rw [predicatesText_cons, List.flatMap_cons]
      simp only [List.cons_append, List.append_assoc]
      rw [dropPredicates_bracket fun c hc => (hinside c hc).2,
        dropPredicates_append fun c hc => (ne_of_isBlank (hbehind c hc)).2.1, ih hps]
  rw [text, bareText, List.append_assoc, List.append_assoc,
    dropPredicates_append fun c hc => (h.name c hc).2.1, hpredicates _ h.predicate]

theorem dropPredicates_flatMap (h : ∀ s ∈ ss, s.Plain) :
    Expression.dropPredicates none (ss.flatMap fun s => '/' :: s.text) =
      (ss.map bareText).flatMap ('/' :: ·) := by
  induction ss with
  | nil => rfl
  | cons s ss ih =>
    rw [List.forall_mem_cons] at h
    rw [List.flatMap_cons, List.cons_append, Expression.dropPredicates]
    simp only [if_neg (show ¬ '/' = '[' by decide)]
    rw [dropPredicates_text h.1, ih h.2]
    rfl

theorem slash_of_mem_bareText (h : s.Plain) : ∀ c ∈ s.bareText, (c == '/') = false := by
  intro c hc
  rw [beq_eq_false_iff_ne]
  rcases List.mem_append.1 hc with hc | hc
  · exact (h.name c hc).1
  · obtain ⟨p, hp, hc⟩ := List.mem_flatMap.1 hc
    exact (ne_of_isBlank ((h.predicate p hp).2 c hc)).1

/-- The step of a plain segment goes down to its name. -/
theorem step_bareText (h : s.Plain) (hne : s.pathName ≠ "") :
    Expression.Step.ofText s.bareText = .down s.pathName := by
  have htrim : trim s.bareText = trim s.name := by
    refine trim_append (fun c hc => ?_) s.name
    obtain ⟨p, hp, hc⟩ := List.mem_flatMap.1 hc
    exact (h.predicate p hp).2 c hc
  have hempty : String.ofList (trim s.name) ≠ "" := by
    intro heq
    have hnil : trim s.name = [] := by simpa using congrArg String.toList heq
    refine hne ?_
    rw [pathName, hnil]
    rfl
  obtain ⟨hdot, hup, hcurrent⟩ := h.step
  rw [Expression.Step.ofText, htrim, if_neg (by simp [hempty, hdot, hcurrent]), if_neg hup]
  rfl

end Segment

/-! ### The two readings -/

namespace Expression

/-- Going along plain segments adds their names; empty segments add none. -/
theorem walk_segments {ss : List Segment} (h : ∀ s ∈ ss, s.Plain)
    (hfilled : ∀ s ∈ ss, s.text ≠ [] → s.pathName ≠ "") (names : List String) :
    walk names ((ss.map Segment.bareText).map Step.ofText) =
      some (names ++ (ss.filter fun s => !s.text.isEmpty).map Segment.pathName) := by
  induction ss generalizing names with
  | nil => simp [walk]
  | cons s ss ih =>
    rw [List.forall_mem_cons] at h hfilled
    rw [List.map_cons, List.map_cons, List.filter_cons]
    by_cases htext : s.text = []
    · have hbare : s.bareText = [] := by
        obtain ⟨hname, hpredicates⟩ := List.append_eq_nil_iff.1 htext
        rw [Segment.bareText, hname]
        cases hps : s.predicates with
        | nil => rfl
        | cons p ps =>
          rw [hps] at hpredicates
          cases hpredicates
      rw [hbare, htext, show Step.ofText [] = .stay from rfl, walk]
      exact ih h.2 hfilled.2 names
    · rw [Segment.step_bareText h.1 (hfilled.1 htext), walk, ih h.2 hfilled.2,
        if_pos (by simpa using htext), List.map_cons, List.append_assoc]
      rfl

/-- A path written with plain segments from the top refers to the path it stands for, without its
keys and with the last name folded. -/
theorem resolve_of_parse {remote : String} {p : Path} (h : parse remote = .ok p)
    {ss : List Segment} (hremote : trim remote.toList = ss.flatMap fun s => '/' :: s.text)
    (hplain : ∀ s ∈ ss, s.Plain) (hne : p.names ≠ []) (leaf : Path) :
    resolve remote leaf = .ok (ofNames p.names).foldKey := by
  have hnames : p.names = (ss.filter fun s => !s.text.isEmpty).map Segment.pathName ∧
      ∀ s ∈ ss, s.text ≠ [] → s.pathName ≠ "" := by
    obtain ⟨hnames, hnamed⟩ :=
      (Segment.spells_behind_slashes (fun s hs => (hplain s hs).nested) hremote).names_of_parse h
    exact ⟨hnames, (List.forall_mem_cons.1 hnamed).2⟩
  obtain ⟨s, ss', rfl⟩ : ∃ s ss', ss = s :: ss' := by
    cases ss with
    | nil => exact absurd hnames.1 hne
    | cons s ss => exact ⟨s, ss, rfl⟩
  have hsteps : walk [] ((pieces (· == '/')
      (((s :: ss').map Segment.bareText).flatMap ('/' :: ·))).map Step.ofText) = some p.names := by
    rw [pieces_flatMap rfl, List.map_cons, show Step.ofText [] = .stay from rfl, walk,
      walk_segments hplain hnames.2, List.nil_append, ← hnames.1]
    intro t ht
    obtain ⟨u, hu, rfl⟩ := List.mem_map.1 ht
    exact Segment.slash_of_mem_bareText (hplain u hu)
  have hcleaned := Segment.dropPredicates_flatMap hplain
  rw [← hremote] at hcleaned
  rw [resolve]
  simp only [hcleaned]
  rw [if_neg (by simp), if_pos (by rfl), hsteps]
  cases hp : p.names with
  | nil => exact absurd hp hne
  | cons name names => rfl

end Expression

end YangPartition
