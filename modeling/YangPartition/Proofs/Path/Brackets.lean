import Mathlib.Data.List.Basic
import Mathlib.Tactic.SplitIfs
import YangPartition.Path.Parser

/-!
# Brackets and segments

The brackets of a text balance when no prefix closes more of them than it opens and none is open at
the end. A text can be split at the slashes outside its brackets exactly when its brackets balance,
and into nothing else than the segments it is made of. The predicates of a segment can then be
read, since each opening bracket has a closing one behind it.
-/

namespace YangPartition.Path

/-! ### Where a text stops -/

/-- What holds of the characters of a text is tested along the text, not for all characters there
are. -/
instance (priority := 2000) decidableForallChar (p : Char → Prop) [DecidablePred p]
    (cs : List Char) : Decidable (∀ c ∈ cs, p c) :=
  List.decidableBAll p cs

/-- Two texts are put together from the same parts when the first parts hold no character at which
they stop and the second ones begin with such a character, if they are not empty. -/
theorem append_inj_of_stops {p : Char → Bool} {cs ds us vs : List Char}
    (hcs : ∀ c ∈ cs, p c = false) (hds : ∀ c ∈ ds, p c = false)
    (hus : ∀ c ∈ us.head?, p c = true) (hvs : ∀ c ∈ vs.head?, p c = true)
    (h : cs ++ us = ds ++ vs) : cs = ds ∧ us = vs := by
  have hfirst : ∀ {cs us : List Char}, (∀ c ∈ cs, p c = false) → (∀ c ∈ us.head?, p c = true) →
      (cs ++ us).takeWhile (!p ·) = cs := by
    intro cs us hcs hus
    rw [List.takeWhile_append_of_pos fun c hc => by rw [hcs c hc]; rfl]
    cases us with
    | nil => simp
    | cons u us => rw [List.takeWhile_cons_of_neg (by simp [hus u rfl]), List.append_nil]
  obtain rfl : cs = ds := by rw [← hfirst hcs hus, h, hfirst hds hvs]
  exact ⟨rfl, List.append_cancel_left h⟩

/-- Texts behind slashes are told apart when each of them is in front of a slash or the end. -/
theorem eq_of_flatMap_slash_eq {α : Type} {f : α → List Char} {xs ys : List α}
    (hf : ∀ x ∈ xs, ∀ y ∈ ys, ∀ us vs, (∀ c ∈ us.head?, c = '/') → (∀ c ∈ vs.head?, c = '/') →
      f x ++ us = f y ++ vs → x = y ∧ us = vs)
    (h : (xs.flatMap fun x => '/' :: f x) = ys.flatMap fun y => '/' :: f y) : xs = ys := by
  have hhead : ∀ zs : List α, ∀ c ∈ (zs.flatMap fun z => '/' :: f z).head?, c = '/' := by
    intro zs c hc
    cases zs with
    | nil => cases hc
    | cons z zs => exact (Option.some.inj hc).symm
  induction xs generalizing ys with
  | nil =>
    cases ys with
    | nil => rfl
    | cons y ys => cases h
  | cons x xs ih =>
    cases ys with
    | nil => cases h
    | cons y ys =>
      simp only [List.flatMap_cons, List.cons_append] at h
      obtain ⟨rfl, hrest⟩ := hf x List.mem_cons_self y List.mem_cons_self _ _ (hhead xs) (hhead ys)
        (List.cons.inj h).2
      rw [ih (fun x hx y hy => hf x (List.mem_cons_of_mem _ hx) y (List.mem_cons_of_mem _ hy)) hrest]

/-! ### Brackets -/

/-- Behind `depth` opening brackets a text closes all brackets, and never more than are open. -/
structure Closes (depth : Nat) (cs : List Char) : Prop where
  /-- No prefix closes more brackets than are open. -/
  within : ∀ t, t <+: cs → t.count ']' ≤ depth + t.count '['
  /-- No bracket is open at the end. -/
  closed : cs.count ']' = depth + cs.count '['

/-- The brackets of a text balance. -/
abbrev IsBalanced (cs : List Char) : Prop := Closes 0 cs

/-- The number of brackets around what follows a character. -/
def depthBehind (depth : Nat) (c : Char) : Nat :=
  if c = '[' then depth + 1 else if c = ']' then depth - 1 else depth

theorem depthBehind_of_ne {c : Char} (hopen : c ≠ '[') (hclose : c ≠ ']') (depth : Nat) :
    depthBehind depth c = depth := by
  rw [depthBehind, if_neg hopen, if_neg hclose]

theorem depthBehind_succ {depth : Nat} {c : Char} (h : c = ']' → depth ≠ 0) :
    depthBehind (depth + 1) c = depthBehind depth c + 1 := by
  unfold depthBehind
  split_ifs with hopen hclose
  · rfl
  · have := h hclose
    omega
  · rfl

theorem count_cons_depthBehind {depth : Nat} {c : Char} (h : c = ']' → depth ≠ 0)
    (t : List Char) :
    (c :: t).count ']' + (depthBehind depth c + t.count '[') =
      t.count ']' + (depth + (c :: t).count '[') := by
  unfold depthBehind
  by_cases hopen : c = '['
  · subst hopen
    simp
    omega
  · by_cases hclose : c = ']'
    · subst hclose
      have hdepth := h rfl
      simp
      omega
    · simp [hopen, hclose]

theorem closes_nil_iff {depth : Nat} : Closes depth [] ↔ depth = 0 := by
  refine ⟨fun h => by simpa using h.closed.symm, fun h => ⟨fun t ht => ?_, by simp [h]⟩⟩
  rw [List.prefix_nil.1 ht]
  simp

theorem closes_cons_iff {depth : Nat} {c : Char} {cs : List Char} :
    Closes depth (c :: cs) ↔ (c = ']' → depth ≠ 0) ∧ Closes (depthBehind depth c) cs := by
  constructor
  · intro h
    have hdepth : c = ']' → depth ≠ 0 := by
      rintro rfl rfl
      simpa using h.within [']'] (by simp)
    refine ⟨hdepth, fun t ht => ?_, ?_⟩
    · have hcount := count_cons_depthBehind hdepth t
      have hwithin := h.within (c :: t) (List.cons_prefix_cons.2 ⟨rfl, ht⟩)
      omega
    · have hcount := count_cons_depthBehind hdepth cs
      have hclosed := h.closed
      omega
  · rintro ⟨hdepth, h⟩
    refine ⟨fun t ht => ?_, ?_⟩
    · rcases List.prefix_cons_iff.1 ht with rfl | ⟨u, rfl, hu⟩
      · simp
      · have hcount := count_cons_depthBehind hdepth u
        have hwithin := h.within u hu
        omega
    · have hcount := count_cons_depthBehind hdepth cs
      have hclosed := h.closed
      omega

/-! ### Segments -/

/-- A text inside `depth` brackets that closes them all and has no slash outside of brackets. -/
structure Spans (depth : Nat) (cs : List Char) : Prop extends Closes depth cs where
  /-- Each slash stands inside a bracket. -/
  slash : ∀ t, t ++ ['/'] <+: cs → t.count ']' < depth + t.count '['

/-- A text that can stand between slashes: its brackets balance, and its slashes are inside. -/
abbrev IsSegment (cs : List Char) : Prop := Spans 0 cs

theorem spans_nil_iff {depth : Nat} : Spans depth [] ↔ depth = 0 := by
  refine ⟨fun h => closes_nil_iff.1 h.toCloses, fun h => ⟨closes_nil_iff.2 h, fun t ht => ?_⟩⟩
  exact absurd (List.prefix_nil.1 ht) (by simp)

theorem spans_cons_iff {depth : Nat} {c : Char} {cs : List Char} :
    Spans depth (c :: cs) ↔
      (c = '/' ∨ c = ']' → depth ≠ 0) ∧ Spans (depthBehind depth c) cs := by
  constructor
  · intro h
    obtain ⟨hclose, hcloses⟩ := closes_cons_iff.1 h.toCloses
    refine ⟨?_, hcloses, fun t ht => ?_⟩
    · rintro (rfl | hc)
      · have hslash := h.slash [] (by simp)
        simp at hslash
        omega
      · exact hclose hc
    · have hcount := count_cons_depthBehind hclose t
      have hslash := h.slash (c :: t) (List.cons_prefix_cons.2 ⟨rfl, ht⟩)
      omega
  · rintro ⟨hdepth, h⟩
    have hclose : c = ']' → depth ≠ 0 := fun hc => hdepth (.inr hc)
    refine ⟨closes_cons_iff.2 ⟨hclose, h.toCloses⟩, fun t ht => ?_⟩
    cases t with
    | nil =>
      have hc : '/' = c := (List.cons_prefix_cons.1 ht).1
      have hne := hdepth (.inl hc.symm)
      simp
      omega
    | cons d t =>
      obtain ⟨rfl, htail⟩ := List.cons_prefix_cons.1 ht
      have hcount := count_cons_depthBehind hclose t
      have hslash := h.slash t htail
      omega

/-! ### Splitting -/

theorem segments_cons (depth : Nat) (c : Char) (cs : List Char) :
    segments depth (c :: cs) =
      if c = '/' ∧ depth = 0 then (segments 0 cs).map ([] :: ·)
      else if c = ']' ∧ depth = 0 then none
      else (segments (depthBehind depth c) cs).map (startWith c) := by
  rw [segments, depthBehind]
  split_ifs <;> simp_all

/-- A text can be split exactly when it closes all brackets and never more than are open. -/
theorem segments_eq_none_iff {depth : Nat} {cs : List Char} :
    segments depth cs = none ↔ ¬ Closes depth cs := by
  induction cs generalizing depth with
  | nil =>
    rw [closes_nil_iff, segments]
    split <;> simp_all
  | cons c cs ih =>
    rw [segments_cons, closes_cons_iff]
    by_cases hslash : c = '/' ∧ depth = 0
    · obtain ⟨rfl, rfl⟩ := hslash
      simp [ih, depthBehind]
    · by_cases hclose : c = ']' ∧ depth = 0
      · simp [hclose]
      · rw [if_neg hslash, if_neg hclose, Option.map_eq_none_iff, ih]
        refine not_congr ⟨fun h => ⟨fun hc h0 => hclose ⟨hc, h0⟩, h⟩, And.right⟩

instance (depth : Nat) : DecidablePred (Closes depth) := fun cs =>
  decidable_of_iff (segments depth cs ≠ none) (by rw [Ne, segments_eq_none_iff, not_not])

/-- The segments of a text are the texts that can stand between its slashes, the first one behind
the brackets that are open. -/
theorem segments_eq_some_iff {depth : Nat} {cs : List Char} {ss : List (List Char)} :
    segments depth cs = some ss ↔ ∃ s ts, ss = s :: ts ∧ Spans depth s ∧
      (∀ t ∈ ts, IsSegment t) ∧ cs = s ++ ts.flatMap ('/' :: ·) := by
  induction cs generalizing depth ss with
  | nil =>
    constructor
    · intro h
      rw [segments] at h
      split at h
      · next hdepth =>
        obtain rfl := Option.some.inj h
        exact ⟨[], [], rfl, spans_nil_iff.2 hdepth, by simp, rfl⟩
      · cases h
    · rintro ⟨s, ts, rfl, hs, -, hnil⟩
      obtain ⟨rfl, hts⟩ := List.append_eq_nil_iff.1 hnil.symm
      obtain rfl : ts = [] := by
        cases ts with
        | nil => rfl
        | cons t ts => cases hts
      rw [segments, if_pos (spans_nil_iff.1 hs)]
  | cons c cs ih =>
    rw [segments_cons]
    constructor
    · intro h
      split_ifs at h with hslash hclose
      · obtain ⟨ss, hss, rfl⟩ := Option.map_eq_some_iff.1 h
        obtain ⟨s, ts, rfl, hs, hts, rfl⟩ := ih.1 hss
        obtain ⟨rfl, rfl⟩ := hslash
        exact ⟨[], s :: ts, rfl, spans_nil_iff.2 rfl, List.forall_mem_cons.2 ⟨hs, hts⟩, rfl⟩
      · obtain ⟨ss, hss, rfl⟩ := Option.map_eq_some_iff.1 h
        obtain ⟨s, ts, rfl, hs, hts, rfl⟩ := ih.1 hss
        refine ⟨c :: s, ts, rfl, spans_cons_iff.2 ⟨?_, hs⟩, hts, rfl⟩
        rintro (hc | hc) h0
        · exact hslash ⟨hc, h0⟩
        · exact hclose ⟨hc, h0⟩
    · rintro ⟨s, ts, rfl, hs, hts, hcs⟩
      cases s with
      | nil =>
        obtain rfl := spans_nil_iff.1 hs
        cases ts with
        | nil => cases hcs
        | cons t ts =>
          obtain ⟨rfl, rfl⟩ := List.cons.inj hcs
          rw [List.forall_mem_cons] at hts
          rw [if_pos ⟨rfl, rfl⟩, ih.2 ⟨t, ts, rfl, hts.1, hts.2, rfl⟩]
          rfl
      | cons d s =>
        obtain ⟨rfl, rfl⟩ := List.cons.inj hcs
        obtain ⟨hdepth, hs⟩ := spans_cons_iff.1 hs
        rw [if_neg fun hboth => hdepth (.inl hboth.1) hboth.2,
          if_neg fun hboth => hdepth (.inr hboth.1) hboth.2, ih.2 ⟨s, ts, rfl, hs, hts, rfl⟩]
        rfl

/-- A text is made up of segments, with slashes between them. -/
structure IsSplit (cs : List Char) (ss : List (List Char)) : Prop where
  /-- There is a first one. -/
  ne_nil : ss ≠ []
  /-- The segments can stand between slashes. -/
  segment : ∀ s ∈ ss, IsSegment s
  /-- Nothing else stands in the text. -/
  joined : ['/'].intercalate ss = cs

theorem intercalate_cons_eq (sep : Char) (s : List Char) (ts : List (List Char)) :
    [sep].intercalate (s :: ts) = s ++ ts.flatMap (sep :: ·) := by
  induction ts generalizing s with
  | nil => simp
  | cons t ts ih => rw [List.intercalate_cons_cons, ih, List.flatMap_cons]; simp

/-- The segments of a text are those that it is made up of. -/
theorem segments_eq_iff_isSplit {cs : List Char} {ss : List (List Char)} :
    segments 0 cs = some ss ↔ IsSplit cs ss := by
  rw [segments_eq_some_iff]
  constructor
  · rintro ⟨s, ts, rfl, hs, hts, rfl⟩
    exact ⟨List.cons_ne_nil s ts, List.forall_mem_cons.2 ⟨hs, hts⟩, intercalate_cons_eq '/' s ts⟩
  · rintro ⟨hne, hsegment, rfl⟩
    obtain ⟨s, ts, rfl⟩ := List.exists_cons_of_ne_nil hne
    rw [List.forall_mem_cons] at hsegment
    exact ⟨s, ts, rfl, hsegment.1, hsegment.2, intercalate_cons_eq '/' s ts⟩

instance (cs : List Char) : DecidablePred (IsSplit cs) := fun _ =>
  decidable_of_iff _ segments_eq_iff_isSplit

/-- A text whose brackets balance is made up of segments. -/
theorem exists_isSplit_iff {cs : List Char} : (∃ ss, IsSplit cs ss) ↔ IsBalanced cs := by
  constructor
  · rintro ⟨ss, hss⟩
    by_contra h
    rw [← segments_eq_none_iff, segments_eq_iff_isSplit.2 hss] at h
    cases h
  · intro h
    cases hss : segments 0 cs with
    | none => exact absurd h (segments_eq_none_iff.1 hss)
    | some ss => exact ⟨ss, segments_eq_iff_isSplit.1 hss⟩

theorem IsSplit.unique {cs : List Char} {ss ts : List (List Char)} (hss : IsSplit cs ss)
    (hts : IsSplit cs ts) : ss = ts := by
  rw [← segments_eq_iff_isSplit] at hss hts
  exact Option.some.inj (hss.symm.trans hts)

/-! ### Texts put together -/

theorem Spans.append {depth : Nat} {cs ds : List Char} (hcs : Spans depth cs)
    (hds : IsSegment ds) : Spans depth (cs ++ ds) := by
  induction cs generalizing depth with
  | nil =>
    rw [spans_nil_iff.1 hcs]
    exact hds
  | cons c cs ih =>
    obtain ⟨hdepth, hcs⟩ := spans_cons_iff.1 hcs
    exact spans_cons_iff.2 ⟨hdepth, ih hcs⟩

theorem isSegment_of_plain {cs : List Char} (h : ∀ c ∈ cs, c ≠ '/' ∧ c ≠ '[' ∧ c ≠ ']') :
    IsSegment cs := by
  induction cs with
  | nil => exact spans_nil_iff.2 rfl
  | cons c cs ih =>
    rw [List.forall_mem_cons] at h
    obtain ⟨⟨hslash, hopen, hclose⟩, hcs⟩ := h
    refine spans_cons_iff.2 ⟨fun hc => (hc.elim hslash hclose).elim, ?_⟩
    rw [depthBehind_of_ne hopen hclose]
    exact ih hcs

theorem isBalanced_of_flat {cs : List Char} (h : ∀ c ∈ cs, c ≠ '[' ∧ c ≠ ']') :
    IsBalanced cs := by
  induction cs with
  | nil => exact closes_nil_iff.2 rfl
  | cons c cs ih =>
    rw [List.forall_mem_cons] at h
    refine closes_cons_iff.2 ⟨fun hc => absurd hc h.1.2, ?_⟩
    rw [depthBehind_of_ne h.1.1 h.1.2]
    exact ih h.2

/-- Brackets that balance are none when none of them closes. -/
theorem IsBalanced.flat {cs : List Char} (h : IsBalanced cs) (hclose : ∀ c ∈ cs, c ≠ ']') :
    ∀ c ∈ cs, c ≠ '[' ∧ c ≠ ']' := by
  have hopen : cs.count '[' = 0 := by
    have hcount : cs.count ']' = 0 := List.count_eq_zero.2 fun hmem => hclose _ hmem rfl
    have hclosed := h.closed
    omega
  exact fun c hc => ⟨fun heq => List.count_eq_zero.1 hopen (heq ▸ hc), hclose c hc⟩

/-- A text whose brackets balance may hold slashes once it stands in brackets. -/
theorem Closes.spans_bracket {depth : Nat} {cs ds : List Char} (hcs : Closes depth cs)
    (hds : IsSegment ds) : Spans (depth + 1) (cs ++ ']' :: ds) := by
  induction cs generalizing depth with
  | nil =>
    obtain rfl := closes_nil_iff.1 hcs
    exact spans_cons_iff.2 ⟨fun _ => Nat.one_ne_zero, hds⟩
  | cons c cs ih =>
    obtain ⟨hdepth, hcs⟩ := closes_cons_iff.1 hcs
    refine spans_cons_iff.2 ⟨fun _ => Nat.succ_ne_zero depth, ?_⟩
    rw [depthBehind_succ hdepth]
    exact ih hcs

/-- A predicate in brackets, and what may follow it. -/
theorem IsBalanced.isSegment_bracket {cs ds : List Char} (hcs : IsBalanced cs)
    (hds : IsSegment ds) : IsSegment ('[' :: (cs ++ ']' :: ds)) :=
  spans_cons_iff.2 ⟨fun hc => by simp at hc, hcs.spans_bracket hds⟩

/-! ### Predicates -/

/-- What is read in front of a text does not depend on it, if no predicate is left open. -/
theorem predicates_append {held : Option (List Char)} {cs : List Char} {ps : List (List Char)}
    (h : predicates held cs = some ps) (ds : List Char) :
    predicates held (cs ++ ds) = (predicates none ds).map (ps ++ ·) := by
  induction cs generalizing held ps with
  | nil =>
    cases held with
    | none =>
      obtain rfl : ps = [] := by simpa [predicates, eq_comm] using h
      simp
    | some inside => simp [predicates] at h
  | cons c cs ih =>
    rw [List.cons_append]
    cases held with
    | none =>
      simp only [predicates] at h ⊢
      split at h
      · next hopen => rw [if_pos hopen, ih h]
      · next hopen => rw [if_neg hopen, ih h]
    | some inside =>
      simp only [predicates] at h ⊢
      split at h
      · next hclose =>
        obtain ⟨qs, hqs, rfl⟩ := Option.map_eq_some_iff.1 h
        rw [if_pos hclose, ih hqs, Option.map_map]
        rfl
      · next hclose => rw [if_neg hclose, ih h]

/-- No predicate is read where no bracket is opened. -/
theorem predicates_of_closed {cs : List Char} (h : ∀ c ∈ cs, c ≠ '[') :
    predicates none cs = some [] := by
  induction cs with
  | nil => rfl
  | cons c cs ih =>
    rw [List.forall_mem_cons] at h
    simp only [predicates, if_neg h.1]
    exact ih h.2

/-- A predicate is read up to its first closing bracket. -/
theorem predicates_bracket {cs : List Char} (h : ∀ c ∈ cs, c ≠ ']') (held ds : List Char) :
    predicates (some held) (cs ++ ']' :: ds) =
      (predicates none ds).map ((held.reverse ++ cs) :: ·) := by
  induction cs generalizing held with
  | nil => simp [predicates]
  | cons c cs ih =>
    rw [List.forall_mem_cons] at h
    rw [List.cons_append]
    simp only [predicates, if_neg h.1]
    rw [ih h.2]
    simp

/-- No closing bracket stands in a predicate that is read. -/
theorem ne_of_mem_predicates {held : Option (List Char)} {cs : List Char} {ps : List (List Char)}
    (h : predicates held cs = some ps) (hheld : ∀ inside ∈ held, ∀ c ∈ inside, c ≠ ']') :
    ∀ p ∈ ps, ∀ c ∈ p, c ≠ ']' := by
  induction cs generalizing held ps with
  | nil =>
    cases held with
    | none =>
      obtain rfl : ps = [] := by simpa [predicates, eq_comm] using h
      simp
    | some inside => simp [predicates] at h
  | cons c cs ih =>
    cases held with
    | none =>
      simp only [predicates] at h
      split at h
      · exact ih h (by simp)
      · exact ih h hheld
    | some inside =>
      have hinside : ∀ c ∈ inside, c ≠ ']' := hheld inside rfl
      simp only [predicates] at h
      split at h
      · obtain ⟨qs, hqs, rfl⟩ := Option.map_eq_some_iff.1 h
        refine List.forall_mem_cons.2 ⟨fun d hd => hinside d (List.mem_reverse.1 hd), ?_⟩
        exact ih hqs nofun
      · next hclose =>
        refine ih h fun held hheld => ?_
        obtain rfl := Option.some.inj hheld
        exact List.forall_mem_cons.2 ⟨hclose, hinside⟩

/-- Reading the predicates of a text that closes all brackets does not fail. -/
theorem Closes.isSome_predicates {depth : Nat} {cs : List Char} (h : Closes depth cs)
    (held : Option (List Char)) (hheld : held.isSome → depth ≠ 0) :
    (predicates held cs).isSome := by
  induction cs generalizing depth held with
  | nil =>
    cases held with
    | none => rfl
    | some inside => exact absurd (closes_nil_iff.1 h) (hheld rfl)
  | cons c cs ih =>
    obtain ⟨hdepth, h⟩ := closes_cons_iff.1 h
    rw [predicates.eq_def]
    cases held with
    | none =>
      simp only
      split
      · next hopen => exact ih h _ fun _ => by simp [depthBehind, hopen]
      · exact ih h _ nofun
    | some inside =>
      simp only
      split
      · rw [Option.isSome_map]
        exact ih h _ nofun
      · next hclose =>
        refine ih h _ fun _ => ?_
        have := hheld rfl
        unfold depthBehind
        split_ifs <;> omega

end YangPartition.Path
