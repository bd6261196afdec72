import YangPartition.Proofs.Path.Expression
import YangPartition.Proofs.Path.Printed

/-!
# What an expression denotes

An expression is written as steps between slashes, maybe with a slash in front, and each step that
is not empty may have predicates behind it. What it denotes is what a machine with a stack of names
makes of its steps: it starts with the names of the leaf, or with none behind a slash in front; `..`
takes the last name away, a name is put on top without its prefix, and all else changes nothing.
-/

namespace YangPartition

open Text YangPartition.Path

/-! ### Texts put together -/

theorem Text.IsTrimmed.append {p : Char → Bool} {cs ds : List Char} (hcs : IsTrimmed p cs)
    (hds : IsTrimmed p ds) : IsTrimmed p (cs ++ ds) := by
  refine ⟨fun c hc => ?_, fun c hc => ?_⟩
  · cases cs with
    | nil => exact hds.1 c hc
    | cons d cs => exact hcs.1 c hc
  · cases ds with
    | nil =>
      rw [List.append_nil] at hc
      exact hcs.2 c hc
    | cons d ds =>
      rw [List.getLast?_append_of_ne_nil _ (List.cons_ne_nil d ds)] at hc
      exact hds.2 c hc

theorem Text.IsTrimmed.flatMap {α : Type} {p : Char → Bool} {f : α → List Char} {xs : List α}
    (h : ∀ x ∈ xs, IsTrimmed p (f x)) : IsTrimmed p (xs.flatMap f) := by
  induction xs with
  | nil => exact ⟨nofun, nofun⟩
  | cons x xs ih =>
    rw [List.forall_mem_cons] at h
    exact h.1.append (ih h.2)

/-- What follows the last occurrence of a character does not hold it. -/
theorem Text.afterLast_append {c : Char} {ds : List Char} (h : ∀ d ∈ ds, d ≠ c) (cs : List Char) :
    afterLast c (cs ++ c :: ds) = ds := by
  have hbehind : ∀ d ∈ ds.reverse, (d != c) = true := fun d hd => by
    simpa using h d (List.mem_reverse.1 hd)
  rw [afterLast, List.reverse_append, List.reverse_cons, List.append_assoc,
    List.takeWhile_append_of_pos hbehind, List.singleton_append,
    List.takeWhile_cons_of_neg (by simp), List.append_nil, List.reverse_reverse]

namespace Expression

/-! ### Written expressions -/

/-- A name that a step goes down to: it can be written, no blanks stand around it, and it is no step
that stays or goes up. -/
structure StepName where
  /-- The name. -/
  text : String
  /-- The name can be written. -/
  isName : IsName text
  /-- No blanks stand around it. -/
  trimmed : IsTrimmed isBlank text.toList
  /-- It is not read as another step. -/
  proper : text ≠ "." ∧ text ≠ ".." ∧ text ≠ "current()"

/-- What a step says. -/
inductive Word where
  /-- `.` stays. -/
  | here
  /-- `current()` stays. -/
  | current
  /-- `..` goes one level up. -/
  | up
  /-- A name goes down, whatever prefix it has. -/
  | down (qualifier? : Option StepName) (name : StepName)

/-- A text in brackets, up to the first closing bracket. -/
structure Predicate where
  /-- What stands between the brackets. -/
  inside : List Char
  /-- No closing bracket stands between them. -/
  unclosed : ∀ c ∈ inside, c ≠ ']'

/-- A step that is not empty. -/
structure Filled where
  /-- What it says. -/
  word : Word
  /-- The predicates behind it. -/
  predicates : List Predicate

/-- An expression as it is written. Only its first step has to be filled. -/
structure Written where
  /-- Whether a slash stands in front. -/
  absolute : Bool
  /-- The first step. -/
  first : Filled
  /-- The steps behind it, each behind a slash; nothing stands for an empty one. -/
  rest : List (Option Filled)

/-- The text of a word. -/
def Word.text : Word → List Char
  | here => ['.']
  | current => ['c', 'u', 'r', 'r', 'e', 'n', 't', '(', ')']
  | up => ['.', '.']
  | down none name => name.text.toList
  | down (some qualifier) name => qualifier.text.toList ++ ':' :: name.text.toList

/-- The text of a step: its word, then each predicate in brackets. -/
def Filled.text (s : Filled) : List Char :=
  s.word.text ++ s.predicates.flatMap fun p => '[' :: (p.inside ++ [']'])

/-- The text of an expression. -/
def Written.text (e : Written) : String :=
  String.ofList ((if e.absolute then ['/'] else []) ++
    (e.first.text ++ e.rest.flatMap fun s => '/' :: (s.map Filled.text).getD []))

/-- What the steps say; an empty step says nothing. -/
def Written.words (e : Written) : List Word :=
  e.first.word :: e.rest.filterMap (·.map Filled.word)

/-! ### The stack machine -/

/-- What a word makes of a stack of names, the last one on top; nothing when it goes up from an
empty stack. -/
def Word.act : Word → List String → Option (List String)
  | up, [] => none
  | up, _ :: below => some below
  | down _ name, stack => some (name.text :: stack)
  | here, stack => some stack
  | current, stack => some stack

/-- What words make of a stack, one after the other. -/
def actAll : List Word → List String → Option (List String)
  | [], stack => some stack
  | w :: ws, stack => (w.act stack).bind (actAll ws)

/-- The stack that an expression of a leaf starts from. -/
def Written.start (e : Written) (leaf : Path) : List String :=
  if e.absolute then [] else leaf.names.reverse

/-- Words fail just where one of them goes up from an empty stack. -/
theorem actAll_eq_none_iff {ws : List Word} {stack : List String} :
    actAll ws stack = none ↔
      ∃ before after, ws = before ++ .up :: after ∧ actAll before stack = some [] := by
  induction ws generalizing stack with
  | nil => simp [actAll]
  | cons w ws ih =>
    rw [actAll, Option.bind_eq_none_iff]
    constructor
    · intro h
      cases hact : w.act stack with
      | none =>
        -- only `..` fails, and only on the empty stack
        obtain ⟨rfl, rfl⟩ : w = .up ∧ stack = [] := by
          cases w <;> cases stack <;> simp_all [Word.act]
        exact ⟨[], ws, rfl, rfl⟩
      | some stack' =>
        obtain ⟨before, after, rfl, hbefore⟩ := ih.1 (h stack' hact)
        exact ⟨w :: before, after, rfl, by rw [actAll, hact]; exact hbefore⟩
    · rintro ⟨before, after, heq, hbefore⟩ stack' hact
      cases before with
      | nil =>
        obtain rfl := (List.cons.inj heq).1
        obtain rfl := Option.some.inj hbefore
        cases hact
      | cons w' before =>
        obtain ⟨rfl, rfl⟩ := List.cons.inj heq
        rw [actAll, hact] at hbefore
        exact ih.2 ⟨before, after, rfl, hbefore⟩

/-! ### Steps -/

/-- The step that a word is read as. -/
def Word.step : Word → Step
  | here => .stay
  | current => .stay
  | up => .up
  | down _ name => .down name.text

/-- The steps of an expression that go somewhere. -/
def Written.moves (e : Written) : List Step := (e.words.map Word.step).filter (· ≠ .stay)

/-- Steps that stay do not count. -/
theorem walk_filter (names : List String) (steps : List Step) :
    walk names (steps.filter (· ≠ .stay)) = walk names steps := by
  induction steps generalizing names with
  | nil => rfl
  | cons step steps ih =>
    cases step with
    | stay =>
      rw [List.filter_cons_of_neg (by simp), walk]
      exact ih names
    | up =>
      rw [List.filter_cons_of_pos (by simp), walk, walk, ih]
    | down name =>
      rw [List.filter_cons_of_pos (by simp), walk, walk, ih]

/-- Going along the steps is what the words make of the stack. -/
theorem walk_eq_actAll (stack : List String) (ws : List Word) :
    walk stack.reverse (ws.map Word.step) = (actAll ws stack).map List.reverse := by
  induction ws generalizing stack with
  | nil => rfl
  | cons w ws ih =>
    rw [List.map_cons, actAll]
    cases w with
    | here => exact ih stack
    | current => exact ih stack
    | up =>
      cases stack with
      | nil => rfl
      | cons name below =>
        rw [Word.step, walk, if_neg (by simp), List.reverse_cons, List.dropLast_concat]
        exact ih below
    | down qualifier? name =>
      rw [Word.step, walk, ← List.reverse_cons]
      exact ih (name.text :: stack)

/-! ### Reading words -/

namespace Word

variable (w : Word)

theorem text_ne_nil : w.text ≠ [] := by
  cases w with
  | here | current | up => decide
  | down qualifier? name =>
    cases qualifier? with
    | none => exact fun h => name.isName.1 (String.toList_eq_nil_iff.1 h)
    | some qualifier => exact List.append_ne_nil_of_right_ne_nil _ (List.cons_ne_nil _ _)

/-- Nothing in a word separates steps or predicates. -/
theorem flat_text : ∀ c ∈ w.text, c ≠ '/' ∧ c ≠ '[' := by
  have hname : ∀ name : StepName, ∀ c ∈ name.text.toList, c ≠ '/' ∧ c ≠ '[' := by
    intro name c hc
    have hreserved := name.isName.2 c hc
    simp only [reserved, List.mem_cons, not_or] at hreserved
    exact ⟨hreserved.1, hreserved.2.1⟩
  cases w with
  | here | current | up => decide
  | down qualifier? name =>
    cases qualifier? with
    | none => exact hname name
    | some qualifier =>
      intro c hc
      rcases List.mem_append.1 hc with hc | hc
      · exact hname qualifier c hc
      · rcases List.mem_cons.1 hc with rfl | hc
        · decide
        · exact hname name c hc

theorem isTrimmed_text : IsTrimmed isBlank w.text := by
  cases w with
  | here | current | up => decide +kernel
  | down qualifier? name =>
    cases qualifier? with
    | none => exact name.trimmed
    | some qualifier =>
      rw [text, ← List.singleton_append]
      exact qualifier.trimmed.append (IsTrimmed.append (by decide) name.trimmed)

/-- A word is read as its step. -/
theorem ofText_text : Step.ofText w.text = w.step := by
  have htrim : trim w.text = w.text := trimBy_eq_self w.isTrimmed_text
  cases w with
  | here | current | up => decide +kernel
  | down qualifier? name =>
    have hcolon : ∀ c ∈ name.text.toList, c ≠ ':' :=
      fun c hc heq => name.isName.2 c hc (by simp [heq, reserved])
    rw [Step.ofText, htrim]
    cases qualifier? with
    | none =>
      obtain ⟨hhere, hup, hcurrent⟩ := name.proper
      simp only [text, String.ofList_toList]
      rw [if_neg (by simp [name.isName.1, hhere, hcurrent]), if_neg hup,
        afterLast_eq_self hcolon, String.ofList_toList]
      rfl
    | some qualifier =>
      -- a word with a colon is none of the others
      have hother : ∀ s : String, ':' ∉ s.toList →
          String.ofList (down (some qualifier) name).text ≠ s := by
        rintro s hs rfl
        exact hs (by simp [text])
      rw [if_neg (by simp only [not_or]; exact ⟨hother _ (by decide), hother _ (by decide),
          hother _ (by decide)⟩), if_neg (hother _ (by decide))]
      simp only [text]
      rw [afterLast_append hcolon, String.ofList_toList]
      rfl

end Word

/-! ### Reading expressions -/

theorem Filled.isTrimmed_text (s : Filled) : IsTrimmed isBlank s.text := by
  refine s.word.isTrimmed_text.append (.flatMap fun p _ => ?_)
  refine ⟨fun c hc => ?_, fun c hc => ?_⟩
  · rw [← Option.some.inj hc]
    decide
  · rw [← List.cons_append, List.getLast?_concat] at hc
    rw [← Option.some.inj hc]
    decide

/-- Without its predicates a step is its word. -/
theorem Filled.dropPredicates_text (s : Filled) (cs : List Char) :
    dropPredicates none (s.text ++ cs) = s.word.text ++ dropPredicates none cs := by
  have hpredicates : ∀ ps : List Predicate,
      dropPredicates none ((ps.flatMap fun p => '[' :: (p.inside ++ [']'])) ++ cs) =
        dropPredicates none cs := by
    intro ps
    induction ps with
    | nil => rfl
    | cons p ps ih =>
      rw [List.flatMap_cons]
      simp only [List.cons_append, List.append_assoc, List.nil_append]
      rw [Segment.dropPredicates_bracket p.unclosed, ih]
  rw [text, List.append_assoc,
    Segment.dropPredicates_append fun c hc => (s.word.flat_text c hc).2, hpredicates]

/-- The word of a step that may be empty. -/
def wordText (s : Option Filled) : List Char := (s.map fun s => s.word.text).getD []

namespace Written

variable (e : Written)

theorem trim_text : trim e.text.toList = e.text.toList := by
  refine trimBy_eq_self ?_
  rw [text, String.toList_ofList]
  refine IsTrimmed.append (by split <;> decide)
    (e.first.isTrimmed_text.append (.flatMap fun s _ => ?_))
  rw [← List.singleton_append]
  refine IsTrimmed.append (by decide) ?_
  cases s with
  | none => exact ⟨nofun, nofun⟩
  | some s => exact s.isTrimmed_text

/-- What is left of an expression without the predicates. -/
theorem dropPredicates_text : dropPredicates none e.text.toList =
    (if e.absolute then ['/'] else []) ++
      (e.first.word.text ++ (e.rest.map wordText).flatMap ('/' :: ·)) := by
  have hrest : ∀ rest : List (Option Filled),
      dropPredicates none (rest.flatMap fun s => '/' :: (s.map Filled.text).getD []) =
        (rest.map wordText).flatMap ('/' :: ·) := by
    intro rest
    induction rest with
    | nil => rfl
    | cons s rest ih =>
      rw [List.flatMap_cons, List.cons_append, dropPredicates]
      simp only [if_neg (show ¬ '/' = '[' by decide)]
      rw [List.map_cons, List.flatMap_cons, List.cons_append, ← ih]
      cases s with
      | none => rfl
      | some s => rw [Option.map_some, Option.getD_some, s.dropPredicates_text]; rfl
  have hslash : ∀ c ∈ (if e.absolute then ['/'] else []), c ≠ '[' := by
    split <;> decide
  rw [text, String.toList_ofList, Segment.dropPredicates_append hslash,
    e.first.dropPredicates_text, hrest]

/-- The steps that an expression is read as. -/
theorem steps_text :
    ((pieces (· == '/') (dropPredicates none e.text.toList)).map Step.ofText).filter (· ≠ .stay) =
      e.moves := by
  have hflat : ∀ t ∈ e.rest.map wordText, ∀ c ∈ t, (c == '/') = false := by
    intro t ht c hc
    obtain ⟨s, -, rfl⟩ := List.mem_map.1 ht
    cases s with
    | none => cases hc
    | some s => exact beq_eq_false_iff_ne.2 (s.word.flat_text c hc).1
  have hfirst : pieces (· == '/')
      (e.first.word.text ++ (e.rest.map wordText).flatMap ('/' :: ·)) =
        e.first.word.text :: e.rest.map wordText := by
    rw [pieces_append (fun c hc => beq_eq_false_iff_ne.2 (e.first.word.flat_text c hc).1)
      (pieces_flatMap rfl hflat), List.append_nil]
  have hrest : ((e.rest.map wordText).map Step.ofText).filter (· ≠ .stay) =
      ((e.rest.filterMap (·.map Filled.word)).map Word.step).filter (· ≠ .stay) := by
    induction e.rest with
    | nil => rfl
    | cons s rest ih =>
      cases s with
      | none => exact ih
      | some s =>
        rw [List.map_cons, List.map_cons, List.filter_cons, ih]
        simp only [wordText, Option.map_some, Option.getD_some, Word.ofText_text,
          List.filterMap_cons, List.map_cons, List.filter_cons]
  have hsteps : ((e.first.word.text :: e.rest.map wordText).map Step.ofText).filter (· ≠ .stay) =
      e.moves := by
    rw [moves, words, List.map_cons, List.map_cons, List.filter_cons, List.filter_cons, hrest,
      Word.ofText_text]
  rw [dropPredicates_text]
  split
  · -- the slash in front is behind an empty step
    rw [List.singleton_append, pieces, if_pos (beq_self_eq_true _), hfirst]
    exact hsteps
  · rw [List.nil_append, hfirst]
    exact hsteps

/-- The target of an expression is what its words make of the stack, with the last name folded. -/
theorem resolve_text (leaf : Path) : resolve e.text leaf =
    match actAll e.words (e.start leaf) with
    | none | some [] => .error (.invalidPath e.text)
    | some (name :: stack) => .ok (ofNames (name :: stack).reverse).foldKey := by
  have hfilled : dropPredicates none e.text.toList ≠ [] := by
    rw [dropPredicates_text]
    exact List.append_ne_nil_of_right_ne_nil _
      (List.append_ne_nil_of_left_ne_nil e.first.word.text_ne_nil _)
  have hstart : (if (dropPredicates none e.text.toList).head? = some '/' then [] else leaf.names) =
      (e.start leaf).reverse := by
    obtain ⟨c, cs, hcs⟩ := List.exists_cons_of_ne_nil e.first.word.text_ne_nil
    have hslash : c ≠ '/' := (e.first.word.flat_text c (by simp [hcs])).1
    rw [dropPredicates_text, start, hcs]
    cases e.absolute with
    | true => rfl
    | false => simp [hslash]
  rw [resolve]
  simp only [e.trim_text, hstart]
  rw [if_neg (by simpa using hfilled), ← walk_filter, e.steps_text, moves, walk_filter,
    walk_eq_actAll]
  cases actAll e.words (e.start leaf) with
  | none => rfl
  | some stack =>
    cases stack with
    | nil => rfl
    | cons name stack =>
      rw [Option.map_some]
      split
      · next h => cases h
      · next h =>
        have hnil := congrArg List.length (Option.some.inj h)
        simp at hnil
      · next h => rw [← Option.some.inj h]

/-- Neither predicates nor prefixes count, nor steps that stay, nor the keys in the path of the
leaf; and behind a slash in front the leaf does not count. -/
theorem toOption_resolve_congr {e e' : Written} {leaf leaf' : Path}
    (habsolute : e'.absolute = e.absolute) (hmoves : e'.moves = e.moves)
    (hleaf : e.absolute = false → leaf'.names = leaf.names) :
    (resolve e'.text leaf').toOption = (resolve e.text leaf).toOption := by
  have hstart : e'.start leaf' = e.start leaf := by
    rw [start, start, habsolute]
    cases habs : e.absolute with
    | true => rfl
    | false => simp only [hleaf habs]
  have hact : actAll e'.words (e.start leaf) = actAll e.words (e.start leaf) := by
    refine Option.map_injective List.reverse_injective ?_
    rw [← walk_eq_actAll, ← walk_eq_actAll, ← walk_filter, ← moves, hmoves, moves, walk_filter]
  rw [resolve_text, resolve_text, hstart, hact]
  cases actAll e.words (e.start leaf) with
  | none => rfl
  | some stack => cases stack <;> rfl

end Written

/-- What an expression of a leaf refers to. It fails, as a text that is no expression, just if a
step goes up from an empty stack or the stack is empty in the end. A stack of one name is the
target; of more names the last becomes the one key, with any value, of the element before, and the
other elements have no keys. Expressions that differ only in predicates, prefixes and steps that
stay have one target, whatever keys the path of the leaf has; and behind a slash in front the leaf
does not count. -/
theorem resolve_denotes (e : Written) (leaf : Path) :
    ((∃ err, resolve e.text leaf = .error err) ↔
      (∃ before after, e.words = before ++ .up :: after ∧
        actAll before (e.start leaf) = some []) ∨ actAll e.words (e.start leaf) = some []) ∧
    (∀ err, resolve e.text leaf = .error err → err = .invalidPath e.text) ∧
    (∀ name, actAll e.words (e.start leaf) = some [name] →
      resolve e.text leaf = .ok ⟨[.named name]⟩) ∧
    (∀ last owner above, actAll e.words (e.start leaf) = some (last :: owner :: above) →
      ∃ o : Elem, o.name = owner ∧ o.keys = [(last, "*")] ∧
        resolve e.text leaf = .ok ⟨above.reverse.map .named ++ [o]⟩) ∧
    ∀ (e' : Written) (leaf' : Path), e'.absolute = e.absolute → e'.moves = e.moves →
      (e.absolute = false → leaf'.names = leaf.names) →
        (resolve e'.text leaf').toOption = (resolve e.text leaf).toOption := by
  rw [← actAll_eq_none_iff]
  refine ⟨?_, ?_, fun name hact => ?_, fun last owner above hact => ?_,
    fun e' leaf' => Written.toOption_resolve_congr⟩
  · rw [e.resolve_text]
    split <;> simp_all
  · rw [e.resolve_text]
    split
    · exact fun err h => (Except.error.inj h).symm
    · exact fun err h => (Except.error.inj h).symm
    · exact fun err h => nomatch h
  · rw [e.resolve_text, hact]
    rfl
  · refine ⟨(Elem.named owner).withKey last wildcard, rfl, rfl, ?_⟩
    rw [e.resolve_text, hact]
    simp only [List.reverse_cons]
    rw [foldKey_ofNames]

/-- A step up, a prefix, an empty step and a predicate that looks like steps; and a leaf that is not
far enough down. -/
theorem resolve_denotes_relative :
    let m : StepName := ⟨"m", ⟨by decide, by decide⟩, by decide, by decide⟩
    let b : StepName := ⟨"b", ⟨by decide, by decide⟩, by decide, by decide⟩
    let id : StepName := ⟨"id", ⟨by decide, by decide⟩, by decide, by decide⟩
    let e : Written := ⟨false, ⟨.up, []⟩,
      [some ⟨.down (some m) b, [⟨"k=current()/../[x".toList, by decide⟩]⟩, none,
        some ⟨.down none id, []⟩]⟩
    e.text = "../m:b[k=current()/../[x]//id" ∧
      actAll e.words (e.start (.ofNames ["a", "x"])) = some ["id", "b", "a"] ∧
      (∃ o : Elem, o.name = "b" ∧ o.keys = [("id", "*")] ∧
        resolve e.text (.ofNames ["a", "x"]) = .ok ⟨[.named "a", o]⟩) ∧
      resolve e.text .root = .error (.invalidPath e.text) := by
  intro m b id e
  have hact : actAll e.words (e.start (.ofNames ["a", "x"])) = some ["id", "b", "a"] := by decide
  obtain ⟨-, -, -, hmore, -⟩ := resolve_denotes e (.ofNames ["a", "x"])
  obtain ⟨hfails, herror, -⟩ := resolve_denotes e .root
  obtain ⟨err, herr⟩ := hfails.2 (.inl ⟨[], _, rfl, rfl⟩)
  exact ⟨by decide +kernel, hact, hmore "id" "b" ["a"] hact, herror err herr ▸ herr⟩

end Expression

end YangPartition
