import Mathlib.Data.List.Basic
import YangPartition.Proofs.Path.Names
import YangPartition.Proofs.Path.Reading

/-!
# Written paths

Reading a path gives names that are not empty and hold no slash, bracket or
colon. Paths with names of this kind have one written form without keys for one
list of names, so comparing written forms is comparing names.
-/

namespace YangPartition

open Text

/-! ### Parts of a text -/

theorem Text.trimBy_sublist (p : Char → Bool) (cs : List Char) : (trimBy p cs).Sublist cs := by
  rw [trimBy, trimEnd]
  refine List.Sublist.trans ?_ (List.dropWhile_sublist p)
  rw [← List.reverse_sublist, List.reverse_reverse]
  exact List.dropWhile_sublist p

theorem Text.trim_sublist (cs : List Char) : (trim cs).Sublist cs := trimBy_sublist isBlank cs

theorem Text.afterLast_sublist (c : Char) (cs : List Char) : (afterLast c cs).Sublist cs := by
  rw [afterLast, ← List.reverse_sublist, List.reverse_reverse]
  exact List.takeWhile_sublist _

theorem Text.ne_of_mem_afterLast {c d : Char} {cs : List Char} (h : c ∈ afterLast d cs) :
    c ≠ d := by
  rw [afterLast, List.mem_reverse] at h
  simpa using List.mem_takeWhile_imp h

namespace Path

/-! ### Names that can be written -/

/-- The characters that a written name cannot hold. -/
def reserved : List Char := ['/', '[', ']', ':']

/-- A name that can be written: not empty, and without reserved characters. -/
def IsName (name : String) : Prop := name ≠ "" ∧ ∀ c ∈ name.toList, c ∉ reserved

/-- All names of the path can be written. -/
def Writable (p : Path) : Prop := ∀ name ∈ p.names, IsName name

theorem writable_root : root.Writable := by simp [Writable]

theorem Writable.join {p q : Path} (hp : p.Writable) (hq : q.Writable) : (p.join q).Writable := by
  intro name h
  rw [names_join, List.mem_append] at h
  exact h.elim (hp name) (hq name)

theorem Writable.bare {p : Path} (h : p.Writable) : p.bare.Writable := by
  simpa [Writable] using h

/-! ### Reading gives names that can be written -/

/-- No slash and no closing bracket stands before the first opening bracket. -/
def NoSlash (segment : List Char) : Prop :=
  ∀ c ∈ segment.takeWhile (· != '['), c ≠ '/' ∧ c ≠ ']'

theorem noSlash_of_isSegment {segment : List Char} (h : IsSegment segment) : NoSlash segment := by
  induction segment with
  | nil => exact fun c hc => by cases hc
  | cons d segment ih =>
    obtain ⟨hd, h⟩ := spans_cons_iff.1 h
    intro c hc
    rw [List.takeWhile_cons] at hc
    split at hc
    · next hopen =>
      have hslash : d ≠ '/' := fun heq => hd (.inl heq) rfl
      have hclose : d ≠ ']' := fun heq => hd (.inr heq) rfl
      rw [depthBehind_of_ne (by simpa using hopen) hclose] at h
      rcases List.mem_cons.1 hc with rfl | hc
      · exact ⟨hslash, hclose⟩
      · exact ih h c hc
    · cases hc

/-- The name of a segment can be written, unless there is none. -/
theorem isName_segmentName {segment : List Char} (h : IsSegment segment)
    (hne : segmentName segment ≠ "") : IsName (segmentName segment) := by
  refine ⟨hne, fun c hc => ?_⟩
  rw [segmentName, String.toList_ofList] at hc
  have hcolon := ne_of_mem_afterLast hc
  have hc := ((afterLast_sublist _ _).trans (trim_sublist _)).subset hc
  obtain ⟨hslash, hclose⟩ := noSlash_of_isSegment h c hc
  have hopen : c ≠ '[' := by simpa using List.mem_takeWhile_imp hc
  simp [reserved, hslash, hclose, hopen, hcolon]

/-- Reading a path gives names that can be written. -/
theorem writable_of_parse {s : String} {p : Path} (h : parse s = .ok p) : p.Writable := by
  obtain ⟨ss, hss, hnamed, helems⟩ := parse_eq_ok_iff.1 h
  intro name hname
  rw [names, helems, List.map_map] at hname
  obtain ⟨t, ht, rfl⟩ := List.mem_map.1 hname
  rw [Function.comp_apply, name_segmentElem]
  exact isName_segmentName (hss.segment t (List.mem_filter.1 ht).1) (hnamed t ht)

/-! ### One written form for one list of names -/

/-- The characters of written names: each name behind a slash. -/
def nameChars (names : List String) : List Char := names.flatMap fun name => '/' :: name.toList

theorem toList_nameText (p : Path) :
    p.nameText.toList = if p.names = [] then ['/'] else nameChars p.names := by
  have fold : ∀ (es : List Elem) (s : String),
      (es.foldl (fun s e => s ++ "/" ++ e.name) s).toList =
        s.toList ++ nameChars (es.map (·.name)) := by
    intro es
    induction es with
    | nil => intro s; simp [nameChars]
    | cons e es ih =>
      intro s
      rw [List.foldl_cons, ih]
      simp [nameChars]
  rw [nameText, textBy]
  by_cases h : p.names = []
  · rw [if_pos ((isEmpty_iff p).2 h), if_pos h]
    rfl
  · rw [if_neg (mt (isEmpty_iff p).1 h), if_neg h, fold]
    rfl

/-- Names without slashes are found again between the slashes. -/
theorem nameChars_inj {xs ys : List String} (hx : ∀ x ∈ xs, '/' ∉ x.toList)
    (hy : ∀ y ∈ ys, '/' ∉ y.toList) (h : nameChars xs = nameChars ys) : xs = ys := by
  refine eq_of_flatMap_slash_eq (fun x hxs y hys us vs hus hvs heq => ?_) h
  obtain ⟨hname, hrest⟩ := append_inj_of_stops (p := (· == '/'))
    (fun c hc => beq_eq_false_iff_ne.2 fun hslash => hx x hxs (hslash ▸ hc))
    (fun c hc => beq_eq_false_iff_ne.2 fun hslash => hy y hys (hslash ▸ hc))
    (fun c hc => beq_iff_eq.2 (hus c hc)) (fun c hc => beq_iff_eq.2 (hvs c hc)) heq
  exact ⟨String.toList_inj.1 hname, hrest⟩

/-- All names of the path stand apart between slashes: they are not empty and hold none. -/
def Separated (p : Path) : Prop := ∀ name ∈ p.names, name ≠ "" ∧ '/' ∉ name.toList

instance : DecidablePred Separated := fun p =>
  inferInstanceAs (Decidable (∀ name ∈ p.names, name ≠ "" ∧ '/' ∉ name.toList))

theorem Writable.separated {p : Path} (h : p.Writable) : p.Separated := fun name hname =>
  ⟨(h name hname).1, fun hmem => (h name hname).2 _ hmem (by simp [reserved])⟩

/-- Paths whose names stand apart have one written form exactly when they have the same names. -/
theorem Separated.nameText_eq_iff {p q : Path} (hp : p.Separated) (hq : q.Separated) :
    p.nameText = q.nameText ↔ p.names = q.names := by
  -- a written form that is a slash alone would need an empty name
  have alone : ∀ {r : Path}, r.Separated → r.names ≠ [] → nameChars r.names ≠ ['/'] := by
    intro r hr hne h
    obtain ⟨name, rest, hnames⟩ := List.exists_cons_of_ne_nil hne
    rw [hnames] at h
    have hempty : name.toList = [] := by
      have := congrArg List.tail h
      simp only [nameChars, List.flatMap_cons, List.cons_append, List.tail_cons] at this
      exact (List.append_eq_nil_iff.1 this).1
    exact (hr name (by rw [hnames]; exact List.mem_cons_self)).1 (String.toList_eq_nil_iff.1 hempty)
  constructor
  · intro h
    have h := congrArg String.toList h
    rw [toList_nameText, toList_nameText] at h
    split at h <;> split at h
    · next hp0 hq0 => rw [hp0, hq0]
    · next hp0 hq0 => exact absurd h.symm (alone hq hq0)
    · next hp0 hq0 => exact absurd h (alone hp hp0)
    · exact nameChars_inj (fun name hname => (hp name hname).2)
        (fun name hname => (hq name hname).2) h
  · intro h
    rw [← String.toList_inj, toList_nameText, toList_nameText, h]

theorem nameText_eq_iff {p q : Path} (hp : p.Writable) (hq : q.Writable) :
    p.nameText = q.nameText ↔ p.names = q.names :=
  hp.separated.nameText_eq_iff hq.separated

end Path

end YangPartition
