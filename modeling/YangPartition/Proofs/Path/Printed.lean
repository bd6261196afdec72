import Mathlib.Data.List.TakeWhile
import YangPartition.Proofs.Path.Folded
import YangPartition.Proofs.Path.Segments

/-!
# Paths that read back

A path is written as segments, each the name of an element with its keys as predicates. Reading it
gives the path again when nothing in a name, a key or a value separates segments or predicates and
no blank or quote at an end of them is trimmed. Without the keys the path is read as its names.
-/

namespace YangPartition

open Text YangPartition.Path

/-! ### Trimmed texts -/

/-- No character that passes the test stands at an end of the text. -/
def Text.IsTrimmed (p : Char → Bool) (cs : List Char) : Prop :=
  (∀ c ∈ cs.head?, p c = false) ∧ ∀ c ∈ cs.getLast?, p c = false

instance (p : Char → Bool) : DecidablePred (Text.IsTrimmed p) := fun cs =>
  decidable_of_iff (cs.head?.all (!p ·) && cs.getLast?.all (!p ·))
    (by simp [Text.IsTrimmed, Option.all_eq_true])

theorem Text.IsTrimmed.mono {p q : Char → Bool} {cs : List Char} (h : IsTrimmed p cs)
    (hpq : ∀ c, p c = false → q c = false) : IsTrimmed q cs :=
  ⟨fun c hc => hpq c (h.1 c hc), fun c hc => hpq c (h.2 c hc)⟩

theorem Text.dropWhile_eq_self {p : Char → Bool} {cs : List Char}
    (h : ∀ c ∈ cs.head?, p c = false) : cs.dropWhile p = cs := by
  cases cs with
  | nil => rfl
  | cons c cs => rw [List.dropWhile_cons_of_neg (by simp [h c rfl])]

theorem Text.trimBy_eq_self {p : Char → Bool} {cs : List Char} (h : IsTrimmed p cs) :
    trimBy p cs = cs := by
  rw [trimBy, dropWhile_eq_self h.1, trimEnd, dropWhile_eq_self fun c hc => ?_,
    List.reverse_reverse]
  rw [List.head?_reverse] at hc
  exact h.2 c hc

theorem Text.cutAt_append {c : Char} {cs : List Char} (h : ∀ d ∈ cs, d ≠ c) (ds : List Char) :
    cutAt c (cs ++ c :: ds) = some (cs, ds) := by
  induction cs with
  | nil => simp [cutAt]
  | cons d cs ih =>
    rw [List.forall_mem_cons] at h
    rw [List.cons_append, cutAt, if_neg h.1, ih h.2]
    rfl

theorem Text.afterLast_eq_self {c : Char} {cs : List Char} (h : ∀ d ∈ cs, d ≠ c) :
    afterLast c cs = cs := by
  have hall : cs.reverse.takeWhile (· != c) = cs.reverse := by
    rw [List.takeWhile_eq_self_iff]
    exact fun d hd => by simpa using h d (List.mem_reverse.1 hd)
  rw [afterLast, hall, List.reverse_reverse]

/-! ### Written elements -/

namespace Elem

theorem eq_of_keys_eq {d e : Elem} (hname : d.name = e.name) (hkeys : d.keys = e.keys) : d = e := by
  obtain ⟨name, keys, hd⟩ := d
  obtain ⟨name', keys', he⟩ := e
  obtain rfl : name = name' := hname
  obtain rfl : keys = keys' := hkeys
  rfl

/-- The predicate that a key with its value is written as. -/
def predicate (key value : String) : List Char := key.toList ++ '=' :: value.toList

/-- The segment that an element is written as. -/
def segment (e : Elem) : Segment :=
  ⟨e.name.toList, e.keys.map fun (key, value) => (predicate key value, [])⟩

theorem toList_text (e : Elem) : e.text.toList = e.segment.text := by
  have hfold : ∀ (m : NameMap String) (s : String),
      (m.foldl (fun s (key, value) => s ++ "[" ++ key ++ "=" ++ value ++ "]") s).toList =
        s.toList ++ Segment.predicatesText
          (m.map fun (key, value) => (predicate key value, [])) := by
    intro m
    induction m with
    | nil => simp [Segment.predicatesText]
    | cons q m ih =>
      intro s
      rw [List.foldl_cons, ih, List.map_cons, Segment.predicatesText_cons]
      simp [predicate]
  exact hfold e.keys e.name

end Elem

namespace Path

theorem toList_text {p : Path} (h : p.elems ≠ []) :
    p.text.toList = p.elems.flatMap fun e => '/' :: e.segment.text := by
  rw [text, toList_textBy _ h]
  simp only [Elem.toList_text]

theorem text_bare (p : Path) : p.bare.text = p.nameText := by
  rw [text, nameText, textBy, textBy, bare, ofNames, names, List.map_map, List.foldl_map]
  simp only [isEmpty, List.isEmpty_map]
  rfl

end Path

/-! ### Elements that read back -/

namespace Elem

/-- A text that is not changed when it is read: nothing in a name, a key or a value separates it
from what follows, and nothing at its ends is trimmed. -/
structure Readable (e : Elem) : Prop where
  /-- The name can be written, and blanks do not stand around it. -/
  name : IsName e.name ∧ IsTrimmed isBlank e.name.toList
  /-- A key holds no bracket, equals sign or colon, and blanks do not stand around it. -/
  key : ∀ kv ∈ e.keys, (∀ c ∈ kv.1.toList, c ∉ ['[', ']', '=', ':']) ∧
    IsTrimmed isBlank kv.1.toList
  /-- A value holds no bracket, and neither blanks nor quotes stand around it. -/
  value : ∀ kv ∈ e.keys, (∀ c ∈ kv.2.toList, c ≠ '[' ∧ c ≠ ']') ∧
    IsTrimmed (fun c => isBlank c || (c = '\'' || c = '"')) kv.2.toList

theorem readable_iff (e : Elem) : e.Readable ↔
    ((e.name ≠ "" ∧ ∀ c ∈ e.name.toList, c ∉ reserved) ∧ IsTrimmed isBlank e.name.toList) ∧
    (∀ kv ∈ e.keys, (∀ c ∈ kv.1.toList, c ∉ ['[', ']', '=', ':']) ∧
      IsTrimmed isBlank kv.1.toList) ∧
    ∀ kv ∈ e.keys, (∀ c ∈ kv.2.toList, c ≠ '[' ∧ c ≠ ']') ∧
      IsTrimmed (fun c => isBlank c || (c = '\'' || c = '"')) kv.2.toList :=
  ⟨fun h => ⟨h.name, h.key, h.value⟩, fun h => ⟨h.1, h.2.1, h.2.2⟩⟩

instance : DecidablePred Readable := fun e => decidable_of_iff _ e.readable_iff.symm

variable {e : Elem}

theorem readable_named {name : String} (hname : IsName name)
    (htrimmed : IsTrimmed isBlank name.toList) : (named name).Readable :=
  ⟨⟨hname, htrimmed⟩, nofun, nofun⟩

theorem keyOfPredicate_predicate {key value : String}
    (hkey : (∀ c ∈ key.toList, c ∉ ['[', ']', '=', ':']) ∧ IsTrimmed isBlank key.toList)
    (hvalue : IsTrimmed (fun c => isBlank c || (c = '\'' || c = '"')) value.toList) :
    keyOfPredicate (predicate key value) = (key, value) := by
  have hequals : ∀ c ∈ key.toList, c ≠ '=' := fun c hc heq => hkey.1 c hc (by simp [heq])
  have hcolon : ∀ c ∈ key.toList, c ≠ ':' := fun c hc heq => hkey.1 c hc (by simp [heq])
  have hblank : IsTrimmed isBlank value.toList :=
    hvalue.mono fun c hc => (Bool.or_eq_false_iff.1 hc).1
  have hquote : IsTrimmed (fun c => c = '\'' || c = '"') value.toList :=
    hvalue.mono fun c hc => (Bool.or_eq_false_iff.1 hc).2
  rw [keyOfPredicate, predicate, cutAt_append hequals, Option.getD_some]
  simp only
  rw [trim, trim, trimBy_eq_self hkey.2, trimBy_eq_self hblank, trimBy_eq_self hquote,
    afterLast_eq_self hcolon, String.ofList_toList, String.ofList_toList]

theorem Readable.flat (h : e.Readable) :
    ∀ p ∈ e.segment.predicates, ∀ c ∈ p.1, c ≠ '[' ∧ c ≠ ']' := by
  intro p hp c hc
  obtain ⟨kv, hkv, rfl⟩ := List.mem_map.1 hp
  rcases List.mem_append.1 hc with hc | hc
  · have hkey := (h.key kv hkv).1 c hc
    exact ⟨fun heq => hkey (by simp [heq]), fun heq => hkey (by simp [heq])⟩
  · rcases List.mem_cons.1 hc with rfl | hc
    · decide
    · exact (h.value kv hkv).1 c hc

theorem Readable.nested (h : e.Readable) : e.segment.Nested where
  name := fun c hc => by
    have hname := h.name.1.2 c hc
    refine ⟨?_, ?_, ?_⟩
    all_goals
      rintro rfl
      exact hname (by simp [reserved])
  inside := fun p hp => isBalanced_of_flat (h.flat p hp)
  behind := fun p hp c hc => by
    obtain ⟨kv, -, rfl⟩ := List.mem_map.1 hp
    cases hc

theorem Readable.pathName_segment (h : e.Readable) : e.segment.pathName = e.name := by
  have hcolon : ∀ c ∈ e.name.toList, c ≠ ':' :=
    fun c hc heq => h.name.1.2 c hc (by simp [heq, reserved])
  rw [Segment.pathName, segment, trim, trimBy_eq_self h.name.2, afterLast_eq_self hcolon,
    String.ofList_toList]

/-- The segment of an element is read as that element. -/
theorem Readable.elem_segment (h : e.Readable) : e.segment.elem = e := by
  have hkeys : e.segment.read.map keyOfPredicate = e.keys := by
    rw [Segment.read_of_flat h.nested h.flat, segment, List.map_map, List.map_map]
    refine (List.map_congr_left fun kv hkv => ?_).trans (List.map_id e.keys)
    exact keyOfPredicate_predicate (h.key kv hkv) (h.value kv hkv).2
  refine eq_of_keys_eq ?_ ?_
  · rw [Segment.elem, name_withPredicates, h.pathName_segment]
    rfl
  · rw [Segment.elem, keys_withPredicates, hkeys, NameMap.ofPairs_eq_self e.ascending]

theorem Readable.text_ne_nil (h : e.Readable) : e.segment.text ≠ [] := by
  intro htext
  refine h.name.1.1 (String.toList_eq_nil_iff.1 ?_)
  exact (List.append_eq_nil_iff.1 htext).1

/-- No blank stands at the end of a written element. -/
theorem Readable.isBlank_getLast? (h : e.Readable) :
    ∀ c ∈ e.segment.text.getLast?, isBlank c = false := by
  rcases List.eq_nil_or_concat e.keys with hkeys | ⟨m, kv, hkeys⟩
  · have htext : e.segment.text = e.name.toList := by
      rw [Segment.text, segment, hkeys]
      exact List.append_nil _
    rw [htext]
    exact h.name.2.2
  · have htext : ∃ cs, e.segment.text = cs ++ [']'] := by
      refine ⟨e.name.toList ++ Segment.predicatesText
        (m.map fun (key, value) => (predicate key value, [])) ++ '[' :: predicate kv.1 kv.2, ?_⟩
      rw [Segment.text, segment, hkeys]
      simp [Segment.predicatesText]
    obtain ⟨cs, hcs⟩ := htext
    intro c hc
    rw [hcs, List.getLast?_concat] at hc
    rw [← Option.some.inj hc]
    decide

end Elem

/-! ### Paths that read back -/

namespace Path

variable {p : Path}

theorem spells_text (h : ∀ e ∈ p.elems, e.Readable) (hne : p.elems ≠ []) :
    Segment.Spells (⟨[], []⟩ :: p.elems.map Elem.segment) (trim p.text.toList) := by
  have htrim : trim p.text.toList = p.text.toList := by
    obtain ⟨es, e, helems⟩ := (List.eq_nil_or_concat p.elems).resolve_left hne
    have he : e.Readable := h e (by simp [helems])
    refine trimBy_eq_self ⟨fun c hc => ?_, fun c hc => ?_⟩
    · obtain ⟨d, ds, hds⟩ := List.exists_cons_of_ne_nil hne
      rw [toList_text hne, hds, List.flatMap_cons] at hc
      rw [← Option.some.inj hc]
      decide
    · rw [toList_text hne, helems, List.concat_eq_append, List.flatMap_append,
        List.flatMap_singleton, ← List.singleton_append, ← List.append_assoc,
        List.getLast?_append_of_ne_nil _ he.text_ne_nil] at hc
      exact he.isBlank_getLast? c hc
  rw [htrim]
  refine Segment.spells_behind_slashes (List.forall_mem_map.2 fun e he => (h e he).nested) ?_
  rw [toList_text hne, List.flatMap_map]

/-- A path whose names, keys and values are not changed by reading is read back from its written
form, and without its keys from the written form without them. -/
theorem parse_text (h : ∀ e ∈ p.elems, e.Readable) :
    parse p.text = .ok p ∧ parse p.nameText = .ok p.bare := by
  have hread : ∀ {q : Path}, (∀ e ∈ q.elems, e.Readable) → parse q.text = .ok q := by
    intro q hq
    by_cases hne : q.elems = []
    · obtain ⟨elems⟩ := q
      obtain rfl : elems = [] := hne
      rfl
    · refine Segment.parse_eq_ok_iff_spells.2 ⟨_, spells_text hq hne, ?_, ?_⟩
      · refine List.forall_mem_cons.2 ⟨fun htext => absurd rfl htext, ?_⟩
        refine List.forall_mem_map.2 fun e he _ => ?_
        rw [(hq e he).pathName_segment]
        exact (hq e he).name.1.1
      · -- no element is written as an empty segment
        have hfilled : ∀ t ∈ q.elems.map Elem.segment, (!t.text.isEmpty) = true :=
          List.forall_mem_map.2 fun e he => by simpa using (hq e he).text_ne_nil
        rw [List.filter_cons_of_neg (by decide), List.filter_eq_self.2 hfilled, List.map_map]
        refine ((List.map_congr_left fun e he => ?_).trans (List.map_id q.elems)).symm
        exact (hq e he).elem_segment
  refine ⟨hread h, ?_⟩
  rw [← text_bare]
  refine hread fun e he => ?_
  obtain ⟨name, hname, rfl⟩ := List.mem_map.1 he
  obtain ⟨d, hd, rfl⟩ := List.mem_map.1 hname
  exact Elem.readable_named (h d hd).name.1 (h d hd).name.2

/-- A path with several keys, one of whose values holds separators. -/
theorem parse_text_interface :
    let p : Path := ⟨[(Elem.named "interface").withKey "name" "ethernet-1/1",
      ((Elem.named "unit").withKey "id" "").withKey "a/b" "x=y:z", .named "mtu"]⟩
    (∀ e ∈ p.elems, e.Readable) ∧
    parse "/interface[name=ethernet-1/1]/unit[a/b=x=y:z][id=]/mtu" = .ok p ∧
    parse "/interface/unit/mtu" = .ok (ofNames ["interface", "unit", "mtu"]) := by
  intro p
  have hreadable : ∀ e ∈ p.elems, e.Readable := by decide +kernel
  obtain ⟨hkeys, hnames⟩ := parse_text hreadable
  have htext : p.text = "/interface[name=ethernet-1/1]/unit[a/b=x=y:z][id=]/mtu" := by
    decide +kernel
  have hnameText : p.nameText = "/interface/unit/mtu" := by decide +kernel
  exact ⟨hreadable, htext ▸ hkeys, hnameText ▸ hnames⟩

end Path

end YangPartition
