import YangPartition.Proofs.Path.Printed

/-!
# What can be read

A text is rejected when its brackets do not balance or a segment has no name, and only then. The
paths that are read are clean: no name, key or value holds a character that ends it in the written
form. Clean paths are told apart by what they are written as, and their names by what is written
without the keys.
-/

namespace YangPartition

open Text YangPartition.Path

/-! ### Clean paths -/

/-- An element whose name, keys and values end where they end in the written form. -/
structure Elem.Clean (e : Elem) : Prop where
  /-- The name can be written. -/
  name : IsName e.name
  /-- A key holds no equals sign, closing bracket or colon. -/
  key : ∀ kv ∈ e.keys, ∀ c ∈ kv.1.toList, c ≠ '=' ∧ c ≠ ']' ∧ c ≠ ':'
  /-- A value holds no closing bracket. -/
  value : ∀ kv ∈ e.keys, ∀ c ∈ kv.2.toList, c ≠ ']'

/-- A path of clean elements. -/
def Path.Clean (p : Path) : Prop := ∀ e ∈ p.elems, e.Clean

theorem Path.Clean.writable {p : Path} (h : p.Clean) : p.Writable := by
  intro name hname
  obtain ⟨e, he, rfl⟩ := List.mem_map.1 hname
  exact (h e he).name

/-! ### Reading gives clean paths -/

theorem Text.cutAt_eq_some {c : Char} {cs as bs : List Char} (h : cutAt c cs = some (as, bs)) :
    cs = as ++ c :: bs ∧ ∀ a ∈ as, a ≠ c := by
  induction cs generalizing as with
  | nil => cases h
  | cons d cs ih =>
    rw [cutAt] at h
    split at h
    · next hd =>
      cases h
      rw [hd]
      exact ⟨rfl, by simp⟩
    · next hd =>
      obtain ⟨⟨as', bs'⟩, hcut, heq⟩ := Option.map_eq_some_iff.1 h
      cases heq
      obtain ⟨rfl, has⟩ := ih hcut
      exact ⟨rfl, List.forall_mem_cons.2 ⟨hd, has⟩⟩

theorem Text.ne_of_cutAt_eq_none {c : Char} {cs : List Char} (h : cutAt c cs = none) :
    ∀ d ∈ cs, d ≠ c := by
  induction cs with
  | nil => simp
  | cons d cs ih =>
    rw [cutAt] at h
    split at h
    · cases h
    · next hd => exact List.forall_mem_cons.2 ⟨hd, ih (Option.map_eq_none_iff.1 h)⟩

namespace Path

/-- A predicate without a closing bracket gives a key and a value that are clean. -/
theorem clean_keyOfPredicate {predicate : List Char} (h : ∀ c ∈ predicate, c ≠ ']') :
    (∀ c ∈ (keyOfPredicate predicate).1.toList, c ≠ '=' ∧ c ≠ ']' ∧ c ≠ ':') ∧
      ∀ c ∈ (keyOfPredicate predicate).2.toList, c ≠ ']' := by
  have hparts : ∃ key value, (cutAt '=' predicate).getD (predicate, wildcard.toList) =
      (key, value) ∧ (∀ c ∈ key, c ≠ '=' ∧ c ≠ ']') ∧ ∀ c ∈ value, c ≠ ']' := by
    cases hcut : cutAt '=' predicate with
    | none =>
      exact ⟨predicate, wildcard.toList, rfl, fun c hc => ⟨ne_of_cutAt_eq_none hcut c hc, h c hc⟩,
        by decide⟩
    | some parts =>
      obtain ⟨key, value⟩ := parts
      obtain ⟨rfl, hkey⟩ := cutAt_eq_some hcut
      exact ⟨key, value, rfl, fun c hc => ⟨hkey c hc, h c (by simp [hc])⟩,
        fun c hc => h c (by simp [hc])⟩
  obtain ⟨key, value, hcut, hkey, hvalue⟩ := hparts
  rw [keyOfPredicate, hcut]
  simp only [String.toList_ofList]
  refine ⟨fun c hc => ?_, fun c hc => ?_⟩
  · have hcolon := ne_of_mem_afterLast hc
    obtain ⟨hequals, hclose⟩ :=
      hkey c (((afterLast_sublist _ _).trans (trim_sublist _)).subset hc)
    exact ⟨hequals, hclose, hcolon⟩
  · exact hvalue c (((trimBy_sublist _ _).trans (trim_sublist _)).subset hc)

theorem clean_segmentElem {segment : List Char} (h : IsSegment segment)
    (hne : segmentName segment ≠ "") : (segmentElem segment).Clean := by
  obtain ⟨ps, hps⟩ := Option.isSome_iff_exists.1 (h.isSome_predicates none (by simp))
  have hkeys : ∀ kv ∈ (segmentElem segment).keys, ∃ p ∈ ps, keyOfPredicate p = kv := by
    intro kv hkv
    rw [segmentElem, keys_withPredicates, segmentPredicates, hps] at hkv
    exact List.mem_map.1 (NameMap.mem_of_mem_ofPairs hkv)
  have hclose := ne_of_mem_predicates hps (by simp)
  refine ⟨?_, fun kv hkv => ?_, fun kv hkv => ?_⟩
  · rw [name_segmentElem]
    exact isName_segmentName h hne
  · obtain ⟨p, hp, rfl⟩ := hkeys kv hkv
    exact (clean_keyOfPredicate (hclose p hp)).1
  · obtain ⟨p, hp, rfl⟩ := hkeys kv hkv
    exact (clean_keyOfPredicate (hclose p hp)).2

/-- Reading gives clean paths. -/
theorem clean_of_parse {s : String} {p : Path} (h : parse s = .ok p) : p.Clean := by
  obtain ⟨ss, hss, hnamed, helems⟩ := parse_eq_ok_iff.1 h
  intro e he
  rw [helems] at he
  obtain ⟨t, ht, rfl⟩ := List.mem_map.1 he
  exact clean_segmentElem (hss.segment t (List.mem_filter.1 ht).1) (hnamed t ht)

end Path

/-! ### Clean paths are told apart -/

namespace Elem

/-- The written forms of clean keys, before a slash or the end, are told apart. -/
theorem predicates_inj {m n : NameMap String} {us vs : List Char}
    (hm : (∀ kv ∈ m, ∀ c ∈ kv.1.toList, c ≠ '=' ∧ c ≠ ']' ∧ c ≠ ':') ∧
      ∀ kv ∈ m, ∀ c ∈ kv.2.toList, c ≠ ']')
    (hn : (∀ kv ∈ n, ∀ c ∈ kv.1.toList, c ≠ '=' ∧ c ≠ ']' ∧ c ≠ ':') ∧
      ∀ kv ∈ n, ∀ c ∈ kv.2.toList, c ≠ ']')
    (hus : ∀ c ∈ us.head?, c = '/') (hvs : ∀ c ∈ vs.head?, c = '/')
    (h : Segment.predicatesText (m.map fun (key, value) => (predicate key value, [])) ++ us =
      Segment.predicatesText (n.map fun (key, value) => (predicate key value, [])) ++ vs) :
    m = n ∧ us = vs := by
  -- a predicate begins with a bracket, and what follows all of them does not
  have hno : ∀ {q : String × String} {m : NameMap String} {us vs : List Char},
      (∀ c ∈ us.head?, c = '/') →
      us ≠ Segment.predicatesText
        ((q :: m).map fun (key, value) => (predicate key value, [])) ++ vs := by
    intro q m us vs hus heq
    rw [List.map_cons, Segment.predicatesText_cons] at heq
    have hslash := hus '[' (by rw [heq]; rfl)
    revert hslash
    decide
  induction m generalizing n with
  | nil =>
    cases n with
    | nil => exact ⟨rfl, h⟩
    | cons q n => exact absurd h (hno hus)
  | cons kv m ih =>
    cases n with
    | nil => exact absurd h.symm (hno hvs)
    | cons kv' n =>
      obtain ⟨key, value⟩ := kv
      obtain ⟨key', value'⟩ := kv'
      simp only [List.forall_mem_cons] at hm hn
      simp only [List.map_cons, Segment.predicatesText_cons, predicate, List.cons_append,
        List.append_assoc, List.nil_append] at h
      obtain ⟨hkey, h⟩ := append_inj_of_stops (p := (· == '='))
        (fun c hc => beq_eq_false_iff_ne.2 (hm.1.1 c hc).1)
        (fun c hc => beq_eq_false_iff_ne.2 (hn.1.1 c hc).1) (by simp) (by simp)
        (List.cons.inj h).2
      obtain ⟨hvalue, h⟩ := append_inj_of_stops (p := (· == ']'))
        (fun c hc => beq_eq_false_iff_ne.2 (hm.2.1 c hc))
        (fun c hc => beq_eq_false_iff_ne.2 (hn.2.1 c hc)) (by simp) (by simp)
        (List.cons.inj h).2
      obtain ⟨rfl, hrest⟩ := ih ⟨hm.1.2, hm.2.2⟩ ⟨hn.1.2, hn.2.2⟩ (List.cons.inj h).2
      rw [String.toList_inj.1 hkey, String.toList_inj.1 hvalue]
      exact ⟨rfl, hrest⟩

/-- A clean element goes on to a slash or the end. -/
theorem Clean.append_inj {d e : Elem} {us vs : List Char} (hd : d.Clean) (he : e.Clean)
    (hus : ∀ c ∈ us.head?, c = '/') (hvs : ∀ c ∈ vs.head?, c = '/')
    (h : d.segment.text ++ us = e.segment.text ++ vs) : d = e ∧ us = vs := by
  have hname : ∀ {e : Elem}, e.Clean → ∀ c ∈ e.name.toList, (c == '/' || c == '[') = false := by
    intro e he c hc
    have hreserved := he.name.2 c hc
    simp only [reserved, List.mem_cons, not_or] at hreserved
    simp [hreserved]
  have hstop : ∀ {ps : List (List Char × List Char)} {us : List Char},
      (∀ c ∈ us.head?, c = '/') →
      ∀ c ∈ (Segment.predicatesText ps ++ us).head?, (c == '/' || c == '[') = true := by
    intro ps us hus c hc
    cases ps with
    | nil => simp [hus c hc]
    | cons p ps =>
      rw [Segment.predicatesText_cons] at hc
      rw [← Option.some.inj hc]
      decide
  rw [Segment.text, Segment.text, List.append_assoc, List.append_assoc] at h
  obtain ⟨hnames, hkeys⟩ := append_inj_of_stops (p := fun c => c == '/' || c == '[') (hname hd)
    (hname he) (hstop hus) (hstop hvs) h
  obtain ⟨hkeys, hrest⟩ :=
    predicates_inj ⟨hd.key, hd.value⟩ ⟨he.key, he.value⟩ hus hvs hkeys
  exact ⟨eq_of_keys_eq (String.toList_inj.1 hnames) hkeys, hrest⟩

end Elem

namespace Path

variable {p q : Path}

/-- Clean paths are told apart by their written forms. -/
theorem Clean.text_inj (hp : p.Clean) (hq : q.Clean) (h : p.text = q.text) : p = q := by
  -- a slash alone would be an element without a name
  have halone : ∀ {p : Path}, p.Clean → p.elems ≠ [] → p.text.toList ≠ ['/'] := by
    intro p hp hne htext
    obtain ⟨e, es, helems⟩ := List.exists_cons_of_ne_nil hne
    rw [toList_text hne, helems, List.flatMap_cons, List.cons_append] at htext
    have hnil := (List.append_eq_nil_iff.1 (List.cons.inj htext).2).1
    refine (hp e (by simp [helems])).name.1 (String.toList_eq_nil_iff.1 ?_)
    exact (List.append_eq_nil_iff.1 hnil).1
  have hroot : ∀ {p : Path}, p.elems = [] → p.text.toList = ['/'] := by
    intro p hnil
    rw [text, textBy, isEmpty, hnil]
    rfl
  have hchars := congrArg String.toList h
  suffices p.elems = q.elems by
    obtain ⟨ps⟩ := p
    obtain ⟨qs⟩ := q
    exact congrArg Path.mk this
  by_cases hpnil : p.elems = []
  · by_cases hqnil : q.elems = []
    · rw [hpnil, hqnil]
    · rw [hroot hpnil] at hchars
      exact absurd hchars.symm (halone hq hqnil)
  · by_cases hqnil : q.elems = []
    · rw [hroot hqnil] at hchars
      exact absurd hchars (halone hp hpnil)
    · rw [toList_text hpnil, toList_text hqnil] at hchars
      exact eq_of_flatMap_slash_eq
        (fun d hd e he _ _ => (hp d hd).append_inj (hq e he)) hchars

/-! ### Malformed texts -/

theorem names_of_parse {s : String} {ss : List (List Char)} (hss : IsSplit (trim s.toList) ss)
    (h : parse s = .ok p) : p.names = (filled ss).map segmentName := by
  obtain ⟨ts, hts, -, helems⟩ := parse_eq_ok_iff.1 h
  obtain rfl := hss.unique hts
  rw [names, helems, List.map_map]
  exact List.map_congr_left fun t _ => name_segmentElem t

/-- The first segment without a name is reported. -/
theorem exists_parse_eq_error {s : String} {ss : List (List Char)}
    (hss : IsSplit (trim s.toList) ss) (h : ∃ t ∈ ss, t ≠ [] ∧ segmentName t = "") :
    ∃ t ∈ ss, t ≠ [] ∧ segmentName t = "" ∧
      parse s = .error (.invalidPath (String.ofList t)) := by
  obtain ⟨t, ht, htext, hname⟩ := h
  have hsome : ((filled ss).find? (segmentName · = "")).isSome := by
    rw [List.find?_isSome]
    exact ⟨t, List.mem_filter.2 ⟨ht, by simpa using htext⟩, by simpa using hname⟩
  obtain ⟨u, hu⟩ := Option.isSome_iff_exists.1 hsome
  obtain ⟨hmem, hfilled⟩ := List.mem_filter.1 (List.mem_of_find?_eq_some hu)
  refine ⟨u, hmem, by simpa using hfilled, by simpa using List.find?_some hu, ?_⟩
  rw [parse_of_isSplit hss, hu]

/-- What is rejected, and what is read of the rest. A text whose brackets do not balance is
rejected. Any other is split into the segments that it is made up of: their predicates can be read,
one without a name is reported if there is one, and a path that is read has their names. The paths
that are read are clean, are the same when they are written alike, and have the same names when they
are written alike without their keys. -/
theorem parse_rejects_malformed (s : String) :
    (¬ IsBalanced (trim s.toList) →
      parse s = .error (.invalidPath (String.ofList (trim s.toList)))) ∧
    ((∃ ss, IsSplit (trim s.toList) ss) ↔ IsBalanced (trim s.toList)) ∧
    (∀ ss, IsSplit (trim s.toList) ss →
      segments 0 (trim s.toList) = some ss ∧ (∀ t ∈ ss, (predicates none t).isSome) ∧
      ((∃ t ∈ ss, t ≠ [] ∧ segmentName t = "") → ∃ t ∈ ss, t ≠ [] ∧ segmentName t = "" ∧
        parse s = .error (.invalidPath (String.ofList t))) ∧
      ∀ p, parse s = .ok p → p.names = (ss.filter (!·.isEmpty)).map segmentName) ∧
    ∀ p, parse s = .ok p → p.Clean ∧ ∀ s' q, parse s' = .ok q →
      (p.nameText = q.nameText → p.names = q.names) ∧ (p.text = q.text → p = q) := by
  refine ⟨parse_of_not_isBalanced, exists_isSplit_iff, fun ss hss => ?_, fun p hp => ?_⟩
  · refine ⟨segments_eq_iff_isSplit.2 hss, fun t ht => ?_, exists_parse_eq_error hss,
      fun p => names_of_parse hss⟩
    exact (hss.segment t ht).isSome_predicates none nofun
  · have hclean := clean_of_parse hp
    refine ⟨hclean, fun s' q hq => ⟨fun h => ?_, hclean.text_inj (clean_of_parse hq)⟩⟩
    exact (nameText_eq_iff hclean.writable (clean_of_parse hq).writable).1 h

/-- A bracket that closes nothing, a segment that is a prefix alone, and a path that is written in
two ways. -/
theorem parse_rejects_malformed_cases :
    (¬ IsBalanced (trim "/a]b".toList) ∧ parse "/a]b" = .error (.invalidPath "/a]b")) ∧
    (IsSplit (trim " /a/x:[k]".toList) ["".toList, "a".toList, "x:[k]".toList] ∧
      ∃ t ∈ ["".toList, "a".toList, "x:[k]".toList], t ≠ [] ∧ segmentName t = "" ∧
        parse " /a/x:[k]" = .error (.invalidPath (String.ofList t))) ∧
    ∃ p q, parse "/x:a[k='1']/b" = .ok p ∧ parse "a[ k = 1 ]//b" = .ok q ∧
      p.names = ["a", "b"] ∧ p.Clean ∧ p.text = q.text ∧ p = q := by
  have hunbalanced : ¬ IsBalanced (trim "/a]b".toList) := by decide +kernel
  have hunnamed :
      IsSplit (trim " /a/x:[k]".toList) ["".toList, "a".toList, "x:[k]".toList] := by
    decide +kernel
  have hsplit :
      IsSplit (trim "/x:a[k='1']/b".toList) ["".toList, "x:a[k='1']".toList, "b".toList] := by
    decide +kernel
  have hp : parse "/x:a[k='1']/b" = .ok ⟨[(Elem.named "a").withKey "k" "1", .named "b"]⟩ := by
    decide +kernel
  have hq : parse "a[ k = 1 ]//b" = .ok ⟨[(Elem.named "a").withKey "k" "1", .named "b"]⟩ := by
    decide +kernel
  refine ⟨⟨hunbalanced, (parse_rejects_malformed "/a]b").1 hunbalanced⟩, ⟨hunnamed, ?_⟩,
    _, _, hp, hq, ?_⟩
  · obtain ⟨-, -, hreported, -⟩ :=
      (parse_rejects_malformed " /a/x:[k]").2.2.1 _ hunnamed
    exact hreported ⟨"x:[k]".toList, by decide, by decide, by decide +kernel⟩
  · obtain ⟨-, -, hread, hclean⟩ := parse_rejects_malformed "/x:a[k='1']/b"
    obtain ⟨-, -, -, hnames⟩ := hread _ hsplit
    obtain ⟨hclean, hinj⟩ := hclean _ hp
    exact ⟨(hnames _ hp).trans (by decide +kernel), hclean, rfl, (hinj _ _ hq).2 rfl⟩

end Path

end YangPartition
