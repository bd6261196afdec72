import Mathlib.Data.String.Basic
import YangPartition.Path.Expression
import YangPartition.Proofs.Path.Written

/-!
# Folded paths

The last name of a path may be folded into a key of the element before. The first of the keys of
that element is the name that was folded, unless the element had a key before that comes first.
An expression of a leaf leads to names, and its target is the path that is folded from them. Such
a path can be told from its written form as long as its names hold no brackets.
-/

namespace YangPartition

open Text

/-! ### Folded paths -/

namespace Elem

/-- The first of the keys of an element and one more. -/
def leastKey (e : Elem) (key : String) : String := e.keys.names.foldl min key

/-- The element with a key of any value, unless it has a value for it. -/
def holding (e : Elem) (key : String) : Elem :=
  if e.keys.contains key then e else e.withKey key wildcard

/-- The first key of an element comes before the others. -/
theorem lt_of_mem_keys (e : Elem) {n v : String} {m : NameMap String} (h : e.keys = (n, v) :: m)
    {key : String} (hkey : key ∈ m.names) : n < key := by
  have hascending := e.ascending
  rw [h] at hascending
  exact hascending.lt_of_mem_names hkey

theorem leastKey_of_cons {e : Elem} {n v : String} {m : NameMap String} (h : e.keys = (n, v) :: m)
    (key : String) : e.leastKey key = min key n := by
  have hkeep : ∀ (ks : List String) (k : String), (∀ l ∈ ks, k ≤ l) → ks.foldl min k = k := by
    intro ks
    induction ks with
    | nil => exact fun _ _ => rfl
    | cons l ks ih =>
      intro k hk
      rw [List.forall_mem_cons] at hk
      rw [List.foldl_cons, min_eq_left hk.1]
      exact ih k hk.2
  rw [leastKey, h, NameMap.names, List.map_cons, List.foldl_cons]
  exact hkeep _ _ fun l hl => le_trans (min_le_right key n) (le_of_lt (e.lt_of_mem_keys h hl))

/-- A key comes first just if no key of the element is before it. -/
theorem leastKey_eq_iff {e : Elem} {key : String} :
    e.leastKey key = key ↔ ∀ l ∈ e.keys.names, key ≤ l := by
  cases hkeys : e.keys with
  | nil => simp [leastKey, hkeys, NameMap.names]
  | cons q m =>
    obtain ⟨n, v⟩ := q
    rw [leastKey_of_cons hkeys, min_eq_left_iff, NameMap.names, List.map_cons,
      List.forall_mem_cons]
    refine ⟨fun hle => ⟨hle, fun l hl => ?_⟩, fun hall => hall.1⟩
    exact le_trans hle (le_of_lt (e.lt_of_mem_keys hkeys hl))

theorem keys_holding (e : Elem) (key : String) :
    (e.holding key).keys =
      if e.keys.contains key then e.keys else e.keys.insert key wildcard := by
  unfold holding
  split <;> rfl

/-- The first key of an element with one more key. -/
theorem exists_keys_holding (e : Elem) (key : String) :
    ∃ v m, (e.holding key).keys = (e.leastKey key, v) :: m := by
  rw [keys_holding]
  cases hkeys : e.keys with
  | nil =>
    rw [leastKey, hkeys]
    exact ⟨wildcard, [], rfl⟩
  | cons q m =>
    obtain ⟨n, v⟩ := q
    rw [leastKey_of_cons hkeys]
    by_cases hcontains : NameMap.contains key ((n, v) :: m) = true
    · rw [if_pos hcontains]
      have hle : n ≤ key := by
        rcases List.mem_cons.1 (NameMap.mem_names_of_contains hcontains) with rfl | hmem
        · exact le_refl _
        · exact le_of_lt (e.lt_of_mem_keys hkeys hmem)
      rw [min_eq_right hle]
      exact ⟨v, m, rfl⟩
    · rw [if_neg hcontains, NameMap.insert]
      by_cases hlt : key < n
      · rw [if_pos hlt, min_eq_left (le_of_lt hlt)]
        exact ⟨wildcard, (n, v) :: m, rfl⟩
      · rw [if_neg hlt, min_eq_right (not_lt.1 hlt)]
        by_cases heq : key = n
        · rw [if_pos heq, heq]
          exact ⟨wildcard, m, rfl⟩
        · rw [if_neg heq]
          exact ⟨v, _, rfl⟩

theorem name_holding (e : Elem) (key : String) : (e.holding key).name = e.name := by
  unfold holding
  split <;> rfl

end Elem

namespace Path

variable {p : Path} {above : List Elem} {owner leaf : Elem}

theorem foldKey_eq (h : p.elems = above ++ [owner, leaf]) :
    p.foldKey = ⟨above ++ [owner.holding leaf.name]⟩ := by
  unfold foldKey Elem.holding
  rw [h]
  simp

theorem names_dropLast (h : p.elems = above ++ [owner, leaf]) :
    p.names.dropLast = above.map (·.name) ++ [owner.name] := by
  rw [names, h]
  simp

end Path

/-! ### Names -/

/-- Whether a name holds neither slashes nor brackets. -/
def IsBare (name : String) : Prop := ∀ c ∈ name.toList, c ≠ '/' ∧ c ≠ '[' ∧ c ≠ ']'

instance : DecidablePred IsBare := fun name =>
  decidable_of_iff (name.toList.all fun c => c != '/' && c != '[' && c != ']')
    (by simp [IsBare, List.all_eq_true, and_assoc])

/-- Whether a name holds no slashes, and no closing bracket behind an opening one. -/
def IsLoose (name : String) : Prop :=
  (∀ c ∈ name.toList, c ≠ '/') ∧ ¬ ['[', ']'].Sublist name.toList

theorem IsBare.isLoose {name : String} (h : IsBare name) : IsLoose name := by
  refine ⟨fun c hc => (h c hc).1, fun hpair => ?_⟩
  have hopen : '[' ∈ name.toList := hpair.subset List.mem_cons_self
  exact (h _ hopen).2.1 rfl

/-- What stands in a text without slashes is loose when the text is. -/
theorem IsLoose.of_sublist {cs ds : List Char} (h : cs.Sublist ds) (hslash : ∀ c ∈ cs, c ≠ '/')
    (hpair : ¬ ['[', ']'].Sublist ds) : IsLoose (String.ofList cs) := by
  rw [IsLoose, String.toList_ofList]
  exact ⟨hslash, fun hcs => hpair (hcs.trans h)⟩

/-! ### Paths folded from names -/

namespace Path

/-- The names that a path was folded from, where its elements had no keys. -/
def unfolded (p : Path) : List String :=
  p.names ++ (p.last?.bind (·.keys.names.head?)).toList

/-- The path is folded from names that are loose. -/
def IsFolded (p : Path) : Prop :=
  ∃ names, names ≠ [] ∧ (∀ name ∈ names, IsLoose name) ∧ p = (ofNames names).foldKey

/-- There is something to be folded in two names or more. -/
theorem names_cases {names : List String} (h : names ≠ []) :
    (∃ name, names = [name]) ∨ ∃ owners leaf, owners ≠ [] ∧ names = owners ++ [leaf] := by
  obtain ⟨owners, leaf, rfl⟩ := (List.eq_nil_or_concat names).resolve_left h
  rw [List.concat_eq_append]
  cases owners with
  | nil => exact .inl ⟨leaf, rfl⟩
  | cons owner owners => exact .inr ⟨owner :: owners, leaf, List.cons_ne_nil _ _, rfl⟩

theorem foldKey_ofNames (above : List String) (owner leaf : String) :
    (ofNames (above ++ [owner] ++ [leaf])).foldKey =
      ⟨above.map Elem.named ++ [(Elem.named owner).withKey leaf wildcard]⟩ := by
  have helems : (ofNames (above ++ [owner] ++ [leaf])).elems =
      above.map Elem.named ++ [.named owner, .named leaf] := by simp [ofNames]
  rw [foldKey_eq helems]
  rfl

theorem unfolded_foldKey (names : List String) : (ofNames names).foldKey.unfolded = names := by
  by_cases hnames : names = []
  · subst hnames
    rfl
  rcases names_cases hnames with ⟨name, rfl⟩ | ⟨owners, leaf, howners, rfl⟩
  · rfl
  · obtain ⟨above, owner, rfl⟩ := (List.eq_nil_or_concat owners).resolve_left howners
    rw [List.concat_eq_append, foldKey_ofNames, unfolded]
    simp [Path.names, last?, Elem.named, Elem.withKey, NameMap.insert, NameMap.names,
      Function.comp_def]

/-! ### Written forms -/

theorem toList_textBy (f : Elem → String) {p : Path} (h : p.elems ≠ []) :
    (p.textBy f).toList = p.elems.flatMap fun e => '/' :: (f e).toList := by
  have hfold : ∀ (es : List Elem) (s : String),
      (es.foldl (fun s e => s ++ "/" ++ f e) s).toList =
        s.toList ++ es.flatMap fun e => '/' :: (f e).toList := by
    intro es
    induction es with
    | nil => simp
    | cons e es ih =>
      intro s
      rw [List.foldl_cons, ih]
      simp
  have hne : ¬ p.isEmpty = true := by simpa [isEmpty] using h
  rw [textBy, if_neg hne, hfold]
  rfl

theorem toList_text_ofNames_single (name : String) :
    (ofNames [name]).foldKey.text.toList = '/' :: name.toList := by
  rw [text, toList_textBy _ (by simp [ofNames, foldKey])]
  simp [ofNames, foldKey, Elem.text, Elem.named]

theorem toList_text_foldKey {owners : List String} (h : owners ≠ []) (leaf : String) :
    (ofNames (owners ++ [leaf])).foldKey.text.toList =
      nameChars owners ++ '[' :: (leaf.toList ++ ['=', '*', ']']) := by
  obtain ⟨above, owner, rfl⟩ := (List.eq_nil_or_concat owners).resolve_left h
  rw [List.concat_eq_append, foldKey_ofNames, text, toList_textBy _ (by simp)]
  simp [nameChars, Elem.text, Elem.named, Elem.withKey, NameMap.insert, wildcard,
    List.flatMap_map]

theorem mem_nameChars {names : List String} {c : Char} (h : c ∈ nameChars names) :
    c = '/' ∨ ∃ name ∈ names, c ∈ name.toList := by
  obtain ⟨name, hname, hc⟩ := List.mem_flatMap.1 h
  exact (List.mem_cons.1 hc).imp_right fun hc => ⟨name, hname, hc⟩

/-- A path that is folded from bare names can be told from all others by its written form. -/
theorem eq_of_text_eq {ns ms : List String} (hns : ns ≠ []) (hms : ms ≠ [])
    (hbare : ∀ n ∈ ns, IsBare n) (hloose : ∀ m ∈ ms, IsLoose m)
    (h : (ofNames ns).foldKey.text = (ofNames ms).foldKey.text) : ns = ms := by
  have hchars := congrArg String.toList h
  have hopen : ∀ n ∈ ns, '[' ∉ n.toList := fun n hn hmem => (hbare n hn _ hmem).2.1 rfl
  rcases names_cases hns with ⟨n, rfl⟩ | ⟨owners, leaf, howners, rfl⟩
  · rw [toList_text_ofNames_single] at hchars
    rcases names_cases hms with ⟨m, rfl⟩ | ⟨owners', leaf', howners', rfl⟩
    · rw [toList_text_ofNames_single] at hchars
      rw [String.toList_inj.1 (List.cons.inj hchars).2]
    · -- the bracket would have to stand in the only name
      rw [toList_text_foldKey howners'] at hchars
      have hmem : '[' ∈ '/' :: n.toList := by
        rw [hchars]
        exact List.mem_append_right _ List.mem_cons_self
      exact absurd ((List.mem_cons.1 hmem).resolve_left (by decide)) (hopen n List.mem_cons_self)
  · rw [toList_text_foldKey howners] at hchars
    rcases names_cases hms with ⟨m, rfl⟩ | ⟨owners', leaf', howners', rfl⟩
    · -- both brackets would have to stand in the only name
      rw [toList_text_ofNames_single] at hchars
      have hpair : ['[', ']'].Sublist ('/' :: m.toList) := by
        rw [← hchars]
        refine List.Sublist.trans ?_ (List.sublist_append_right _ _)
        exact .cons_cons _ (List.singleton_sublist.2 (by simp))
      refine absurd ?_ (hloose m List.mem_cons_self).2
      exact (List.sublist_cons_iff.1 hpair).resolve_right fun ⟨r, hr, _⟩ =>
        absurd (List.cons.inj hr).1 (by decide)
    · rw [toList_text_foldKey howners'] at hchars
      have hfirst : '[' ∉ nameChars owners := by
        intro hmem
        rcases mem_nameChars hmem with heq | ⟨n, hn, hmem⟩
        · revert heq
          decide
        · exact hopen n (List.mem_append_left _ hn) hmem
      have hlast : '[' ∉ leaf.toList ++ ['=', '*', ']'] := by
        intro hmem
        rcases List.mem_append.1 hmem with hmem | hmem
        · exact hopen leaf (by simp) hmem
        · revert hmem
          decide
      obtain ⟨hnames, -, hleaf⟩ := (List.append_cons_inj_of_notMem hfirst hlast).1 hchars
      have hslash : ∀ n ∈ owners, '/' ∉ n.toList := fun n hn hmem =>
        (hbare n (List.mem_append_left _ hn) _ hmem).1 rfl
      have hslash' : ∀ n ∈ owners', '/' ∉ n.toList := fun n hn hmem =>
        (hloose n (List.mem_append_left _ hn)).1 _ hmem rfl
      rw [nameChars_inj hslash hslash' hnames, String.toList_inj.1 (List.append_cancel_right hleaf)]

end Path

/-! ### Targets of expressions -/

/-- The pieces of a text stand in it, between the separators. -/
theorem Text.sublist_of_mem_pieces {p : Char → Bool} {cs t : List Char} (h : t ∈ pieces p cs) :
    t.Sublist cs ∧ ∀ c ∈ t, p c = false := by
  induction cs generalizing t with
  | nil =>
    obtain rfl := List.mem_singleton.1 h
    exact ⟨List.nil_sublist _, fun c hc => by cases hc⟩
  | cons d cs ih =>
    rw [pieces] at h
    split at h
    · rcases List.mem_cons.1 h with rfl | h
      · exact ⟨List.nil_sublist _, fun c hc => by cases hc⟩
      · exact ⟨(ih h).1.cons d, (ih h).2⟩
    · next hd =>
      split at h
      · next hnone =>
        obtain rfl := List.mem_singleton.1 h
        refine ⟨.cons_cons d (List.nil_sublist _), fun c hc => ?_⟩
        rw [List.mem_singleton.1 hc]
        exact Bool.eq_false_iff.2 hd
      · next piece more hmore =>
        rw [hmore] at ih
        rcases List.mem_cons.1 h with rfl | h
        · obtain ⟨hsub, hsep⟩ := ih List.mem_cons_self
          refine ⟨hsub.cons_cons d, fun c hc => ?_⟩
          rcases List.mem_cons.1 hc with rfl | hc
          · exact Bool.eq_false_iff.2 hd
          · exact hsep c hc
        · obtain ⟨hsub, hsep⟩ := ih (List.mem_cons_of_mem _ h)
          exact ⟨hsub.cons d, hsep⟩

namespace Expression

/-- Without predicates no closing bracket is left behind an opening one. -/
theorem not_sublist_dropPredicates (cs : List Char) :
    ¬ ['[', ']'].Sublist (dropPredicates none cs) := by
  -- what is held behind an opening bracket has no closing one
  have hboth : ∀ cs, ¬ ['[', ']'].Sublist (dropPredicates none cs) ∧
      ∀ held, ']' ∉ held → ¬ ['[', ']'].Sublist (dropPredicates (some held) cs) := by
    intro cs
    induction cs with
    | nil =>
      refine ⟨by simp [dropPredicates], fun held hheld hpair => ?_⟩
      have hclose : ']' ∈ held.reverse := hpair.subset (by simp)
      exact hheld (List.mem_reverse.1 hclose)
    | cons c cs ih =>
      obtain ⟨hnone, hsome⟩ := ih
      constructor
      · rw [dropPredicates]
        split
        · next hopen =>
          rw [hopen]
          exact hsome _ (by decide)
        · next hopen =>
          intro hpair
          refine hnone ((List.sublist_cons_iff.1 hpair).resolve_right ?_)
          rintro ⟨r, hr, -⟩
          exact hopen (List.cons.inj hr).1.symm
      · intro held hheld
        rw [dropPredicates]
        split
        · exact hnone
        · next hclose =>
          refine hsome _ fun hmem => ?_
          rcases List.mem_cons.1 hmem with heq | hmem
          · exact hclose heq.symm
          · exact hheld hmem
  exact (hboth cs).1

/-- Steps lead to names from the start and names of steps down. -/
theorem forall_of_walk {P : String → Prop} {names out : List String} {steps : List Step}
    (h : walk names steps = some out) (hnames : ∀ n ∈ names, P n)
    (hsteps : ∀ n, .down n ∈ steps → P n) : ∀ n ∈ out, P n := by
  induction steps generalizing names with
  | nil =>
    obtain rfl := Option.some.inj h
    exact hnames
  | cons step steps ih =>
    have hrest : ∀ n, .down n ∈ steps → P n := fun n hn => hsteps n (List.mem_cons_of_mem _ hn)
    cases step with
    | stay => exact ih h hnames hrest
    | up =>
      rw [walk] at h
      split at h
      · cases h
      · exact ih h (fun n hn => hnames n (List.dropLast_subset _ hn)) hrest
    | down name =>
      refine ih h (fun n hn => ?_) hrest
      rcases List.mem_append.1 hn with hn | hn
      · exact hnames n hn
      · rw [List.mem_singleton.1 hn]
        exact hsteps name List.mem_cons_self

/-- The target of an expression is folded from names that are loose, if those of the leaf are. -/
theorem isFolded_of_resolve {expr : String} {leaf p : Path} (h : resolve expr leaf = .ok p)
    (hleaf : ∀ n ∈ leaf.names, IsLoose n) : p.IsFolded := by
  rw [resolve] at h
  split at h
  · cases h
  · split at h
    · cases h
    · cases h
    · next names hne hwalk =>
      obtain rfl := Except.ok.inj h
      refine ⟨names, hne, forall_of_walk hwalk (fun n hn => ?_) (fun n hn => ?_), rfl⟩
      · split at hn
        · cases hn
        · exact hleaf n hn
      · obtain ⟨t, ht, hstep⟩ := List.mem_map.1 hn
        obtain ⟨hsub, hslash⟩ := sublist_of_mem_pieces ht
        rw [Step.ofText] at hstep
        split at hstep
        · cases hstep
        · split at hstep
          · cases hstep
          · obtain rfl := Step.down.inj hstep
            have hname := (afterLast_sublist ':' (trim t)).trans (trim_sublist t)
            refine .of_sublist (hname.trans hsub) (fun c hc => ?_) (not_sublist_dropPredicates _)
            simpa using hslash c (hname.subset hc)

end Expression

end YangPartition
