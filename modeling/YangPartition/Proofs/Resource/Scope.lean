import YangPartition.Proofs.Compile.Step
import YangPartition.Proofs.Path.Folded

/-!
# Where references lead

A reference stays inside its resource when its target belongs to it. Otherwise it leads to the
declared resource with the longest path above the target, or to none. In the whole schema every
target belongs to the one resource that is compiled, so nothing leads outside. The target is folded: it
stops at the node above the leaf, and this node has the owner of the leaf unless a resource is
rooted at the leaf itself.
-/

namespace YangPartition

/-! ### Folded targets -/

namespace Path

/-- Folding takes the last name away where there is one above it. -/
theorem names_foldKey {p : Path} (h : 2 ≤ p.length) : p.foldKey.names = p.names.dropLast := by
  rw [length] at h
  obtain ⟨owners, leaf, helems⟩ := (List.eq_nil_or_concat p.elems).resolve_left (by
    intro hnil
    rw [hnil] at h
    simp at h)
  obtain ⟨above, owner, rfl⟩ := (List.eq_nil_or_concat owners).resolve_left (by
    rintro rfl
    rw [helems] at h
    simp at h)
  have helems' : p.elems = above ++ [owner, leaf] := by simpa using helems
  rw [names_dropLast helems', foldKey_eq helems', names, List.map_append, List.map_singleton,
    Elem.name_holding]

/-- A path of one element is not folded. -/
theorem foldKey_of_length_lt {p : Path} (h : p.length < 2) : p.foldKey = p := by
  obtain ⟨elems⟩ := p
  match elems with
  | [] => rfl
  | [_] => rfl
  | _ :: _ :: rest =>
    rw [length, List.length_cons, List.length_cons] at h
    omega

/-- The names above a folded path are those above the path itself, but for all its names. -/
theorem prefix_foldKey_iff {p : Path} (h : 2 ≤ p.length) (names : List String) :
    names <+: p.foldKey.names ↔ names <+: p.names ∧ names ≠ p.names := by
  have hne : p.names ≠ [] := by
    intro hnil
    rw [← length_names, hnil] at h
    cases h
  rw [names_foldKey h]
  constructor
  · intro hpre
    refine ⟨hpre.trans (List.dropLast_prefix _), fun heq => ?_⟩
    have hlen := hpre.length_le
    have hpos := List.length_pos_iff.2 hne
    rw [heq, List.length_dropLast] at hlen
    omega
  · rintro ⟨hpre, hlt⟩
    have hlen : names.length ≤ p.names.dropLast.length := by
      have hle := hpre.length_le
      have hneq : names.length ≠ p.names.length := fun heq => hlt (hpre.eq_of_length heq)
      rw [List.length_dropLast]
      omega
    exact List.prefix_of_prefix_length_le hpre (List.dropLast_prefix _) hlen

end Path

namespace ResourceSet

/-- A search looks at the resources above the path only. -/
theorem longest_congr (beats : Nat → Nat → Bool) {p q : Path} {rs : List Resource}
    (h : ∀ r ∈ rs, r.path.isAbove q = r.path.isAbove p) :
    longest beats q rs = longest beats p rs := by
  induction rs using List.reverseRecOn with
  | nil => rfl
  | append_singleton rs r ih =>
    rw [longest_append, longest_append, ih fun a ha => h a (List.mem_append_left _ ha),
      h r (List.mem_append_right _ (List.mem_singleton_self r))]

/-- Among resources with different names the search finds the same for a folded path, unless one of
them is rooted at the path itself. -/
theorem longest_foldKey_iff {beats : Nat → Nat → Bool} (hb : PrefersLonger beats) {p : Path}
    (hp : 2 ≤ p.length) {rs : List Resource}
    (hd : rs.Pairwise fun a b => a.path.names ≠ b.path.names) :
    longest beats p.foldKey rs = longest beats p rs ↔ ∀ r ∈ rs, r.path.names ≠ p.names := by
  constructor
  · intro hsame r hr hroot
    -- the longest is rooted at the path, and so is not above the folded one
    have hlongest := isLongest_longest hb p hd
    have hfolded := isLongest_longest hb p.foldKey hd
    rw [hsame] at hfolded
    cases hfound : longest beats p rs with
    | none =>
      rw [hfound] at hlongest
      exact hlongest r hr (hroot ▸ List.prefix_rfl)
    | some b =>
      rw [hfound] at hlongest hfolded
      have hbr : b = r := by
        by_contra hne
        have hlt := hlongest.2.2 r hr (hroot ▸ List.prefix_rfl) (Ne.symm hne)
        have hle := hlongest.2.1.length_le
        rw [← hroot, Path.length_names, Path.length_names] at hle
        omega
      rw [hbr] at hfolded
      exact ((Path.prefix_foldKey_iff hp _).1 hfolded.2.1).2 hroot
  · intro hroot
    refine longest_congr beats fun r hr => Bool.eq_iff_iff.2 ?_
    rw [Path.isAbove_iff, Path.isAbove_iff, Path.prefix_foldKey_iff hp]
    exact and_iff_left (hroot r hr)

end ResourceSet

/-! ### Scopes -/

namespace Reference

open ResourceSet

variable {s : ResourceSet} {x : Resource} {p : Path}

/-- The written names of a leaf decide what the map states about it. -/
theorem get?_congr_names (o : Overrides) {leaf leaf' : Path} (h : leaf'.names = leaf.names) :
    o.get? leaf' = o.get? leaf := by
  have htext : leaf'.nameText = leaf.nameText := by
    rw [← String.toList_inj, Path.toList_nameText, Path.toList_nameText, h]
  rw [Overrides.get?, Overrides.get?, htext]

/-- A leaf refers to what the map states about it, and else to what its expression leads to. -/
theorem target?_eq_some_iff (o : Overrides) (leaf : Path) (d : Declaration) (target : Path) :
    target? o leaf d = some target ↔ o.get? leaf = some target ∨ (o.get? leaf = none ∧
      ∃ expr, d.reference? = some expr ∧ Expression.resolve expr leaf = .ok target) := by
  simp only [target?, Option.or_eq_some_iff, Option.bind_eq_some_iff, except_toOption_eq_some]

/-- A leaf refers to nothing when the map states nothing about it and no expression of it leads
anywhere. -/
theorem target?_eq_none_iff (o : Overrides) (leaf : Path) (d : Declaration) :
    target? o leaf d = none ↔ o.get? leaf = none ∧
      ∀ expr, d.reference? = some expr → ∃ e, Expression.resolve expr leaf = .error e := by
  simp only [target?, Option.or_eq_none_iff, Option.bind_eq_none_iff, except_toOption_eq_none]

/-- Two compiled resources of one number are the same. -/
theorem eq_of_active (hs : s.Instantiated) {y : Resource} (hx : x ∈ s.active) (hy : y ∈ s.active)
    (hid : y.id = x.id) : y = x := by
  have hsame := hs.get?_of_mem hs.blank (mem_toList_of_active hy)
  rw [hid, hs.get?_of_mem hs.blank (mem_toList_of_active hx)] at hsame
  exact (Option.some.inj hsame).symm

/-- A reference stays inside the resource that owns its target. -/
theorem scopeOf_eq_within_iff (hs : s.Instantiated) (hx : x ∈ s.active) :
    scopeOf s x.id p = .within ↔ IsLongest p s.active (some x) := by
  rw [← hs.bestMatch?_eq_iff p (some x), scopeOf]
  cases hbest : s.bestMatch? p with
  | none => simp
  | some b =>
    by_cases hid : b.id = x.id
    · have hbx := eq_of_active hs hx (mem_of_longest hbest) hid
      simp [hbx]
    · have hbx : b ≠ x := fun h => hid (by rw [h])
      simp [hid, hbx]

/-- In the whole schema all references stay inside. -/
theorem scopeOf_full (hs : s.Instantiated) (hmode : s.mode = .full) (hx : x ∈ s.active) (p : Path) :
    scopeOf s x.id p = .within := by
  obtain ⟨top, -, hpath, hactive⟩ := hs.active_full hmode
  rw [scopeOf_eq_within_iff hs hx, hactive]
  rw [hactive, List.mem_singleton] at hx
  refine ⟨List.mem_singleton.2 hx, ?_, fun r hr _ hne => ?_⟩
  · rw [hx, hpath]
    exact List.nil_prefix
  · exact absurd ((List.mem_singleton.1 hr).trans hx.symm) hne

/-- Among declared resources a reference leads to the one with the longest path above its target,
unless this is the resource it comes from. -/
theorem scopeOf_declared (hs : s.Instantiated) (hmode : s.mode = .declared) :
    (∀ t, scopeOf s x.id p = .outside (some t) ↔
      t ≠ x.id ∧ ∃ y, y.id = t ∧ IsLongest p s.declared (some y)) ∧
    (scopeOf s x.id p = .outside none ↔ IsLongest p s.declared none) := by
  have hactive : s.active = s.declared := by rw [active, hmode]
  have howner : s.owner? p = s.bestMatch? p :=
    (hs.isLongest_owner? p).unique (hactive ▸ hs.isLongest_bestMatch? p)
  have hlongest := hs.bestMatch?_eq_iff p
  rw [hactive] at hlongest
  simp only [← hlongest]
  rw [scopeOf]
  simp only [howner, Option.or_self]
  cases hbest : s.bestMatch? p with
  | none => simp
  | some b =>
    by_cases hid : b.id = x.id
    · simp [hid, eq_comm]
    · simp only [Option.map_some, Option.some.injEq, hid, if_false, Scope.outside.injEq]
      constructor
      · intro t
        constructor
        · rintro rfl
          exact ⟨hid, b, rfl, rfl⟩
        · rintro ⟨-, y, rfl, rfl⟩
          rfl
      · simp

/-- A reference leads outside among declared resources only, and there to the one with the longest
path above its target, unless this is the resource it comes from. -/
theorem scopeOf_eq_outside_iff (hs : s.Instantiated) (hx : x ∈ s.active) :
    (∀ t, scopeOf s x.id p = .outside (some t) ↔ s.mode = .declared ∧ t ≠ x.id ∧
      ∃ y, y.id = t ∧ IsLongest p s.declared (some y)) ∧
    (scopeOf s x.id p = .outside none ↔ s.mode = .declared ∧ IsLongest p s.declared none) := by
  cases hmode : s.mode with
  | declared =>
    obtain ⟨hsome, hnone⟩ := scopeOf_declared (x := x) (p := p) hs hmode
    exact ⟨fun t => by rw [hsome, and_iff_right rfl], by rw [hnone, and_iff_right rfl]⟩
  | full => simp [scopeOf_full hs hmode hx]

end Reference

/-! ### The result -/

namespace ResourceSet

/-- What a leaf of a compiled resource refers to and where that is. It refers to nothing exactly
when the map states nothing about its names and it has no expression that leads anywhere; what the
map states goes before the expression. The reference stays inside exactly when the resource has the
longest path above the target. Among declared resources it leads outside to exactly the one with
the longest path above the target, if that is another one, and to none exactly when there is none
above; in the whole schema nothing leads outside. To fold the last name of a path changes the owner
of the path exactly when a resource is rooted at the path. -/
theorem reference_classified {m : ResourceMap} {mode : Mode} {s : ResourceSet}
    (hs : ofMap m mode = .ok s) (o : Overrides) {x : Resource} (hx : x ∈ s.active) (leaf : Path)
    (d : Declaration) :
    (∀ leaf', leaf'.names = leaf.names → o.get? leaf' = o.get? leaf) ∧
    (Reference.of? s o x.id leaf d = none ↔ o.get? leaf = none ∧
      ∀ expr, d.reference? = some expr → ∃ e, Expression.resolve expr leaf = .error e) ∧
    (∀ ref, Reference.of? s o x.id leaf d = some ref →
      ref.leaf = leaf ∧ ref.resolvedType? = none ∧
      (o.get? leaf = some ref.target ∨ (o.get? leaf = none ∧
        ∃ expr, d.reference? = some expr ∧ Expression.resolve expr leaf = .ok ref.target)) ∧
      (ref.scope = .within ↔ IsLongest ref.target s.active (some x)) ∧
      (∀ t, ref.scope = .outside (some t) ↔ mode = .declared ∧ t ≠ x.id ∧
        ∃ y, y.id = t ∧ IsLongest ref.target s.declared (some y)) ∧
      (ref.scope = .outside none ↔ mode = .declared ∧
        ∀ y ∈ s.declared, ¬ y.path.names <+: ref.target.names) ∧
      ref.scope ≠ .outside (some x.id) ∧
      (mode = .full → ref.scope = .within)) ∧
    (∀ p : Path, p.length < 2 → p.foldKey = p) ∧
    ∀ p : Path, 2 ≤ p.length →
      (s.bestMatch? p.foldKey = s.bestMatch? p ↔ ∀ r ∈ s.active, r.path.names ≠ p.names) ∧
      (s.owner? p.foldKey = s.owner? p ↔ ∀ r ∈ s.declared, r.path.names ≠ p.names) := by
  have hinst := instantiated_ofMap hs
  have hmode : s.mode = mode := (exists_root_ofMap hs).1
  refine ⟨fun leaf' => Reference.get?_congr_names o, ?_, fun ref href => ?_,
    fun p => Path.foldKey_of_length_lt, fun p hp => ⟨?_, ?_⟩⟩
  · rw [Reference.of?, Option.map_eq_none_iff]
    exact Reference.target?_eq_none_iff o leaf d
  · obtain ⟨target, htarget, rfl⟩ := Option.map_eq_some_iff.1 href
    have hwithin := Reference.scopeOf_eq_within_iff (p := target) hinst hx
    obtain ⟨hsome, hnone⟩ := Reference.scopeOf_eq_outside_iff (p := target) hinst hx
    rw [hmode] at hsome hnone
    refine ⟨rfl, rfl, (Reference.target?_eq_some_iff ..).1 htarget, hwithin, hsome, hnone, ?_, ?_⟩
    · exact fun h => ((hsome x.id).1 h).2.1 rfl
    · exact fun h => Reference.scopeOf_full hinst (hmode.trans h) hx target
  · exact longest_foldKey_iff prefersLonger_lt hp hinst.active_distinct
  · exact longest_foldKey_iff prefersLonger_le hp hinst.distinct

/-- A leaf that refers to a leaf of a resource further down; and a leaf at which a resource is
rooted has another owner than the node above. -/
theorem reference_classified_rooted :
    let d : Declaration := { name := "x", kind := .leaf, reference? := some "/m:a/b[k='1']/k" }
    ∃ s x ref,
      ofMap { declared := [("/a", { hierarchy? := some [("b", {})] })] } .declared = .ok s ∧
      x ∈ s.active ∧ Reference.of? s {} x.id (.ofNames ["a", "x"]) d = some ref ∧
      ref.scope = .outside (some 2) ∧ x.id ≠ 2 ∧
      (∃ y, y.id = 2 ∧ IsLongest ref.target s.declared (some y)) ∧
      s.bestMatch? (Path.ofNames ["a", "b"]).foldKey ≠ s.bestMatch? (.ofNames ["a", "b"]) := by
  intro d
  obtain ⟨s, hs, htest⟩ := exists_ok_of_any
    (p := fun s => (s.active.any fun x =>
        (Reference.of? s {} x.id (.ofNames ["a", "x"]) d).any fun ref =>
          ref.scope == .outside (some 2)) &&
      s.active.any fun r => r.path.names == ["a", "b"])
    (show (ofMap { declared := [("/a", { hierarchy? := some [("b", {})] })] }
      .declared).toOption.any _ = true by decide +kernel)
  simp only [Bool.and_eq_true, List.any_eq_true, Option.any_eq_true, beq_iff_eq] at htest
  obtain ⟨⟨x, hx, ref, href, hscope⟩, r, hr, hroot⟩ := htest
  obtain ⟨-, -, hsome, -, hfold⟩ := reference_classified hs {} hx (.ofNames ["a", "x"]) d
  obtain ⟨-, -, -, -, houtside, -⟩ := hsome ref href
  obtain ⟨-, hne, hlongest⟩ := (houtside 2).1 hscope
  refine ⟨s, x, ref, hs, hx, href, hscope, hne.symm, hlongest, fun hsame => ?_⟩
  exact (hfold (.ofNames ["a", "b"]) (by decide)).1.1 hsame r hr hroot

/-- In the whole schema a reference stays inside although a declared resource has the longest path
above its target, and so does one with no declared resource above its target. So neither of the two
statements on where a reference leads outside holds there without its condition on the mode. -/
theorem reference_within_below_declared :
    let leadTo (expr : String) : Declaration :=
      { name := "x", kind := .leaf, reference? := some expr }
    ∃ s x y ref ref', ofMap { declared := [("/a", {})] } .full = .ok s ∧ x ∈ s.active ∧
      Reference.of? s {} x.id (.ofNames ["x"]) (leadTo "/a/x") = some ref ∧ ref.scope = .within ∧
      ¬ (ref.scope = .outside (some y.id) ↔
        y.id ≠ x.id ∧ IsLongest ref.target s.declared (some y)) ∧
      Reference.of? s {} x.id (.ofNames ["x"]) (leadTo "/z/x") = some ref' ∧ ref'.scope = .within ∧
      ¬ (ref'.scope = .outside none ↔
        ∀ y ∈ s.declared, ¬ y.path.names <+: ref'.target.names) := by
  intro leadTo
  obtain ⟨s, hs, htest⟩ := exists_ok_of_any
    (p := fun s =>
      let leads (x : Resource) (expr : String) (names : List String) : Bool :=
        (Reference.of? s {} x.id (.ofNames ["x"]) (leadTo expr)).any fun ref =>
          ref.target.names == names && ref.scope == .within
      (s.active.any fun x => x.id == 0 && leads x "/a/x" ["a"] && leads x "/z/x" ["z"]) &&
        s.declared.map (fun y => (y.id, y.path.names)) == [(1, ["a"])])
    (show (ofMap { declared := [("/a", {})] } .full).toOption.any _ = true by decide +kernel)
  simp only [Bool.and_eq_true, List.any_eq_true, Option.any_eq_true, beq_iff_eq] at htest
  obtain ⟨⟨x, hx, ⟨hid, ref, href, htarget, hscope⟩, ref', href', htarget', hscope'⟩, hdeclared⟩ :=
    htest
  obtain ⟨y, hy, hroot⟩ := List.map_eq_singleton_iff.1 hdeclared
  obtain ⟨hid', hpath⟩ := Prod.mk.inj hroot
  have hsame : y.path.names = ref.target.names := hpath.trans htarget.symm
  have hlongest : IsLongest ref.target s.declared (some y) := by
    rw [hy]
    exact ⟨List.mem_singleton_self y, hsame ▸ List.prefix_rfl,
      fun r hr _ hne => absurd (List.mem_singleton.1 hr) hne⟩
  have hnone : ∀ r ∈ s.declared, ¬ r.path.names <+: ref'.target.names := by
    intro r hr
    rw [hy] at hr
    rw [List.mem_singleton.1 hr, hpath, htarget']
    decide
  refine ⟨s, x, y, ref, ref', hs, hx, href, hscope, fun h => ?_, href', hscope', fun h => ?_⟩
  · have houtside := h.2 ⟨by omega, hlongest⟩
    rw [hscope] at houtside
    cases houtside
  · have houtside := h.2 hnone
    rw [hscope'] at houtside
    cases houtside

end ResourceSet

end YangPartition
