import YangPartition.Proofs.Compile.Attachment
import YangPartition.Proofs.Compile.Success

/-!
# When a compilation fails

A compilation fails at the name of a data node that no path can hold, and at the second container
or list that stands where a declared resource is rooted. Both can be told from the forest and the
map. When the whole schema is compiled, its top is no node, so only names matter.
-/

namespace YangPartition

/-- Whether a node makes the root container of a declared resource, judged by the map alone: a
container or list at the path of the resource, which the resource does not exclude; a read-only
one only if state is wanted. -/
structure Visit.DefinesRoot (o : Options) (r : Resource) (v : Visit) : Prop where
  /-- A container or list. -/
  branch : v.decl.kind.isBranch = true
  /-- It stands where the resource is rooted. -/
  rooted : v.path.names = r.path.names
  /-- The resource does not exclude its own path. -/
  included : ∀ p ∈ r.excludes, ¬ p.names <+: r.path.names
  /-- It is no state, or state is wanted. -/
  wanted : v.decl.readOnly = true → o.includeState = true

/-- A name that no path can hold is empty or has a slash or bracket in it. -/
theorem Declaration.hasPathName_eq_false_iff (d : Declaration) :
    d.hasPathName = false ↔ d.name = "" ∨ ∃ c ∈ d.name.toList, c = '/' ∨ c = '[' ∨ c = ']' := by
  rw [hasPathName, Bool.and_eq_false_iff, Bool.not_eq_false', Bool.not_eq_false', List.any_eq_true,
    String.isEmpty_iff]
  simp only [Bool.or_eq_true, beq_iff_eq, or_assoc]

/-- Two members of a list, at different places, have a property when it is counted twice. -/
theorem two_le_countP_iff {α : Type} (p : α → Bool) (l : List α) :
    2 ≤ l.countP p ↔ ∃ a b, [a, b].Sublist l ∧ p a = true ∧ p b = true := by
  rw [List.countP_eq_length_filter]
  constructor
  · intro h
    match hfilter : l.filter p with
    | [] | [_] => simp [hfilter] at h
    | a :: b :: rest =>
      have hsub : (a :: b :: rest).Sublist l := hfilter ▸ List.filter_sublist
      have hall : ∀ c ∈ a :: b :: rest, p c = true := fun c hc =>
        List.of_mem_filter (hfilter ▸ hc)
      refine ⟨a, b, .trans ?_ hsub, hall a (by simp), hall b (by simp)⟩
      exact .cons_cons a (.cons_cons b (List.nil_sublist rest))
  · rintro ⟨a, b, hsub, ha, hb⟩
    have := (hsub.filter p).length_le
    rwa [List.filter_cons_of_pos ha, List.filter_cons_of_pos hb] at this

namespace Resource

variable {s : ResourceSet} {o : Options} {x : Resource} {v : Visit}

/-- The top of the whole schema has no node, so only declared resources are rooted at nodes. -/
theorem mode_of_rooted (hs : s.Instantiated) (hactive : x ∈ s.active)
    (hrooted : v.path.names = x.path.names) : s.mode = .declared := by
  cases hmode : s.mode with
  | declared => rfl
  | full =>
    obtain ⟨r, -, hroot, hall⟩ := hs.active_full hmode
    rw [hall, List.mem_singleton] at hactive
    rw [hactive, hroot, Visit.names_path] at hrooted
    simp at hrooted

/-- A resource that is not declared makes no root container of a node, and a declared one makes
those that the map says. -/
theorem opensRoot_iff_definesRoot (hs : s.Instantiated) {id : Nat} (hx : s.get? id = some x) :
    x.opensRoot s o v = true ↔ s.mode = .declared ∧ x ∈ s.declared ∧ v.DefinesRoot o x := by
  have hid := hs.id_eq hs.blank hx
  have hexcluded : x.excludes.any (·.isAbove v.path) = false ↔
      ∀ p ∈ x.excludes, ¬ p.names <+: v.path.names := by
    rw [List.any_eq_false]
    exact forall₂_congr fun p _ => not_congr (Path.isAbove_iff p v.path)
  rw [opensRoot, takes, isOwnNode, leavesOut]
  simp only [Bool.and_eq_true, decide_eq_true_eq, Bool.not_eq_true', Bool.or_eq_false_iff,
    beq_iff_eq, beq_eq_false_iff_ne, hexcluded, Bool.and_eq_false_iff, Bool.not_eq_false']
  constructor
  · rintro ⟨⟨hown, ⟨hincluded, -⟩, hwanted⟩, hlen, hbranch⟩
    obtain ⟨-, hactive, habove⟩ := hs.above_of_owns hs.blank hx (hid ▸ hown)
    rw [hs.blank_eq hx] at hactive
    have hrooted : v.path.names = x.path.names :=
      (habove.eq_of_length (by rw [Path.length_names, Path.length_names, hlen])).symm
    have hmode := mode_of_rooted hs hactive hrooted
    rw [ResourceSet.active, hmode] at hactive
    refine ⟨hmode, hactive, hbranch, hrooted, hrooted ▸ hincluded, fun hreadOnly => ?_⟩
    rcases hwanted with hno | hstate
    · rw [hreadOnly] at hno
      cases hno
    · exact hstate
  · rintro ⟨hmode, hdeclared, hbranch, hrooted, hincluded, hwanted⟩
    have hactive : x ∈ s.active := by
      rw [ResourceSet.active, hmode]
      exact hdeclared
    refine ⟨⟨?_, ⟨hrooted ▸ hincluded, fun hrpc => ?_⟩, ?_⟩, ?_, hbranch⟩
    · rw [Owns, hs.bestMatch?_of_rooted hactive hrooted.symm]
      rfl
    · rw [hrpc] at hbranch
      cases hbranch
    · by_cases hreadOnly : v.decl.readOnly = true
      · exact .inr (hwanted hreadOnly)
      · exact .inl (by simpa using hreadOnly)
    · have := congrArg List.length hrooted
      rwa [Path.length_names, Path.length_names] at this

end Resource

/-! ### Root containers that are made twice -/

namespace Forest

variable {s : ResourceSet} {o : Options} {f : Forest} {x : Resource}

theorem mem_visits_iff_site {v : Visit} :
    (v ∈ f.visits ∧ v.decl.kind.isTransparent = false) ↔ ∃ i ∈ f.sites, i.visit = v := by
  rw [← List.mem_map, ← filter_visits, List.mem_filter, Bool.not_eq_true']

/-- What concerns data nodes only is counted among the data nodes. -/
theorem countP_visits {p : Visit → Bool}
    (hp : ∀ v, p v = true → v.decl.kind.isTransparent = false) :
    f.visits.countP p = f.sites.countP fun i => p i.visit := by
  have hmap : (f.sites.countP fun i => p i.visit) = (f.sites.map (·.visit)).countP p :=
    List.countP_map.symm
  rw [hmap, ← filter_visits, List.countP_filter]
  refine List.countP_congr fun v _ => ?_
  rw [Bool.and_eq_true, Bool.not_eq_true']
  exact ⟨fun h => ⟨h, hp v h⟩, fun h => h.1⟩

/-- Whether two nodes of a forest define the root of a resource. -/
def DefinesTwice (o : Options) (r : Resource) (f : Forest) : Prop :=
  ∃ i j, [i, j].Sublist f.sites ∧ i.visit.DefinesRoot o r ∧ j.visit.DefinesRoot o r

/-- Before the first visit only the top of the whole schema has a container, and no node makes
another one for it. -/
theorem rootCount_started (hs : s.Instantiated) {id : Nat} (hx : s.get? id = some x)
    (vs : List Visit) : (x.started s).rootCount s o vs ≤ 1 ↔ vs.countP (x.opensRoot s o) ≤ 1 := by
  rw [Resource.rootCount, Resource.opensRoot_of_blank (Resource.blank_started s x),
    Resource.started]
  split
  · next htop =>
    have hnone : vs.countP (x.opensRoot s o) = 0 := by
      rw [List.countP_eq_zero]
      intro v _ hopens
      obtain ⟨hmode, -⟩ := (Resource.opensRoot_iff_definesRoot hs hx).1 hopens
      cases htop.1.symm.trans hmode
    rw [hnone, Nat.add_zero]
    exact iff_of_true (Bool.toNat_le _) (Nat.zero_le 1)
  · have hnone : x.root? = none := by
      rw [← hs.blank_eq hx]
      rfl
    rw [hnone, Option.isSome_none, Bool.toNat_false, Nat.zero_add]

/-- Only of a declared resource a second root container is made, and then two nodes define it. -/
theorem rootCount_gt_one_iff (hs : s.Instantiated) {id : Nat} (hx : s.get? id = some x) :
    ¬ (x.started s).rootCount s o f.visits ≤ 1 ↔
      s.mode = .declared ∧ x ∈ s.declared ∧ f.DefinesTwice o x := by
  have hiff : ∀ {v}, x.opensRoot s o v = true ↔ _ := Resource.opensRoot_iff_definesRoot hs hx
  have hdata : ∀ v, x.opensRoot s o v = true → v.decl.kind.isTransparent = false :=
    fun v hopens => Kind.isTransparent_of_isBranch (hiff.1 hopens).2.2.branch
  rw [rootCount_started hs hx, Nat.not_le, countP_visits hdata]
  refine (two_le_countP_iff _ _).trans ?_
  constructor
  · rintro ⟨i, j, hsub, hi, hj⟩
    obtain ⟨hmode, hmem, hi⟩ := hiff.1 hi
    exact ⟨hmode, hmem, i, j, hsub, hi, (hiff.1 hj).2.2⟩
  · rintro ⟨hmode, hmem, i, j, hsub, hi, hj⟩
    exact ⟨i, j, hsub, hiff.2 ⟨hmode, hmem, hi⟩, hiff.2 ⟨hmode, hmem, hj⟩⟩

end Forest

/-! ### Errors -/

namespace Run

variable {s : ResourceSet} {o : Options} {r r' : Run} {v : Visit} {e : Error}

/-- A visit fails at a data node, for its name or because it makes a root container again, and the
error names the node. -/
theorem error_of_visit (hs : s.Instantiated) (hr : r.set.blank = s) (h : r.visit o v = .error e) :
    v.decl.kind.isTransparent = false ∧
      (v.decl.hasPathName = false ∧
          e = .invalidNodeName (v.decl.moduleName?.getD "") v.decl.name v.below.nameText ∨
        ∃ id x, s.get? id = some x ∧ x.opensRoot s o v = true ∧
          e = .rootDefinedAgain (v.decl.moduleName?.getD "") v.path.nameText) := by
  rw [visit_eq hr] at h
  split at h
  · cases h
  next hdata =>
  have hdata : v.decl.kind.isTransparent = false := by simpa using hdata
  refine ⟨hdata, ?_⟩
  split at h
  · next hname => exact .inl ⟨by simpa using hname, (Except.error.inj h).symm⟩
  split at h
  · cases h
  next x hbest =>
  split at h
  · cases h
  next hout =>
  rw [place_eq (show (r.count .wanted).set.blank = s from hr)] at h
  split at h
  · next hdepth =>
    split at h
    · cases h
    next hscalar =>
    split at h
    · have hx := hs.get?_of_bestMatch? hr hbest
      have hget : s.get? x.id = some x.blank := by
        rw [← hr, ResourceSet.get?_blank, hx, Option.map_some]
      have hown : Resource.Owns s x.id v.path := by
        rw [Resource.Owns, ← hr, ResourceSet.bestMatch?_blank, hbest]
        rfl
      have hopens : x.opensRoot s o v = true :=
        (Resource.opensRoot_iff (Resource.length_le_of_owns hs hget)).2
          ⟨hdata, hown, by simpa using hout, hdepth, by simpa using hscalar⟩
      refine .inr ⟨x.id, x.blank, hget, ?_, (Except.error.inj h).symm⟩
      exact (congrFun (Resource.opensRoot_of_blank (x := x) rfl) v).trans hopens
    · cases h
  · split at h <;> cases h

/-- A run fails at one of its visits. -/
theorem exists_visit_of_error (hs : s.Instantiated) (hr : r.set.blank = s) {vs : List Visit}
    (h : Run.visitAll o r vs = (r', some e)) :
    ∃ v ∈ vs, ∃ q : Run, q.set.blank = s ∧ q.visit o v = .error e := by
  induction vs generalizing r with
  | nil => cases (Prod.mk.inj h).2
  | cons v vs ih =>
    rw [visitAll] at h
    split at h
    · next q hq =>
      obtain ⟨u, hu, found⟩ := ih (see_of_visit hs hr hq).1 h
      exact ⟨u, List.mem_cons_of_mem v hu, found⟩
    · next e' he =>
      obtain rfl := Option.some.inj (Prod.mk.inj h).2
      exact ⟨v, List.mem_cons_self, r, hr, he⟩

end Run

namespace ResourceSet

variable {s : ResourceSet}

/-- The error of a compilation names a data node of the forest. -/
theorem Instantiated.error_of_compile (hs : s.Instantiated) {o : Options} {f : Forest}
    {t : ResourceSet} {e : Error} (h : s.compile o f = (t, .error e)) :
    ∃ i ∈ f.sites,
      (i.visit.decl.hasPathName = false ∧ e = .invalidNodeName (i.visit.decl.moduleName?.getD "")
        i.visit.decl.name i.visit.below.nameText) ∨
      (s.mode = .declared ∧ (∃ r ∈ s.declared, i.visit.DefinesRoot o r) ∧
        e = .rootDefinedAgain (i.visit.decl.moduleName?.getD "") i.visit.path.nameText) := by
  rw [compile] at h
  split at h
  · cases (Prod.mk.inj h).2
  next r e' hrun =>
  obtain rfl := Except.error.inj (Prod.mk.inj h).2
  obtain ⟨v, hv, q, hq, hvisit⟩ := Run.exists_visit_of_error hs (Forest.blank_prepared hs.blank) hrun
  obtain ⟨hdata, herror⟩ := Run.error_of_visit hs hq hvisit
  obtain ⟨i, hi, rfl⟩ := Forest.mem_visits_iff_site.1 ⟨hv, hdata⟩
  refine ⟨i, hi, herror.imp_right ?_⟩
  rintro ⟨id, x, hx, hopens, rfl⟩
  obtain ⟨hmode, hmem, hdefines⟩ := (Resource.opensRoot_iff_definesRoot hs hx).1 hopens
  exact ⟨hmode, ⟨x, hmem, hdefines⟩, rfl⟩

/-! ### The result -/

/-- Compilation fails exactly when a data node has a name that no path can hold or, if the declared
resources are compiled, when two containers or lists define the root of one of them. The error
names such a node. -/
theorem compile_fails_iff {m : ResourceMap} {mode : Mode} (hs : ofMap m mode = .ok s) (o : Options)
    (f : Forest) :
    ((∃ t e, s.compile o f = (t, .error e)) ↔
      (∃ i ∈ f.sites, i.visit.decl.name = "" ∨
        ∃ c ∈ i.visit.decl.name.toList, c = '/' ∨ c = '[' ∨ c = ']') ∨
      (mode = .declared ∧ ∃ r ∈ s.declared, ∃ i j, [i, j].Sublist f.sites ∧
        i.visit.DefinesRoot o r ∧ j.visit.DefinesRoot o r)) ∧
    ∀ t e, s.compile o f = (t, .error e) → ∃ i ∈ f.sites,
      (i.visit.decl.hasPathName = false ∧ e = .invalidNodeName (i.visit.decl.moduleName?.getD "")
        i.visit.decl.name i.visit.below.nameText) ∨
      (mode = .declared ∧ (∃ r ∈ s.declared, i.visit.DefinesRoot o r) ∧
        e = .rootDefinedAgain (i.visit.decl.moduleName?.getD "") i.visit.path.nameText) := by
  have hinst := instantiated_ofMap hs
  obtain rfl : s.mode = mode := (exists_root_ofMap hs).1
  refine ⟨?_, fun t e h => hinst.error_of_compile h⟩
  have hfails : (∃ t e, s.compile o f = (t, .error e)) ↔
      ¬ ∃ t stats, s.compile o f = (t, .ok stats) := by
    cases hresult : s.compile o f with
    | mk t result => cases result <;> simp
  rw [hfails, exists_compile_iff hinst, not_and_or]
  simp only [not_forall, exists_prop]
  refine or_congr ⟨?_, ?_⟩ ⟨?_, ?_⟩
  · rintro ⟨v, hv, hdata, hname⟩
    obtain ⟨i, hi, rfl⟩ := Forest.mem_visits_iff_site.1 ⟨hv, hdata⟩
    exact ⟨i, hi, (Declaration.hasPathName_eq_false_iff _).1 (by simpa using hname)⟩
  · rintro ⟨i, hi, hname⟩
    obtain ⟨hv, hdata⟩ := Forest.mem_visits_iff_site.2 ⟨i, hi, rfl⟩
    exact ⟨i.visit, hv, hdata, by simp [(Declaration.hasPathName_eq_false_iff _).2 hname]⟩
  · rintro ⟨id, x, hx, hcount⟩
    obtain ⟨hmode, hmem, htwice⟩ := (Forest.rootCount_gt_one_iff hinst hx).1 hcount
    exact ⟨hmode, x, hmem, htwice⟩
  · rintro ⟨hmode, r, hr, htwice⟩
    obtain ⟨i, hi⟩ := mem_declared_iff.1 hr
    exact ⟨_, r, hi, (Forest.rootCount_gt_one_iff hinst hi).2 ⟨hmode, hr, htwice⟩⟩

/-- Two cases of a choice with the root of a resource: the declared resources cannot be compiled,
the whole schema can. -/
theorem compile_fails_iff_cases :
    let case (name : String) : String × Node :=
      (name, ⟨{ name, kind := .case }, [("a", .ofKind .container "a")]⟩)
    let f : Forest := { modules := [{ name := "m", nodes :=
      [("h", ⟨{ name := "h", kind := .choice }, [case "i", case "j"]⟩)] }] }
    ∃ s u, ofMap { declared := [("/a", {})] } .declared = .ok s ∧
      ofMap { declared := [("/a", {})] } .full = .ok u ∧
      (∃ t e, s.compile {} f = (t, .error e)) ∧ ¬ ∃ t e, u.compile {} f = (t, .error e) := by
  intro case f
  obtain ⟨s, hs, htest⟩ := exists_ok_of_any
    (p := fun s => s.declared.any fun r => r.path.names == ["a"] && r.excludes.isEmpty)
    (show (ofMap { declared := [("/a", {})] } .declared).toOption.any _ = true by decide +kernel)
  obtain ⟨u, hu⟩ := exists_ok_of_isSome
    (show (ofMap { declared := [("/a", {})] } .full).toOption.isSome = true by decide +kernel)
  simp only [List.any_eq_true, Bool.and_eq_true, beq_iff_eq, List.isEmpty_iff] at htest
  obtain ⟨r, hr, hnames, hexcludes⟩ := htest
  have hsite : ∀ i ∈ f.sites, i = ⟨⟨.root, [], { name := "a", kind := .container }⟩, []⟩ := by
    decide
  have hdefines : ∀ i ∈ f.sites, i.visit.DefinesRoot {} r := by
    intro i hi
    obtain rfl := hsite i hi
    refine ⟨rfl, hnames.symm, fun p hp => ?_, fun hreadOnly => by cases hreadOnly⟩
    rw [hexcludes] at hp
    cases hp
  refine ⟨s, u, hs, hu, ?_, ?_⟩
  · refine (compile_fails_iff hs {} f).1.2 (.inr ⟨rfl, r, hr, _, _, List.Sublist.refl _, ?_, ?_⟩)
    · exact hdefines _ (by decide)
    · exact hdefines _ (by decide)
  · rw [(compile_fails_iff hu {} f).1]
    rintro (⟨i, hi, hname⟩ | ⟨hmode, -⟩)
    · obtain rfl := hsite i hi
      simp at hname
    · cases hmode

end ResourceSet

end YangPartition
