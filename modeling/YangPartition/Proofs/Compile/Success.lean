import YangPartition.Proofs.Compile.Layout
import YangPartition.Proofs.Compile.Sound

/-!
# When a compilation comes to its end

Two things only stop a compilation: a name that no path can hold, and a second node that
would make the root container of a resource. Whether the second happens can be counted
for each resource by itself, without its containers and without its level stack.
-/

namespace YangPartition

/-! ### One resource -/

namespace Resource

variable {s : ResourceSet} {o : Options} {x y : Resource} {v : Visit}

/-- Whether a node makes the root container of a resource: the resource takes it, and it is a
container or list at the resource's own path. -/
def opensRoot (s : ResourceSet) (o : Options) (x : Resource) (v : Visit) : Bool :=
  x.takes s o v && x.isOwnNode v

theorem opensRoot_of_blank (h : y.blank = x.blank) : y.opensRoot s o = x.opensRoot s o := by
  funext v
  rw [opensRoot, opensRoot, takes_of_blank h, isOwnNode_of_blank h]

/-- Procedures, choices and cases make no root container, and neither does a value. -/
theorem opensRoot_iff (hlen : Owns s x.id v.path → x.path.length ≤ v.path.length) :
    x.opensRoot s o v = true ↔ v.decl.kind.isTransparent = false ∧ Owns s x.id v.path ∧
      x.leavesOut o v = false ∧ x.depthOf v.path = 0 ∧ v.decl.kind.isScalar = false := by
  rw [opensRoot, takes, isOwnNode]
  simp only [Bool.and_eq_true, decide_eq_true_eq, Bool.not_eq_true', beq_iff_eq]
  constructor
  · rintro ⟨⟨hown, hout⟩, heq, hbranch⟩
    exact ⟨Kind.isTransparent_of_isBranch hbranch, hown, hout,
      (depthOf_eq_zero_iff (hlen hown)).2 heq, Kind.isScalar_of_isBranch hbranch⟩
  · rintro ⟨hdata, hown, hout, hdepth, hscalar⟩
    exact ⟨⟨hown, hout⟩, (depthOf_eq_zero_iff (hlen hown)).1 hdepth,
      isBranch_of_placed hdata hscalar (ne_rpc_of_not_leavesOut hout)⟩

@[simp] theorem root?_abandon (x : Resource) (v : Visit) : (x.abandon v).root? = x.root? := by
  rw [abandon]
  split <;> rfl

@[simp] theorem root?_placeBelow (x : Resource) (v : Visit) (parent : Nat) (boundary : Bool)
    (ref? : Option Reference) : (x.placeBelow v parent boundary ref?).root? = x.root? :=
  root?_put

/-- A visit of a node that makes no root container succeeds and leaves the root as it is. -/
theorem see_of_not_opensRoot (hlen : Owns s x.id v.path → x.path.length ≤ v.path.length)
    (h : x.opensRoot s o v = false) : ∃ y, x.see s o v = .ok y ∧ y.root? = x.root? := by
  rw [Bool.eq_false_iff, ne_eq, opensRoot_iff hlen] at h
  rw [see, absorb]
  by_cases hboth : ¬ v.decl.kind.isTransparent = true ∧ Owns s x.id v.path
  · rw [if_pos hboth]
    by_cases hout : x.leavesOut o v = true
    · rw [if_pos hout]
      exact ⟨_, rfl, root?_abandon x v⟩
    rw [if_neg hout]
    by_cases hdepth : x.depthOf v.path = 0
    · rw [if_pos hdepth]
      have hscalar : v.decl.kind.isScalar = true := by
        by_contra hscalar
        exact h ⟨by simpa using hboth.1, hboth.2, by simpa using hout, hdepth,
          by simpa using hscalar⟩
      rw [if_pos hscalar]
      exact ⟨x, rfl, rfl⟩
    rw [if_neg hdepth]
    cases x.parentFor? v with
    | none => exact ⟨_, rfl, root?_abandon x v⟩
    | some parent => exact ⟨_, rfl, root?_placeBelow ..⟩
  · rw [if_neg hboth]
    exact ⟨x, rfl, rfl⟩

/-- A visit of a node that makes a root container succeeds when there is none. -/
theorem see_of_opensRoot (hlen : Owns s x.id v.path → x.path.length ≤ v.path.length)
    (h : x.opensRoot s o v = true) :
    x.see s o v =
      if x.root?.isSome then
        .error (.rootDefinedAgain (v.decl.moduleName?.getD "") v.path.nameText)
      else .ok (x.placeRoot v (s.isBoundary x.id v.path)) := by
  obtain ⟨hdata, hown, hout, hdepth, hscalar⟩ := (opensRoot_iff hlen).1 h
  rw [see, if_pos ⟨by simp [hdata], hown⟩, absorb, hout, if_neg Bool.false_ne_true, if_pos hdepth,
    hscalar, if_neg Bool.false_ne_true]

/-- The number of root containers that a resource has, or would have after some visits. -/
def rootCount (s : ResourceSet) (o : Options) (x : Resource) (vs : List Visit) : Nat :=
  x.root?.isSome.toNat + vs.countP (x.opensRoot s o)

/-- After a visit that succeeds, all succeed if the rest does. -/
theorem exists_seeAll_cons_iff {vs : List Visit} (hy : x.see s o v = .ok y) :
    (∃ z, x.seeAll s o (v :: vs) = .ok z) ↔ ∃ z, y.seeAll s o vs = .ok z := by
  simp only [seeAll_cons_eq_ok, hy, Except.ok.injEq, exists_eq_left']

/-- Visits succeed exactly when they make no second root container. -/
theorem exists_seeAll_iff (hs : s.Instantiated) (hx : s.get? x.id = some x.blank)
    (vs : List Visit) : (∃ y, x.seeAll s o vs = .ok y) ↔ x.rootCount s o vs ≤ 1 := by
  induction vs generalizing x with
  | nil =>
    have : x.root?.isSome.toNat ≤ 1 := Bool.toNat_le _
    exact iff_of_true ⟨x, rfl⟩ this
  | cons v vs ih =>
    have hlen := length_le_of_owns (p := v.path) hs hx
    have hstep : ∀ {y}, x.see s o v = .ok y → s.get? y.id = some y.blank ∧
        y.opensRoot s o = x.opensRoot s o := by
      intro y hy
      have hblank := blank_of_see hy
      exact ⟨get?_of_blank hblank hx, opensRoot_of_blank hblank⟩
    rw [rootCount, List.countP_cons]
    cases hopens : x.opensRoot s o v with
    | false =>
      obtain ⟨y, hy, hroot⟩ := see_of_not_opensRoot hlen hopens
      obtain ⟨hget, hsame⟩ := hstep hy
      have hcount : y.rootCount s o vs = x.root?.isSome.toNat + vs.countP (x.opensRoot s o) := by
        rw [rootCount, hroot, hsame]
      rw [if_neg Bool.false_ne_true, Nat.add_zero, ← hcount, ← ih hget, exists_seeAll_cons_iff hy]
    | true =>
      have hsee := see_of_opensRoot hlen hopens
      rw [if_pos rfl]
      cases hroot : x.root?.isSome with
      | true =>
        rw [hroot, if_pos rfl] at hsee
        refine iff_of_false ?_ (by rw [Bool.toNat_true]; omega)
        rintro ⟨z, hz⟩
        obtain ⟨y, hy, -⟩ := seeAll_cons_eq_ok.1 hz
        rw [hsee] at hy
        cases hy
      | false =>
        rw [hroot, if_neg Bool.false_ne_true] at hsee
        obtain ⟨hget, hsame⟩ := hstep hsee
        have hcount : (x.placeRoot v (s.isBoundary x.id v.path)).rootCount s o vs =
            false.toNat + (vs.countP (x.opensRoot s o) + 1) := by
          rw [rootCount, hsame, Bool.toNat_false, Nat.zero_add, Nat.add_comm]
          rfl
        rw [← hcount, ← ih hget, exists_seeAll_cons_iff hsee]

end Resource

/-! ### The whole run -/

namespace Run

variable {s : ResourceSet} {o : Options} {r : Run} {v : Visit}

/-- A visit succeeds exactly when the name can stand in a path and the visit succeeds for every
resource. -/
theorem exists_visit_iff (hs : s.Instantiated) (hr : r.set.blank = s) :
    (∃ r', r.visit o v = .ok r') ↔
      (v.decl.kind.isTransparent = false → v.decl.hasPathName = true) ∧
        ∀ {id x}, r.set.get? id = some x → ∃ y, x.see s o v = .ok y := by
  constructor
  · rintro ⟨r', h⟩
    refine ⟨fun hdata => ?_, fun {id x} hx => ?_⟩
    · rw [visit_eq hr, hdata, if_neg Bool.false_ne_true] at h
      split at h
      · cases h
      · next hname => simpa using hname
    · obtain ⟨-, hsee⟩ := see_of_visit hs hr h
      obtain ⟨y, hy, -⟩ := hsee hx
      exact ⟨y, hy⟩
  · rintro ⟨hname, hsee⟩
    rw [visit_eq hr]
    by_cases hdata : v.decl.kind.isTransparent = true
    · rw [if_pos hdata]
      exact ⟨_, rfl⟩
    rw [if_neg hdata, hname (by simpa using hdata), Bool.not_true, if_neg Bool.false_ne_true]
    cases hbest : r.set.bestMatch? v.path with
    | none => exact ⟨_, rfl⟩
    | some x =>
      simp only
      split
      · exact ⟨_, rfl⟩
      next hout =>
      rw [place_eq (show (r.count .wanted).set.blank = s from hr)]
      split
      next hdepth =>
        split
        · exact ⟨_, rfl⟩
        next hscalar =>
        split
        · -- the second root container is one for the resource too
          next hroot =>
          obtain ⟨y, hy⟩ := hsee (hs.get?_of_bestMatch? hr hbest)
          have hown : Resource.Owns s x.id v.path := by
            rw [Resource.Owns, ← hr, ResourceSet.bestMatch?_blank, hbest]
            rfl
          rw [Resource.see, if_pos ⟨hdata, hown⟩, Resource.absorb, if_neg hout, if_pos hdepth,
            if_neg hscalar, if_pos hroot] at hy
          cases hy
        · exact ⟨_, rfl⟩
      · split
        · exact ⟨_, rfl⟩
        · exact ⟨_, rfl⟩

/-- A run comes to its end exactly when all names can stand in paths and all visits succeed for
every resource. -/
theorem exists_visitAll_iff (hs : s.Instantiated) (hr : r.set.blank = s) (vs : List Visit) :
    (∃ r', Run.visitAll o r vs = (r', none)) ↔
      (∀ v ∈ vs, v.decl.kind.isTransparent = false → v.decl.hasPathName = true) ∧
        ∀ {id x}, r.set.get? id = some x → ∃ y, x.seeAll s o vs = .ok y := by
  induction vs generalizing r with
  | nil => exact iff_of_true ⟨r, rfl⟩ ⟨by simp, fun {_ x} _ => ⟨x, rfl⟩⟩
  | cons v vs ih =>
    rw [List.forall_mem_cons]
    constructor
    · rintro ⟨r', h⟩
      rw [visitAll] at h
      split at h
      · next r₁ hr₁ =>
        obtain ⟨hname, -⟩ := (exists_visit_iff hs hr).1 ⟨r₁, hr₁⟩
        obtain ⟨hblank, hsee⟩ := see_of_visit hs hr hr₁
        obtain ⟨hnames, hall⟩ := (ih hblank).1 ⟨r', h⟩
        refine ⟨⟨hname, hnames⟩, fun {id x} hx => ?_⟩
        obtain ⟨y, hy, hget⟩ := hsee hx
        exact (Resource.exists_seeAll_cons_iff hy).2 (hall hget)
      · cases (Prod.mk.inj h).2
    · rintro ⟨⟨hname, hnames⟩, hall⟩
      have hfirst : ∃ r₁, r.visit o v = .ok r₁ := by
        refine (exists_visit_iff hs hr).2 ⟨hname, fun {id x} hx => ?_⟩
        obtain ⟨z, hz⟩ := hall hx
        obtain ⟨y, hy, -⟩ := Resource.seeAll_cons_eq_ok.1 hz
        exact ⟨y, hy⟩
      obtain ⟨r₁, hr₁⟩ := hfirst
      obtain ⟨hblank, -⟩ := see_of_visit hs hr hr₁
      rw [visitAll, hr₁]
      refine (ih hblank).2 ⟨hnames, fun {id y} hy => ?_⟩
      obtain ⟨x, hx, hsee⟩ := exists_see_of_visit hs hr hr₁ hy
      exact (Resource.exists_seeAll_cons_iff hsee).1 (hall hx)

end Run

namespace ResourceSet

variable {s : ResourceSet} {o : Options}

/-- Compilation into a fresh set comes to its end exactly when all names can stand in paths and
no resource gets a second root container. -/
theorem exists_compile_iff (hs : s.Instantiated) (f : Forest) :
    (∃ t stats, s.compile o f = (t, .ok stats)) ↔
      (∀ v ∈ f.visits, v.decl.kind.isTransparent = false → v.decl.hasPathName = true) ∧
        ∀ {id x}, s.get? id = some x → (x.started s).rootCount s o f.visits ≤ 1 := by
  have hcompile : (∃ t stats, s.compile o f = (t, .ok stats)) ↔
      ∃ r, Run.visitAll o { set := s.prepared } f.visits = (r, none) := by
    rw [compile]
    constructor
    · rintro ⟨t, stats, h⟩
      split at h
      · next r hr => exact ⟨r, hr⟩
      · cases (Prod.mk.inj h).2
    · rintro ⟨r, hr⟩
      rw [hr]
      exact ⟨_, _, rfl⟩
  have hstarted : ∀ {id x}, s.get? id = some x →
      s.get? (x.started s).id = some (x.started s).blank := fun hx =>
    Resource.get?_of_blank (Resource.blank_started s _) (hs.get?_self hs.blank hx)
  rw [hcompile, Run.exists_visitAll_iff hs (Forest.blank_prepared hs.blank)]
  refine and_congr_right fun _ => ⟨fun hall {id x} hx => ?_, fun hall {id y} hy => ?_⟩
  · exact (Resource.exists_seeAll_iff hs (hstarted hx) _).1
      (hall (Forest.get?_prepared hs hs.blank hx))
  · obtain ⟨x, hx, -⟩ := exists_get?_of_blank hs.blank (Forest.blank_prepared hs.blank) hy
    obtain rfl := Option.some.inj ((Forest.get?_prepared hs hs.blank hx).symm.trans hy)
    exact (Resource.exists_seeAll_iff hs (hstarted hx) _).2 (hall hx)

end ResourceSet

end YangPartition
