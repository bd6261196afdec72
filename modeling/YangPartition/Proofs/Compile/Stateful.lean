import YangPartition.Proofs.Compile.Attachment
import YangPartition.Proofs.Compile.History
import YangPartition.Proofs.Compile.Separation
import YangPartition.Proofs.Container.Marks

/-!
# Where state is

Compilation sets no mark, and it puts nothing read-only anywhere unless state is
wanted. So after a successful build the marked containers of the declared resources
are those with a read-only entry in them or further down.
-/

namespace YangPartition

/-- No mark has been set, and what is read-only is there only if it is wanted. -/
def Container.IsFresh (o : Options) (c : Container) : Prop :=
  c.hasState = false ∧ (o.includeState = false → ∀ e ∈ c.entries, e.readOnly = false)

/-! ### Compilation -/

section

variable {s : ResourceSet} {o : Options} {id : Nat} {v : Visit}

theorem Container.hasState_receive (c : Container) (place : Nat) :
    (c.receive s o id place v).hasState = c.hasState := by
  unfold receive
  cases Resource.referenceOf? s o id v with
  | none => cases v.decl.kind.hasContainer <;> rfl
  | some ref => cases v.decl.kind.hasContainer <;> rfl

theorem Container.hasState_made (parent? : Option Nat) :
    (made s o id parent? v).hasState = false := by
  rw [made]
  split <;> rfl

theorem Container.isFresh_made {parent? : Option Nat}
    (h : v.decl.kind = .leafList → o.includeState = false → v.decl.readOnly = false) :
    (made s o id parent? v).IsFresh o := by
  refine ⟨hasState_made parent?, fun hstate e he => ?_⟩
  obtain ⟨hkind, hvalue⟩ := mem_entries_made he
  rw [show e.readOnly = v.decl.readOnly from congrArg Entry.readOnly hvalue]
  exact h hkind hstate

theorem Container.IsFresh.receive {c : Container} (hc : c.IsFresh o)
    (h : o.includeState = false → v.decl.readOnly = false) (place : Nat) :
    (c.receive s o id place v).IsFresh o := by
  obtain ⟨e, hentries, hunlinked⟩ := entries_receive (s := s) (o := o) id c place v
  refine ⟨(hasState_receive c place).trans hc.1, fun hstate d hd => ?_⟩
  rw [hentries] at hd
  rcases List.mem_append.1 hd with hd | hd
  · exact hc.2 hstate d hd
  · rw [List.mem_singleton.1 hd,
      show e.readOnly = v.decl.readOnly from congrArg Entry.readOnly hunlinked]
    exact h hstate

end

namespace Resource

variable {s : ResourceSet} {o : Options} {x y : Resource} {tops : List Nat} {v : Visit}

/-- A resource takes read-only nodes only if state is wanted. -/
theorem readOnly_of_not_leavesOut (h : x.leavesOut o v = false) (hstate : o.includeState = false) :
    v.decl.readOnly = false := by
  unfold leavesOut at h
  rw [hstate] at h
  simp only [Bool.or_eq_false_iff, Bool.not_false, Bool.and_true] at h
  exact h.2

/-- No container that compilation has worked on is marked. -/
def IsFresh (o : Options) (x : Resource) : Prop :=
  ∀ c z, x.arena.get? c = some z → z.IsFresh o

end Resource

namespace ResourceSet

variable {s t : ResourceSet} {o : Options} {f : Forest} {stats : Stats}

/-- Compilation into resources of a map leaves no mark. -/
theorem isFresh_compile (hs : s.Instantiated) (h : s.compile o f = (t, .ok stats)) {id : Nat}
    {y : Resource} (hy : t.get? id = some y) : y.IsFresh o := by
  obtain ⟨x, hx, -⟩ := exists_get?_of_blank hs.blank (hs.blank_compile h) hy
  have hread : ∀ {v : Visit}, x.takes s o v = true → o.includeState = false →
      v.decl.readOnly = false := by
    exact fun htakes => Resource.readOnly_of_not_leavesOut (Resource.takes_iff.1 htakes).2
  intro c z hz
  refine hs.forall_containers h hx hy (P := Container.IsFresh o) ⟨rfl, fun _ e he => by cases he⟩
    (fun _ htakes _ => Container.isFresh_made fun _ => hread htakes)
    (fun _ htakes hw => hw.receive (hread htakes) _) hz

/-- While the declared resources are compiled the root resource stays empty. -/
theorem size_root_of_compile (hs : s.Instantiated) (hmode : s.mode = .declared)
    (h : s.compile o f = (t, .ok stats)) {y : Resource} (hy : t.get? Resource.rootId = some y) :
    y.arena.size = 0 := by
  obtain ⟨x, hx, -⟩ := exists_get?_of_blank hs.blank (hs.blank_compile h) hy
  obtain ⟨z, hz, hget⟩ := Forest.seeAll_of_compile hs hs.blank h hx
  obtain rfl := Option.some.inj (hy.symm.trans hget)
  have hnot : ∀ v ∈ f.visits, ¬ Resource.Owns s x.id v.path := by
    intro v _ hown
    rw [hs.id_eq hs.blank hx] at hown
    obtain ⟨-, hactive, -⟩ := hs.above_of_owns hs.blank hx hown
    rw [active, hmode, hs.blank_eq hx] at hactive
    refine (hs.writable x hactive).2 ?_
    rw [hs.path_root hs.blank hx]
    rfl
  have hstarted : x.started s = x := by
    rw [Resource.started, if_neg]
    rintro ⟨hfull, -⟩
    cases hmode.symm.trans hfull
  rw [hstarted, Resource.seeAll_of_not_owns hnot] at hz
  obtain rfl := Except.ok.inj hz
  show x.arena.size = 0
  rw [← hs.blank_eq hx]
  rfl

/-! ### The result -/

/-- Finishing declared resources marks the containers that hold state, and counts the marks. -/
theorem finish_declared (hmode : t.mode = .declared) :
    t.finish = (t.closeState, { stateful := t.closeState.markedCount }) := by
  rw [finish, resolveTypes, hmode]

theorem markedCount_eq_sum (t : ResourceSet) :
    t.markedCount = ((t.toList.filter fun x => !x.isRoot).map fun x =>
      {i | x.arena.isMarked i = true}.ncard).sum := by
  rw [markedCount, List.sum_eq_foldl]
  simp only [Arena.markedCount_eq_ncard]

/-- The marks that a build of declared resources leaves are those that closing sets for what is
read-only. -/
theorem marks_of_compile (hs : s.Instantiated) (hmode : s.mode = .declared)
    (h : s.compile o f = (t, .ok stats)) {id : Nat} {x : Resource}
    (hx : t.closeState.get? id = some x) :
    (∀ i, x.arena.isMarked i = true ↔ x.arena.HoldsReadOnly i) ∧
      (o.includeState = false → ∀ i, ¬ x.arena.HoldsReadOnly i) := by
  rw [get?, closeState, Array.getElem?_map] at hx
  obtain ⟨y, hy, rfl⟩ := Option.map_eq_some_iff.1 hx
  have hfresh := isFresh_compile hs h hy
  have hunmarked : ∀ i, y.arena.isMarked i = false := by
    intro i
    rw [← Bool.not_eq_true, Arena.isMarked_iff]
    rintro ⟨c, hc, hmarked⟩
    rw [(hfresh i c hc).1] at hmarked
    cases hmarked
  have hnone : o.includeState = false → ∀ i, ¬ y.arena.HoldsReadOnly i := by
    rintro hstate i ⟨j, -, c, hc, e, he, hreadOnly⟩
    rw [(hfresh j c hc).2 hstate e he] at hreadOnly
    cases hreadOnly
  split
  · next hroot =>
    -- the root resource is left as it is, and empty
    rw [Resource.isRoot, beq_iff_eq, hs.id_eq (hs.blank_compile h) hy] at hroot
    subst hroot
    have hsize := size_root_of_compile hs hmode h hy
    refine ⟨fun i => ?_, hnone⟩
    rw [hunmarked i]
    constructor
    · intro hmarked
      cases hmarked
    · rintro ⟨j, -, hj⟩
      have := hj.lt
      omega
  · have hordered : y.arena.Ordered := by
      rcases hs.sound_compile o f (by rw [h]; exact hy) with hsound | hsound
      · exact hsound.linked.ordered
      · exact hsound.linked.ordered
    refine ⟨fun i => ?_, fun hstate i => ?_⟩
    · rw [Arena.isMarked_closeState hordered, Arena.holdsReadOnly_closeState,
        Arena.holdsState_iff_of_unmarked hunmarked]
    · rw [Arena.holdsReadOnly_closeState]
      exact hnone hstate i

/-- Closing the marks of an arena, however it was built, marks the containers that hold state or
have one below them that does, and changes nothing else, nor does closing them once more. After
a successful build of the declared resources the marked containers are those with a read-only
entry in them or further down, so without state there are none. -/
theorem marks_upward_closed :
    (∀ a : Arena, a.Built →
      (∀ i, a.closeState.isMarked i = true ↔ a.HoldsState i) ∧
      a.closeState.markedCount = {i | a.HoldsState i}.ncard ∧
      (∀ i, (a.closeState.get? i).map Container.unmarked = (a.get? i).map Container.unmarked) ∧
      a.closeState.closeState = a.closeState) ∧
    ∀ {m : ResourceMap} {s t : ResourceSet} {o : Options} {f : Forest} {stats : Stats}
      {report : FinishReport}, ofMap m .declared = .ok s →
      s.build o f = (t, .ok (stats, report)) →
      (∀ {id x}, t.get? id = some x →
        (∀ i, x.arena.isMarked i = true ↔ x.arena.HoldsReadOnly i) ∧
        (o.includeState = false → ∀ i, x.arena.isMarked i = false)) ∧
      report.stateful = ((t.toList.filter fun x => !x.isRoot).map fun x =>
        {i | x.arena.HoldsReadOnly i}.ncard).sum ∧
      (o.includeState = false → report.stateful = 0) := by
  refine ⟨fun a ha => ?_, fun {m s t o f stats report} hs h => ?_⟩
  · have hordered := ha.ordered
    refine ⟨Arena.isMarked_closeState hordered, ?_,
      fun i => (Arena.map_closeState Container.unmarked (fun _ => rfl) a i).1,
      Arena.closeState_closeState hordered⟩
    simp only [Arena.markedCount_eq_ncard, Arena.isMarked_closeState hordered]
  · have hinst := instantiated_ofMap hs
    have hmode : s.mode = .declared := (exists_root_ofMap hs).1
    obtain ⟨u, hu, hfinish⟩ := build_eq_ok h
    have humode : u.mode = .declared := by
      rw [← hmode, ← hinst.blank_compile hu]
      rfl
    rw [finish_declared humode] at hfinish
    obtain ⟨rfl, rfl⟩ := Prod.mk.inj hfinish
    have hmarks : ∀ {id x}, u.closeState.get? id = some x → _ := marks_of_compile hinst hmode hu
    have hplace : ∀ {x}, x ∈ u.closeState.toList.filter (fun x => !x.isRoot) →
        ∃ id, u.closeState.get? id = some x := by
      intro x hx
      exact mem_toList_iff.1 (List.mem_of_mem_filter hx)
    have hsum : u.closeState.markedCount = ((u.closeState.toList.filter fun x => !x.isRoot).map
        fun x => {i | x.arena.HoldsReadOnly i}.ncard).sum := by
      rw [markedCount_eq_sum]
      refine congrArg List.sum (List.map_congr_left fun x hx => ?_)
      obtain ⟨id, hid⟩ := hplace hx
      simp only [(hmarks hid).1]
    refine ⟨fun hx => ⟨(hmarks hx).1, fun hstate i => ?_⟩, hsum, fun hstate => ?_⟩
    · rw [← Bool.not_eq_true, (hmarks hx).1]
      exact (hmarks hx).2 hstate i
    · refine hsum.trans (List.sum_eq_zero fun n hn => ?_)
      obtain ⟨x, hx, rfl⟩ := List.mem_map.1 hn
      obtain ⟨id, hid⟩ := hplace hx
      simp only [(hmarks hid).2 hstate, Set.ofPred_false, Set.ncard_empty]

/-- A container that is marked from the start, beside one with a read-only value two levels down;
and a build with state two levels down, beside a container without. -/
theorem marks_upward_closed_nested :
    let x : Entry := .value { name := "x", kind := .leaf, readOnly := true }
    let a : Arena := ((((({} : Arena).alloc (.ofName "a" none)).1.alloc (.ofName "b" (some 0))).1.alloc
      { Container.ofName "c" none with hasState := true }).1.alloc (.ofName "d" (some 0))).1.modify 1
        (·.pushValue x)
    let y : Node := ⟨{ name := "y", kind := .leaf, readOnly := true }, []⟩
    let f := Forest.ofModules [{ name := "m", nodes := [("e", ⟨{ name := "e", kind := .container },
      [("g", ⟨{ name := "g", kind := .container }, [("y", y)]⟩),
        ("h", ⟨{ name := "h", kind := .container }, [("z", .ofLeaf "z" "string")]⟩)]⟩)] }]
    (a.Built ∧ {i | a.HoldsState i}.ncard = 3 ∧ a.HoldsState 0 ∧ ¬ a.HoldsState 3) ∧
    ∃ s t stats report r, ofMap { declared := [("/e", {})] } .declared = .ok s ∧
      s.build { includeState := true } f = (t, .ok (stats, report)) ∧ report.stateful = 2 ∧
      t.get? 1 = some r ∧ r.arena.HoldsReadOnly 0 ∧ ¬ r.arena.HoldsReadOnly 2 := by
  intro x a y f
  constructor
  · have hbuilt : a.Built := by
      refine .pushValue (.alloc (.alloc (.alloc (.alloc .empty ?_) ?_) ?_) ?_) ?_
      · intro p hp
        cases hp
      · rintro p ⟨⟩
        decide
      · intro p hp
        cases hp
      · rintro p ⟨⟩
        decide
      · decide
    obtain ⟨hmarks, hcount, -, -⟩ := marks_upward_closed.1 a hbuilt
    refine ⟨hbuilt, hcount.symm.trans (by decide), (hmarks 0).1 (by decide), ?_⟩
    rw [← hmarks 3]
    decide
  · obtain ⟨s, hs, htest⟩ := exists_ok_of_any
      (p := fun s => (s.build { includeState := true } f).2.toOption.any (·.2.stateful == 2) &&
        ((s.build { includeState := true } f).1.get? 1).any fun r =>
          r.arena.isMarked 0 && !r.arena.isMarked 2)
      (show (ofMap { declared := [("/e", {})] } .declared).toOption.any _ = true by decide +kernel)
    rw [Bool.and_eq_true] at htest
    obtain ⟨⟨stats, report⟩, hresult, hcount⟩ := exists_ok_of_any htest.1
    obtain ⟨r, hr, hmarked⟩ := (Option.any_eq_true _ _).1 htest.2
    rw [Bool.and_eq_true, Bool.not_eq_true'] at hmarked
    have hbuild : s.build { includeState := true } f = (_, .ok (stats, report)) :=
      Prod.ext rfl hresult
    obtain ⟨heach, -, -⟩ := marks_upward_closed.2 hs hbuild
    obtain ⟨hmarks, -⟩ := heach hr
    refine ⟨s, _, stats, report, r, hs, hbuild, beq_iff_eq.1 hcount, hr, (hmarks 0).1 hmarked.1, ?_⟩
    rw [← hmarks 2, hmarked.2]
    exact Bool.false_ne_true

end ResourceSet

end YangPartition
