import YangPartition.Proofs.Compile.History

/-!
# What lasts

A property that every resource has as long as nothing has been compiled, and that preparing,
visiting and finishing keep, is one that all resources of a map have after any calls, also after
calls that stop with an error.
-/

namespace YangPartition

namespace ResourceSet

/-- All resources of a set have a property. -/
def All (t : ResourceSet) (P : Resource → Prop) : Prop := ∀ id x, t.get? id = some x → P x

namespace All

variable {t : ResourceSet} {P : Resource → Prop} {o : Options} {f : Forest}

/-- A set of which each resource is that of another set, changed by what keeps a property. -/
theorem map {u : ResourceSet} (h : t.All P)
    (hu : ∀ id, ∃ g : Resource → Resource, u.get? id = (t.get? id).map g ∧
      ∀ x, t.get? id = some x → P x → P (g x)) : u.All P := by
  intro id y hy
  obtain ⟨g, hg, hkeep⟩ := hu id
  rw [hg] at hy
  obtain ⟨x, hx, rfl⟩ := Option.map_eq_some_iff.1 hy
  exact hkeep x hx (h id x hx)

theorem modify (h : t.All P) (i : Nat) {g : Resource → Resource}
    (hg : ∀ x, t.get? i = some x → P x → P (g x)) : (t.modify i g).All P := by
  refine h.map fun id => ⟨fun x => if i = id then g x else x, ?_, fun x hx hP => ?_⟩
  · rw [get?_modify]
    split
    · rfl
    · exact Option.map_id'.symm
  · simp only
    split
    · next hid =>
      subst hid
      exact hg x hx hP
    · exact hP

theorem prepared (h : t.All P) (top : ∀ {x}, P x → P x.placeTop) : t.prepared.All P := by
  rw [ResourceSet.prepared]
  cases t.mode with
  | declared => exact h
  | full => exact h.modify _ fun _ _ => top

/-- A compilation keeps what its run keeps and what does not depend on levels. -/
theorem compile (hrun : (Run.visitAll o { set := t.prepared } f.visits).1.set.All P)
    (settled : ∀ {x : Resource}, P x → P { x with levels := x.levels.clear }) :
    (t.compile o f).1.All P := by
  rw [ResourceSet.compile]
  split
  · next r hr =>
    rw [hr] at hrun
    refine hrun.map fun id => ⟨fun x => { x with levels := x.levels.clear }, ?_, fun _ _ => settled⟩
    simp only [get?, ResourceSet.settled, Array.getElem?_map]
  · next r e hr =>
    rw [hr] at hrun
    exact hrun

theorem resolveTypes (h : t.All P)
    (withTypes : t.mode = .full → ∀ {x : Resource} (g : Findings), P x → P (x.withTypes g)) :
    t.resolveTypes.1.All P := by
  rw [ResourceSet.resolveTypes]
  split
  · next top hmode htop =>
    refine h.modify _ fun x _ _ => ?_
    rw [Resource.resolveTypes]
    cases top.root? with
    | none => exact h _ top htop
    | some root => exact withTypes hmode _ (h _ top htop)
  · exact h

theorem finish (h : t.All P)
    (withTypes : t.mode = .full → ∀ {x : Resource} (g : Findings), P x → P (x.withTypes g))
    (closeState : ∀ {x : Resource}, P x → P { x with arena := x.arena.closeState }) :
    t.finish.1.All P := by
  refine (h.resolveTypes withTypes).map fun id => ⟨fun x =>
    if x.isRoot then x else { x with arena := x.arena.closeState }, ?_, fun x _ hP => ?_⟩
  · show t.resolveTypes.1.closeState.get? id = _
    simp only [get?, ResourceSet.closeState, Array.getElem?_map]
  · simp only
    split
    · exact hP
    · exact closeState hP

/-- A build is a compilation that is finished when it succeeds. -/
theorem build (hcompile : (t.compile o f).1.All P)
    (hfinish : ∀ {u stats}, t.compile o f = (u, .ok stats) → u.finish.1.All P) :
    (t.build o f).1.All P := by
  rw [ResourceSet.build]
  split
  · next u stats hu => exact hfinish hu
  · next u e hu =>
    rw [hu] at hcompile
    exact hcompile

end All

end ResourceSet

/-- A property that resources have before the first call and that no step of a call on them
breaks. -/
structure Resource.Lasting (s : ResourceSet) (P : Resource → Prop) : Prop where
  /-- A resource without contents has it. -/
  blank : ∀ x : Resource, P x.blank
  /-- A container on top of the whole schema does not change it. -/
  top : ∀ {x : Resource}, P x → P x.placeTop
  /-- A visit keeps it. -/
  see : ∀ {o x y v tops}, x.Sound tops → P x → x.see s o v = .ok y → P y
  /-- It does not depend on the levels. -/
  settled : ∀ {x : Resource}, P x → P { x with levels := x.levels.clear }
  /-- In the whole schema it does not depend on the types of references. -/
  withTypes : s.mode = .full → ∀ {x : Resource} (g : Findings), P x → P (x.withTypes g)
  /-- It does not depend on marks. -/
  closeState : ∀ {x : Resource}, P x → P { x with arena := x.arena.closeState }

namespace Resource.Lasting

open ResourceSet

variable {s t : ResourceSet} {P : Resource → Prop} {places : List Nat} {o : Options}

theorem all (hP : Lasting s P) (hs : s.Instantiated) : s.All P := by
  intro id x hx
  rw [← hs.blank_eq hx]
  exact hP.blank x

/-- Visits keep the property, as far as they succeed. -/
theorem visitAll (hP : Lasting s P) (hs : s.Instantiated) {r : Run} (hsound : s.Sound places r.set)
    (h : r.set.All P) (vs : List Visit) : (Run.visitAll o r vs).1.set.All P := by
  refine (Run.visitAll_induction (P := fun r => s.Sound places r.set ∧ r.set.All P) ⟨hsound, h⟩
    fun {a b v} ⟨hsound, h⟩ hv => ⟨hsound.visit hs hv, fun id y hy => ?_⟩).2
  obtain ⟨x, hx, hsee⟩ := Run.exists_see_of_visit hs hsound.blank hv hy
  obtain ⟨tops, htops⟩ := (hsound.each hx).exists_sound
  exact hP.see htops (h id x hx) hsee

theorem compile (hP : Lasting s P) (hs : s.Instantiated) (hsound : s.Sound places t) (h : t.All P)
    (o : Options) (f : Forest) : (t.compile o f).1.All P :=
  .compile (hP.visitAll hs (r := { set := t.prepared }) (hsound.prepared hs) (h.prepared hP.top) _)
    hP.settled

theorem finish (hP : Lasting s P) (hsound : s.Sound places t) (h : t.All P) :
    t.finish.1.All P := by
  refine All.finish h (fun hmode => hP.withTypes ?_) hP.closeState
  rw [← hsound.mode_eq]
  exact hmode

theorem perform (hP : Lasting s P) (hs : s.Instantiated) (hsound : s.Sound places t) (h : t.All P)
    (c : Call) : (c.perform t).All P := by
  cases c with
  | compile o f => exact hP.compile hs hsound h o f
  | build o f =>
    refine .build (hP.compile hs hsound h o f) fun {u stats} hu => ?_
    have hall := hP.compile hs hsound h o f
    have hcompiled := hsound.compile hs o f
    rw [hu] at hall hcompiled
    exact hP.finish hcompiled hall
  | walk o below listKeys n =>
    exact hP.visitAll hs (r := { set := t }) hsound h _

/-- All resources of a map have the property after any calls. -/
theorem performAll (hP : Lasting s P) (hs : s.Instantiated) (hsound : s.Sound places t)
    (h : t.All P) (cs : List Call) : (t.performAll cs).All P := by
  induction cs generalizing places t with
  | nil => exact h
  | cons c cs ih => exact ih (hsound.perform hs c) (hP.perform hs hsound h c)

end Resource.Lasting

end YangPartition
