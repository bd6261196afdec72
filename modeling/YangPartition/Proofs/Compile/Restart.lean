import YangPartition.Proofs.Compile.Attachment
import YangPartition.Proofs.Compile.History

/-!
# Compiling into used resources

A compilation that stops leaves level stacks behind that hold containers of its own. The next one
does not read them: a node is put into a container of the stack only below a node of the same
compilation, and that one has put its own container there, or has dropped what was deeper. So what
comes of a compilation does not depend on the stacks before it, and it puts nothing into containers
that it has not made.
-/

namespace YangPartition

/-! ### Without level stacks -/

namespace ResourceSet

variable {s t t' : ResourceSet} {id : Nat} {x : Resource}

theorem get?_settled (t : ResourceSet) (id : Nat) :
    t.settled.get? id = (t.get? id).map (·.unlevelled) := by
  simp only [get?, settled, Array.getElem?_map]
  rfl

theorem blank_settled (t : ResourceSet) : t.settled.blank = t.blank := by
  refine ext_get? rfl fun id => ?_
  rw [get?_blank, get?_blank, get?_settled, Option.map_map]
  rfl

/-- Sets that are the same without level stacks hold the resources of the same map. -/
theorem blank_of_settled (h : t'.settled = t.settled) : t'.blank = t.blank := by
  rw [← blank_settled, h, blank_settled]

theorem settled_settled (t : ResourceSet) : t.settled.settled = t.settled := by
  refine ext_get? rfl fun id => ?_
  rw [get?_settled, get?_settled, Option.map_map]
  rfl

/-- Resources that are the same without level stacks differ in these only. -/
theorem exists_levels (h : t'.settled = t.settled) (hx : t.get? id = some x) :
    ∃ levels, t'.get? id = some { x with levels } := by
  have hget := congrArg (·.get? id) h
  simp only [get?_settled, hx, Option.map_some] at hget
  obtain ⟨x', hx', hsame⟩ := Option.map_eq_some_iff.1 hget
  refine ⟨x'.levels, hx'.trans (congrArg some ?_)⟩
  calc x' = { x'.unlevelled with levels := x'.levels } := rfl
    _ = { x with levels := x'.levels } := by rw [hsame]; rfl

/-- A change that does not read the level stack may be made without it. -/
theorem settled_modify {f g : Resource → Resource} (hf : ∀ x, (f x).unlevelled = g x.unlevelled) :
    (t.modify id f).settled = t.settled.modify id g := by
  refine ext_get? rfl fun i => ?_
  rw [get?_settled, get?_modify, get?_modify, get?_settled]
  split
  · rw [Option.map_map, Option.map_map]
    exact congrArg (Option.map · _) (funext hf)
  · rfl

theorem settled_abandon (id : Nat) (v : Visit) :
    (t.modify id (·.abandon v)).settled = t.settled := by
  rw [settled_modify (g := fun x => x) fun x => Resource.unlevelled_abandon x v]
  refine ext_get? rfl fun i => ?_
  rw [get?_modify]
  split
  · exact Option.map_id'
  · rfl

theorem settled_placeRoot (id : Nat) (v : Visit) (boundary : Bool) :
    (t.modify id (·.placeRoot v boundary)).settled =
      t.settled.modify id (·.openRoot v boundary) :=
  settled_modify fun _ => rfl

theorem settled_placeTop (id : Nat) :
    (t.modify id (·.placeTop)).settled = t.settled.modify id (·.openTop) :=
  settled_modify fun _ => rfl

theorem settled_placeBelow (id : Nat) (v : Visit) (home : Nat) (boundary : Bool)
    (ref? : Option Reference) :
    (t.modify id (·.placeBelow v home boundary ref?)).settled =
      t.settled.modify id (·.put v home boundary ref?) :=
  settled_modify fun x => Resource.unlevelled_put x v home boundary ref?

/-- A path is owned by the same resource. -/
theorem exists_bestMatch? (hs : s.Instantiated) (ht : t.blank = s) (h : t'.settled = t.settled)
    {p : Path} (hbest : t.bestMatch? p = some x) :
    ∃ levels, t'.bestMatch? p = some { x with levels } := by
  have ht' : t'.blank = s := (blank_of_settled h).trans ht
  have hsame : (t'.bestMatch? p).map (·.blank) = some x.blank := by
    rw [← bestMatch?_blank, ht', ← ht, bestMatch?_blank, hbest, Option.map_some]
  obtain ⟨x', hbest', hblank⟩ := Option.map_eq_some_iff.1 hsame
  obtain ⟨levels, hlevels⟩ := exists_levels h (hs.get?_of_bestMatch? ht hbest)
  refine ⟨levels, hbest'.trans ?_⟩
  rw [← hlevels, ← Resource.id_of_blank hblank, hs.get?_of_bestMatch? ht' hbest']

end ResourceSet

namespace Run

open Resource

variable {s : ResourceSet} {o : Options} {r r' : Run} {v : Visit} {x : Resource}

/-- The state of a compilation without level stacks. -/
def unlevelled (r : Run) : Run := { r with set := r.set.settled }

/-- Placing a node comes to the same when its container does. -/
theorem place_congr (hr : r.set.blank = s) (h : r'.unlevelled = r.unlevelled) (levels : LevelStack)
    (hparent : ({ x with levels } : Resource).parentFor? v = x.parentFor? v) :
    (r'.place o { x with levels } v).map unlevelled = (r.place o x v).map unlevelled := by
  obtain ⟨t, stats⟩ := r
  obtain ⟨t', stats'⟩ := r'
  obtain ⟨hset, rfl⟩ := Run.mk.inj h
  have hdepth : ({ x with levels } : Resource).depthOf v.path = x.depthOf v.path := rfl
  rw [place_eq hr, place_eq ((ResourceSet.blank_of_settled hset).trans hr)]
  simp only [hparent, hdepth]
  split
  · split
    · simp only [Except.map, unlevelled, hset]
    · split
      · rfl
      · simp only [Except.map, unlevelled, ResourceSet.settled_placeRoot, hset]
  · split
    · simp only [Except.map, unlevelled, abandon, ResourceSet.settled_abandon, hset]
    · simp only [Except.map, unlevelled, placeBelow, ResourceSet.settled_placeBelow, hset]

theorem unlevelled_count (h : r'.unlevelled = r.unlevelled) (k : Verdict) :
    (r'.count k).unlevelled = (r.count k).unlevelled := by
  obtain ⟨hset, hstats⟩ := Run.mk.inj h
  simp only [count, unlevelled, hset, hstats]

theorem unlevelled_abandon (h : r'.unlevelled = r.unlevelled) (id : Nat) (v : Visit) :
    (r'.abandon id v).unlevelled = (r.abandon id v).unlevelled := by
  obtain ⟨hset, hstats⟩ := Run.mk.inj h
  simp only [abandon, unlevelled, ResourceSet.settled_abandon, hset, hstats]

theorem blank_of_unlevelled (h : r'.unlevelled = r.unlevelled) (hr : r.set.blank = s) :
    r'.set.blank = s :=
  (ResourceSet.blank_of_settled (congrArg (·.set) h)).trans hr

/-- A visit comes to the same when the container for its node does. -/
theorem visit_congr (hs : s.Instantiated) (hr : r.set.blank = s)
    (h : r'.unlevelled = r.unlevelled)
    (hparent : ∀ {x levels}, r.set.get? x.id = some x →
      r'.set.get? x.id = some { x with levels } → Resource.Owns s x.id v.path →
      ({ x with levels } : Resource).parentFor? v = x.parentFor? v) :
    (r'.visit o v).map unlevelled = (r.visit o v).map unlevelled := by
  have hset : r'.set.settled = r.set.settled := congrArg (·.set) h
  have hr' := blank_of_unlevelled h hr
  rw [visit_eq hr, visit_eq hr']
  split
  · exact congrArg Except.ok (unlevelled_count h .group)
  split
  · rfl
  cases hbest : r.set.bestMatch? v.path with
  | none =>
    have hbest' : r'.set.bestMatch? v.path = none := by
      rw [Option.eq_none_iff_forall_ne_some]
      intro x hx
      obtain ⟨levels, hlevels⟩ := ResourceSet.exists_bestMatch? hs hr' hset.symm hx
      rw [hbest] at hlevels
      cases hlevels
    rw [hbest']
    exact congrArg Except.ok (unlevelled_count h .unowned)
  | some x =>
    obtain ⟨levels, hbest'⟩ := ResourceSet.exists_bestMatch? hs hr hset hbest
    have hout : ({ x with levels } : Resource).leavesOut o v = x.leavesOut o v := rfl
    rw [hbest']
    simp only [hout]
    split
    · exact congrArg Except.ok (unlevelled_abandon (unlevelled_count h _) x.id v)
    · refine place_congr (r := r.count .wanted) hr (unlevelled_count h .wanted) levels
        (hparent (hs.get?_of_bestMatch? hr hbest) (hs.get?_of_bestMatch? hr' hbest') ?_)
      rw [Owns, ← hr, ResourceSet.bestMatch?_blank, hbest]
      rfl

/-! ### Two runs -/

/-- Two runs that are the same without level stacks, and whose stacks hold the same containers for
children at a path. -/
structure Agree (s : ResourceSet) (below : Path) (r r' : Run) : Prop where
  /-- The runs are the same without level stacks. -/
  same : r'.unlevelled = r.unlevelled
  /-- The resources are those of the map. -/
  blank : r.set.blank = s
  /-- The stacks hold the same containers. -/
  fits : ∀ {id x x'}, r.set.get? id = some x → r'.set.get? id = some x' →
    ∃ home?, Fits s x below home? ∧ Fits s x' below home?

/-- A run that has gone on keeps the levels of all resources down to a path. -/
structure Keeps (below : Path) (r q : Run) : Prop where
  /-- The resources are the same. -/
  blank : q.set.blank = r.set.blank
  /-- What is found afterwards was there before, with the same levels. -/
  levels : ∀ id y, q.set.get? id = some y →
    ∃ x, r.set.get? id = some x ∧ y.blank = x.blank ∧ SameLevels x y below

variable {q q' : Run} {below : Path}

/-- A visit further down keeps the levels down to a path. -/
theorem keeps_visit (hs : s.Instantiated) (hr : r.set.blank = s) (h : r.visit o v = .ok q)
    (hbelow : below.names <+: v.below.names) : r.Keeps below q where
  blank := (see_of_visit hs hr h).1.trans hr.symm
  levels id y hy := by
    obtain ⟨x, hx, hsee⟩ := exists_see_of_visit hs hr h hy
    have hdeep := hbelow.length_le
    rw [Path.length_names, Path.length_names] at hdeep
    refine ⟨x, hx, blank_of_see hsee, fun hlen i hi => ?_⟩
    exact sameLevels_of_see hs (hs.get?_self hr hx) hsee (hlen.trans hdeep) i (by omega)

theorem Keeps.rfl : r.Keeps below r where
  blank := by rfl
  levels id y hy := ⟨y, hy, by rfl, fun _ _ _ => by rfl⟩

theorem Keeps.trans {p : Run} (h : r.Keeps below q) (h' : q.Keeps below p) : r.Keeps below p where
  blank := h'.blank.trans h.blank
  levels id z hz := by
    obtain ⟨y, hy, hzy, hlevels'⟩ := h'.levels id z hz
    obtain ⟨x, hx, hyx, hlevels⟩ := h.levels id y hy
    refine ⟨x, hx, hzy.trans hyx, fun hlen i hi => ?_⟩
    rw [SameLevels, path_of_blank hyx] at hlevels'
    rw [hlevels' hlen i hi, hlevels hlen i hi]

/-- Visits further down keep the levels down to a path. -/
theorem keeps_visitAll (hs : s.Instantiated) {vs : List Visit} (hr : r.set.blank = s)
    (h : visitAll o r vs = (q, none)) (hbelow : ∀ v ∈ vs, below.names <+: v.below.names) :
    r.Keeps below q := by
  induction vs generalizing r with
  | nil =>
    obtain rfl := (Prod.mk.inj h).1
    exact .rfl
  | cons v vs ih =>
    rw [List.forall_mem_cons] at hbelow
    rw [visitAll] at h
    split at h
    · next p hp =>
      exact (keeps_visit hs hr hp hbelow.1).trans (ih (see_of_visit hs hr hp).1 h hbelow.2)
    · cases (Prod.mk.inj h).2

/-- Runs that keep the levels down to a path agree there when they did. -/
theorem Agree.of_keeps (h : Agree s below r r') (hsame : q'.unlevelled = q.unlevelled)
    (hq : r.Keeps below q) (hq' : r'.Keeps below q') : Agree s below q q' where
  same := hsame
  blank := hq.blank.trans h.blank
  fits {id y y'} hy hy' := by
    obtain ⟨x, hx, hblank, hlevels⟩ := hq.levels id y hy
    obtain ⟨x', hx', hblank', hlevels'⟩ := hq'.levels id y' hy'
    obtain ⟨home?, hfits, hfits'⟩ := h.fits hx hx'
    exact ⟨home?, hfits.of_sameLevels hblank hlevels, hfits'.of_sameLevels hblank' hlevels'⟩

/-- Runs that agree above a node come to the same there. -/
theorem Agree.visit (hs : s.Instantiated) (h : Agree s v.below r r') :
    (r'.visit o v).map unlevelled = (r.visit o v).map unlevelled := by
  refine visit_congr hs h.blank h.same fun {x levels} hx hx' hown => ?_
  by_cases hdepth : x.depthOf v.path = 0
  · have hdepth' : ({ x with levels } : Resource).depthOf v.path = 0 := hdepth
    rw [parentFor?, parentFor?, hdepth, hdepth']
    rfl
  · obtain ⟨home?, hfits, hfits'⟩ := h.fits hx hx'
    have hself := hs.get?_self h.blank hx
    obtain ⟨-, -, hparent⟩ := parentFor?_of_fits hs hself hfits hown hdepth
    obtain ⟨-, -, hparent'⟩ :=
      parentFor?_of_fits (x := { x with levels }) hs hself hfits' hown hdepth
    rw [hparent, hparent']

/-- After a node that may have others below, the runs agree below it. -/
theorem Agree.descend (hs : s.Instantiated) (h : Agree s v.below r r')
    (hq : r.visit o v = .ok q) (hq' : r'.visit o v = .ok q')
    (hdata : v.decl.kind.isTransparent = false) (hscalar : v.decl.kind.isScalar = false) :
    Agree s v.path q q' where
  same := by
    have hsame := h.visit (o := o) hs
    rw [hq, hq'] at hsame
    exact Except.ok.inj hsame
  blank := (see_of_visit hs h.blank hq).1
  fits {id y y'} hy hy' := by
    have hr' := blank_of_unlevelled h.same h.blank
    obtain ⟨x, hx, hsee⟩ := exists_see_of_visit hs h.blank hq hy
    obtain ⟨x', hx', hsee'⟩ := exists_see_of_visit hs hr' hq' hy'
    obtain ⟨home?, hfits, hfits'⟩ := h.fits hx hx'
    have hplaced := (hosted_of_see hs (hs.get?_self h.blank hx) hdata hfits hsee).fits hscalar
    have hplaced' := (hosted_of_see hs (hs.get?_self hr' hx') hdata hfits' hsee').fits hscalar
    have hsame : x'.unlevelled = x.unlevelled := by
      have hset : r'.set.settled = r.set.settled := congrArg (·.set) h.same
      have hget := congrArg (·.get? id) hset
      simp only [ResourceSet.get?_settled, hx, hx', Option.map_some] at hget
      exact Option.some.inj hget
    rw [hsame] at hplaced'
    exact ⟨_, hplaced, hplaced'⟩

/-! ### All visits -/

/-- How a run ends, without level stacks. -/
def ending (p : Run × Option Error) : Run × Option Error := (p.1.unlevelled, p.2)

theorem visitAll_append (r : Run) (vs ws : List Visit) :
    visitAll o r (vs ++ ws) =
      match visitAll o r vs with
      | (q, none) => visitAll o q ws
      | (q, some e) => (q, some e) := by
  induction vs generalizing r with
  | nil => rfl
  | cons v vs ih =>
    rw [List.cons_append, visitAll, visitAll]
    cases r.visit o v with
    | ok q => exact ih q
    | error e => rfl

/-- Runs end alike if their first parts do, and what follows a first part that succeeds. -/
theorem ending_append {vs ws : List Visit}
    (hfirst : ending (visitAll o r' vs) = ending (visitAll o r vs))
    (hrest : ∀ q q', visitAll o r vs = (q, none) → visitAll o r' vs = (q', none) →
      q'.unlevelled = q.unlevelled →
        ending (visitAll o q' ws) = ending (visitAll o q ws)) :
    ending (visitAll o r' (vs ++ ws)) = ending (visitAll o r (vs ++ ws)) := by
  rw [visitAll_append, visitAll_append]
  cases hq : visitAll o r vs with
  | mk q e? =>
    cases hq' : visitAll o r' vs with
    | mk q' e?' =>
      rw [hq, hq'] at hfirst
      obtain ⟨hsame, rfl⟩ := Prod.mk.inj hfirst
      cases e?' with
      | none => exact hrest q q' hq hq' hsame
      | some e => exact hfirst

/-- Runs end alike if their first visits come to the same, and what follows them does. -/
theorem ending_cons {vs : List Visit}
    (hfirst : (r'.visit o v).map unlevelled = (r.visit o v).map unlevelled)
    (hsame : r'.unlevelled = r.unlevelled)
    (hrest : ∀ q q', r.visit o v = .ok q → r'.visit o v = .ok q' → q'.unlevelled = q.unlevelled →
      ending (visitAll o q' vs) = ending (visitAll o q vs)) :
    ending (visitAll o r' (v :: vs)) = ending (visitAll o r (v :: vs)) := by
  rw [visitAll, visitAll]
  cases hq : r.visit o v with
  | ok q =>
    cases hq' : r'.visit o v with
    | ok q' =>
      rw [hq, hq'] at hfirst
      exact hrest q q' hq hq' (Except.ok.inj hfirst)
    | error e =>
      rw [hq, hq'] at hfirst
      cases hfirst
  | error e =>
    cases hq' : r'.visit o v with
    | ok q' =>
      rw [hq, hq'] at hfirst
      cases hfirst
    | error e' =>
      rw [hq, hq'] at hfirst
      obtain rfl := Except.error.inj hfirst
      exact Prod.ext hsame rfl

end Run

namespace Node

open Run

variable {s : ResourceSet} {o : Options}

/-- Runs that agree at a path still do after they have visited the same nodes below it. -/
theorem agree_of_visitAll (hs : s.Instantiated) {r r' q q' : Run} {below : Path} {vs : List Visit}
    (h : Agree s below r r') (hvs : ∀ v ∈ vs, below.names <+: v.below.names)
    (hq : visitAll o r vs = (q, none)) (hq' : visitAll o r' vs = (q', none))
    (hsame : q'.unlevelled = q.unlevelled) : Agree s below q q' :=
  h.of_keeps hsame (keeps_visitAll hs h.blank hq hvs)
    (keeps_visitAll hs (blank_of_unlevelled h.same h.blank) hq' hvs)

mutual

/-- Runs that agree at a path come to the same end below it, where leafs and leaf-lists have nothing
below them. -/
theorem ending_visits (hs : s.Instantiated) {r r' : Run} {below : Path} {listKeys : List String}
    (n : Node) (hbare : n.scalarsBare = true) (h : Agree s below r r') :
    ending (visitAll o r' (n.visits below listKeys)) =
      ending (visitAll o r (n.visits below listKeys)) := by
  obtain ⟨decl, children⟩ := n
  rw [scalarsBare, Bool.and_eq_true] at hbare
  rw [visits]
  generalize hv : (⟨below, listKeys, decl⟩ : Visit) = v
  have hbelow : v.below = below := by rw [← hv]
  have hdecl : v.decl = decl := by rw [← hv]
  have hagree : Agree s v.below r r' := hbelow ▸ h
  have hfirst := hagree.visit (o := o) hs
  split
  · -- the nodes below a choice or case stand in its place
    refine ending_cons hfirst h.same fun q q' hq hq' hsame => ?_
    have hdeep : below.names <+: v.below.names := hbelow ▸ List.prefix_rfl
    exact ending_visitsAll hs children hbare.2 (h.of_keeps hsame
      (keeps_visit hs h.blank hq hdeep)
      (keeps_visit hs (blank_of_unlevelled h.same h.blank) hq' hdeep))
  · next hdata =>
    refine ending_cons hfirst h.same fun q q' hq hq' hsame => ?_
    cases hscalar : decl.kind.isScalar with
    | true =>
      rw [hscalar, Bool.not_true, Bool.false_or, List.isEmpty_iff] at hbare
      rw [hbare.1, visitsAll]
      exact Prod.ext hsame rfl
    | false =>
      refine ending_visitsAll hs children hbare.2 (hagree.descend hs hq hq' ?_ ?_)
      · rw [hdecl]
        simpa using hdata
      · rw [hdecl]
        exact hscalar
termination_by structural n

theorem ending_visitsAll (hs : s.Instantiated) {r r' : Run} {below : Path} {listKeys : List String}
    (ns : List (String × Node)) (hbare : scalarsBareAll ns = true) (h : Agree s below r r') :
    ending (visitAll o r' (visitsAll below listKeys ns)) =
      ending (visitAll o r (visitsAll below listKeys ns)) := by
  match ns with
  | [] =>
    rw [visitsAll]
    exact Prod.ext h.same rfl
  | (_, n) :: rest =>
    rw [scalarsBareAll, Bool.and_eq_true] at hbare
    rw [visitsAll]
    refine ending_append (ending_visits hs n hbare.1 h) fun q q' hq hq' hsame => ?_
    exact ending_visitsAll hs rest hbare.2 (agree_of_visitAll hs h
      (fun _ => prefix_of_mem_visits n) hq hq' hsame)
termination_by structural ns

end

end Node

namespace Forest

open Run

variable {s t t' : ResourceSet} {o : Options} {f : Forest}

theorem ending_visits (hs : s.Instantiated) (hbare : f.scalarsBare = true) {r r' : Run}
    (h : Agree s .root r r') :
    ending (visitAll o r' f.visits) = ending (visitAll o r f.visits) := by
  rw [scalarsBare] at hbare
  rw [visits]
  generalize f.modules = modules at hbare
  induction modules generalizing r r' with
  | nil => exact Prod.ext h.same rfl
  | cons m modules ih =>
    rw [List.all_cons, Bool.and_eq_true] at hbare
    rw [List.flatMap_cons]
    refine ending_append (Node.ending_visitsAll hs m.nodes hbare.1 h) fun q q' hq hq' hsame => ?_
    exact ih (Node.agree_of_visitAll hs h
      (fun _ => Node.prefix_of_mem_visitsAll m.nodes) hq hq' hsame) hbare.2

end Forest

namespace ResourceSet

open Resource Run

variable {s t t' u : ResourceSet} {o : Options} {f : Forest} {id : Nat} {x : Resource}

theorem settled_prepared (h : t'.settled = t.settled) :
    t'.prepared.settled = t.prepared.settled := by
  have hmode : t'.mode = t.mode := congrArg (·.mode) h
  rw [prepared, prepared, hmode]
  cases t.mode with
  | declared => exact h
  | full =>
    simp only
    rw [settled_placeTop, settled_placeTop, h]

/-- Before the first visit the stacks hold no container but that of the top. -/
theorem Instantiated.agree_prepared (hs : s.Instantiated) (ht : t.blank = s)
    (h : t'.settled = t.settled) : Agree s .root { set := t.prepared } { set := t'.prepared } where
  same := by
    rw [Run.unlevelled, Run.unlevelled, settled_prepared h]
  blank := Forest.blank_prepared ht
  fits {id y y'} hy hy' := by
    have ht' : t'.blank = s := (blank_of_settled h).trans ht
    obtain ⟨x, hx, -⟩ := exists_get?_of_blank ht (Forest.blank_prepared ht) hy
    obtain ⟨levels, hx'⟩ := exists_levels h hx
    rw [Forest.get?_prepared hs ht hx] at hy
    rw [Forest.get?_prepared hs ht' hx'] at hy'
    obtain rfl := Option.some.inj hy
    obtain rfl := Option.some.inj hy'
    exact ⟨_, Forest.fits_started hs ht hx, Forest.fits_started hs ht' hx'⟩

/-- What comes of a compilation does not depend on the level stacks before it. -/
theorem Instantiated.compile_congr (hs : s.Instantiated) (ht : t.blank = s)
    (hbare : f.scalarsBare = true) (h : t'.settled = t.settled) :
    (t'.compile o f).2 = (t.compile o f).2 ∧
      (t'.compile o f).1.settled = (t.compile o f).1.settled := by
  have hending := Forest.ending_visits (o := o) hs hbare (hs.agree_prepared ht h)
  rw [compile, compile]
  cases hq : visitAll o { set := t.prepared } f.visits with
  | mk q e? =>
    cases hq' : visitAll o { set := t'.prepared } f.visits with
    | mk q' e?' =>
      rw [hq, hq'] at hending
      obtain ⟨hsame, rfl⟩ := Prod.mk.inj hending
      obtain ⟨hset, hstats⟩ := Run.mk.inj hsame
      cases e?' with
      | none => exact ⟨congrArg Except.ok hstats, congrArg settled hset⟩
      | some e => exact ⟨rfl, hset⟩

end ResourceSet

/-! ### New containers -/

namespace Resource

variable {s : ResourceSet} {o : Options} {start x y : Resource} {v : Visit} {tops : List Nat}

/-- What a compilation has made of a resource since it has started: the containers that were there
are as they were, those below others stand below new ones, and only new ones are on the stack. -/
structure Since (start x : Resource) : Prop where
  /-- No container has gone. -/
  size : start.arena.size ≤ x.arena.size
  /-- The containers that were there are as they were. -/
  kept : ∀ i < start.arena.size, x.arena.get? i = start.arena.get? i
  /-- A new container below another one stands below a new one. -/
  parent : ∀ {i : Nat} {c p}, start.arena.size ≤ i → x.arena.get? i = some c → c.parent? = some p →
    start.arena.size ≤ p
  /-- The stack holds new containers. -/
  level : ∀ {i c : Nat}, x.levels.levels[i]? = some c → start.arena.size ≤ c

/-- A new container on top is the only one on the stack. -/
theorem Since.alloc_top (h : Since start x) {c : Container} (hp : c.parent? = none) :
    Since start { x with
      arena := (x.arena.alloc c).1
      root? := some x.arena.size
      levels := x.levels.reset x.arena.size } := by
  have hsize := h.size
  refine ⟨?_, fun i hi => ?_, fun {i d p} hi hd hparent => ?_, fun {i d} hd => ?_⟩
  · rw [Arena.size_alloc]
    omega
  · rw [Arena.get?_alloc_top hp, if_neg (by omega)]
    exact h.kept i hi
  · rcases Arena.get?_alloc_top_cases hp hd with ⟨-, rfl⟩ | hd
    · rw [hp] at hparent
      cases hparent
    · exact h.parent hi hd hparent
  · obtain ⟨-, rfl⟩ := (LevelStack.getElem?_reset_iff (l := x.levels)).1 hd
    exact hsize

/-- At the start nothing is new, and the stack is empty or holds the container of the top. -/
theorem since_started (s : ResourceSet) (x : Resource) : Since x (x.unlevelled.started s) := by
  have hfresh : Since x x.unlevelled :=
    ⟨Nat.le_refl _, fun _ _ => rfl,
      fun {i c p} hi hc => absurd (Arena.get?_lt hc) (Nat.not_lt.2 hi), fun hc => by cases hc⟩
  rw [started]
  split
  · exact hfresh.alloc_top (c := .ofName "root" none) rfl
  · exact hfresh

theorem Since.abandon (h : Since start x) (v : Visit) : Since start (x.abandon v) := by
  refine ⟨?_, ?_, ?_, fun hc => h.level (level_abandon hc).1⟩
  · rw [arena_abandon]
    exact h.size
  · rw [arena_abandon]
    exact h.kept
  · rw [arena_abandon]
    exact h.parent

/-- A node is put into a container on the stack, so into a new one. -/
theorem Since.placeBelow (h : Since start x) (hx : x.Sound tops) {home : Nat}
    (hhome : x.parentFor? v = some home) :
    Since start
      (x.placeBelow v home (s.isBoundary x.id v.path) (referenceOf? s o x.id v)) := by
  have hsize := h.size
  obtain ⟨n, -, hlevel⟩ := LevelStack.parentFor?_eq_some.1 hhome
  have hnew := h.level hlevel
  have hget := get?_put (s := s) (o := o) (v := v) (hx.parent hhome).1.lt_size
  refine ⟨?_, fun i hi => ?_, fun {i c p} hi hc hp => ?_, fun {i c} hc => ?_⟩
  · have hgrown : x.arena.size ≤ (x.put v home (s.isBoundary x.id v.path)
        (referenceOf? s o x.id v)).arena.size := by
      rw [size_put]
      split <;> omega
    exact hsize.trans hgrown
  · refine (hget i).trans ?_
    rw [if_neg (by omega), if_neg (by omega)]
    exact h.kept i hi
  · have hc := (hget i).symm.trans hc
    split at hc
    · rw [← Option.some.inj hc, Container.parent?_made] at hp
      obtain rfl := Option.some.inj hp
      exact hnew
    · split at hc
      · obtain ⟨w, hw, rfl⟩ := Option.map_eq_some_iff.1 hc
        refine h.parent hi hw (Eq.trans (Eq.symm ?_) hp)
        exact Container.parent?_of_outline (Container.outline_receive x.id w x.arena.size v)
      · exact h.parent hi hc hp
  · rcases level_placeBelow hhome hc with ⟨hc, -⟩ | ⟨-, -, rfl⟩
    · exact h.level hc
    · exact hsize

/-- A visit puts nothing into containers that were there before. -/
theorem Since.see (h : Since start x) (hx : x.Sound tops) (hy : x.see s o v = .ok y) :
    Since start y := by
  rcases see_cases hy with ⟨rfl, -⟩ | ⟨-, -, -, rfl⟩ | ⟨-, -, -, -, -, rfl⟩ |
    ⟨home, -, -, -, -, hhome, rfl⟩
  · exact h
  · exact h.abandon v
  · exact h.alloc_top
      (c := { Container.ofDeclaration v.decl v.path none with
        boundary := s.isBoundary x.id v.path }) rfl
  · exact h.placeBelow hx hhome

end Resource

/-! ### The result -/

namespace ResourceSet

open Resource Run

variable {s t u : ResourceSet} {o : Options} {f : Forest}

/-- Without level stacks to start from, nothing is put into containers that were there before. -/
theorem Instantiated.since_compile (hs : s.Instantiated) {places : List Nat} (ht : s.Sound places t)
    {id : Nat} {x y : Resource} (hx : t.get? id = some x)
    (hy : (t.settled.compile o f).1.get? id = some y) : Since x y := by
  let P : Run → Prop := fun r => (∃ places, s.Sound places r.set) ∧
    ∀ id x y, t.get? id = some x → r.set.get? id = some y → Since x y
  have hstart : P { set := t.settled.prepared } := by
    refine ⟨⟨_, ht.settled.prepared hs⟩, fun id x y hx hy => ?_⟩
    have hx' : t.settled.get? id = some x.unlevelled := by rw [get?_settled, hx, Option.map_some]
    rw [Forest.get?_prepared hs ht.settled.blank hx'] at hy
    rw [← Option.some.inj hy]
    exact since_started s x
  have hstep : ∀ {a b : Run} {v : Visit}, P a → a.visit o v = .ok b → P b := by
    rintro a b v ⟨⟨places, hsound⟩, hsince⟩ hb
    refine ⟨⟨places, hsound.visit hs hb⟩, fun id x y hx hy => ?_⟩
    obtain ⟨z, hz, hsee⟩ := exists_see_of_visit hs hsound.blank hb hy
    obtain ⟨tops, htops⟩ := (hsound.each hz).exists_sound
    exact (hsince id x z hx hz).see htops hsee
  have hrun : P (Run.visitAll o { set := t.settled.prepared } f.visits).1 :=
    visitAll_induction hstart hstep
  rw [compile] at hy
  split at hy
  · next r hr =>
    rw [hr] at hrun
    rw [get?_settled] at hy
    obtain ⟨z, hz, rfl⟩ := Option.map_eq_some_iff.1 hy
    have hsince := hrun.2 id x z hx hz
    exact ⟨hsince.size, hsince.kept, hsince.parent, fun hc => by cases hc⟩
  · next r e hr =>
    rw [hr] at hrun
    exact hrun.2 id x y hx hy

/-- A compilation never builds on what calls before it have left behind, whether these have
succeeded or not. The containers that were there are as they were, and a new one below another
stands below a new one. What the compilation comes to does not depend on the level stacks that it
finds. -/
theorem compile_restarts {m : ResourceMap} {mode : Mode} (hs : ofMap m mode = .ok s)
    (cs : List Call) (hbare : f.scalarsBare = true) {result : Except Error Stats}
    (h : (s.performAll cs).compile o f = (u, result)) :
    (∀ {id x}, (s.performAll cs).get? id = some x → ∃ y, u.get? id = some y ∧
      x.arena.size ≤ y.arena.size ∧
      (∀ i < x.arena.size, y.arena.get? i = x.arena.get? i) ∧
      ∀ {i c p}, x.arena.size ≤ i → y.arena.get? i = some c → c.parent? = some p →
        x.arena.size ≤ p ∧ p < i) ∧
    ∀ t' : ResourceSet, t'.settled = (s.performAll cs).settled →
      (t'.compile o f).2 = result ∧ (t'.compile o f).1.settled = u.settled := by
  have hinst := instantiated_ofMap hs
  have hsound := hinst.sound.performAll hinst cs
  generalize s.performAll cs = t at h hsound ⊢
  have hcongr : ∀ t' : ResourceSet, t'.settled = t.settled →
      (t'.compile o f).2 = result ∧ (t'.compile o f).1.settled = u.settled := by
    intro t' ht'
    have hends := hinst.compile_congr (o := o) hsound.blank hbare ht'
    rw [h] at hends
    exact hends
  have hfinal := hsound.compile hinst o f
  rw [h] at hfinal
  refine ⟨fun {id x} hx => ?_, hcongr⟩
  obtain ⟨y, hy, -⟩ := exists_get?_of_blank hfinal.blank hsound.blank hx
  obtain ⟨levels, hy'⟩ := exists_levels (hcongr t.settled t.settled_settled).2 hy
  have hsince := hinst.since_compile hsound hx hy'
  obtain ⟨tops, htops⟩ := (hfinal.each hy).exists_sound
  refine ⟨y, hy, hsince.size, hsince.kept, fun {i c p} hi hc hp => ⟨hsince.parent hi hc hp, ?_⟩⟩
  exact htops.linked.parent_lt ((Arena.parent?_of_get? hc).trans hp)

/-- A compilation of the whole schema stops below `a` and leaves three containers and a stack
behind. The next one stands beside them. -/
theorem compile_restarts_stopped :
    let a : Node := (Node.ofKind .container "a").withChild
      (((Node.ofKind .container "b").withChild (.ofLeaf "c" "string")).withChild
        (.ofLeaf "x/y" "string"))
    let b : Node := (Node.ofKind .container "b").withChild (.ofLeaf "d" "string")
    let stops := Forest.ofModules [{ name := "m", nodes := [("a", a)] }]
    let f := Forest.ofModules [{ name := "m", nodes := [("b", b)] }]
    ∃ s u stats x y, ofMap {} .full = .ok s ∧
      (s.performAll [.compile {} stops]).compile {} f = (u, .ok stats) ∧
      (s.performAll [.compile {} stops]).get? rootId = some x ∧ x.levels.levels = [0, 1, 2] ∧
      x.arena.size = 3 ∧ u.get? rootId = some y ∧ y.arena.size = 5 ∧
      (∀ i < 3, y.arena.get? i = x.arena.get? i) ∧
      ((s.performAll [.compile {} stops]).settled.compile {} f).1.settled = u.settled := by
  intro a b stops f
  obtain ⟨s, hs, htest⟩ := exists_ok_of_any
    (p := fun s => ((s.performAll [.compile {} stops]).compile {} f).2.toOption.isSome &&
      ((s.performAll [.compile {} stops]).get? rootId).any (fun x =>
        x.levels.levels == [0, 1, 2] && x.arena.size == 3) &&
      (((s.performAll [.compile {} stops]).compile {} f).1.get? rootId).any fun y =>
        y.arena.size == 5)
    (show (ofMap {} .full).toOption.any _ = true by decide +kernel)
  simp only [Bool.and_eq_true, Option.any_eq_true, beq_iff_eq] at htest
  obtain ⟨⟨hok, x, hx, hlevels, hsize⟩, y, hy, hgrown⟩ := htest
  obtain ⟨stats, hstats, -⟩ := exists_ok_of_any (p := fun _ => true) (by
    rw [Option.any_true]
    exact hok)
  have hrun : (s.performAll [.compile {} stops]).compile {} f = (_, .ok stats) :=
    Prod.ext rfl hstats
  obtain ⟨hcontainers, hcongr⟩ := compile_restarts hs [.compile {} stops] (by decide +kernel) hrun
  obtain ⟨y', hy', -, hkept, -⟩ := hcontainers hx
  obtain rfl := Option.some.inj (hy.symm.trans hy')
  rw [hsize] at hkept
  exact ⟨s, _, stats, x, y, hs, hrun, hx, hlevels, hsize, hy, hgrown, hkept,
    (hcongr _ (settled_settled _)).2⟩

end ResourceSet

end YangPartition
