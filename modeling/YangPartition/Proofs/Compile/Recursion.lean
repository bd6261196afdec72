import YangPartition.Proofs.Compile.Step

/-!
# Compilation as a plain recursion

Compilation finds the container for a node on a level stack. A recursion that hands
each child the container its parent was compiled to needs no stack, and comes to the
same resources: at every node the stack holds the container of the parent at the depth
above, and dropping what is deeper than a node that is not placed keeps it so.
-/

namespace YangPartition

/-! ### Handing containers down -/

namespace Resource

variable (s : ResourceSet) (o : Options)

/-- Whether a resource has a container for the top of the whole schema. -/
def HasTop (x : Resource) : Prop := s.mode = .full ∧ x.id = rootId

instance (x : Resource) : Decidable (HasTop s x) :=
  inferInstanceAs (Decidable (_ ∧ _))

/-- The resource before the first visit of a compilation. -/
def started (x : Resource) : Resource := if HasTop s x then x.placeTop else x

/-- Puts a node in the container of its parent, if it is to be placed at all; also gives the
container for its children. -/
def host (home? : Option Nat) (x : Resource) (v : Visit) : Resource × Option Nat :=
  if ¬ Owns s x.id v.path ∨ x.leavesOut o v = true then (x, none)
  else if v.path.length = x.path.length then
    if v.decl.kind.isScalar then (x, none)
    else (x.openRoot v (s.isBoundary x.id v.path), some x.arena.size)
  else
    match home? with
    | none => (x, none)
    | some home =>
      (x.put v home (s.isBoundary x.id v.path) (referenceOf? s o x.id v),
        if v.decl.kind.isBranch then some x.arena.size else none)

end Resource

namespace Node

variable (s : ResourceSet) (o : Options)

mutual

/-- Puts a node and the nodes below it into a resource; `home?` is the container that the data
node above was compiled to. -/
def grow (home? : Option Nat) (below : Path) (listKeys : List String) (x : Resource) :
    Node → Resource
  | ⟨decl, children⟩ =>
    if decl.kind.isTransparent then growAll home? below listKeys x children
    else
      let v : Visit := ⟨below, listKeys, decl⟩
      let (y, home?) := x.host s o home? v
      growAll home? v.path decl.keysBelow y children
termination_by structural n => n

/-- Puts nodes that stand beside each other, and those below them, into a resource. -/
def growAll (home? : Option Nat) (below : Path) (listKeys : List String) (x : Resource) :
    List (String × Node) → Resource
  | [] => x
  | (_, n) :: rest => growAll home? below listKeys (n.grow home? below listKeys x) rest
termination_by structural ns => ns

end

mutual

/-- Whether no leaf or leaf-list has nodes below it. -/
def scalarsBare : Node → Bool
  | ⟨decl, children⟩ => (!decl.kind.isScalar || children.isEmpty) && scalarsBareAll children
termination_by structural n => n

/-- Whether no leaf or leaf-list among nodes and those below them has nodes below it. -/
def scalarsBareAll : List (String × Node) → Bool
  | [] => true
  | (_, n) :: rest => n.scalarsBare && scalarsBareAll rest
termination_by structural ns => ns

end

end Node

namespace Forest

/-- Whether no leaf or leaf-list has nodes below it. -/
def scalarsBare (f : Forest) : Bool := f.modules.all fun m => Node.scalarsBareAll m.nodes

/-- Puts the nodes of all modules into a resource. -/
def growModules (s : ResourceSet) (o : Options) (home? : Option Nat) (x : Resource)
    (modules : List Module) : Resource :=
  modules.foldl (fun x m => Node.growAll s o home? .root [] x m.nodes) x

/-- What a resource becomes by handing containers down. -/
def grow (s : ResourceSet) (o : Options) (x : Resource) (f : Forest) : Resource :=
  if Resource.HasTop s x then growModules s o (some x.arena.size) x.openTop f.modules
  else growModules s o none x f.modules

end Forest

/-! ### The stack and the parent -/

namespace Resource

variable {s t : ResourceSet} {o : Options} {x y : Resource} {v : Visit} {home? : Option Nat}
  {below : Path}

theorem blank_started (s : ResourceSet) (x : Resource) : (x.started s).blank = x.blank := by
  rw [started]
  split <;> rfl

/-- The resource without its level stack. -/
def unlevelled (x : Resource) : Resource := { x with levels := {} }

/-- The level stack holds the container of the parent, for children at a path. -/
def Fits (s : ResourceSet) (x : Resource) (below : Path) (home? : Option Nat) : Prop :=
  (below.length < x.path.length → home? = none) ∧
    (x.path.length ≤ below.length → Owns s x.id below →
      x.levels.levels[below.length - x.path.length]? = home?)

/-- The levels down to that of a path are the same. -/
def SameLevels (x y : Resource) (below : Path) : Prop :=
  x.path.length ≤ below.length →
    ∀ i ≤ below.length - x.path.length, y.levels.levels[i]? = x.levels.levels[i]?

/-- A resource that owns a path owns the paths above, down from its own. -/
theorem owns_of_push (hs : s.Instantiated) (hx : s.get? x.id = some x.blank) {e : Elem}
    (h : Owns s x.id (below.push e)) (hlen : x.path.length ≤ below.length) :
    Owns s x.id below := by
  obtain ⟨hbest, -⟩ := hs.above_of_owns hs.blank hx h
  have hup := hs.bestMatch?_of_prefix (by rw [Path.names_push]; exact List.prefix_append ..)
    hbest hlen
  rw [Owns, hup]
  rfl

/-- A resource owns no path that is shorter than its own. -/
theorem length_le_of_owns (hs : s.Instantiated) (hx : s.get? x.id = some x.blank) {p : Path}
    (h : Owns s x.id p) : x.path.length ≤ p.length := by
  have hpre := (hs.above_of_owns hs.blank hx h).2.2.length_le
  rw [Path.length_names, Path.length_names] at hpre
  exact hpre

theorem unlevelled_abandon (x : Resource) (v : Visit) :
    (x.abandon v).unlevelled = x.unlevelled := by
  rw [abandon]
  split <;> rfl

theorem unlevelled_put (x : Resource) (v : Visit) (parent : Nat) (boundary : Bool)
    (ref? : Option Reference) :
    (x.put v parent boundary ref?).unlevelled = x.unlevelled.put v parent boundary ref? := by
  have hnode : ∀ target?, (x.putNode v parent boundary target?).unlevelled =
      x.unlevelled.putNode v parent boundary target? := by
    intro target?
    rw [putNode, putNode]
    cases v.decl.kind <;> rfl
  cases ref? with
  | none => exact hnode none
  | some ref => exact congrArg (·.record parent ref) (hnode (some ref.target))

/-- A node that is dropped leaves no container for its children, and those for its
siblings. -/
theorem fits_abandon (s : ResourceSet) (x : Resource) (v : Visit) :
    (v.decl.kind.isScalar = false → Fits s (x.abandon v) v.path none) ∧
      SameLevels x (x.abandon v) v.below := by
  rw [abandon]
  split
  · next hscalar =>
    rw [hscalar]
    exact ⟨fun h => (by cases h), fun _ _ _ => rfl⟩
  · refine ⟨fun _ => ⟨fun _ => rfl, fun _ _ => ?_⟩, fun hlen i hi => ?_⟩
    · exact List.getElem?_eq_none (List.length_take_le _ _)
    · rw [LevelStack.truncate, List.getElem?_take, if_pos]
      rw [depthOf, Visit.length_path]
      omega

/-- After the root container has been made it is the one for the children. -/
theorem fits_placeRoot (s : ResourceSet) (boundary : Bool) (hlen : v.path.length = x.path.length) :
    Fits s (x.placeRoot v boundary) v.path (some x.arena.size) ∧
      SameLevels x (x.placeRoot v boundary) v.below := by
  have hpush := v.length_path
  refine ⟨⟨fun hlt => absurd hlen (Nat.ne_of_lt hlt), fun _ _ => ?_⟩, fun hle => ?_⟩
  · show [x.arena.size][v.path.length - x.path.length]? = some x.arena.size
    rw [hlen, Nat.sub_self]
    rfl
  · omega

/-- After a container has been made below another one it is the one for the children, and those
above are still there for the siblings. -/
theorem fits_placeBelow (s : ResourceSet) (home : Nat) (boundary : Bool) (ref? : Option Reference)
    (hle : x.path.length ≤ v.below.length)
    (hdeep : v.below.length - x.path.length < x.levels.levels.length) :
    (v.decl.kind.isBranch = true →
      Fits s (x.placeBelow v home boundary ref?) v.path (some x.arena.size)) ∧
      SameLevels x (x.placeBelow v home boundary ref?) v.below := by
  have hdepth : x.depthOf v.path = v.below.length - x.path.length + 1 := by
    rw [depthOf, Visit.length_path]
    omega
  have hpath : (x.placeBelow v home boundary ref?).path = x.path :=
    path_of_blank (blank_placeBelow x v home boundary ref?)
  refine ⟨fun hbranch => ⟨fun hlt => ?_, fun _ _ => ?_⟩, fun _ i hi => ?_⟩
  · rw [hpath, Visit.length_path] at hlt
    omega
  · rw [hpath]
    simp only [placeBelow, hbranch, if_true]
    show (x.levels.enter (x.depthOf v.path) x.arena.size).levels[x.depthOf v.path]? = _
    rw [LevelStack.getElem?_enter (by omega), if_neg (Nat.lt_irrefl _), if_pos rfl]
  · simp only [placeBelow]
    split
    · rw [LevelStack.getElem?_enter (by omega), if_pos (by omega)]
    · rfl

/-- Below its own node the parent of a node is owned too, so the stack holds the container of the
parent at the depth above. -/
theorem parentFor?_of_fits (hs : s.Instantiated) (hx : s.get? x.id = some x.blank)
    (hfits : Fits s x v.below home?) (hown : Owns s x.id v.path) (hdepth : x.depthOf v.path ≠ 0) :
    x.path.length ≤ v.below.length ∧
      x.levels.levels[v.below.length - x.path.length]? = home? ∧ x.parentFor? v = home? := by
  have hpush := v.length_path
  have hbelow : x.path.length ≤ v.below.length := by
    rw [depthOf] at hdepth
    omega
  have hlevel := hfits.2 hbelow (owns_of_push hs hx hown hbelow)
  have hnext : x.depthOf v.path = v.below.length - x.path.length + 1 := by
    rw [depthOf]
    omega
  refine ⟨hbelow, hlevel, ?_⟩
  rw [parentFor?, hnext]
  exact hlevel

/-- A node that the resource does not own or leaves out is not placed. -/
theorem host_of_not_taken (home? : Option Nat)
    (h : ¬ Owns s x.id v.path ∨ x.leavesOut o v = true) : x.host s o home? v = (x, none) :=
  if_pos h

/-- The resource's own node becomes the root container, unless it holds values. -/
theorem host_own (home? : Option Nat) (hown : Owns s x.id v.path) (hout : x.leavesOut o v = false)
    (hlen : v.path.length = x.path.length) : x.host s o home? v =
      if v.decl.kind.isScalar then (x, none)
      else (x.openRoot v (s.isBoundary x.id v.path), some x.arena.size) := by
  unfold host
  rw [if_neg (by simp [hown, hout]), if_pos hlen]

/-- A node further down is put into the container of its parent, if there is one. -/
theorem host_below (home? : Option Nat) (hown : Owns s x.id v.path)
    (hout : x.leavesOut o v = false) (hlen : v.path.length ≠ x.path.length) : x.host s o home? v =
      match home? with
      | none => (x, none)
      | some home => (x.put v home (s.isBoundary x.id v.path) (referenceOf? s o x.id v),
          if v.decl.kind.isBranch then some x.arena.size else none) := by
  unfold host
  rw [if_neg (by simp [hown, hout]), if_neg hlen]

/-- What a visit has made of a resource is what handing down the container of the parent makes
of it, and the stack then holds the container for the children and those for the siblings. -/
structure Hosted (s : ResourceSet) (o : Options) (home? : Option Nat) (x : Resource) (v : Visit)
    (y : Resource) : Prop where
  /-- The contents are the same. -/
  unlevelled_eq : y.unlevelled = (x.unlevelled.host s o home? v).1
  /-- The container for the children is at their depth. -/
  fits : v.decl.kind.isScalar = false → Fits s y v.path (x.unlevelled.host s o home? v).2
  /-- Those for the siblings are where they were. -/
  sameLevels : SameLevels x y v.below

/-- A node that is dropped has no container for its children. -/
theorem hosted_abandon (h : x.unlevelled.host s o home? v = (x.unlevelled, none)) :
    Hosted s o home? x v (x.abandon v) where
  unlevelled_eq := by rw [h]; exact unlevelled_abandon x v
  fits := by rw [h]; exact (fits_abandon s x v).1
  sameLevels := (fits_abandon s x v).2

/-- A visit of the resource's own node makes the root container that handing down makes. -/
theorem hosted_of_absorb_own (hown : Owns s x.id v.path) (hout : x.leavesOut o v = false)
    (hlen : v.path.length = x.path.length) (h : x.absorb s o v = .ok y) :
    Hosted s o home? x v y := by
  have hhost := host_own (x := x.unlevelled) home? hown hout hlen
  rw [absorb, hout, if_neg Bool.false_ne_true,
    if_pos ((depthOf_eq_zero_iff (Nat.le_of_eq hlen.symm)).2 hlen)] at h
  cases hscalar : v.decl.kind.isScalar with
  | true =>
    rw [hscalar, if_pos rfl] at h hhost
    obtain rfl := Except.ok.inj h
    refine ⟨by rw [hhost], fun hno => ?_, fun _ _ _ => rfl⟩
    rw [hscalar] at hno
    cases hno
  | false =>
    rw [hscalar, if_neg Bool.false_ne_true] at h hhost
    split at h
    · cases h
    · obtain rfl := Except.ok.inj h
      obtain ⟨hfits, hsame⟩ := fits_placeRoot (x := x) s (s.isBoundary x.id v.path) hlen
      exact ⟨by rw [hhost]; rfl, fun _ => by rw [hhost]; exact hfits, hsame⟩

/-- A visit of a node further down finds on the stack the container that handing down finds. -/
theorem hosted_of_absorb_below (hs : s.Instantiated) (hx : s.get? x.id = some x.blank)
    (hdata : v.decl.kind.isTransparent = false) (hfits : Fits s x v.below home?)
    (hown : Owns s x.id v.path) (hout : x.leavesOut o v = false)
    (hlen : v.path.length ≠ x.path.length) (h : x.absorb s o v = .ok y) :
    Hosted s o home? x v y := by
  have hle := length_le_of_owns hs hx hown
  have hdepth : x.depthOf v.path ≠ 0 := fun hzero => hlen ((depthOf_eq_zero_iff hle).1 hzero)
  obtain ⟨hbelow, hlevel, hparent⟩ := parentFor?_of_fits hs hx hfits hown hdepth
  rw [absorb, hout, if_neg Bool.false_ne_true, if_neg hdepth, hparent] at h
  have hhost := host_below (x := x.unlevelled) home? hown hout hlen
  cases home? with
  | none =>
    obtain rfl := Except.ok.inj h
    exact hosted_abandon hhost
  | some home =>
    obtain rfl := Except.ok.inj h
    obtain ⟨hchildren, hsame⟩ := fits_placeBelow s home (s.isBoundary x.id v.path)
      (referenceOf? s o x.id v) hbelow (List.getElem?_eq_some_iff.1 hlevel).1
    refine ⟨by rw [hhost]; exact unlevelled_put x v home _ _, fun hscalar => ?_, hsame⟩
    have hbranch := isBranch_of_placed hdata hscalar (ne_rpc_of_not_leavesOut hout)
    rw [hhost]
    simp only [hbranch, if_true]
    exact hchildren hbranch

/-- A visit makes of a resource what handing down the container of the parent does. -/
theorem hosted_of_see (hs : s.Instantiated) (hx : s.get? x.id = some x.blank)
    (hdata : v.decl.kind.isTransparent = false) (hfits : Fits s x v.below home?)
    (h : x.see s o v = .ok y) : Hosted s o home? x v y := by
  rw [see] at h
  by_cases hown : Owns s x.id v.path
  · rw [if_pos ⟨by simp [hdata], hown⟩] at h
    cases hout : x.leavesOut o v with
    | true =>
      rw [absorb, hout, if_pos rfl] at h
      obtain rfl := Except.ok.inj h
      exact hosted_abandon (host_of_not_taken home? (.inr hout))
    | false =>
      by_cases hlen : v.path.length = x.path.length
      · exact hosted_of_absorb_own hown hout hlen h
      · exact hosted_of_absorb_below hs hx hdata hfits hown hout hlen h
  · -- the children of a node that is not owned are not owned either
    rw [if_neg fun hboth => hown hboth.2] at h
    obtain rfl := Except.ok.inj h
    have hhost := host_of_not_taken (x := x.unlevelled) (o := o) home? (.inl hown)
    refine ⟨by rw [hhost], fun _ => ?_, fun _ _ _ => rfl⟩
    rw [hhost]
    exact ⟨fun _ => rfl, fun _ howns => absurd howns hown⟩

/-- The stack holds some container for children at a path, or none. -/
theorem exists_fits (s : ResourceSet) (x : Resource) (below : Path) :
    ∃ home?, Fits s x below home? := by
  rcases Nat.lt_or_ge below.length x.path.length with hlt | hge
  · exact ⟨none, fun _ => rfl, fun hle => absurd hlt (Nat.not_lt.2 hle)⟩
  · exact ⟨_, fun hlt => absurd hlt (Nat.not_lt.2 hge), fun _ _ => rfl⟩

/-- A visit keeps the levels above its node. -/
theorem sameLevels_of_see (hs : s.Instantiated) (hx : s.get? x.id = some x.blank)
    (h : x.see s o v = .ok y) : SameLevels x y v.below := by
  cases hdata : v.decl.kind.isTransparent with
  | true =>
    rw [see, if_neg fun hboth => hboth.1 hdata] at h
    obtain rfl := Except.ok.inj h
    exact fun _ _ _ => rfl
  | false =>
    obtain ⟨home?, hfits⟩ := exists_fits s x v.below
    exact (hosted_of_see hs hx hdata hfits h).sameLevels

/-- The stack that holds the container of the parent still does when its levels are the same. -/
theorem Fits.of_sameLevels (h : Fits s x below home?) (hblank : y.blank = x.blank)
    (hsame : SameLevels x y below) : Fits s y below home? := by
  rw [Fits, path_of_blank hblank, id_of_blank hblank]
  refine ⟨h.1, fun hlen hown => ?_⟩
  rw [hsame hlen _ (Nat.le_refl _)]
  exact h.2 hlen hown

theorem SameLevels.trans_below {z : Resource} (hxz : SameLevels x z v.below)
    (hzy : SameLevels z y v.path) (hblank : z.blank = x.blank) : SameLevels x y v.below := by
  intro hlen i hi
  have hpush := v.length_path
  rw [SameLevels, path_of_blank hblank] at hzy
  rw [hzy (by omega) i (by omega), hxz hlen i hi]

end Resource

/-! ### All nodes -/

namespace Node

open Resource

variable {s : ResourceSet} {o : Options}

mutual

/-- The visits of a node and of those below it make of a resource what handing containers down
makes of it, and the stack is then as before down to the depth of the parent. -/
theorem grow_of_visits (hs : s.Instantiated) {x y : Resource} {home? : Option Nat} {below : Path}
    {listKeys : List String} (n : Node) (hbare : n.scalarsBare = true)
    (hx : s.get? x.id = some x.blank) (hfits : Fits s x below home?)
    (h : x.seeAll s o (n.visits below listKeys) = .ok y) :
    y.unlevelled = n.grow s o home? below listKeys x.unlevelled ∧ SameLevels x y below := by
  obtain ⟨decl, children⟩ := n
  rw [scalarsBare, Bool.and_eq_true] at hbare
  rw [visits] at h
  rw [grow]
  cases hdata : decl.kind.isTransparent with
  | true =>
    -- a choice or a case is skipped: its children stand in its place
    simp only [hdata, if_true] at h ⊢
    obtain ⟨z, hz, h⟩ := seeAll_cons_eq_ok.1 h
    rw [see, if_neg fun hboth => hboth.1 hdata] at hz
    obtain rfl := Except.ok.inj hz
    exact growAll_of_visitsAll hs children hbare.2 hx hfits h
  | false =>
    simp only [hdata, Bool.false_eq_true, if_false] at h ⊢
    obtain ⟨z, hz, h⟩ := seeAll_cons_eq_ok.1 h
    have hblank := blank_of_see hz
    obtain ⟨hplaced, hchildren, hsame⟩ := hosted_of_see hs hx hdata hfits hz
    rw [← hplaced]
    cases hscalar : decl.kind.isScalar with
    | true =>
      rw [hscalar, Bool.not_true, Bool.false_or, List.isEmpty_iff] at hbare
      obtain rfl := hbare.1
      rw [visitsAll] at h
      obtain rfl := Except.ok.inj h
      rw [growAll]
      exact ⟨rfl, hsame⟩
    | false =>
      have hget := get?_of_blank hblank hx
      obtain ⟨hgrown, hdeeper⟩ := growAll_of_visitsAll hs children hbare.2 hget
        (hchildren hscalar) h
      exact ⟨hgrown, hsame.trans_below hdeeper hblank⟩
termination_by structural n

theorem growAll_of_visitsAll (hs : s.Instantiated) {x y : Resource} {home? : Option Nat}
    {below : Path} {listKeys : List String} (ns : List (String × Node))
    (hbare : scalarsBareAll ns = true) (hx : s.get? x.id = some x.blank)
    (hfits : Fits s x below home?) (h : x.seeAll s o (visitsAll below listKeys ns) = .ok y) :
    y.unlevelled = growAll s o home? below listKeys x.unlevelled ns ∧ SameLevels x y below := by
  match ns with
  | [] =>
    rw [visitsAll] at h
    obtain rfl := Except.ok.inj h
    rw [growAll]
    exact ⟨rfl, fun _ _ _ => rfl⟩
  | (_, n) :: rest =>
    rw [scalarsBareAll, Bool.and_eq_true] at hbare
    rw [visitsAll] at h
    obtain ⟨z, hz, h⟩ := seeAll_append_eq_ok.1 h
    have hblank := blank_of_seeAll hz
    obtain ⟨hgrown, hsame⟩ := grow_of_visits hs n hbare.1 hx hfits hz
    have hget := get?_of_blank hblank hx
    obtain ⟨hrest, hsame'⟩ := growAll_of_visitsAll hs rest hbare.2 hget
      (hfits.of_sameLevels hblank hsame) h
    rw [growAll, ← hgrown]
    refine ⟨hrest, fun hlen i hi => ?_⟩
    rw [SameLevels, path_of_blank hblank] at hsame'
    rw [hsame' hlen i hi, hsame hlen i hi]
termination_by structural ns

end

end Node

namespace Forest

open Resource

variable {s : ResourceSet} {o : Options}

theorem growModules_of_visits (hs : s.Instantiated) {x y : Resource} {home? : Option Nat}
    (modules : List Module) (hbare : (modules.all fun m => Node.scalarsBareAll m.nodes) = true)
    (hx : s.get? x.id = some x.blank) (hfits : Fits s x .root home?)
    (h : x.seeAll s o (modules.flatMap fun m => Node.visitsAll .root [] m.nodes) = .ok y) :
    y.unlevelled = growModules s o home? x.unlevelled modules := by
  induction modules generalizing x with
  | nil =>
    obtain rfl := Except.ok.inj h
    rfl
  | cons m modules ih =>
    rw [List.all_cons, Bool.and_eq_true] at hbare
    rw [List.flatMap_cons] at h
    obtain ⟨z, hz, h⟩ := seeAll_append_eq_ok.1 h
    have hblank := blank_of_seeAll hz
    obtain ⟨hgrown, hsame⟩ := Node.growAll_of_visitsAll hs m.nodes hbare.1 hx hfits hz
    have hget := get?_of_blank hblank hx
    rw [ih hbare.2 hget (hfits.of_sameLevels hblank hsame) h, hgrown]
    rfl

section

variable {t u : ResourceSet} {f : Forest} {stats : Stats} {id : Nat} {x : Resource}

/-- The resources before the first visit: only that of the whole schema gets a container. -/
theorem get?_prepared (hs : s.Instantiated) (ht : t.blank = s) (hx : t.get? id = some x) :
    t.prepared.get? id = some (x.started s) := by
  have hid := hs.id_eq ht hx
  have hmode : t.mode = s.mode := by
    rw [← ht]
    rfl
  rw [started, ResourceSet.prepared, hmode]
  by_cases htop : HasTop s x
  · rw [if_pos htop, htop.1]
    simp only
    rw [ResourceSet.get?_modify, if_pos (htop.2.symm.trans hid), hx, Option.map_some]
  · rw [if_neg htop]
    cases hmode' : s.mode with
    | declared => exact hx
    | full =>
      simp only
      rw [ResourceSet.get?_modify, if_neg fun heq => htop ⟨hmode', hid.trans heq.symm⟩, hx]

/-- Preparing the resources compiles no node. -/
theorem blank_prepared (ht : t.blank = s) : t.prepared.blank = s := by
  rw [ResourceSet.prepared]
  cases t.mode with
  | declared => exact ht
  | full => exact (ResourceSet.blank_modify fun x _ => x.blank_placeTop).trans ht

/-- Compilation that succeeds makes of a resource what the resource makes of all visits. -/
theorem seeAll_of_compile (hs : s.Instantiated) (ht : t.blank = s)
    (h : t.compile o f = (u, .ok stats)) (hx : t.get? id = some x) :
    ∃ y, (x.started s).seeAll s o f.visits = .ok y ∧ u.get? id = some y.unlevelled := by
  rw [ResourceSet.compile] at h
  split at h
  · next r hr =>
    obtain rfl := (Prod.mk.inj h).1
    obtain ⟨-, hall⟩ := Run.seeAll_of_visitAll hs (blank_prepared ht) hr
    obtain ⟨y, hy, hget⟩ := hall (get?_prepared hs ht hx)
    have hsettled : r.set.settled.get? id = (r.set.get? id).map Resource.unlevelled := by
      simp only [ResourceSet.get?, ResourceSet.settled, Array.getElem?_map]
      rfl
    exact ⟨y, hy, by rw [hsettled, hget, Option.map_some]⟩
  · cases (Prod.mk.inj h).2

/-- Only the resource of the whole schema owns the top. -/
theorem hasTop_of_owns_root (hs : s.Instantiated) (ht : t.blank = s) (hx : t.get? id = some x)
    (h : Owns s x.id .root) : HasTop s x := by
  have hid := hs.id_eq ht hx
  rw [hid] at h
  obtain ⟨-, hactive, hpre⟩ := hs.above_of_owns ht hx h
  cases hmode : s.mode with
  | full => exact ⟨hmode, hid.trans (hs.eq_rootId_of_active ht hmode hx hactive).1⟩
  | declared =>
    rw [ResourceSet.active, hmode] at hactive
    exact absurd (List.prefix_nil.1 hpre) (hs.writable _ hactive).2

/-- Before the first visit the stack holds the container for the top of the whole schema, or
none for what stands there, whatever it holds for other paths. -/
theorem fits_started (hs : s.Instantiated) (ht : t.blank = s) (hx : t.get? id = some x) :
    Fits s (x.started s) .root (if HasTop s x then some x.arena.size else none) := by
  rw [started]
  by_cases htop : HasTop s x
  · have hpath : x.placeTop.path = .root :=
      hs.path_root (x := x) ht (by rw [← htop.2, hs.id_eq ht hx, hx])
    rw [if_pos htop, if_pos htop, Fits, hpath]
    exact ⟨fun hlt => absurd hlt (Nat.lt_irrefl _), fun _ _ => rfl⟩
  · rw [if_neg htop, if_neg htop]
    exact ⟨fun _ => rfl, fun _ hown => absurd (hasTop_of_owns_root hs ht hx hown) htop⟩

/-- What compilation makes of a resource, whatever is in there before, is what handing containers
down makes of it. -/
theorem grow_of_compile_again (hs : s.Instantiated) (ht : t.blank = s)
    (hbare : f.scalarsBare = true) (h : t.compile o f = (u, .ok stats)) (hx : t.get? id = some x) :
    u.get? id = some (f.grow s o x.unlevelled) := by
  have hself : s.get? (x.started s).id = some (x.started s).blank := by
    rw [id_of_blank (blank_started s x), blank_started, hs.id_eq ht hx, ← ht,
      ResourceSet.get?_blank, hx, Option.map_some]
  obtain ⟨y, hy, hget⟩ := seeAll_of_compile hs ht h hx
  have hgrown := growModules_of_visits hs f.modules hbare hself (fits_started hs ht hx) hy
  rw [hget, hgrown, grow, started]
  by_cases htop : HasTop s x
  · have htop' : HasTop s x.unlevelled := htop
    rw [if_pos htop, if_pos htop, if_pos htop']
    rfl
  · have htop' : ¬ HasTop s x.unlevelled := htop
    rw [if_neg htop, if_neg htop, if_neg htop']

/-- What compilation makes of a resource is what handing containers down makes of it. -/
theorem grow_of_compile (hs : s.Instantiated) (hbare : f.scalarsBare = true)
    (h : s.compile o f = (t, .ok stats)) (hx : s.get? id = some x) :
    t.get? id = some (f.grow s o x) := by
  have hfresh : x.unlevelled = x := by
    rw [← hs.blank_eq hx]
    rfl
  rw [grow_of_compile_again hs hs.blank hbare h hx, hfresh]

end

end Forest

end YangPartition
