import YangPartition.Proofs.Compile.History
import YangPartition.Proofs.Compile.Selection
import YangPartition.Proofs.Compile.Success
import YangPartition.Proofs.Schema.Inheritance

/-!
# Leaving state out

In a schema whose nodes have all they inherit everything below state is state. Compiling it
without state then comes to what is left of the compilation with state when the containers and
entries of state are taken away and the places are counted anew.
-/

namespace YangPartition

/-! ### State below state -/

namespace Node

mutual

/-- Whether all nodes below state are state; `state` tells whether the node itself is below
state. -/
def passesState (state : Bool) : Node → Bool
  | ⟨decl, children⟩ => (!state || decl.readOnly) && passesStateAll decl.readOnly children
termination_by structural n => n

/-- Whether all nodes below state are state; `state` tells whether the given ones are. -/
def passesStateAll (state : Bool) : List (String × Node) → Bool
  | [] => true
  | (_, n) :: rest => n.passesState state && passesStateAll state rest
termination_by structural ns => ns

end

mutual

theorem passesState_inherit (name : String) (outer : Identity) (state : Bool) (n : Node) :
    (n.inherit name outer state).passesState state = true := by
  obtain ⟨decl, children⟩ := n
  rw [inherit, passesState, passesStateAll_inheritAll, Bool.and_true, Declaration.inherit]
  cases state <;> cases decl.readOnly <;> rfl
termination_by structural n

theorem passesStateAll_inheritAll (outer : Identity) (state : Bool) (ns : List (String × Node)) :
    passesStateAll state (inheritAll outer state ns) = true := by
  match ns with
  | [] => rfl
  | (name, n) :: rest =>
    rw [inheritAll, passesStateAll, passesState_inherit, passesStateAll_inheritAll, Bool.and_true]
termination_by structural ns

end

end Node

/-- Whether the nodes of all modules have all they inherit. -/
def Forest.IsInherited (f : Forest) : Prop := ∀ m ∈ f.modules, m.inherited = m

namespace Forest

theorem IsInherited.passesState {f : Forest} (h : f.IsInherited) {m : Module}
    (hm : m ∈ f.modules) : Node.passesStateAll false m.nodes = true := by
  rw [← h m hm]
  exact Node.passesStateAll_inheritAll _ _ _

/-- The nodes of a forest have all they inherit. -/
theorem isInherited_ofModules (modules : List Module) : (ofModules modules).IsInherited := by
  intro m hm
  obtain ⟨l, -, rfl⟩ := List.mem_map.1 (List.mem_mergeSort.1 hm)
  exact l.inherited_inherited

end Forest

/-! ### Planning without state -/

/-- The options without state. -/
def Options.withoutState (o : Options) : Options := { o with includeState := false }

/-- Whether a node can be configured. -/
def Visit.isConfig (v : Visit) : Bool := !v.decl.readOnly

namespace Resource

variable {s : ResourceSet} {o : Options} {x : Resource} {v : Visit}

theorem takes_of_state (ho : o.includeState = false) (hv : v.decl.readOnly = true) :
    x.takes s o v = false := by
  simp [takes, leavesOut, ho, hv]

theorem takes_withoutState (hv : v.decl.readOnly = false) :
    x.takes s o.withoutState v = x.takes s o v := by
  simp [takes, leavesOut, hv]

theorem opensRoot_of_withoutState (h : x.opensRoot s o.withoutState v = true) :
    x.opensRoot s o v = true := by
  cases hv : v.decl.readOnly with
  | true =>
    rw [opensRoot, takes_of_state rfl hv] at h
    cases h
  | false =>
    rw [opensRoot, takes_withoutState hv] at h
    exact h

end Resource

namespace Node

open Planned

variable {s : ResourceSet} {o : Options} {x : Resource}

mutual

/-- Of state nothing is planned when state is left out. -/
theorem plan_of_state (ho : o.includeState = false) (hosted : Bool) (below : Path)
    (listKeys : List String) (n : Node) (h : n.passesState true = true) :
    n.plan s o x hosted below listKeys = [] := by
  obtain ⟨decl, children⟩ := n
  rw [passesState, Bool.not_true, Bool.false_or, Bool.and_eq_true] at h
  obtain ⟨hstate, hchildren⟩ := h
  rw [hstate] at hchildren
  rw [plan]
  split
  · exact planAll_of_state ho hosted below listKeys children hchildren
  · simp only
    rw [Resource.takes_of_state ho hstate, Bool.false_and, if_neg Bool.false_ne_true]
    exact planAll_of_state ho false _ _ children hchildren
termination_by structural n

theorem planAll_of_state (ho : o.includeState = false) (hosted : Bool) (below : Path)
    (listKeys : List String) (ns : List (String × Node)) (h : passesStateAll true ns = true) :
    planAll s o x hosted below listKeys ns = [] := by
  match ns with
  | [] => rfl
  | (_, n) :: rest =>
    rw [passesStateAll, Bool.and_eq_true] at h
    rw [planAll, plan_of_state ho hosted below listKeys n h.1,
      planAll_of_state ho hosted below listKeys rest h.2, List.append_nil]
termination_by structural ns

end

mutual

/-- Without state those nodes are planned that can be configured. -/
theorem selects_withoutState (inside hosted : Bool) (below : Path) (listKeys : List String)
    {state : Bool} (n : Node) (h : n.passesState state = true) :
    Selects Visit.isConfig inside (n.plan s o x hosted below listKeys)
      (n.plan s o.withoutState x hosted below listKeys) := by
  obtain ⟨decl, children⟩ := n
  rw [passesState, Bool.and_eq_true] at h
  obtain ⟨-, hchildren⟩ := h
  rw [plan, plan]
  split
  · exact selectsAll_withoutState inside hosted below listKeys children hchildren
  simp only
  generalize hv : (⟨below, listKeys, decl⟩ : Visit) = v
  have hdecl : v.decl = decl := by rw [← hv]
  cases hstate : decl.readOnly with
  | true =>
    -- what is below state is state too, so nothing is planned in its place
    rw [hstate] at hchildren
    have hnone : ∀ hosted, planAll s o.withoutState x hosted v.path decl.keysBelow children = [] :=
      fun hosted => planAll_of_state rfl hosted _ _ children hchildren
    have hbelow := fun inside hosted =>
      selectsAll_withoutState inside hosted v.path decl.keysBelow children hchildren
    simp only [hnone] at hbelow
    rw [Resource.takes_of_state (o := o.withoutState) rfl (hdecl.symm ▸ hstate), Bool.false_and,
      if_neg Bool.false_ne_true, hnone]
    split
    · exact .drop (by rw [Visit.isConfig, hdecl, hstate]; rfl) (hbelow false _)
    · exact hbelow inside false
  | false =>
    rw [Resource.takes_withoutState (hdecl.symm ▸ hstate)]
    split
    · exact .keep (by rw [Visit.isConfig, hdecl, hstate]; rfl)
        (selectsAll_withoutState true _ _ _ children hchildren)
    · exact selectsAll_withoutState inside false _ _ children hchildren
termination_by structural n

theorem selectsAll_withoutState (inside hosted : Bool) (below : Path) (listKeys : List String)
    {state : Bool} (ns : List (String × Node)) (h : passesStateAll state ns = true) :
    Selects Visit.isConfig inside (planAll s o x hosted below listKeys ns)
      (planAll s o.withoutState x hosted below listKeys ns) := by
  match ns with
  | [] => exact .nil
  | (_, n) :: rest =>
    rw [passesStateAll, Bool.and_eq_true] at h
    exact .append (selects_withoutState inside hosted below listKeys n h.1)
      (selectsAll_withoutState inside hosted below listKeys rest h.2)
termination_by structural ns

end

mutual

/-- What is planned below state is state. -/
theorem relates_state (hosted : Bool) (below : Path) (listKeys : List String) {state : Bool}
    (n : Node) (h : n.passesState state = true) :
    RelatesAll (fun u v => u.decl.readOnly = true → v.decl.readOnly = true)
      (fun v => state = true → v.decl.readOnly = true) (n.plan s o x hosted below listKeys) := by
  obtain ⟨decl, children⟩ := n
  rw [passesState, Bool.and_eq_true] at h
  obtain ⟨hself, hchildren⟩ := h
  have hpass : state = true → decl.readOnly = true := by
    rintro rfl
    simpa using hself
  have hbelow := fun hosted below listKeys =>
    relatesAll_state hosted below listKeys children hchildren
  rw [plan]
  split
  · exact (hbelow hosted below listKeys).imp fun v hv hstate => hv (hpass hstate)
  simp only
  split
  · exact ⟨hpass, hbelow _ _ _, trivial⟩
  · exact (hbelow false _ _).imp fun v hv hstate => hv (hpass hstate)
termination_by structural n

theorem relatesAll_state (hosted : Bool) (below : Path) (listKeys : List String) {state : Bool}
    (ns : List (String × Node)) (h : passesStateAll state ns = true) :
    RelatesAll (fun u v => u.decl.readOnly = true → v.decl.readOnly = true)
      (fun v => state = true → v.decl.readOnly = true)
      (planAll s o x hosted below listKeys ns) := by
  match ns with
  | [] => exact trivial
  | (_, n) :: rest =>
    rw [passesStateAll, Bool.and_eq_true] at h
    exact (relates_state hosted below listKeys n h.1).append
      (relatesAll_state hosted below listKeys rest h.2)
termination_by structural ns

end

end Node

namespace Forest

open Planned

variable {s : ResourceSet} {o : Options} {x : Resource} {f : Forest}

theorem selects_withoutState (hinherited : f.IsInherited) (inside : Bool) :
    Selects Visit.isConfig inside (f.plan s o x) (f.plan s o.withoutState x) :=
  Selects.flatMap fun _ hm =>
    Node.selectsAll_withoutState inside _ _ _ _ (hinherited.passesState hm)

theorem relates_state (hinherited : f.IsInherited) :
    RelatesAll (fun u v => u.decl.readOnly = true → v.decl.readOnly = true) (fun _ => True)
      (f.plan s o x) :=
  RelatesAll.flatMap fun _ hm =>
    (Node.relatesAll_state _ _ _ _ (hinherited.passesState hm)).imp fun _ _ => trivial

end Forest

/-! ### Containers without state -/

/-- A container without its entries for state, when only some places are kept. -/
def Container.withoutState (kept : Nat → Bool) (c : Container) : Container :=
  let entries := (c.entries.filter (!·.readOnly)).map (·.mapPlace (Nat.count (kept ·)))
  { c with
    entries
    parent? := c.parent?.map (Nat.count (kept ·))
    children := (c.children.filter kept).map (Nat.count (kept ·))
    defaults := entries.foldl Entry.recordDefault [] }

/-- A container without its references. -/
def Container.unreferenced (c : Container) : Container := { c with references := [] }

namespace Arena

/-- Whether neither a container nor one above it is state. -/
def isConfig (a : Arena) (place : Nat) : Bool :=
  (place :: a.ancestors place).all fun i => (a.get? i).any (!·.readOnly)

/-- The containers that are left when every container for state is taken away with all
containers below it, and every entry for state; their places are counted anew. -/
def withoutState (a : Arena) : List Container :=
  (a.toList.zipIdx.filter fun p => a.isConfig p.2).map fun p => p.1.withoutState a.isConfig

theorem mem_zipIdx_toList {a : Arena} {c : Container} {i : Nat} :
    (c, i) ∈ a.toList.zipIdx ↔ a.get? i = some c := by
  rw [List.mk_mem_zipIdx_iff_getElem?, get?, toList, Array.getElem?_toList]

/-- When what is below state is state, a container can be kept exactly when it is none. -/
theorem isConfig_eq {a : Arena}
    (h : ∀ {i c p}, a.get? i = some c → c.parent? = some p →
      ∃ d, a.get? p = some d ∧ (d.readOnly = true → c.readOnly = true))
    {i : Nat} {c : Container} (hc : a.get? i = some c) : a.isConfig i = !c.readOnly := by
  have habove : ∀ n i c, a.get? i = some c → c.readOnly = false →
      (a.above n i).all (fun j => (a.get? j).any (!·.readOnly)) = true := by
    intro n
    induction n with
    | zero => exact fun _ _ _ _ => rfl
    | succ n ih =>
      intro i c hc hstate
      rw [above, parent?_of_get? hc]
      cases hp : c.parent? with
      | none => rfl
      | some p =>
        obtain ⟨d, hd, hpass⟩ := h hc hp
        have hdstate : d.readOnly = false := by
          rw [← Bool.not_eq_true]
          intro htrue
          rw [hpass htrue] at hstate
          cases hstate
        simp only [List.all_cons, hd, Option.any_some, hdstate, Bool.not_false, Bool.true_and]
        exact ih p d hd hdstate
  rw [isConfig, List.all_cons, hc, Option.any_some]
  cases hstate : c.readOnly with
  | true => rfl
  | false =>
    rw [ancestors, habove i i c hc hstate]
    rfl

end Arena

/-! ### Filling containers without state -/

section

variable {s : ResourceSet} {o o' : Options} {id : Nat} {kept : Nat → Bool}

theorem Entry.readOnly_ofHeld (h : Visit × Option Nat) :
    (Entry.ofHeld s o id h).readOnly = h.1.decl.readOnly := by
  rw [ofHeld]
  split
  · rfl
  · rfl

/-- The entries that are left of those for nodes are the entries for the nodes that are left. -/
theorem Entry.map_keptHeld (ho : o'.overrides = o.overrides) (held : List (Visit × Option Nat)) :
    (Slot.keptHeld Visit.isConfig kept held).map (ofHeld s o' id) =
      ((held.map (ofHeld s o id)).filter (!·.readOnly)).map
        (·.mapPlace (Nat.count (kept ·))) := by
  have hplaced : ∀ h : Visit × Option Nat, ofHeld s o' id (h.1, h.2.map (Nat.count (kept ·))) =
      (ofHeld s o id h).mapPlace (Nat.count (kept ·)) := by
    intro h
    rw [Entry.ofHeld_congr ho]
    obtain ⟨v, place?⟩ := h
    cases place? <;> rfl
  simp only [Slot.keptHeld, List.map_map, List.filter_map, Function.comp_def, hplaced,
    readOnly_ofHeld]
  rfl

/-- Leaving state out of a container that has been filled is filling it without state. -/
theorem Container.withoutState_filled (ho : o'.overrides = o.overrides) (c : Container)
    {held : List (Visit × Option Nat)}
    (hheld : ∀ v place, (v, some place) ∈ held → kept place = v.isConfig) :
    ((c.filled s o id held).withoutState kept).unreferenced =
      ((c.withoutState kept).filled s o' id (Slot.keptHeld Visit.isConfig kept held)).unreferenced := by
  rw [filled, filled, withoutState, withoutState, unreferenced, unreferenced]
  simp only [List.filter_append, List.map_append, List.foldl_append, Entry.map_keptHeld ho,
    Slot.filterMap_keptHeld hheld]

/-- The container made for a node that can be configured holds no state. -/
theorem Container.withoutState_made (ho : o'.overrides = o.overrides) (parent? : Option Nat)
    {v : Visit} (hv : v.isConfig = true) :
    (Container.made s o id parent? v).withoutState kept =
      Container.made s o' id (parent?.map (Nat.count (kept ·))) v := by
  rw [Visit.isConfig] at hv
  rw [made, made, Resource.target_referenceOf?, Resource.target_referenceOf?, ho]
  split
  · cases hdefault : v.decl.default? <;>
      simp [withoutState, pushValue, ofDeclaration, Entry.value, Entry.ofDeclaration,
        Entry.recordDefault, Entry.mapPlace, hv, hdefault]
  · rfl

/-- What is left of the container of a slot is the container of what is left of the slot. -/
theorem Slot.container_renumbered (ho : o'.overrides = o.overrides) {t : Slot}
    (ht : t.visit.isConfig = true) (hparent : ∀ p, t.parent? = some p → kept p = true)
    (hheld : ∀ v place, (v, some place) ∈ t.held → kept place = v.isConfig) :
    ((t.renumbered Visit.isConfig kept).container s o' id).unreferenced =
      ((t.container s o id).withoutState kept).unreferenced := by
  have hparent? : (t.renumbered Visit.isConfig kept).parent? =
      t.parent?.map (Nat.count (kept ·)) := by
    rw [renumbered]
    simp only
    cases hp : t.parent? with
    | none => rfl
    | some p => rw [Option.filter_some, if_pos (hparent p hp)]
  rw [container, container, hparent?, Container.withoutState_filled ho _ hheld,
    Container.withoutState_made ho _ ht]
  rfl

end

namespace Forest

open Planned

variable {s : ResourceSet} {o : Options} {x : Resource} {f : Forest} {id : Nat}

/-- What stands below state is state. -/
theorem state_above (hs : s.Instantiated) (hx : s.get? id = some x) (hinherited : f.IsInherited)
    {i p : Nat} {c : Container} (hc : (f.grow s o x).arena.get? i = some c)
    (hp : c.parent? = some p) : ∃ d, (f.grow s o x).arena.get? p = some d ∧
      (d.readOnly = true → c.readOnly = true) := by
  rcases get?_grow_cases hs hx hc with ⟨-, -, rfl⟩ | ⟨k, t, -, ht, rfl⟩
  · cases hp
  rw [Slot.container_eq] at hp ⊢
  rcases above_slot (relates_state hinherited) ht hp with ⟨htop, rfl, -⟩ | ⟨j, u, -, rfl, hu, hrel⟩
  · exact ⟨_, get?_grow_top hs hx htop, fun h => (by cases h)⟩
  · refine ⟨_, by rw [get?_grow hs hx, hu, Option.map_some], fun h => ?_⟩
    rw [Slot.container_eq] at h
    exact hrel h

/-- The container of a slot is kept when its node can be configured. -/
theorem isConfig_slot (hs : s.Instantiated) (hx : s.get? id = some x) (hinherited : f.IsInherited)
    {k : Nat} {t : Slot} (ht : (f.slots s o x)[k]? = some t) :
    (f.grow s o x).arena.isConfig (x.firstPlace s + k) = t.visit.isConfig := by
  have hget : (f.grow s o x).arena.get? (x.firstPlace s + k) = some (t.container s o x.id) := by
    rw [get?_grow hs hx, ht, Option.map_some]
  rw [Arena.isConfig_eq (state_above hs hx hinherited) hget, Slot.container_eq]
  rfl

/-- The container of the top of the whole schema is kept. -/
theorem isConfig_top (hs : s.Instantiated) (hx : s.get? id = some x) (hinherited : f.IsInherited)
    (htop : Resource.HasTop s x) : (f.grow s o x).arena.isConfig 0 = true := by
  rw [Arena.isConfig_eq (state_above hs hx hinherited) (get?_grow_top hs hx htop)]
  rfl

/-- Without state those slots are left whose nodes can be configured. -/
theorem slots_withoutState (hs : s.Instantiated) (hx : s.get? id = some x)
    (hinherited : f.IsInherited) : f.slots s o.withoutState x =
      ((f.slots s o x).filter (·.visit.isConfig)).map
        (Slot.renumbered Visit.isConfig (f.grow s o x).arena.isConfig) := by
  have hselects := selects_withoutState (s := s) (o := o) (x := x) hinherited true
  have hslots := hselects.slotsAll_eq (fun k t ht => isConfig_slot hs hx hinherited ht)
    fun hout => (by cases hout)
  rw [slots, slots, ← hslots, Resource.topPlace?, Resource.firstPlace]
  split
  · next htop =>
    have hzero := isConfig_top (o := o) hs hx hinherited htop
    rw [Option.filter_some, if_pos hzero, Option.map_some, Nat.count_succ, if_pos hzero]
    rfl
  · rfl

theorem top_withoutState (hs : s.Instantiated) (hx : s.get? id = some x)
    (hinherited : f.IsInherited) : (f.top s o.withoutState x).map Container.unreferenced =
      (((f.top s o x).zipIdx.filter fun p => (f.grow s o x).arena.isConfig p.2).map fun p =>
        p.1.withoutState (f.grow s o x).arena.isConfig).map Container.unreferenced := by
  rw [top, top]
  split
  · next htop =>
    have hzero := isConfig_top (o := o) hs hx hinherited htop
    have hfirst : x.firstPlace s = 1 := if_pos htop
    have hmarks : Slot.Marks Visit.isConfig (f.grow s o x).arena.isConfig (x.firstPlace s)
      (f.slots s o x) := fun k t ht => isConfig_slot hs hx hinherited ht
    have hplaces := (selects_withoutState hinherited true).placesAll_eq rfl hmarks
    rw [hfirst, Nat.count_succ, if_pos hzero, Nat.count_zero, Nat.zero_add] at hplaces
    have hheld : ∀ v place, (v, some place) ∈ placesAll 1 (f.plan s o x) →
        (f.grow s o x).arena.isConfig place = v.isConfig := by
      intro v place hv
      obtain ⟨j, u, hu, rfl, rfl⟩ := exists_slot_of_mem_placesAll (x.topPlace? s) hv
      rw [← hfirst]
      refine isConfig_slot hs hx hinherited ?_
      rw [slots, hfirst, hu]
    rw [List.zipIdx_singleton, List.filter_singleton, hzero, cond_true, List.map_singleton,
      List.map_singleton, List.map_singleton]
    simp only
    have hoverrides : o.withoutState.overrides = o.overrides := rfl
    rw [Container.withoutState_filled hoverrides _ hheld, ← hplaces]
    rfl
  · rfl

/-- What is left of a slot makes what is left of its container. -/
theorem container_withoutState (hs : s.Instantiated) (hx : s.get? id = some x)
    (hinherited : f.IsInherited) {k : Nat} {t : Slot} (ht : (f.slots s o x)[k]? = some t)
    (hconfig : t.visit.isConfig = true) :
    ((t.renumbered Visit.isConfig (f.grow s o x).arena.isConfig).container s o.withoutState
        x.id).unreferenced =
      ((t.container s o x.id).withoutState (f.grow s o x).arena.isConfig).unreferenced := by
  have hrel := relates_state (s := s) (o := o) (x := x) hinherited
  refine Slot.container_renumbered (o := o) rfl hconfig (fun p hp => ?_) fun v place hv => ?_
  · rcases above_slot hrel ht hp with ⟨htop, rfl, -⟩ | ⟨j, u, -, rfl, hu, hpass⟩
    · exact isConfig_top hs hx hinherited htop
    · rw [isConfig_slot hs hx hinherited hu]
      rw [Visit.isConfig, Bool.not_eq_true'] at hconfig ⊢
      rw [← Bool.not_eq_true] at hconfig ⊢
      exact fun hstate => hconfig (hpass hstate)
  · obtain ⟨j, u, hu, rfl, rfl⟩ := (linked_slots hrel).place (List.mem_of_getElem? ht) hv
    exact isConfig_slot hs hx hinherited hu

/-- The containers without state are what is left of those with state. -/
theorem toList_withoutState (hs : s.Instantiated) (hx : s.get? id = some x)
    (hinherited : f.IsInherited) :
    (f.grow s o.withoutState x).arena.toList.map Container.unreferenced =
      (f.grow s o x).arena.withoutState.map Container.unreferenced := by
  have hmarks : Slot.Marks Visit.isConfig (f.grow s o x).arena.isConfig (x.firstPlace s)
    (f.slots s o x) := fun k t ht => isConfig_slot hs hx hinherited ht
  rw [Arena.withoutState, toList_grow hs hx]
  conv_rhs => rw [toList_grow hs hx, layout_eq_slots, List.zipIdx_append, Nat.zero_add, length_top]
  rw [layout_eq_slots, List.map_append, top_withoutState hs hx hinherited, List.filter_append,
    List.map_append, List.map_append, List.zipIdx_map, slots_withoutState hs hx hinherited]
  congr 1
  rw [List.filter_map, List.map_map, List.map_map, List.map_map, List.map_map,
    ← hmarks.filter_zipIdx, List.map_map]
  refine List.map_congr_left fun p hp => ?_
  obtain ⟨hmem, hkept⟩ := List.mem_filter.1 hp
  obtain ⟨t, place⟩ := p
  obtain ⟨hle, ht⟩ := List.mk_mem_zipIdx_iff_le_and_getElem?_sub.1 hmem
  refine container_withoutState hs hx hinherited ht ?_
  rw [← isConfig_slot hs hx hinherited ht, Nat.add_sub_cancel' hle]
  exact hkept

/-- What stands below a root container that is state is left out with it. -/
theorem isConfig_root (hs : s.Instantiated) (hx : s.get? id = some x) (hinherited : f.IsInherited)
    (hsound : (f.grow s o x).Sound [0]) {i : Nat} {c : Container}
    (hc : (f.grow s o x).arena.get? i = some c) (hconfig : c.readOnly = false) :
    (f.grow s o x).arena.isConfig 0 = true := by
  induction i using Nat.strong_induction_on generalizing c with
  | _ i ih =>
    cases hp : c.parent? with
    | none =>
      obtain rfl := List.mem_singleton.1 ((hsound.top_iff hc).1 hp)
      rw [Arena.isConfig_eq (state_above hs hx hinherited) hc, hconfig, Bool.not_false]
    | some p =>
      obtain ⟨d, hd, hpass⟩ := state_above hs hx hinherited hc hp
      refine ih p (hsound.linked.parent_lt ((Arena.parent?_of_get? hc).trans hp)) hd ?_
      rw [← Bool.not_eq_true] at hconfig ⊢
      exact fun hstate => hconfig (hpass hstate)

/-- Nothing is left without state just when all containers are state. -/
theorem withoutState_eq_nil_iff (hs : s.Instantiated) (hx : s.get? id = some x)
    (hinherited : f.IsInherited) : (f.grow s o x).arena.withoutState = [] ↔
      ∀ {i c}, (f.grow s o x).arena.get? i = some c → c.readOnly = true := by
  rw [Arena.withoutState, List.map_eq_nil_iff, List.filter_eq_nil_iff]
  constructor
  · intro h i c hc
    have := h (c, i) (Arena.mem_zipIdx_toList.2 hc)
    rw [Arena.isConfig_eq (state_above hs hx hinherited) hc] at this
    simpa using this
  · rintro h ⟨c, i⟩ hp
    have hc := Arena.mem_zipIdx_toList.1 hp
    simp only
    rw [Arena.isConfig_eq (state_above hs hx hinherited) hc, h hc]
    exact Bool.false_ne_true

/-- So something is left just when the root container is. -/
theorem withoutState_eq_nil_iff_root (hs : s.Instantiated) (hx : s.get? id = some x)
    (hinherited : f.IsInherited) (hsound : (f.grow s o x).Sound [0]) :
    (f.grow s o x).arena.withoutState = [] ↔ (f.grow s o x).arena.isConfig 0 = false := by
  rw [withoutState_eq_nil_iff hs hx hinherited]
  constructor
  · intro h
    obtain ⟨c, hc⟩ := Arena.exists_get? (hsound.top_lt List.mem_cons_self)
    rw [Arena.isConfig_eq (state_above hs hx hinherited) hc, h hc, Bool.not_true]
  · intro hroot i c hc
    by_contra hconfig
    have := isConfig_root hs hx hinherited hsound hc (Bool.eq_false_iff.2 hconfig)
    rw [hroot] at this
    cases this

/-- The root container without state is that with state, if it is kept. -/
theorem root?_withoutState (hs : s.Instantiated) (hx : s.get? id = some x)
    (hinherited : f.IsInherited)
    (hsound : (f.grow s o x).Sound [] ∨ (f.grow s o x).Sound [0])
    (hsound' : (f.grow s o.withoutState x).Sound [] ∨ (f.grow s o.withoutState x).Sound [0]) :
    (f.grow s o.withoutState x).root? =
      ((f.grow s o x).root?.filter (f.grow s o x).arena.isConfig).map
        (Nat.count ((f.grow s o x).arena.isConfig ·)) := by
  have hsize : (f.grow s o.withoutState x).arena.size = 0 ↔
      (f.grow s o x).arena.withoutState = [] := by
    have := congrArg List.length (toList_withoutState (o := o) hs hx hinherited)
    rw [List.length_map, List.length_map, Arena.length_toList] at this
    rw [this, List.length_eq_zero_iff]
  rw [Resource.root?_eq_of_sound hsound']
  rcases hsound with hsound | hsound
  · have hnone : (f.grow s o x).root? = none := hsound.root_eq
    rw [hnone, if_pos]
    · rfl
    · refine hsize.2 ((withoutState_eq_nil_iff hs hx hinherited).2 fun hc => ?_)
      exact absurd (Arena.get?_lt hc) (by rw [hsound.size_eq_zero]; exact Nat.not_lt_zero _)
  · have hroot : (f.grow s o x).root? = some 0 := hsound.root_eq
    rw [withoutState_eq_nil_iff_root hs hx hinherited hsound] at hsize
    rw [hroot, Option.filter_some]
    cases hconfig : (f.grow s o x).arena.isConfig 0 with
    | true =>
      rw [if_pos rfl, Option.map_some, Nat.count_zero, if_neg]
      exact fun hzero => Bool.false_ne_true ((hsize.1 hzero).symm.trans hconfig)
    | false =>
      rw [if_neg Bool.false_ne_true, Option.map_none, if_pos (hsize.2 hconfig)]

end Forest

/-! ### The result -/

namespace ResourceSet

variable {s : ResourceSet} {o : Options} {f : Forest}

/-- A compilation that comes to its end still does without state. -/
theorem Instantiated.exists_compile_withoutState (hs : s.Instantiated)
    (h : ∃ t stats, s.compile o f = (t, .ok stats)) :
    ∃ t stats, s.compile o.withoutState f = (t, .ok stats) := by
  obtain ⟨hnames, hcount⟩ := (exists_compile_iff hs f).1 h
  refine (exists_compile_iff hs f).2 ⟨hnames, fun {id x} hx => Nat.le_trans ?_ (hcount hx)⟩
  exact Nat.add_le_add_left
    (List.countP_mono_left fun v _ hv => Resource.opensRoot_of_withoutState hv) _

/-- Compiling a schema whose nodes have all they inherit without state is taking the state away:
it comes to its end if the compilation with state does, and the containers of every resource are
those that are left of the containers with state when all that are state are taken away with
what is below them, and from those left all entries that are state. -/
theorem compile_withoutState {m : ResourceMap} {mode : Mode} (hs : ofMap m mode = .ok s)
    (hinherited : f.IsInherited) (hbare : f.scalarsBare = true) {t : ResourceSet} {stats : Stats}
    (h : s.compile o f = (t, .ok stats)) :
    ∃ t' stats', s.compile { o with includeState := false } f = (t', .ok stats') ∧
      ∀ {id y}, t.get? id = some y → ∃ y', t'.get? id = some y' ∧
        y'.arena.toList.map Container.unreferenced =
          y.arena.withoutState.map Container.unreferenced ∧
        y'.root? = (y.root?.filter y.arena.isConfig).map (Nat.count (y.arena.isConfig ·)) := by
  have hinst := instantiated_ofMap hs
  obtain ⟨t', stats', h'⟩ := hinst.exists_compile_withoutState ⟨t, stats, h⟩
  refine ⟨t', stats', h', fun {id y} hy => ?_⟩
  have hblank := hinst.blank_compile h
  obtain ⟨x, hx, -⟩ := exists_get?_of_blank hinst.blank hblank hy
  have hgrown := Forest.grow_of_compile hinst hbare h hx
  have hgrown' := Forest.grow_of_compile hinst hbare h' hx
  obtain rfl := Option.some.inj (hgrown.symm.trans hy)
  refine ⟨_, hgrown', Forest.toList_withoutState hinst hx hinherited,
    Forest.root?_withoutState hinst hx hinherited ?_ ?_⟩
  · exact hinst.sound_compile o f (by rw [h, hgrown])
  · exact hinst.sound_compile o.withoutState f (by rw [h', hgrown'])

/-- A container for state is left out with the container below it, and a leaf beside them; the
container behind them moves up. -/
theorem compile_withoutState_nested :
    let c : Node := ⟨{ name := "c", kind := .container }, [("k", .ofLeaf "k" "string")]⟩
    let b : Node := ⟨{ name := "b", kind := .container, readOnly := true }, [("c", c)]⟩
    let d : Node := ⟨{ name := "d", kind := .container }, [("k", .ofLeaf "k" "string")]⟩
    let e : Node := ⟨{ name := "e", kind := .leaf, readOnly := true, typeName := "string" }, []⟩
    let a : Node := ⟨{ name := "a", kind := .container }, [("b", b), ("d", d), ("e", e)]⟩
    let f := Forest.ofModules [{ name := "m", nodes := [("a", a)] }]
    ∃ s t stats t' stats' y y', ofMap { declared := [("/a", {})] } .declared = .ok s ∧
      f.IsInherited ∧ f.scalarsBare = true ∧
      s.compile { includeState := true } f = (t, .ok stats) ∧ s.compile {} f = (t', .ok stats') ∧
      t.get? 1 = some y ∧ t'.get? 1 = some y' ∧
      y.arena.toList.map (fun c => (c.name, c.entries.map (·.next?))) =
        [("a", [some 1, some 3, none]), ("b", [some 2]), ("c", [none]), ("d", [none])] ∧
      y.arena.withoutState.map (fun c => (c.name, c.entries.map (·.next?))) =
        [("a", [some 1]), ("d", [none])] ∧
      y'.arena.toList.map Container.unreferenced =
        y.arena.withoutState.map Container.unreferenced ∧ y'.root? = some 0 := by
  intro c b d e a f
  have hbare : f.scalarsBare = true := by decide +kernel
  obtain ⟨s, hs, htest⟩ := exists_ok_of_any
    (p := fun s => (s.compile { includeState := true } f).2.toOption.isSome &&
      ((s.compile { includeState := true } f).1.get? 1).any fun y =>
        y.arena.toList.map (fun c => (c.name, c.entries.map (·.next?))) ==
          [("a", [some 1, some 3, none]), ("b", [some 2]), ("c", [none]), ("d", [none])] &&
        y.arena.withoutState.map (fun c => (c.name, c.entries.map (·.next?))) ==
          [("a", [some 1]), ("d", [none])] &&
        (y.root?.filter y.arena.isConfig).map (Nat.count (y.arena.isConfig ·)) == some 0)
    (show (ofMap { declared := [("/a", {})] } .declared).toOption.any _ = true by decide +kernel)
  simp only [Bool.and_eq_true, Option.any_eq_true, beq_iff_eq] at htest
  obtain ⟨hok, y, hy, ⟨hlist, hleft⟩, hroot⟩ := htest
  obtain ⟨stats, hstats⟩ := exists_ok_of_isSome hok
  have hinherited : f.IsInherited := Forest.isInherited_ofModules _
  obtain ⟨t', stats', h', hall⟩ :=
    compile_withoutState hs hinherited hbare (Prod.ext rfl hstats)
  obtain ⟨y', hy', hcontainers, hroot'⟩ := hall hy
  exact ⟨s, _, stats, t', stats', y, y', hs, hinherited, hbare, Prod.ext rfl hstats, h', hy, hy',
    hlist, hleft, hcontainers, hroot'.trans hroot⟩

end ResourceSet

end YangPartition
