import YangPartition.Proofs.Compile.Sound
import YangPartition.Proofs.Container.Marks

/-!
# Histories

Forests are compiled into a set of resources again and again, nodes are walked from
any path on, and any of this may stop with an error. After every call, and between
any two visits, the containers of all resources are linked as they should be.
-/

namespace YangPartition

/-! ### Finishing -/

namespace Resource

variable {s : ResourceSet} {o : Options} {x y : Resource} {tops : List Nat} {v : Visit}

/-- Writing types changes entries and references only. -/
theorem get?_withTypes (x : Resource) (f : Findings) (i : Nat) :
    (x.withTypes f).arena.get? i = (x.arena.get? i).map fun c =>
      { c with
        entries := c.entries.map (typedEntry f)
        references := c.references.map (typedReference f) } := by
  simp [withTypes, Arena.get?]

/-- Writing types changes no shape. -/
theorem shape_withTypes (x : Resource) (f : Findings) (i : Nat) :
    ((x.withTypes f).arena.get? i).map Container.shape = (x.arena.get? i).map Container.shape := by
  have hentry : ∀ e : Entry,
      ((typedEntry f e).kind, (typedEntry f e).next?) = (e.kind, e.next?) := by
    intro e
    rw [typedEntry]
    split <;> rfl
  rw [get?_withTypes, Option.map_map]
  cases x.arena.get? i with
  | none => rfl
  | some c => simp [Container.shape, Function.comp_def, hentry]

theorem Sound.withTypes (h : x.Sound tops) (f : Findings) : (x.withTypes f).Sound tops :=
  h.congr rfl rfl (by simp [Resource.withTypes, Arena.size]) (x.shape_withTypes f) List.prefix_rfl

theorem blank_resolveTypes (x : Resource) : x.resolveTypes.1.blank = x.blank := by
  unfold Resource.resolveTypes
  split <;> rfl

theorem Sound.resolveTypes (h : x.Sound tops) : x.resolveTypes.1.Sound tops := by
  rw [Resource.resolveTypes]
  cases x.root? with
  | none => exact h
  | some root => exact h.withTypes _

theorem Sound.closeState (h : x.Sound tops) :
    Sound tops { x with arena := x.arena.closeState } :=
  have hshape := Arena.map_closeState Container.shape (fun _ => rfl) x.arena
  h.congr rfl rfl (hshape 0).2 (fun i => (hshape i).1) List.prefix_rfl

theorem Sound.settled (h : x.Sound tops) : Sound tops { x with levels := x.levels.clear } :=
  h.congr rfl rfl rfl (fun _ => rfl) List.nil_prefix

end Resource

/-! ### All resources -/

/-- What holds of the resource of a number at any time; `installed` are the containers that
have been made for the top of the whole schema. -/
def Resource.SoundIn (mode : Mode) (installed : List Nat) (id : Nat) (x : Resource) : Prop :=
  match mode with
  | .declared => x.Sound [] ∨ x.Sound [0]
  | .full => x.Sound (if id = Resource.rootId then installed else [])

theorem Resource.SoundIn.exists_sound {mode : Mode} {installed : List Nat} {id : Nat} {x : Resource}
    (h : x.SoundIn mode installed id) : ∃ tops, x.Sound tops := by
  cases mode with
  | declared =>
    rcases h with h | h
    · exact ⟨_, h⟩
    · exact ⟨_, h⟩
  | full => exact ⟨_, h⟩

/-- A change that keeps a resource sound, whatever stands on top. -/
theorem Resource.SoundIn.imp {mode : Mode} {installed : List Nat} {id : Nat} {x y : Resource}
    (h : x.SoundIn mode installed id) (hxy : ∀ {tops}, x.Sound tops → y.Sound tops) :
    y.SoundIn mode installed id := by
  cases mode with
  | declared => exact Or.imp hxy hxy h
  | full => exact hxy h

/-- What holds of the resources of a map at any time. -/
structure ResourceSet.Sound (s : ResourceSet) (installed : List Nat) (t : ResourceSet) : Prop where
  /-- They are the resources of the map, with contents. -/
  blank : t.blank = s
  /-- Each of them is sound. -/
  each : ∀ {id x}, t.get? id = some x → x.SoundIn s.mode installed id

namespace ResourceSet

variable {s t : ResourceSet} {installed : List Nat} {o : Options}

/-- The number of containers of the root resource. -/
def topSize (s : ResourceSet) : Nat := ((s.get? Resource.rootId).map (·.arena.size)).getD 0

theorem Instantiated.sound (hs : s.Instantiated) : s.Sound [] s where
  blank := hs.blank
  each {id x} hx := by
    have hsound : x.Sound [] := by
      rw [← hs.blank_eq hx]
      exact Resource.sound_blank x
    cases s.mode with
    | declared => exact Or.inl hsound
    | full =>
      show x.Sound (if id = Resource.rootId then [] else [])
      rw [ite_self]
      exact hsound

theorem Sound.mode_eq (h : s.Sound installed t) : t.mode = s.mode := by
  rw [← h.blank]
  rfl

/-- A change of contents that keeps each resource sound keeps the set sound. -/
theorem Sound.map (h : s.Sound installed t) {u : ResourceSet} (hmode : u.mode = t.mode)
    (hu : ∀ id, ∃ f : Resource → Resource, u.get? id = (t.get? id).map f ∧
      ∀ x, (f x).blank = x.blank ∧ ∀ {tops}, x.Sound tops → (f x).Sound tops) :
    s.Sound installed u where
  blank := by
    rw [← h.blank]
    refine ext_get? hmode fun id => ?_
    obtain ⟨f, hf, hkeep⟩ := hu id
    rw [get?_blank, get?_blank, hf, Option.map_map]
    exact congrArg (fun g => Option.map g (t.get? id)) (funext fun x => (hkeep x).1)
  each {id y} hy := by
    obtain ⟨f, hf, hkeep⟩ := hu id
    rw [hf] at hy
    obtain ⟨x, hx, rfl⟩ := Option.map_eq_some_iff.1 hy
    exact (h.each hx).imp (hkeep x).2

theorem Sound.settled (h : s.Sound installed t) : s.Sound installed t.settled :=
  h.map rfl fun id => ⟨fun x => { x with levels := x.levels.clear },
    by simp [get?, ResourceSet.settled], fun x => ⟨rfl, fun hx => hx.settled⟩⟩

theorem Sound.closeState (h : s.Sound installed t) : s.Sound installed t.closeState := by
  refine h.map rfl fun id => ⟨fun x =>
    if x.isRoot then x else { x with arena := x.arena.closeState }, ?_, fun x => ?_⟩
  · simp only [get?, ResourceSet.closeState, Array.getElem?_map]
  · simp only
    split
    · exact ⟨rfl, fun hx => hx⟩
    · exact ⟨rfl, fun hx => hx.closeState⟩

theorem Sound.resolveTypes (h : s.Sound installed t) : s.Sound installed t.resolveTypes.1 := by
  rw [ResourceSet.resolveTypes]
  split
  · next top hmode htop =>
    refine h.map rfl fun id => ⟨fun x => if Resource.rootId = id then x.resolveTypes.1 else x, ?_,
      fun x => ?_⟩
    · rw [get?_modify]
      by_cases hid : Resource.rootId = id
      · subst hid
        rw [if_pos rfl, htop]
        simp
      · simp [hid]
    · split
      · exact ⟨x.blank_resolveTypes, fun hx => hx.resolveTypes⟩
      · exact ⟨rfl, fun hx => hx⟩
  · exact h

theorem Sound.finish (h : s.Sound installed t) : s.Sound installed t.finish.1 :=
  h.resolveTypes.closeState

/-! ### Runs -/

/-- Preparing the resources puts a container on top of the whole schema. -/
theorem Sound.prepared (hs : s.Instantiated) (h : s.Sound installed t) :
    s.Sound (installed ++ match s.mode with | .full => [t.topSize] | .declared => [])
      t.prepared := by
  rw [ResourceSet.prepared, h.mode_eq]
  cases hs' : s.mode with
  | declared =>
    rw [List.append_nil]
    exact h
  | full =>
    refine ⟨(blank_modify fun x _ => x.blank_placeTop).trans h.blank, fun {id y} hy => ?_⟩
    rw [hs']
    rw [get?_modify] at hy
    split at hy
    · next hid =>
      subst hid
      obtain ⟨x, hx, rfl⟩ := Option.map_eq_some_iff.1 hy
      have hsound := h.each hx
      rw [hs'] at hsound
      have hpath := hs.path_root h.blank hx
      have hsize : t.topSize = x.arena.size := by
        rw [topSize, hx]
        rfl
      rw [hsize]
      exact Resource.Sound.placeTop hsound (congrArg Path.length hpath)
    · next hid =>
      have hsound := h.each hy
      rw [hs'] at hsound
      have hne : ¬ id = Resource.rootId := fun heq => hid heq.symm
      rw [Resource.SoundIn, if_neg hne] at hsound ⊢
      exact hsound

/-- A visit keeps the set sound. -/
theorem Sound.visit (hs : s.Instantiated) {r r' : Run} {v : Visit} (h : s.Sound installed r.set)
    (hv : r.visit o v = .ok r') : s.Sound installed r'.set where
  blank := (Run.see_of_visit hs h.blank hv).1
  each {id y} hy := by
    obtain ⟨x, hx, hsee⟩ := Run.exists_see_of_visit hs h.blank hv hy
    have hsound := h.each hx
    have hlen : Resource.Owns s x.id v.path → x.path.length ≤ v.path.length := by
      intro hown
      rw [hs.id_eq h.blank hx] at hown
      simpa using (hs.above_of_owns h.blank hx hown).2.2.length_le
    cases hmode : s.mode with
    | declared =>
      rw [hmode] at hsound
      rcases hsound with hsound | hsound
      · rcases hsound.see hlen hsee with hy | ⟨-, -, -, hy⟩
        · exact .inl hy
        · exact .inr hy
      · rcases hsound.see hlen hsee with hy | ⟨htops, -⟩
        · exact .inr hy
        · cases htops
    | full =>
      rw [hmode] at hsound
      rcases Resource.Sound.see hsound hlen hsee with hy | ⟨-, hown, heq, -⟩
      · exact hy
      · -- a node is deeper than the top, so none is that of the root resource itself
        rw [hs.id_eq h.blank hx] at hown
        obtain ⟨-, hactive, -⟩ := hs.above_of_owns h.blank hx hown
        obtain ⟨-, hroot⟩ := hs.eq_rootId_of_active h.blank hmode hx hactive
        rw [hroot, Visit.length_path] at heq
        cases heq

/-- A run keeps the set sound, also one that stops with an error. -/
theorem Sound.visitAll (hs : s.Instantiated) {r : Run} (h : s.Sound installed r.set)
    (vs : List Visit) : s.Sound installed (Run.visitAll o r vs).1.set :=
  Run.visitAll_induction (P := fun r => s.Sound installed r.set) h fun ha hb => ha.visit hs hb

end ResourceSet

/-! ### Calls -/

/-- What may be called on the resources of a map. -/
inductive Call where
  /-- A forest is compiled. -/
  | compile (o : Options) (f : Forest)
  /-- A forest is compiled and the resources are finished. -/
  | build (o : Options) (f : Forest)
  /-- A node is walked that stands below a path, in a list with the given keys. -/
  | walk (o : Options) (below : Path) (listKeys : List String) (n : Node)

namespace Call

/-- What the call goes by. -/
def options : Call → Options
  | compile o _ | build o _ | walk o _ _ _ => o

/-- The nodes that the call visits. -/
def visits : Call → List Visit
  | compile _ f | build _ f => f.visits
  | walk _ below listKeys n => n.visits below listKeys

/-- The resources before the first visit. -/
def start (s : ResourceSet) : Call → ResourceSet
  | compile _ _ | build _ _ => s.prepared
  | walk _ _ _ _ => s

/-- The resources after the first `n` visits, as far as they succeed. -/
def during (c : Call) (s : ResourceSet) (n : Nat) : ResourceSet :=
  (Run.visitAll c.options { set := c.start s } (c.visits.take n)).1.set

/-- The resources after the call, whether it succeeds or not. -/
def perform (s : ResourceSet) : Call → ResourceSet
  | compile o f => (s.compile o f).1
  | build o f => (s.build o f).1
  | walk o below listKeys n => (Run.visitAll o { set := s } (n.visits below listKeys)).1.set

/-- The place of the container that the call makes for the top of the whole schema. -/
def installs (s : ResourceSet) : Call → List Nat
  | compile _ _ | build _ _ =>
    match s.mode with
    | .full => [s.topSize]
    | .declared => []
  | walk _ _ _ _ => []

end Call

namespace ResourceSet

/-- The resources after calls, one after the other. -/
def performAll (s : ResourceSet) (cs : List Call) : ResourceSet := cs.foldl Call.perform s

/-- The places of the containers that calls make for the top of the whole schema. -/
def installed (s : ResourceSet) : List Call → List Nat
  | [] => []
  | c :: cs => c.installs s ++ (c.perform s).installed cs

variable {s t : ResourceSet} {places : List Nat}

theorem Sound.start (hs : s.Instantiated) (h : s.Sound places t) (c : Call) :
    s.Sound (places ++ c.installs t) (c.start t) := by
  cases c with
  | compile o f =>
    rw [Call.installs, h.mode_eq]
    exact h.prepared hs
  | build o f =>
    rw [Call.installs, h.mode_eq]
    exact h.prepared hs
  | walk o below listKeys n =>
    rw [Call.installs, List.append_nil]
    exact h

theorem Sound.during (hs : s.Instantiated) (h : s.Sound places t) (c : Call) (n : Nat) :
    s.Sound (places ++ c.installs t) (c.during t n) :=
  Sound.visitAll hs (h.start hs c) _

theorem Sound.compile (hs : s.Instantiated) (h : s.Sound places t) (o : Options) (f : Forest) :
    s.Sound (places ++ (Call.compile o f).installs t) (t.compile o f).1 := by
  have hrun : s.Sound (places ++ (Call.compile o f).installs t)
      (Run.visitAll o { set := t.prepared } f.visits).1.set :=
    Sound.visitAll hs (h.start hs (.compile o f)) f.visits
  rw [ResourceSet.compile]
  split
  · next r hr =>
    rw [hr] at hrun
    exact hrun.settled
  · next r e hr =>
    rw [hr] at hrun
    exact hrun

/-- Compilation keeps the resources of the map. -/
theorem Instantiated.blank_compile (hs : s.Instantiated) {f : Forest}
    {result : Except Error Stats} (h : s.compile o f = (t, result)) : t.blank = s := by
  have hsound := hs.sound.compile hs o f
  rw [h] at hsound
  exact hsound.blank

/-- What a successful build gives is what finishing makes of a successful compilation. -/
theorem build_eq_ok {o : Options} {f : Forest} {result : Stats × FinishReport}
    (h : s.build o f = (t, .ok result)) :
    ∃ u, s.compile o f = (u, .ok result.1) ∧ u.finish = (t, result.2) := by
  rw [build] at h
  split at h
  · next u stats hu =>
    rw [Prod.mk.injEq, Except.ok.injEq] at h
    obtain ⟨rfl, rfl⟩ := h
    exact ⟨u, hu, rfl⟩
  · cases congrArg Prod.snd h

/-- After the first compilation a resource has at most one container on top, its first. -/
theorem Instantiated.sound_compile (hs : s.Instantiated) (o : Options) (f : Forest) {id : Nat}
    {x : Resource} (hx : (s.compile o f).1.get? id = some x) : x.Sound [] ∨ x.Sound [0] := by
  have hsound := (hs.sound.compile hs o f).each hx
  cases hmode : s.mode with
  | declared =>
    rw [hmode] at hsound
    exact hsound
  | full =>
    have hsize : s.topSize = 0 := by
      rw [topSize]
      cases hroot : s.get? Resource.rootId with
      | none => rfl
      | some r =>
        rw [← hs.blank_eq hroot]
        rfl
    rw [hmode, Call.installs, hmode, hsize, Resource.SoundIn] at hsound
    split at hsound
    · exact .inr hsound
    · exact .inl hsound

/-- A call keeps the set sound. -/
theorem Sound.perform (hs : s.Instantiated) (h : s.Sound places t) (c : Call) :
    s.Sound (places ++ c.installs t) (c.perform t) := by
  cases c with
  | compile o f => exact h.compile hs o f
  | build o f =>
    have hcompiled := h.compile hs o f
    rw [Call.perform, ResourceSet.build]
    split
    · next t' stats ht =>
      rw [ht] at hcompiled
      exact hcompiled.finish
    · next t' e ht =>
      rw [ht] at hcompiled
      exact hcompiled
  | walk o below listKeys n => exact Sound.visitAll hs (h.start hs (.walk o below listKeys n)) _

theorem Sound.performAll (hs : s.Instantiated) (h : s.Sound places t) (cs : List Call) :
    s.Sound (places ++ t.installed cs) (t.performAll cs) := by
  induction cs generalizing places t with
  | nil =>
    rw [installed, List.append_nil]
    exact h
  | cons c cs ih =>
    rw [installed, ← List.append_assoc]
    exact ih (h.perform hs c)

/-! ### The result -/

/-- What stands on top in a resource. A declared resource has at most one container there, the
first one made, which is its root container. The root resource has those that calls have made
for the top of the whole schema, none of which has a node, and the last is its root container. -/
def StandsOnTop (mode : Mode) (places : List Nat) (x : Resource) : Prop :=
  match mode with
  | .declared =>
    (x.arena.size = 0 ↔ x.root? = none) ∧ (x.root? = none ∨ x.root? = some 0) ∧
      ∀ c y, x.arena.get? c = some y → (y.parent? = none ↔ c = 0)
  | .full =>
    x.root? = places.getLast? ∧ (∀ c y, x.arena.get? c = some y → (y.parent? = none ↔ c ∈ places)) ∧
      ∀ c ∈ places, ∃ y, x.arena.get? c = some y ∧ y.synthetic = true

/-- The containers on top of a sound declared resource. -/
theorem standsOnTop_declared {x : Resource} (h : x.Sound [] ∨ x.Sound [0]) (places : List Nat) :
    StandsOnTop .declared places x := by
  rcases h with h | h
  · have hsize := h.size_eq_zero
    have hroot : x.root? = none := h.root_eq
    refine ⟨⟨fun _ => hroot, fun _ => hsize⟩, .inl hroot, fun c y hy => ?_⟩
    have := Arena.get?_lt hy
    omega
  · have hpos := h.top_lt (List.mem_singleton.2 rfl)
    have hroot : x.root? = some 0 := h.root_eq
    refine ⟨⟨fun hsize => ?_, fun hnone => ?_⟩, .inr hroot, fun c y hy => ?_⟩
    · omega
    · rw [hroot] at hnone
      cases hnone
    · rw [h.top_iff hy, List.mem_singleton]

/-- The containers on top of a sound resource of the whole schema. -/
theorem standsOnTop_full {x : Resource} (h : x.Sound places)
    (hpath : x.path.length = 0 ∨ places = []) :
    StandsOnTop .full places x := by
  refine ⟨h.root_eq, fun c y hy => h.top_iff hy, fun c hc => ?_⟩
  obtain ⟨y, hy⟩ := Arena.exists_get? (h.top_lt hc)
  refine ⟨y, hy, ?_⟩
  rcases hpath with hpath | hnil
  · exact (h.top_synthetic hy ((h.top_iff hy).2 hc)).2 hpath
  · rw [hnil] at hc
    cases hc

/-- After any calls, whether they succeed or not, the containers of every resource are linked,
each has as many ancestors as it is deeper than the resource, and what stands on top is known.
Between any two visits of a further call the container at a depth of a level stack is there
and has that many ancestors. -/
theorem containers_linked_after_calls {m : ResourceMap} {mode : Mode} (hs : ofMap m mode = .ok s)
    (cs : List Call) :
    (∀ id x, (s.performAll cs).get? id = some x →
      x.arena.Linked x.path.length ∧
      (∀ c y, x.arena.get? c = some y → x.path.length ≤ y.path.length ∧
        (x.arena.ancestors c).length = y.path.length - x.path.length) ∧
      StandsOnTop s.mode (if id = Resource.rootId then s.installed cs else []) x) ∧
    ∀ (c : Call) (n id : Nat) (x : Resource), (c.during (s.performAll cs) n).get? id = some x →
      ∀ i l, x.levels.levels[i]? = some l →
        l < x.arena.size ∧ (x.arena.ancestors l).length = i := by
  have hinst := instantiated_ofMap hs
  have hsound := hinst.sound.performAll hinst cs
  rw [List.nil_append] at hsound
  constructor
  · intro id x hx
    have heach := hsound.each hx
    obtain ⟨tops, hx'⟩ := heach.exists_sound
    refine ⟨hx'.linked, fun c y hy => ?_, ?_⟩
    · have hlen := hx'.linked.length_ancestors hy
      omega
    · cases hmode : s.mode with
      | declared =>
        rw [hmode] at heach
        exact standsOnTop_declared heach _
      | full =>
        rw [hmode] at heach
        refine standsOnTop_full heach ?_
        by_cases hid : id = Resource.rootId
        · subst hid
          exact .inl (congrArg Path.length (hinst.path_root hsound.blank hx))
        · rw [if_neg hid]
          exact .inr rfl
  · intro c n id x hx i l hl
    obtain ⟨tops, hx'⟩ := ((hsound.during hinst c n).each hx).exists_sound
    obtain ⟨y, hy, hlen, -⟩ := hx'.level hl
    have := hx'.linked.length_ancestors hy
    exact ⟨Arena.get?_lt hy, by omega⟩

/-- A call that stops at a second node for the root of a resource, and then a walk that starts
further down. -/
theorem containers_linked_after_failed_call :
    let a : Node := ⟨{ name := "a", kind := .container }, [("b", .ofKind .container "b"),
      ("c", .ofLeafList "c" "string")]⟩
    let calls : List Call := [.compile {} { modules := [{ name := "m", nodes := [("a", a)] },
        { name := "n", nodes := [("a", a)] }] },
      .walk {} (.ofNames ["a", "b"]) [] (.ofKind .container "d")]
    ∃ s, ofMap { declared := [("/a", {})] } .declared = .ok s ∧
      ∃ x, (s.performAll calls).get? 1 = some x ∧ x.arena.size = 4 ∧
        x.arena.Linked x.path.length := by
  intro a calls
  obtain ⟨s, hs, htest⟩ := exists_ok_of_any
    (p := fun s => ((s.performAll calls).get? 1).any fun x => x.arena.size == 4)
    (show (ofMap { declared := [("/a", {})] } .declared).toOption.any _ = true by decide +kernel)
  simp only [Option.any_eq_true, beq_iff_eq] at htest
  obtain ⟨x, hx, hsize⟩ := htest
  exact ⟨s, hs, x, hx, hsize, ((containers_linked_after_calls hs calls).1 1 x hx).1⟩

end ResourceSet

end YangPartition
