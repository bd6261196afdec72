import Mathlib.Data.List.Nodup
import YangPartition.Proofs.Compile.Placement
import YangPartition.Proofs.Container.Lookup

/-!
# Finding nodes among their siblings

Where nodes that stand beside each other have distinct names, names lead through the containers
of a resource to the node of that path and to no other. Only the value in the container of a
leaf-list is reached along names of its own: its name comes twice at the end.
-/

namespace YangPartition

/-! ### Distinct names -/

namespace Planned

/-- Nodes placed beside each other have distinct names, only containers and lists have nodes
placed below them, and so it is further down. -/
inductive Findable : List Planned → Prop where
  /-- It is so beside each other and below each node. -/
  | intro {ps : List Planned} : (ps.map (·.visit.decl.name)).Nodup →
    (∀ p ∈ ps, p.visit.decl.kind.isBranch = false → p.children = []) →
    (∀ p ∈ ps, Findable p.children) → Findable ps

end Planned

namespace Node

mutual

/-- The name of a node, or those of the nodes that stand in the place of a choice or case.
Procedures have no place among data. -/
def dataNames : Node → List String
  | ⟨decl, children⟩ =>
    if decl.kind.isTransparent then dataNamesAll children
    else if decl.kind = .rpc then []
    else [decl.name]
termination_by structural n => n

/-- The names of nodes that stand beside each other, choices and cases left out. -/
def dataNamesAll : List (String × Node) → List String
  | [] => []
  | (_, n) :: rest => n.dataNames ++ dataNamesAll rest
termination_by structural ns => ns

end

mutual

/-- Whether nodes that stand beside each other below a node have distinct names. There are no data
below procedures. -/
def distinctBelow : Node → Bool
  | ⟨decl, children⟩ =>
    decl.kind == .rpc ||
      (decl.kind.isTransparent || decide (dataNamesAll children).Nodup) &&
        distinctBelowAll children
termination_by structural n => n

/-- Whether nodes that stand beside each other below one of some nodes have distinct names. -/
def distinctBelowAll : List (String × Node) → Bool
  | [] => true
  | (_, n) :: rest => n.distinctBelow && distinctBelowAll rest
termination_by structural ns => ns

end

section

variable {s : ResourceSet} {o : Options} {x : Resource}

mutual

/-- What is placed of a node has the names that stand in its place. -/
theorem names_plan (hosted : Bool) {below : Path} {listKeys : List String}
    (h : x.path.length ≤ below.length) (n : Node) :
    ((n.plan s o x hosted below listKeys).map (·.visit.decl.name)).Sublist n.dataNames := by
  obtain ⟨decl, children⟩ := n
  rw [plan, dataNames]
  split
  · exact names_planAll hosted h children
  · simp only
    split
    · next hplaced =>
      rw [Bool.and_eq_true, Resource.takes_iff] at hplaced
      rw [if_neg (Resource.ne_rpc_of_not_leavesOut hplaced.1.2)]
      exact List.Sublist.refl _
    · rw [planAll_deep (by rw [Visit.length_path]; exact Nat.le_succ_of_le h)]
      exact List.nil_sublist _
termination_by structural n

theorem names_planAll (hosted : Bool) {below : Path} {listKeys : List String}
    (h : x.path.length ≤ below.length) (ns : List (String × Node)) :
    ((planAll s o x hosted below listKeys ns).map (·.visit.decl.name)).Sublist
      (dataNamesAll ns) := by
  match ns with
  | [] => exact List.nil_sublist _
  | (_, n) :: rest =>
    rw [planAll, dataNamesAll, List.map_append]
    exact (names_plan hosted h n).append (names_planAll hosted h rest)
termination_by structural ns

end

mutual

/-- What is placed below a node has distinct names where the nodes have. -/
theorem findable_plan (hosted : Bool) {below : Path} {listKeys : List String}
    (h : x.path.length ≤ below.length) (n : Node) (hdistinct : n.distinctBelow = true) :
    ∀ p ∈ n.plan s o x hosted below listKeys,
      (p.visit.decl.kind.isBranch = false → p.children = []) ∧ Planned.Findable p.children := by
  obtain ⟨decl, children⟩ := n
  rw [distinctBelow, Bool.or_eq_true, beq_iff_eq, Bool.and_eq_true, Bool.or_eq_true,
    decide_eq_true_eq] at hdistinct
  rw [plan]
  split
  · next htransparent =>
    have hrpc : decl.kind ≠ .rpc := by
      intro hkind
      rw [hkind] at htransparent
      cases htransparent
    exact findable_planAll hosted h children (hdistinct.resolve_left hrpc).2
  · next hdata =>
    simp only
    have hdeep : x.path.length ≤ (Visit.path ⟨below, listKeys, decl⟩).length := by
      rw [Visit.length_path]
      exact Nat.le_succ_of_le h
    split
    · next hplaced =>
      rw [Bool.and_eq_true, Resource.takes_iff] at hplaced
      obtain ⟨hnodup, hbelow⟩ :=
        hdistinct.resolve_left (Resource.ne_rpc_of_not_leavesOut hplaced.1.2)
      have hchildren : ∀ q ∈ planAll s o x decl.kind.isBranch (Visit.path ⟨below, listKeys, decl⟩)
          decl.keysBelow children, (q.visit.decl.kind.isBranch = false → q.children = []) ∧
            Planned.Findable q.children :=
        findable_planAll _ hdeep children hbelow
      intro p hp
      rw [List.mem_singleton.1 hp]
      refine ⟨fun hbranch => ?_, .intro ?_ (fun q hq => (hchildren q hq).1)
        fun q hq => (hchildren q hq).2⟩
      · have hbranch : decl.kind.isBranch = false := hbranch
        simp only
        rw [hbranch, planAll_deep hdeep]
      · exact (names_planAll _ hdeep children).nodup (hnodup.resolve_left hdata)
    · rw [planAll_deep hdeep]
      intro p hp
      cases hp
termination_by structural n

theorem findable_planAll (hosted : Bool) {below : Path} {listKeys : List String}
    (h : x.path.length ≤ below.length) (ns : List (String × Node))
    (hdistinct : distinctBelowAll ns = true) :
    ∀ p ∈ planAll s o x hosted below listKeys ns,
      (p.visit.decl.kind.isBranch = false → p.children = []) ∧ Planned.Findable p.children := by
  match ns with
  | [] =>
    intro p hp
    cases hp
  | (_, n) :: rest =>
    rw [distinctBelowAll, Bool.and_eq_true] at hdistinct
    intro p hp
    rw [planAll] at hp
    rcases List.mem_append.1 hp with hp | hp
    · exact findable_plan hosted h n hdistinct.1 p hp
    · exact findable_planAll hosted h rest hdistinct.2 p hp
termination_by structural ns

end

end

end Node

/-- Whether data nodes that stand beside each other have distinct names, on top those of all
modules; a choice or a case stands for the nodes below it. -/
def Forest.distinctSiblings (f : Forest) : Bool :=
  decide (f.modules.flatMap fun m => Node.dataNamesAll m.nodes).Nodup &&
    f.modules.all fun m => Node.distinctBelowAll m.nodes

/-- What is placed of the whole schema has distinct names where the nodes have. -/
theorem Forest.findable_plan {s : ResourceSet} {o : Options} {x : Resource} {f : Forest}
    (hx : x.path.length = 0) (h : f.distinctSiblings = true) :
    Planned.Findable (f.plan s o x) := by
  rw [distinctSiblings, Bool.and_eq_true, decide_eq_true_eq, List.all_eq_true] at h
  have hdeep : x.path.length ≤ Path.root.length := Nat.le_of_eq hx
  have hbelow : ∀ p ∈ f.plan s o x, (p.visit.decl.kind.isBranch = false → p.children = []) ∧
      Planned.Findable p.children := by
    intro p hp
    obtain ⟨m, hm, hp⟩ := List.mem_flatMap.1 hp
    exact Node.findable_planAll _ hdeep m.nodes (h.2 m hm) p hp
  refine .intro (List.Sublist.nodup ?_ h.1) (fun p hp => (hbelow p hp).1) fun p hp =>
    (hbelow p hp).2
  clear hbelow h
  rw [plan]
  induction f.modules with
  | nil => exact List.nil_sublist _
  | cons m modules ih =>
    rw [List.flatMap_cons, List.flatMap_cons, List.map_append]
    exact (Node.names_planAll _ hdeep m.nodes).append ih

/-! ### Containers that hold placed nodes -/

section

variable (s : ResourceSet) (o : Options) (id : Nat)

/-- The entry for one value of a leaf-list, in the container of the leaf-list. -/
def Entry.ofOwn (v : Visit) : Entry :=
  { Entry.value v.decl with target? := (Resource.referenceOf? s o id v).map (·.target) }

namespace Arena

/-- The containers of slots stand in an arena from a place on. -/
def Holds (a : Arena) (start : Nat) (ts : List Slot) : Prop :=
  ∀ i t, ts[i]? = some t → a.get? (start + i) = some (t.container s o id)

/-- A container holds placed nodes, and the containers of these stand from a place on. -/
structure Hosts (a : Arena) (place start : Nat) (ps : List Planned) : Prop where
  /-- The container has the entries for the nodes and those of their containers below it. -/
  container : ∃ c, a.get? place = some c ∧
    c.entries = (Planned.placesAll start ps).map (.ofHeld s o id) ∧
    c.children = (Planned.placesAll start ps).filterMap (·.2)
  /-- The containers of the nodes and those below them are there. -/
  below : a.Holds s o id start (Planned.slotsAll (some place) start ps)

end Arena

end

namespace Planned

variable {ps : List Planned} {start : Nat}

theorem names_placesAll (start : Nat) (ps : List Planned) :
    (placesAll start ps).map (·.1.decl.name) = ps.map (·.visit.decl.name) := by
  induction ps generalizing start with
  | nil => rfl
  | cons p ps ih => rw [placesAll, List.map_cons, List.map_cons, ih]

theorem exists_place (start : Nat) {p : Planned} (h : p ∈ ps) :
    ∃ place?, (p.visit, place?) ∈ placesAll start ps ∧
      place?.isSome = p.visit.decl.kind.hasContainer := by
  induction ps generalizing start with
  | nil => cases h
  | cons q ps ih =>
    rw [placesAll]
    rcases List.mem_cons.1 h with rfl | h
    · refine ⟨_, List.mem_cons_self, ?_⟩
      cases p.visit.decl.kind.hasContainer <;> rfl
    · obtain ⟨place?, hmem, hsome⟩ := ih (start + q.size) h
      exact ⟨place?, List.mem_cons_of_mem _ hmem, hsome⟩

theorem exists_of_mem_placesAll {h : Visit × Option Nat} (hmem : h ∈ placesAll start ps) :
    ∃ p ∈ ps, p.visit = h.1 := by
  induction ps generalizing start with
  | nil => cases hmem
  | cons p ps ih =>
    rcases List.mem_cons.1 hmem with rfl | hmem
    · exact ⟨p, List.mem_cons_self, rfl⟩
    · obtain ⟨q, hq, hvisit⟩ := ih hmem
      exact ⟨q, List.mem_cons_of_mem _ hq, hvisit⟩

theorem mem_flattenAll {v : Visit} :
    v ∈ flattenAll ps ↔ ∃ p ∈ ps, v = p.visit ∨ v ∈ flattenAll p.children := by
  induction ps with
  | nil => simp [flattenAll]
  | cons p ps ih =>
    obtain ⟨u, children⟩ := p
    rw [flattenAll, List.mem_append, ih, flatten, List.mem_cons]
    simp

/-- Placed nodes are related to what is above them, and to those right below them. -/
theorem RelatesAll.of_mem {R : Visit → Visit → Prop} {Q : Visit → Prop} (h : RelatesAll R Q ps)
    {p : Planned} (hp : p ∈ ps) : Q p.visit ∧ RelatesAll R (R p.visit) p.children := by
  induction ps with
  | nil => cases hp
  | cons q ps ih =>
    rw [RelatesAll] at h
    rcases List.mem_cons.1 hp with rfl | hp
    · obtain ⟨v, children⟩ := p
      exact ⟨h.1, h.2.1⟩
    · exact ih h.2.2 hp

end Planned

namespace Arena

open Planned

variable {s : ResourceSet} {o : Options} {id : Nat} {a : Arena} {place start : Nat}
  {ps : List Planned}

theorem holds_append {ts us : List Slot} :
    a.Holds s o id start (ts ++ us) ↔
      a.Holds s o id start ts ∧ a.Holds s o id (start + ts.length) us := by
  constructor
  · intro h
    refine ⟨fun i t ht => h i t ?_, fun i u hu => ?_⟩
    · rw [List.getElem?_append_left (List.getElem?_eq_some_iff.1 ht).1, ht]
    · rw [Nat.add_assoc]
      refine h (ts.length + i) u ?_
      rw [List.getElem?_append_right (Nat.le_add_right ..), Nat.add_sub_cancel_left, hu]
  · rintro ⟨hts, hus⟩ i t ht
    rcases Nat.lt_or_ge i ts.length with hi | hi
    · rw [List.getElem?_append_left hi] at ht
      exact hts i t ht
    · obtain ⟨j, rfl⟩ := Nat.exists_eq_add_of_le hi
      rw [List.getElem?_append_right hi, Nat.add_sub_cancel_left] at ht
      rw [← Nat.add_assoc]
      exact hus j t ht

/-- The slots of a node that is placed beside others stand where its container does. -/
theorem Holds.of_mem_placesAll {parent? : Option Nat}
    (h : a.Holds s o id start (slotsAll parent? start ps)) {v : Visit} {q : Nat}
    (hmem : (v, some q) ∈ placesAll start ps) : ∃ p ∈ ps, p.visit = v ∧
      v.decl.kind.hasContainer = true ∧ a.Holds s o id q (p.slots parent? q) := by
  induction ps generalizing start with
  | nil => cases hmem
  | cons p ps ih =>
    rw [slotsAll, holds_append, length_slots] at h
    rcases List.mem_cons.1 hmem with hmem | hmem
    · obtain ⟨rfl, hplace⟩ := Prod.mk.inj hmem
      split at hplace
      · next hcontainer =>
        obtain rfl := Option.some.inj hplace
        exact ⟨p, List.mem_cons_self, rfl, hcontainer, h.1⟩
      · cases hplace
    · obtain ⟨p', hp', hrest⟩ := ih h.2 hmem
      exact ⟨p', List.mem_cons_of_mem _ hp', hrest⟩

/-- The container of a node that is held holds what is placed below the node, or the one value of
a leaf-list. -/
theorem Hosts.child (h : a.Hosts s o id place start ps) {v : Visit} {q : Nat}
    (hmem : (v, some q) ∈ placesAll start ps) : ∃ p ∈ ps, p.visit = v ∧
      ∃ c, a.get? q = some c ∧ c.name = v.decl.name ∧
        (v.decl.kind.isBranch = true ∧ a.Hosts s o id q (q + 1) p.children ∨
          v.decl.kind = .leafList ∧ c.entries = [.ofOwn s o id v] ∧ c.children = []) := by
  obtain ⟨⟨w, children⟩, hp, rfl, hcontainer, hslots⟩ := h.below.of_mem_placesAll hmem
  refine ⟨_, hp, rfl, ?_⟩
  simp only at hcontainer ⊢
  rw [slots] at hslots
  cases hbranch : w.decl.kind.isBranch with
  | true =>
    have hkind : ¬ w.decl.kind = .leafList := Kind.ne_leafList_of_isBranch hbranch
    rw [hbranch, if_pos rfl] at hslots
    have hget := hslots 0 _ rfl
    rw [Slot.container_eq] at hget
    refine ⟨_, hget, rfl, .inl ⟨rfl, ⟨_, hget, ?_, rfl⟩, fun i t ht => ?_⟩⟩
    · simp only [Slot.entries, Slot.ownEntries, if_neg hkind, List.nil_append]
    · rw [Nat.add_assoc, Nat.add_comm 1]
      exact hslots (i + 1) t ht
  | false =>
    have hkind : w.decl.kind = .leafList := by simpa [Kind.hasContainer, hbranch] using hcontainer
    rw [hbranch, if_neg Bool.false_ne_true, if_pos hkind] at hslots
    have hget := hslots 0 _ rfl
    rw [Slot.container_eq] at hget
    refine ⟨_, hget, rfl, .inr ⟨hkind, ?_, rfl⟩⟩
    simp only [Slot.entries, Slot.ownEntries, if_pos hkind, List.map_nil, List.append_nil]
    rfl

/-! ### One level -/

theorem find?_eq_some_of_unique {α : Type} {p : α → Bool} {l : List α} {b : α} (hb : b ∈ l)
    (hp : p b = true) (hunique : ∀ d ∈ l, p d = true → d = b) : l.find? p = some b := by
  cases hfind : l.find? p with
  | none => exact absurd hp (List.find?_eq_none.1 hfind b hb)
  | some d => rw [hunique d (List.mem_of_find?_eq_some hfind) (List.find?_some hfind)]

/-- An entry of a name is that for a node of the name. -/
theorem Hosts.exists_of_entryNamed? (h : a.Hosts s o id place start ps) {name : String} {e : Entry}
    (he : (a.get? place).bind (·.entryNamed? name) = some e) :
    ∃ p ∈ ps, p.visit.decl.name = name := by
  obtain ⟨c, hc, hentries, -⟩ := h.container
  rw [hc, Option.bind_some, Container.entryNamed?, hentries] at he
  obtain ⟨held, hheld, rfl⟩ := List.mem_map.1 (List.mem_of_find?_eq_some he)
  obtain ⟨p, hp, hvisit⟩ := exists_of_mem_placesAll hheld
  have hname := List.find?_some he
  rw [beq_iff_eq, Entry.name_ofHeld, ← hvisit] at hname
  exact ⟨p, hp, hname⟩

/-- A child of a name is the container of a node of the name. -/
theorem Hosts.exists_of_childNamed? (h : a.Hosts s o id place start ps) {name : String} {q : Nat}
    (hq : a.childNamed? place name = some q) :
    ∃ v, (v, some q) ∈ placesAll start ps ∧ v.decl.name = name := by
  obtain ⟨c, hc, -, hchildren⟩ := h.container
  rw [childNamed?, hc, Option.map_some, Option.getD_some, hchildren] at hq
  obtain ⟨⟨v, q?⟩, hmem, rfl⟩ := List.mem_filterMap.1 (List.mem_of_find?_eq_some hq)
  obtain ⟨p, -, rfl, d, hd, hname, -⟩ := h.child hmem
  have hnamed := List.find?_some hq
  rw [hd, Option.any_some, beq_iff_eq] at hnamed
  exact ⟨_, hmem, hname.symm.trans hnamed⟩

/-- Where names are distinct the entry of a node's name is its own. -/
theorem Hosts.entryNamed?_eq (h : a.Hosts s o id place start ps)
    (hnodup : (ps.map (·.visit.decl.name)).Nodup) {held : Visit × Option Nat}
    (hmem : held ∈ placesAll start ps) :
    (a.get? place).bind (·.entryNamed? held.1.decl.name) = some (.ofHeld s o id held) := by
  rw [← names_placesAll start] at hnodup
  obtain ⟨c, hc, hentries, -⟩ := h.container
  rw [hc, Option.bind_some, Container.entryNamed?, hentries]
  refine find?_eq_some_of_unique (List.mem_map_of_mem hmem) (beq_iff_eq.2 (Entry.name_ofHeld held)) ?_
  intro e he hname
  obtain ⟨other, hother, rfl⟩ := List.mem_map.1 he
  rw [beq_iff_eq, Entry.name_ofHeld] at hname
  rw [List.inj_on_of_nodup_map hnodup hother hmem hname]

/-- Where names are distinct the child of a node's name is its container. -/
theorem Hosts.childNamed?_eq (h : a.Hosts s o id place start ps)
    (hnodup : (ps.map (·.visit.decl.name)).Nodup) {v : Visit} {q : Nat}
    (hmem : (v, some q) ∈ placesAll start ps) : a.childNamed? place v.decl.name = some q := by
  have hinj := hnodup
  rw [← names_placesAll start] at hinj
  obtain ⟨c, hc, -, hchildren⟩ := h.container
  obtain ⟨-, -, -, d, hd, hname, -⟩ := h.child hmem
  rw [childNamed?, hc, Option.map_some, Option.getD_some, hchildren]
  refine find?_eq_some_of_unique (List.mem_filterMap.2 ⟨_, hmem, rfl⟩) ?_ fun q' hq' hnamed => ?_
  · rw [hd, Option.any_some, beq_iff_eq]
    exact hname
  · obtain ⟨⟨w, w?⟩, hother, rfl⟩ := List.mem_filterMap.1 hq'
    obtain ⟨-, -, -, d', hd', hname', -⟩ := h.child hother
    rw [hd', Option.any_some, beq_iff_eq, hname'] at hnamed
    have heq := List.inj_on_of_nodup_map hinj hother hmem hnamed
    exact Option.some.inj (congrArg Prod.snd heq)

/-! ### All levels -/

/-- Names that lead to an entry are those of a node, or of a leaf-list with its own name once
more. -/
theorem Hosts.exists_of_entryBelow? {above names : List String} {name : String} {e : Entry}
    (h : a.Hosts s o id place start ps)
    (hrel : RelatesAll (fun u v => v.below = u.path) (fun v => v.below.names = above) ps)
    (he : a.entryBelow? place names name = some e) :
    ∃ v ∈ flattenAll ps, v.path.names = above ++ names ++ [name] ∨
      v.decl.kind = .leafList ∧ v.path.names = above ++ names ∧ v.decl.name = name := by
  induction names generalizing place start ps above with
  | nil =>
    rw [entryBelow?_nil] at he
    obtain ⟨p, hp, hname⟩ := h.exists_of_entryNamed? he
    refine ⟨p.visit, mem_flattenAll.2 ⟨p, hp, .inl rfl⟩, .inl ?_⟩
    rw [Visit.names_path, (hrel.of_mem hp).1, hname, List.append_nil]
  | cons n names ih =>
    rw [entryBelow?_cons] at he
    obtain ⟨q, hchild, hfound⟩ := Option.bind_eq_some_iff.1 he
    obtain ⟨v, hmem, rfl⟩ := h.exists_of_childNamed? hchild
    obtain ⟨p, hp, rfl, c, hc, -, hkinds⟩ := h.child hmem
    obtain ⟨hbelow, hrelated⟩ := hrel.of_mem hp
    have hpath : p.visit.path.names = above ++ [p.visit.decl.name] := by
      rw [Visit.names_path, hbelow]
    rcases hkinds with ⟨-, hhosts⟩ | ⟨hkind, hentries, hchildren⟩
    · obtain ⟨v, hv, hnames⟩ := ih hhosts (hrelated.imp fun v hv => by rw [hv, hpath]) hfound
      refine ⟨v, mem_flattenAll.2 ⟨p, hp, .inr hv⟩, ?_⟩
      simp only [List.append_assoc, List.singleton_append] at hnames
      simp only [List.append_assoc, List.cons_append]
      exact hnames
    · -- below a leaf-list there is nothing but its own value
      rw [entryBelow?_of_single hc hentries hchildren] at hfound
      split at hfound
      · next hown =>
        obtain ⟨rfl, hname⟩ := hown
        exact ⟨p.visit, mem_flattenAll.2 ⟨p, hp, .inl rfl⟩, .inr ⟨hkind, hpath, hname⟩⟩
      · cases hfound

/-- Where names are distinct those of a node lead to its entry, and those of a leaf-list with its
own name once more to the one value. -/
theorem Hosts.entryBelow?_of_mem {above : List String} (hfind : Findable ps)
    (h : a.Hosts s o id place start ps)
    (hrel : RelatesAll (fun u v => v.below = u.path) (fun v => v.below.names = above) ps)
    {v : Visit} (hv : v ∈ flattenAll ps) : ∃ names, v.below.names = above ++ names ∧
      (∃ place?, place?.isSome = v.decl.kind.hasContainer ∧
        a.entryBelow? place names v.decl.name = some (.ofHeld s o id (v, place?))) ∧
      (v.decl.kind = .leafList →
        a.entryBelow? place (names ++ [v.decl.name]) v.decl.name = some (.ofOwn s o id v)) := by
  induction hfind generalizing place start above with
  | @intro ps hnodup hbranches _ ih =>
    obtain ⟨p, hp, hv⟩ := mem_flattenAll.1 hv
    obtain ⟨place?, hmem, hsome⟩ := exists_place start hp
    obtain ⟨hbelow, hrelated⟩ := hrel.of_mem hp
    rcases hv with rfl | hv
    · refine ⟨[], by rw [hbelow, List.append_nil], ⟨place?, hsome, ?_⟩, fun hkind => ?_⟩
      · rw [entryBelow?_nil]
        exact h.entryNamed?_eq hnodup hmem
      · rw [hkind] at hsome
        obtain ⟨q, rfl⟩ := Option.isSome_iff_exists.1 hsome
        obtain ⟨-, -, -, c, hc, -, ⟨hbranch, -⟩ | ⟨-, hentries, hchildren⟩⟩ := h.child hmem
        · rw [hkind] at hbranch
          cases hbranch
        · rw [List.nil_append, entryBelow?_cons, h.childNamed?_eq hnodup hmem, Option.bind_some,
            entryBelow?_of_single hc hentries hchildren]
          exact if_pos ⟨rfl, rfl⟩
    · -- the node is further down, so this one is a container or list
      have hbranch : p.visit.decl.kind.isBranch = true := by
        by_contra hbranch
        rw [hbranches p hp (Bool.eq_false_iff.2 hbranch)] at hv
        cases hv
      have hcontainer : p.visit.decl.kind.hasContainer = true := by
        simp [Kind.hasContainer, hbranch]
      rw [hcontainer] at hsome
      obtain ⟨q, rfl⟩ := Option.isSome_iff_exists.1 hsome
      obtain ⟨p', hp', hvisit, -, -, -, ⟨-, hhosts⟩ | ⟨hkind, -⟩⟩ := h.child hmem
      · obtain rfl := List.inj_on_of_nodup_map hnodup hp' hp (congrArg (·.decl.name) hvisit)
        have hpath : p'.visit.path.names = above ++ [p'.visit.decl.name] := by
          rw [Visit.names_path, hbelow]
        have hdown : ∀ names name, a.entryBelow? place (p'.visit.decl.name :: names) name =
            a.entryBelow? q names name := by
          intro names name
          rw [entryBelow?_cons, h.childNamed?_eq hnodup hmem, Option.bind_some]
        obtain ⟨names, hnames, ⟨place?, hplace, hentry⟩, hown⟩ := ih p' hp hhosts
          (hrelated.imp fun v hv => by rw [hv, hpath]) hv
        refine ⟨p'.visit.decl.name :: names, ?_, ⟨place?, hplace, ?_⟩, fun hkind => ?_⟩
        · rw [hnames, List.append_assoc, List.singleton_append]
        · rw [hdown, hentry]
        · rw [List.cons_append, hdown, hown hkind]
      · rw [hkind] at hbranch
        cases hbranch

end Arena

end YangPartition
