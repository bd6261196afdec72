import YangPartition.Proofs.Compile.Layout

/-!
# Slots

The containers of a resource without what is written into them: each is made for a node, stands
below another one and holds nodes, some of which have containers of their own. Places, parents
and children are all decided here; what the containers say is then read off slot by slot.
-/

namespace YangPartition

/-- A container to be made: its node, the place of the container above, and the nodes placed in
it, each with the place of its own container if it has one. -/
structure Slot where
  /-- The node. -/
  visit : Visit
  /-- The place of the container above. -/
  parent? : Option Nat
  /-- The nodes placed in it. -/
  held : List (Visit × Option Nat)

namespace Planned

/-- Nodes placed beside each other, each with the place of its own container if it has one, when
their containers start at a place. -/
def placesAll (start : Nat) : List Planned → List (Visit × Option Nat)
  | [] => []
  | p :: ps =>
    (p.visit, if p.visit.decl.kind.hasContainer then some start else none) ::
      placesAll (start + p.size) ps

mutual

/-- The slots of a placed node and those below it, from a place on. -/
def slots (parent? : Option Nat) (start : Nat) : Planned → List Slot
  | ⟨v, children⟩ =>
    if v.decl.kind.isBranch then
      ⟨v, parent?, placesAll (start + 1) children⟩ :: slotsAll (some start) (start + 1) children
    else if v.decl.kind = .leafList then [⟨v, parent?, []⟩]
    else []
termination_by structural p => p

/-- The slots of nodes placed beside each other and of those below them, from a place on. -/
def slotsAll (parent? : Option Nat) (start : Nat) : List Planned → List Slot
  | [] => []
  | p :: ps => p.slots parent? start ++ slotsAll parent? (start + p.size) ps
termination_by structural ps => ps

end

mutual

theorem length_slots (parent? : Option Nat) (start : Nat) (p : Planned) :
    (p.slots parent? start).length = p.size := by
  obtain ⟨v, children⟩ := p
  rw [slots, size]
  split
  · rw [List.length_cons, length_slotsAll]
  · split
    · rfl
    · rfl
termination_by structural p

theorem length_slotsAll (parent? : Option Nat) (start : Nat) (ps : List Planned) :
    (slotsAll parent? start ps).length = sizeAll ps := by
  match ps with
  | [] => rfl
  | p :: ps => rw [slotsAll, sizeAll, List.length_append, length_slots, length_slotsAll]
termination_by structural ps

end

theorem slotsAll_append (parent? : Option Nat) (start : Nat) (ps qs : List Planned) :
    slotsAll parent? start (ps ++ qs) =
      slotsAll parent? start ps ++ slotsAll parent? (start + sizeAll ps) qs := by
  induction ps generalizing start with
  | nil => simp [slotsAll, sizeAll]
  | cons p ps ih =>
    simp only [List.cons_append, slotsAll, sizeAll, ih, List.append_assoc, Nat.add_assoc]

theorem slotsAll_singleton (parent? : Option Nat) (start : Nat) (p : Planned) :
    slotsAll parent? start [p] = p.slots parent? start :=
  List.append_nil _

theorem placesAll_append (start : Nat) (ps qs : List Planned) :
    placesAll start (ps ++ qs) = placesAll start ps ++ placesAll (start + sizeAll ps) qs := by
  induction ps generalizing start with
  | nil => simp [placesAll, sizeAll]
  | cons p ps ih => simp only [List.cons_append, placesAll, sizeAll, ih, Nat.add_assoc]

theorem placesAll_singleton (start : Nat) (p : Planned) :
    placesAll start [p] =
      [(p.visit, if p.visit.decl.kind.hasContainer then some start else none)] := rfl

theorem sizeAll_singleton (p : Planned) : sizeAll [p] = p.size := rfl

end Planned

/-! ### Filling containers -/

section

variable (s : ResourceSet) (o : Options) (id : Nat)

/-- The entry for a node that is held, with the place of its own container if it has one. -/
def Entry.ofHeld (h : Visit × Option Nat) : Entry :=
  match h.2 with
  | some place => (Entry.ofDeclaration h.1.decl h.1.listKeys).pointingTo place
  | none =>
    { Entry.ofDeclaration h.1.decl h.1.listKeys with
      target? := (Resource.referenceOf? s o id h.1).map (·.target) }

/-- Defaults with that of an entry, if the entry stands for a value and has one. -/
def Entry.recordDefault (defaults : NameMap String) (e : Entry) : NameMap String :=
  match e.next?, e.default? with
  | none, some value => defaults.insert e.name value
  | _, _ => defaults

/-- A container with nodes placed in it. -/
def Container.filled (c : Container) (held : List (Visit × Option Nat)) : Container :=
  { c with
    entries := c.entries ++ held.map (.ofHeld s o id)
    children := c.children ++ held.filterMap (·.2)
    defaults := (held.map (.ofHeld s o id)).foldl Entry.recordDefault c.defaults
    references := c.references ++ held.filterMap fun h => Resource.referenceOf? s o id h.1 }

/-- The container of a slot. -/
def Slot.container (t : Slot) : Container :=
  (Container.made s o id t.parent? t.visit).filled s o id t.held

variable {s o id}

theorem Container.filled_nil (c : Container) : c.filled s o id [] = c := by
  simp [filled]

/-- A node is placed in a container. -/
theorem Container.receive_eq_filled (c : Container) (place : Nat) (v : Visit) :
    c.receive s o id place v =
      c.filled s o id [(v, if v.decl.kind.hasContainer then some place else none)] := by
  unfold receive filled
  cases hcontainer : v.decl.kind.hasContainer with
  | true =>
    cases href : Resource.referenceOf? s o id v <;>
      simp [Entry.ofHeld, Entry.recordDefault, Entry.pointingTo, holding, href]
  | false =>
    cases href : Resource.referenceOf? s o id v <;> cases hdefault : v.decl.default? <;>
      simp [Entry.ofHeld, Entry.recordDefault, Entry.ofDeclaration, pushValue, href, hdefault]

theorem Container.filled_append (c : Container) (held more : List (Visit × Option Nat)) :
    (c.filled s o id held).filled s o id more = c.filled s o id (held ++ more) := by
  simp [filled]

/-- Nodes are placed in a container one after the other. -/
theorem Container.receiveAll_eq_filled (c : Container) (start : Nat) (ps : List Planned) :
    c.receiveAll s o id start ps = c.filled s o id (Planned.placesAll start ps) := by
  induction ps generalizing c start with
  | nil => rw [receiveAll, Planned.placesAll, filled_nil]
  | cons p ps ih =>
    rw [receiveAll, ih, receive_eq_filled, filled_append, Planned.placesAll, List.singleton_append]

mutual

/-- The containers of a placed node and those below it are those of its slots. -/
theorem Planned.containers_eq_slots (parent? : Option Nat) (start : Nat) (p : Planned) :
    p.containers s o id parent? start = (p.slots parent? start).map (·.container s o id) := by
  obtain ⟨v, children⟩ := p
  rw [containers, slots]
  split
  · rw [List.map_cons, Container.receiveAll_eq_filled, containersAll_eq_slots]
    rfl
  · split
    · rw [List.map_singleton, Slot.container, Container.filled_nil]
    · rfl
termination_by structural p

theorem Planned.containersAll_eq_slots (parent? : Option Nat) (start : Nat) (ps : List Planned) :
    containersAll s o id parent? start ps =
      (slotsAll parent? start ps).map (·.container s o id) := by
  match ps with
  | [] => rfl
  | p :: ps =>
    rw [containersAll, slotsAll, List.map_append, containers_eq_slots, containersAll_eq_slots]
termination_by structural ps

end

end

/-! ### What containers say -/

section

variable {s s' : ResourceSet} {o o' : Options} {id id' : Nat}

/-- What a node refers to depends on the overrides only. -/
theorem Resource.target_referenceOf? (v : Visit) :
    (referenceOf? s o id v).map (·.target) =
      if v.decl.kind.isScalar then Reference.target? o.overrides v.path v.decl else none := by
  rw [referenceOf?]
  split
  · rw [Reference.of?, Option.map_map]
    exact Option.map_id'
  · rfl

theorem Entry.name_ofHeld (h : Visit × Option Nat) : (ofHeld s o id h).name = h.1.decl.name := by
  unfold ofHeld
  split <;> rfl

/-- The entry for a node is a key, and mandatory, when the node is told its own name as a key. -/
theorem Entry.key_ofHeld (h : Visit × Option Nat) :
    (ofHeld s o id h).key = h.1.listKeys.contains h.1.decl.name ∧
      (ofHeld s o id h).mandatory = h.1.listKeys.contains h.1.decl.name := by
  unfold ofHeld
  split <;> exact ⟨rfl, rfl⟩

theorem Entry.ofHeld_congr (h : o'.overrides = o.overrides) (held : Visit × Option Nat) :
    Entry.ofHeld s' o' id' held = Entry.ofHeld s o id held := by
  rw [ofHeld, ofHeld, Resource.target_referenceOf?, Resource.target_referenceOf?, h]

variable (s o id)

/-- The entry for the one value that the container of a leaf-list stands for. -/
def Slot.ownEntries (t : Slot) : List Entry :=
  if t.visit.decl.kind = .leafList then
    [{ Entry.value t.visit.decl with
      target? := (Resource.referenceOf? s o id t.visit).map (·.target) }]
  else []

/-- The entries of the container of a slot. -/
def Slot.entries (t : Slot) : List Entry := t.ownEntries s o id ++ t.held.map (.ofHeld s o id)

variable {s o id}

/-- What the container of a slot says. -/
theorem Slot.container_eq (t : Slot) :
    t.container s o id =
      { Container.ofDeclaration t.visit.decl t.visit.path t.parent? with
        boundary := t.visit.decl.kind != .leafList && s.isBoundary id t.visit.path
        synthetic := t.visit.decl.kind == .leafList
        entries := t.entries s o id
        children := t.held.filterMap (·.2)
        defaults := (t.entries s o id).foldl Entry.recordDefault []
        references := t.held.filterMap fun h => Resource.referenceOf? s o id h.1 } := by
  rw [container, Container.made, entries, ownEntries]
  by_cases hkind : t.visit.decl.kind = .leafList
  · cases hdefault : t.visit.decl.default? <;>
      simp [hkind, hdefault, Container.filled, Container.ofDeclaration, Container.pushValue,
        Entry.recordDefault, Entry.value, Entry.ofDeclaration]
  · simp [hkind, Container.filled, Container.ofDeclaration]

@[simp] theorem Slot.path_container (t : Slot) : (t.container s o id).path = t.visit.path := by
  rw [container_eq]
  rfl

@[simp] theorem Slot.parent?_container (t : Slot) : (t.container s o id).parent? = t.parent? := by
  rw [container_eq]
  rfl

@[simp] theorem Slot.synthetic_container (t : Slot) :
    (t.container s o id).synthetic = (t.visit.decl.kind == .leafList) := by
  rw [container_eq]

@[simp] theorem Slot.keys_container (t : Slot) :
    (t.container s o id).keys = t.visit.decl.keyNames := by
  rw [container_eq]
  rfl

@[simp] theorem Slot.entries_container (t : Slot) : (t.container s o id).entries = t.entries s o id := by
  rw [container_eq]

@[simp] theorem Slot.references_container (t : Slot) : (t.container s o id).references =
    t.held.filterMap fun h => Resource.referenceOf? s o id h.1 := by
  rw [container_eq]

theorem Slot.ownEntries_congr (h : o'.overrides = o.overrides) (t : Slot) :
    t.ownEntries s' o' id' = t.ownEntries s o id := by
  rw [ownEntries, ownEntries, Resource.target_referenceOf?, Resource.target_referenceOf?, h]

end

/-! ### Slots above and below -/

namespace Planned

variable (R : Visit → Visit → Prop)

mutual

/-- Whether each placed node is related to those placed right below it. -/
def Relates : Planned → Prop
  | ⟨v, children⟩ => RelatesAll (R v) children
termination_by structural p => p

/-- Whether nodes placed beside each other have a property, and each placed node is related to
those placed right below it. -/
def RelatesAll (Q : Visit → Prop) : List Planned → Prop
  | [] => True
  | p :: ps => Q p.visit ∧ p.Relates ∧ RelatesAll Q ps
termination_by structural ps => ps

end

variable {R}

theorem RelatesAll.append {Q : Visit → Prop} {ps qs : List Planned} (hp : RelatesAll R Q ps)
    (hq : RelatesAll R Q qs) : RelatesAll R Q (ps ++ qs) := by
  induction ps with
  | nil => exact hq
  | cons p ps ih =>
    rw [RelatesAll] at hp
    rw [List.cons_append, RelatesAll]
    exact ⟨hp.1, hp.2.1, ih hp.2.2⟩

theorem RelatesAll.flatMap {α : Type} {Q : Visit → Prop} {f : α → List Planned} {l : List α}
    (h : ∀ a ∈ l, RelatesAll R Q (f a)) : RelatesAll R Q (l.flatMap f) := by
  induction l with
  | nil => trivial
  | cons a l ih =>
    rw [List.forall_mem_cons] at h
    rw [List.flatMap_cons]
    exact h.1.append (ih h.2)

mutual

theorem Relates.mono {R' : Visit → Visit → Prop} (h : ∀ u v, R u v → R' u v) {p : Planned}
    (hp : Relates R p) : Relates R' p := by
  obtain ⟨v, children⟩ := p
  rw [Relates] at hp ⊢
  exact RelatesAll.mono h (h v) hp
termination_by structural p

/-- What follows from the relations of placed nodes relates them, too. -/
theorem RelatesAll.mono {R' : Visit → Visit → Prop} {Q Q' : Visit → Prop}
    (h : ∀ u v, R u v → R' u v) (hQ : ∀ v, Q v → Q' v) {ps : List Planned}
    (hp : RelatesAll R Q ps) : RelatesAll R' Q' ps := by
  match ps with
  | [] => trivial
  | p :: ps =>
    rw [RelatesAll] at hp ⊢
    exact ⟨hQ _ hp.1, Relates.mono h hp.2.1, RelatesAll.mono h hQ hp.2.2⟩
termination_by structural ps

end

theorem RelatesAll.imp {Q Q' : Visit → Prop} (h : ∀ v, Q v → Q' v) {ps : List Planned}
    (hp : RelatesAll R Q ps) : RelatesAll R Q' ps :=
  hp.mono (fun _ _ => id) h

/-- The nodes placed in a container are those beside each other. -/
theorem RelatesAll.of_mem_placesAll {Q : Visit → Prop} {ps : List Planned} {start : Nat}
    (hp : RelatesAll R Q ps) {h : Visit × Option Nat} (hmem : h ∈ placesAll start ps) : Q h.1 := by
  induction ps generalizing start with
  | nil => cases hmem
  | cons p ps ih =>
    rw [RelatesAll] at hp
    rcases List.mem_cons.1 hmem with rfl | hmem
    · exact hp.1
    · exact ih hp.2.2 hmem

/-- The container of a node that is placed in another one is that of its slot. -/
theorem exists_slot_of_mem_placesAll (parent? : Option Nat) {start : Nat} {ps : List Planned}
    {v : Visit} {place : Nat} (h : (v, some place) ∈ placesAll start ps) :
    ∃ j u, (slotsAll parent? start ps)[j]? = some u ∧ place = start + j ∧ u.visit = v := by
  induction ps generalizing start with
  | nil => cases h
  | cons p ps ih =>
    rw [slotsAll]
    rcases List.mem_cons.1 h with h | h
    · obtain ⟨w, children⟩ := p
      obtain ⟨rfl, hplace⟩ := Prod.mk.inj h
      split at hplace
      next hcontainer =>
        obtain rfl := Option.some.inj hplace
        rw [slots]
        split
        · exact ⟨0, _, rfl, rfl, rfl⟩
        · next hbranch =>
          rw [if_pos (by simpa [Kind.hasContainer, hbranch] using hcontainer)]
          exact ⟨0, _, rfl, rfl, rfl⟩
      · cases hplace
    · obtain ⟨j, u, hu, rfl, hvisit⟩ := ih h
      refine ⟨p.size + j, u, ?_, Nat.add_assoc .., hvisit⟩
      rw [List.getElem?_append_right (by rw [length_slots]; exact Nat.le_add_right ..),
        length_slots, Nat.add_sub_cancel_left]
      exact hu

end Planned

/-- What slots from a place on have to do with each other. -/
structure Slot.Linked (R : Visit → Visit → Prop) (Q : Visit → Prop) (parent? : Option Nat)
    (start : Nat) (ts : List Slot) : Prop where
  /-- The container above one is the given one or that of a related slot further up. -/
  above : ∀ {i : Nat} {t}, ts[i]? = some t → t.parent? = parent? ∧ Q t.visit ∨
    ∃ (j : Nat) (u : Slot), j < i ∧ ts[j]? = some u ∧ t.parent? = some (start + j) ∧
      R u.visit t.visit
  /-- The nodes placed in one are related to it. -/
  held : ∀ {t h}, t ∈ ts → h ∈ t.held → R t.visit h.1
  /-- The containers of the nodes placed in one are those of their slots. -/
  place : ∀ {t v place}, t ∈ ts → (v, some place) ∈ t.held →
    ∃ (j : Nat) (u : Slot), ts[j]? = some u ∧ place = start + j ∧ u.visit = v

namespace Slot.Linked

variable {R : Visit → Visit → Prop} {Q : Visit → Prop} {parent? : Option Nat} {start : Nat}

theorem nil : Slot.Linked R Q parent? start [] where
  above h := by cases h
  held h := by cases h
  place h := by cases h

theorem append {ts us : List Slot} (ht : Slot.Linked R Q parent? start ts)
    (hu : Slot.Linked R Q parent? (start + ts.length) us) :
    Slot.Linked R Q parent? start (ts ++ us) := by
  have hleft : ∀ {j : Nat} {u}, ts[j]? = some u → (ts ++ us)[j]? = some u := by
    intro j u h
    rw [List.getElem?_append_left (List.getElem?_eq_some_iff.1 h).1, h]
  have hright : ∀ {j : Nat} {u}, us[j]? = some u → (ts ++ us)[ts.length + j]? = some u := by
    intro j u h
    rw [List.getElem?_append_right (Nat.le_add_right ..), Nat.add_sub_cancel_left, h]
  refine ⟨fun {i t} h => ?_, fun hmem hh => ?_, fun hmem hh => ?_⟩
  · rcases Nat.lt_or_ge i ts.length with hi | hi
    · rw [List.getElem?_append_left hi] at h
      rcases ht.above h with htop | ⟨j, u, hj, hget, hparent, hrel⟩
      · exact .inl htop
      · exact .inr ⟨j, u, hj, hleft hget, hparent, hrel⟩
    · rw [List.getElem?_append_right hi] at h
      rcases hu.above h with htop | ⟨j, u, hj, hget, hparent, hrel⟩
      · exact .inl htop
      · exact .inr ⟨ts.length + j, u, by omega, hright hget, by rw [hparent, Nat.add_assoc], hrel⟩
  · rcases List.mem_append.1 hmem with hmem | hmem
    · exact ht.held hmem hh
    · exact hu.held hmem hh
  · rcases List.mem_append.1 hmem with hmem | hmem
    · obtain ⟨j, u, hget, hplace, hvisit⟩ := ht.place hmem hh
      exact ⟨j, u, hleft hget, hplace, hvisit⟩
    · obtain ⟨j, u, hget, rfl, hvisit⟩ := hu.place hmem hh
      exact ⟨ts.length + j, u, hright hget, Nat.add_assoc .., hvisit⟩

/-- A slot and those below it. -/
theorem cons {v : Visit} {ps : List Planned} (hv : Q v) (hps : Planned.RelatesAll R (R v) ps)
    (ht : Slot.Linked R (R v) (some start) (start + 1)
      (Planned.slotsAll (some start) (start + 1) ps)) :
    Slot.Linked R Q parent? start (⟨v, parent?, Planned.placesAll (start + 1) ps⟩ ::
      Planned.slotsAll (some start) (start + 1) ps) := by
  refine ⟨fun {i t} h => ?_, fun hmem hh => ?_, fun {t w place} hmem hh => ?_⟩
  · cases i with
    | zero =>
      obtain rfl := Option.some.inj h
      exact .inl ⟨rfl, hv⟩
    | succ i =>
      rw [List.getElem?_cons_succ] at h
      rcases ht.above h with ⟨hparent, hrel⟩ | ⟨j, u, hj, hget, hparent, hrel⟩
      · exact .inr ⟨0, _, Nat.succ_pos _, rfl, hparent, hrel⟩
      · exact .inr ⟨j + 1, u, by omega, hget, by rw [hparent, Nat.add_assoc, Nat.add_comm 1], hrel⟩
  · rcases List.mem_cons.1 hmem with rfl | hmem
    · exact hps.of_mem_placesAll hh
    · exact ht.held hmem hh
  · have hplace : ∃ (j : Nat) (u : Slot),
        (Planned.slotsAll (some start) (start + 1) ps)[j]? = some u ∧
          place = start + 1 + j ∧ u.visit = w := by
      rcases List.mem_cons.1 hmem with rfl | hmem
      · exact Planned.exists_slot_of_mem_placesAll (some start) hh
      · exact ht.place hmem hh
    obtain ⟨j, u, hget, rfl, hvisit⟩ := hplace
    exact ⟨j + 1, u, hget, by omega, hvisit⟩

end Slot.Linked

namespace Planned

variable {R : Visit → Visit → Prop}

mutual

/-- The slots of a placed node and those below it are linked. -/
theorem linked_slots {Q : Visit → Prop} (parent? : Option Nat) (start : Nat) (p : Planned)
    (hv : Q p.visit) (h : p.Relates R) : Slot.Linked R Q parent? start (p.slots parent? start) := by
  obtain ⟨v, children⟩ := p
  rw [Relates] at h
  rw [slots]
  split
  · exact .cons hv h (linked_slotsAll (some start) (start + 1) children h)
  · split
    · exact .cons hv (show RelatesAll R (R v) [] from trivial) .nil
    · exact .nil
termination_by structural p

theorem linked_slotsAll {Q : Visit → Prop} (parent? : Option Nat) (start : Nat) (ps : List Planned)
    (h : RelatesAll R Q ps) : Slot.Linked R Q parent? start (slotsAll parent? start ps) := by
  match ps with
  | [] => exact .nil
  | p :: ps =>
    rw [RelatesAll] at h
    rw [slotsAll]
    refine (linked_slots parent? start p h.1 h.2.1).append ?_
    rw [length_slots]
    exact linked_slotsAll parent? (start + p.size) ps h.2.2
termination_by structural ps

end

end Planned

/-! ### Slots of a forest -/

namespace Resource

/-- The place of the container for the top of the whole schema, if there is one. -/
def topPlace? (s : ResourceSet) (x : Resource) : Option Nat := if HasTop s x then some 0 else none

/-- The place of the first container of a placed node. -/
def firstPlace (s : ResourceSet) (x : Resource) : Nat := if HasTop s x then 1 else 0

end Resource

namespace Forest

open Planned

variable (s : ResourceSet) (o : Options) (x : Resource) (f : Forest)

/-- The slots of the containers of a resource, but for that of the top of the whole schema. -/
def slots : List Slot := slotsAll (x.topPlace? s) (x.firstPlace s) (f.plan s o x)

/-- The container of the top of the whole schema, if the resource has one. -/
def top : List Container :=
  if Resource.HasTop s x then
    [(Container.ofName "root" none).filled s o x.id (placesAll 1 (f.plan s o x))]
  else []

variable {s o x f}

theorem length_top : (f.top s o x).length = x.firstPlace s := by
  rw [top, Resource.firstPlace]
  split
  · rfl
  · rfl

theorem layout_eq_slots :
    f.layout s o x = f.top s o x ++ (f.slots s o x).map (·.container s o x.id) := by
  rw [layout, top, slots, Resource.topPlace?, Resource.firstPlace]
  split
  · rw [Container.receiveAll_eq_filled, containersAll_eq_slots, List.singleton_append]
  · rw [containersAll_eq_slots, List.nil_append]

/-- The containers of a resource after compilation, but for that of the top of the whole schema,
are those of its slots. -/
theorem get?_grow (hs : s.Instantiated) {id : Nat} (hx : s.get? id = some x) (i : Nat) :
    (f.grow s o x).arena.get? (x.firstPlace s + i) =
      (f.slots s o x)[i]?.map (·.container s o x.id) := by
  rw [Arena.get?, ← Array.getElem?_toList]
  show (f.grow s o x).arena.toList[_]? = _
  rw [toList_grow hs hx, layout_eq_slots,
    List.getElem?_append_right (by rw [length_top]; exact Nat.le_add_right ..), length_top,
    Nat.add_sub_cancel_left, List.getElem?_map]

/-- The container of the top of the whole schema comes first. -/
theorem get?_grow_top (hs : s.Instantiated) {id : Nat} (hx : s.get? id = some x)
    (htop : Resource.HasTop s x) : (f.grow s o x).arena.get? 0 =
      some ((Container.ofName "root" none).filled s o x.id (placesAll 1 (f.plan s o x))) := by
  rw [Arena.get?, ← Array.getElem?_toList]
  show (f.grow s o x).arena.toList[_]? = _
  rw [toList_grow hs hx, layout_eq_slots, top, if_pos htop]
  rfl

/-- A container after compilation is that of the top of the whole schema or of a slot. -/
theorem get?_grow_cases (hs : s.Instantiated) {id : Nat} (hx : s.get? id = some x) {i : Nat}
    {c : Container} (hc : (f.grow s o x).arena.get? i = some c) :
    (i = 0 ∧ Resource.HasTop s x ∧
      c = (Container.ofName "root" none).filled s o x.id (placesAll 1 (f.plan s o x))) ∨
    ∃ k t, i = x.firstPlace s + k ∧ (f.slots s o x)[k]? = some t ∧ c = t.container s o x.id := by
  rcases Nat.lt_or_ge i (x.firstPlace s) with hi | hi
  · have htop : Resource.HasTop s x := by
      by_contra htop
      rw [Resource.firstPlace, if_neg htop] at hi
      omega
    have hzero : i = 0 := by
      rw [Resource.firstPlace, if_pos htop] at hi
      omega
    rw [hzero, get?_grow_top hs hx htop] at hc
    exact .inl ⟨hzero, htop, (Option.some.inj hc).symm⟩
  · obtain ⟨k, rfl⟩ := Nat.exists_eq_add_of_le hi
    rw [get?_grow hs hx] at hc
    obtain ⟨t, ht, rfl⟩ := Option.map_eq_some_iff.1 hc
    exact .inr ⟨k, t, rfl, ht, rfl⟩

theorem linked_slots {R : Visit → Visit → Prop} {Q : Visit → Prop}
    (h : RelatesAll R Q (f.plan s o x)) :
    Slot.Linked R Q (x.topPlace? s) (x.firstPlace s) (f.slots s o x) :=
  linked_slotsAll _ _ _ h

/-- The container above that of a slot is that of the top of the whole schema or of a slot
before. -/
theorem above_slot {R : Visit → Visit → Prop} {Q : Visit → Prop}
    (h : RelatesAll R Q (f.plan s o x)) {k p : Nat} {t : Slot} (ht : (f.slots s o x)[k]? = some t)
    (hp : t.parent? = some p) : (Resource.HasTop s x ∧ p = 0 ∧ Q t.visit) ∨
      ∃ j u, j < k ∧ p = x.firstPlace s + j ∧ (f.slots s o x)[j]? = some u ∧
        R u.visit t.visit := by
  rcases (linked_slots h).above ht with ⟨hparent, hself⟩ | ⟨j, u, hj, hu, hparent, hrel⟩
  · rw [hp, Resource.topPlace?] at hparent
    split at hparent
    · next htop => exact .inl ⟨htop, Option.some.inj hparent, hself⟩
    · cases hparent
  · exact .inr ⟨j, u, hj, Option.some.inj (hp.symm.trans hparent), hu, hrel⟩

end Forest

end YangPartition
