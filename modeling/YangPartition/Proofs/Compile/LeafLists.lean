import YangPartition.Proofs.Compile.Lasting
import YangPartition.Proofs.Compile.References
import YangPartition.Proofs.Compile.Stateful

/-!
# Leaf-lists

A leaf-list is told twice: by an entry in the container above, and by the value in a container of
its own. Both are made of one node, and nothing is put into that container later, so they go on to
say the same. Only the value refers to a path, though, and a pass over the references of the whole
schema writes types to what refers to a path. So after it the value has the type that has been found
and the entry still has the declared one.
-/

namespace YangPartition

/-! ### Wrappers -/

/-- A container below another one that holds one value and nothing else. -/
structure Container.Wraps (w : Container) (above : Nat) (d : Entry) : Prop where
  /-- It stands for no container or list of the schema. -/
  synthetic : w.synthetic = true
  /-- It stands below that of the leaf-list. -/
  parent : w.parent? = some above
  /-- Nothing stands below it. -/
  children : w.children = []
  /-- It holds the value. -/
  entries : w.entries = [d]

/-- A value says what the entry of its leaf-list says, the type apart. -/
structure Entry.IsValueOf (d e : Entry) : Prop where
  /-- It is a value. -/
  kind : d.kind = .leaf
  /-- It is no key, whatever the entry is. -/
  key : d.key = false
  /-- The names are the same. -/
  name : d.name = e.name
  /-- Both are state or none is. -/
  readOnly : d.readOnly = e.readOnly
  /-- The defaults are the same. -/
  default : d.default? = e.default?
  /-- Only the value may refer to a path. -/
  target : e.target? = none

/-- Whether the types of values that refer to paths are left as they were declared. -/
def Mode.KeepsTypes (mode : Mode) (d : Entry) : Prop := mode = .declared ∨ d.target? = none

/-- Each entry of a leaf-list has a container of its own with a value that says the same, and has
the same type as far as types are kept. -/
def Resource.DescribesLists (mode : Mode) (x : Resource) : Prop :=
  ∀ {i c e}, x.arena.get? i = some c → e ∈ c.entries → e.kind = .leafList →
    ∃ place w d, e.next? = some place ∧ x.arena.get? place = some w ∧ w.Wraps i d ∧
      d.IsValueOf e ∧ (mode.KeepsTypes d → d.typeName = e.typeName)

section

variable {s : ResourceSet} {o : Options} {id : Nat} {v : Visit}

/-- What is made for a leaf-list wraps its value. -/
theorem Container.wraps_made (hkind : v.decl.kind = .leafList) (home : Nat) :
    (Container.made s o id (some home) v).Wraps home (.ofOwn s o id v) := by
  rw [Container.made, if_pos hkind]
  exact ⟨rfl, rfl, rfl, rfl⟩

theorem Entry.isValueOf_ofOwn (place : Nat) :
    (Entry.ofOwn s o id v).IsValueOf (.ofHeld s o id (v, some place)) :=
  ⟨rfl, rfl, rfl, rfl, rfl, rfl⟩

/-- A new container has no entry of a leaf-list. -/
theorem Container.kind_of_mem_made {parent? : Option Nat} {e : Entry}
    (he : e ∈ (Container.made s o id parent? v).entries) : e.kind = .leaf := by
  obtain ⟨-, hvalue⟩ := Container.mem_entries_made he
  exact congrArg Entry.kind hvalue

/-- The entry of a node is that of a leaf-list if the node is one. -/
theorem Entry.kind_ofHeld (h : Visit × Option Nat) :
    (Entry.ofHeld s o id h).kind = .ofKind h.1.decl.kind := by
  rw [ofHeld]
  split <;> rfl

theorem EntryKind.ofKind_eq_leafList {k : Kind} : ofKind k = .leafList ↔ k = .leafList := by
  cases k <;> simp [ofKind]

end

/-! ### What keeps them -/

namespace Resource

variable {s : ResourceSet} {o : Options} {x y : Resource} {v : Visit} {tops : List Nat}
  {mode : Mode}

/-- The container that a visit makes below another one stands behind all that were there. -/
theorem get?_made (hx : x.Sound tops) (hy : x.see s o v = .ok y) {home : Nat}
    (hhome : x.homeFor? s o v = some home) (hown : v.decl.kind.hasContainer = true) :
    y.arena.get? x.arena.size = some (Container.made s o x.id (some home) v) := by
  rcases see_cases hy with ⟨rfl, hskip⟩ | ⟨-, -, hnone, -⟩ | ⟨-, -, -, hdepth, -, -⟩ |
    ⟨parent, -, -, -, hhome', hparent, rfl⟩
  · rw [homeFor?, if_neg] at hhome
    · cases hhome
    · rintro ⟨hdata, howns, -⟩
      rcases hskip with htransparent | hforeign
      · rw [hdata] at htransparent
        cases htransparent
      · exact hforeign howns
  · rw [hnone] at hhome
    cases hhome
  · -- the node of the resource itself is put into no container
    rw [homeFor?, parentFor?, hdepth] at hhome
    split at hhome <;> cases hhome
  · obtain rfl : parent = home := Option.some.inj (hhome'.symm.trans hhome)
    change (x.put v parent _ _).arena.get? x.arena.size = _
    rw [get?_put (hx.parent hparent).1.lt_size, if_pos ⟨rfl, hown⟩]

/-- A visit leaves the container of a leaf-list alone: no level of the branch leads to it. -/
theorem get?_see_of_wraps (hx : x.Sound tops) (hy : x.see s o v = .ok y) {place i : Nat}
    {w : Container} {d : Entry} (hw : x.arena.get? place = some w) (hwraps : w.Wraps i d) :
    y.arena.get? place = some w := by
  have hlt := Arena.get?_lt hw
  rcases see_cases hy with ⟨rfl, -⟩ | ⟨-, -, -, rfl⟩ | ⟨-, -, -, -, -, rfl⟩ |
    ⟨parent, -, -, -, -, hparent, rfl⟩
  · exact hw
  · rw [arena_abandon]
    exact hw
  · rw [get?_placeRoot, if_neg (Nat.ne_of_lt hlt)]
    exact hw
  · obtain ⟨⟨above, habove, hopen⟩, -⟩ := hx.parent hparent
    have hne : parent ≠ place := by
      rintro rfl
      obtain rfl := Option.some.inj (hw.symm.trans habove)
      have hnone := hopen hwraps.synthetic
      rw [hwraps.parent] at hnone
      cases hnone
    change (x.put v parent _ _).arena.get? place = _
    rw [get?_put (Arena.get?_lt habove), if_neg fun hnew => by omega, if_neg hne]
    exact hw

/-- A visit keeps the descriptions of leaf-lists: it makes both parts of a new one, and changes
neither part of an old one. -/
theorem DescribesLists.see (h : x.DescribesLists mode) (hx : x.Sound tops)
    (hy : x.see s o v = .ok y) : y.DescribesLists mode := by
  have hold : ∀ {i c e}, x.arena.get? i = some c → e ∈ c.entries → e.kind = .leafList →
      ∃ place w d, e.next? = some place ∧ y.arena.get? place = some w ∧ w.Wraps i d ∧
        d.IsValueOf e ∧ (mode.KeepsTypes d → d.typeName = e.typeName) := by
    intro i c e hc he hkind
    obtain ⟨place, w, d, hnext, hw, hwraps, hrest⟩ := h hc he hkind
    exact ⟨place, w, d, hnext, get?_see_of_wraps hx hy hw hwraps, hwraps, hrest⟩
  intro i c e hc he hkind
  rcases get?_see_cases hx hy hc with hc | ⟨-, rfl⟩ | ⟨home, hhome, -, ⟨-, rfl⟩ | ⟨w, hw, rfl, rfl⟩⟩
  · exact hold hc he hkind
  · rw [Container.kind_of_mem_made he] at hkind
    cases hkind
  · rw [Container.kind_of_mem_made he] at hkind
    cases hkind
  · rw [Container.receive_eq_filled] at he
    rcases List.mem_append.1 he with he | he
    · exact hold hw he hkind
    · -- the entry of the node itself
      rw [List.map_singleton, List.mem_singleton] at he
      subst he
      rw [Entry.kind_ofHeld, EntryKind.ofKind_eq_leafList] at hkind
      have hown : v.decl.kind.hasContainer = true := by rw [hkind]; rfl
      rw [if_pos hown]
      exact ⟨_, _, _, rfl, get?_made hx hy hhome hown, Container.wraps_made hkind home,
        Entry.isValueOf_ofOwn _, fun _ => rfl⟩

theorem kind_typedEntry (g : Findings) (e : Entry) : (typedEntry g e).kind = e.kind := by
  unfold typedEntry
  split <;> rfl

/-- What refers to no path keeps its type. -/
theorem typedEntry_of_value {e : Entry} (h : e.target? = none) (g : Findings) :
    typedEntry g e = e := by
  rw [typedEntry, h]

/-- The value of a leaf-list stays its value when it gets a type. -/
theorem isValueOf_typedEntry {d e : Entry} (h : d.IsValueOf e) (g : Findings) :
    (typedEntry g d).IsValueOf e := by
  obtain ⟨hkind, hkey, hname, hreadOnly, hdefault, htarget⟩ := h
  rw [typedEntry]
  split
  · exact ⟨hkind, hkey, hname, hreadOnly, hdefault, htarget⟩
  · exact ⟨hkind, hkey, hname, hreadOnly, hdefault, htarget⟩

/-- A pass over the types leaves the entry of a leaf-list as it is, and gives a type to its value
only. -/
theorem exists_of_withTypes (h : x.DescribesLists mode) (g : Findings) {i : Nat} {c : Container}
    {e : Entry} (hc : (x.withTypes g).arena.get? i = some c) (he : e ∈ c.entries)
    (hkind : e.kind = .leafList) :
    (∃ b, x.arena.get? i = some b ∧ e ∈ b.entries) ∧
    ∃ place w d, e.next? = some place ∧ (x.withTypes g).arena.get? place = some w ∧
      w.Wraps i (typedEntry g d) ∧ (typedEntry g d).IsValueOf e ∧
      (mode.KeepsTypes d → d.typeName = e.typeName) := by
  rw [get?_withTypes] at hc
  obtain ⟨b, hb, rfl⟩ := Option.map_eq_some_iff.1 hc
  obtain ⟨e', he', rfl⟩ := List.mem_map.1 he
  rw [kind_typedEntry] at hkind
  obtain ⟨place, w, d, hnext, hw, hwraps, hvalue, htype⟩ := h hb he' hkind
  rw [typedEntry_of_value hvalue.target]
  have hget := get?_withTypes x g place
  rw [hw, Option.map_some] at hget
  refine ⟨⟨b, hb, he'⟩, place, _, d, hnext, hget, ?_, isValueOf_typedEntry hvalue g, htype⟩
  exact ⟨hwraps.synthetic, hwraps.parent, hwraps.children, by rw [hwraps.entries]; rfl⟩

theorem DescribesLists.withTypes (h : x.DescribesLists .full) (g : Findings) :
    (x.withTypes g).DescribesLists .full := by
  intro i c e hc he hkind
  obtain ⟨-, place, w, d, hnext, hw, hwraps, hvalue, htype⟩ := exists_of_withTypes h g hc he hkind
  refine ⟨place, w, _, hnext, hw, hwraps, hvalue, fun hkeeps => ?_⟩
  obtain hmode | hnone := hkeeps
  · cases hmode
  · rw [target?_typedEntry] at hnone
    rw [typedEntry_of_value hnone]
    exact htype (.inr hnone)

/-- Marks change no entry. -/
theorem exists_of_closeState {i : Nat} {c : Container} (hc : x.arena.closeState.get? i = some c) :
    ∃ b, x.arena.get? i = some b ∧ c.entries = b.entries := by
  have hview := (Arena.map_closeState Container.entries (fun _ => rfl) x.arena i).1
  rw [hc, Option.map_some] at hview
  obtain ⟨b, hb, hentries⟩ := Option.map_eq_some_iff.1 hview.symm
  exact ⟨b, hb, hentries.symm⟩

theorem DescribesLists.closeState (h : x.DescribesLists mode) :
    DescribesLists mode { x with arena := x.arena.closeState } := by
  intro i c e hc he hkind
  obtain ⟨b, hb, hentries⟩ := exists_of_closeState hc
  rw [hentries] at he
  obtain ⟨place, w, d, hnext, hw, hwraps, hrest⟩ := h hb he hkind
  have hview := (Arena.map_closeState Container.unmarked (fun _ => rfl) x.arena place).1
  rw [hw, Option.map_some] at hview
  obtain ⟨w', hw', heq⟩ := Option.map_eq_some_iff.1 hview
  refine ⟨place, w', d, hnext, hw', ?_, hrest⟩
  have hsame : w'.unmarked.Wraps i d := by
    rw [heq]
    exact ⟨hwraps.synthetic, hwraps.parent, hwraps.children, hwraps.entries⟩
  exact ⟨hsame.synthetic, hsame.parent, hsame.children, hsame.entries⟩

/-- A container on top is none of a leaf-list and has no entries. -/
theorem DescribesLists.placeTop (h : x.DescribesLists mode) : x.placeTop.DescribesLists mode := by
  intro i c e hc he hkind
  rw [get?_placeTop] at hc
  split at hc
  · obtain rfl := Option.some.inj hc
    cases he
  · obtain ⟨place, w, d, hnext, hw, hrest⟩ := h hc he hkind
    refine ⟨place, w, d, hnext, ?_, hrest⟩
    rw [get?_placeTop, if_neg (Nat.ne_of_lt (Arena.get?_lt hw))]
    exact hw

/-- The descriptions of leaf-lists last through all calls. -/
theorem lasting_describesLists (s : ResourceSet) : Lasting s (DescribesLists s.mode) where
  blank _ := fun hc => by cases hc
  top h := h.placeTop
  see hx h hy := h.see hx hy
  settled h := h
  withTypes hmode _ g h := by
    rw [hmode] at h ⊢
    exact h.withTypes g
  closeState h := h.closeState

/-- The type that a pass over the references of the whole schema finds for a path. -/
def typeFound (x : Resource) (p : Path) : String :=
  ((x.lookup? p).map (·.typeName)).getD typeNotFound

end Resource

/-! ### The result -/

namespace ResourceSet

open Resource

variable {s t u : ResourceSet} {o : Options} {f : Forest} {places : List Nat}

/-- In the whole schema only the root resource has containers. -/
theorem Sound.eq_rootId (h : s.Sound places t) (hmode : s.mode = .full) {id i : Nat} {y : Resource}
    {c : Container} (hy : t.get? id = some y) (hc : y.arena.get? i = some c) : id = rootId := by
  by_contra hid
  have hsound := h.each hy
  rw [hmode, SoundIn, if_neg hid] at hsound
  have hsize := Resource.Sound.size_eq_zero hsound
  have hlt := Arena.get?_lt hc
  omega

/-- Finishing declared resources changes no entry. -/
theorem exists_entries_of_finish (hmode : u.mode = .declared) {id : Nat} {y : Resource}
    (hy : u.finish.1.get? id = some y) :
    ∃ x, u.get? id = some x ∧ ∀ {i c}, y.arena.get? i = some c →
      ∃ b, x.arena.get? i = some b ∧ c.entries = b.entries := by
  rw [finish_declared hmode] at hy
  simp only [get?, closeState, Array.getElem?_map] at hy
  obtain ⟨x, hx, rfl⟩ := Option.map_eq_some_iff.1 hy
  refine ⟨x, hx, fun {i c} hc => ?_⟩
  split at hc
  · exact ⟨c, hc, rfl⟩
  · exact exists_of_closeState hc

/-- After any calls and a successful build each entry of a leaf-list points to a container below its
own that holds one value and nothing else. The value is no key and says what the entry says, the
type apart. The entry is the one that has been compiled, so it has the declared type, and the value
has the same one, unless it refers to a path and the whole schema has been compiled: then it has the
type found at that path. -/
theorem leafLists_described {m : ResourceMap} {mode : Mode} (hs : ofMap m mode = .ok s)
    (cs : List Call) {result : Stats × FinishReport}
    (h : (s.performAll cs).build o f = (t, .ok result)) :
    ∃ u, (s.performAll cs).compile o f = (u, .ok result.1) ∧
      ∀ {id i y c e}, t.get? id = some y → y.arena.get? i = some c → e ∈ c.entries →
        e.kind = .leafList → ∃ x b place w d, u.get? id = some x ∧
          x.arena.get? i = some b ∧ e ∈ b.entries ∧
          e.next? = some place ∧ y.arena.get? place = some w ∧ w.Wraps i d ∧ d.IsValueOf e ∧
          (mode = .declared ∨ d.target? = none → d.typeName = e.typeName) ∧
          (mode = .full → ∀ p, d.target? = some p → d.typeName = x.typeFound p) := by
  have hinst := instantiated_ofMap hs
  obtain rfl : s.mode = mode := (exists_root_ofMap hs).1
  have hsound := hinst.sound.performAll hinst cs
  have hlasting := lasting_describesLists s
  have hall := hlasting.performAll hinst hinst.sound (hlasting.all hinst) cs
  obtain ⟨u, hu, hfinish⟩ := build_eq_ok h
  obtain rfl : u.finish.1 = t := congrArg Prod.fst hfinish
  have hcompiled := hlasting.compile hinst hsound hall o f
  have husound := hsound.compile hinst o f
  rw [hu] at hcompiled husound
  refine ⟨u, hu, fun {id i y c e} hy hc he hkind => ?_⟩
  cases hmode : s.mode with
  | declared =>
    have hdescribes : y.DescribesLists s.mode :=
      hlasting.finish husound hcompiled id y hy
    obtain ⟨x, hx, hentries⟩ := exists_entries_of_finish (husound.mode_eq.trans hmode) hy
    obtain ⟨b, hb, hcb⟩ := hentries hc
    obtain ⟨place, w, d, hnext, hw, hwraps, hvalue, htype⟩ := hdescribes hc he hkind
    rw [hmode] at htype
    exact ⟨x, b, place, w, d, hx, hb, hcb ▸ he, hnext, hw, hwraps, hvalue, htype,
      fun hfull => by cases hfull⟩
  | full =>
    obtain rfl := husound.finish.eq_rootId hmode hy hc
    obtain ⟨u', x, hu', hx, hroot, rfl⟩ := exists_retyped_of_build hinst hmode hsound h hy
    obtain rfl : u' = u := congrArg Prod.fst (hu'.symm.trans hu)
    have hdescribes : x.DescribesLists s.mode := hcompiled _ x hx
    rw [hmode] at hdescribes
    rw [retyped_eq hroot] at hc ⊢
    obtain ⟨⟨b, hb, he'⟩, place, w, d, hnext, hw, hwraps, hvalue, htype⟩ :=
      exists_of_withTypes hdescribes _ hc he hkind
    refine ⟨x, b, place, w, _, hx, hb, he', hnext, hw, hwraps, hvalue, ?_, ?_⟩
    · rintro (hdeclared | hnone)
      · cases hdeclared
      · rw [target?_typedEntry] at hnone
        rw [typedEntry_of_value hnone]
        exact htype (.inr hnone)
    · intro _ p hp
      rw [target?_typedEntry] at hp
      rw [typedEntry_eq_entryAfter hroot]
      exact typeAfter_one hp

/-- A container with a leaf and two leaf-lists, one of which refers to the leaf. -/
def listed : Forest :=
  let reference : Node :=
    ⟨({ name := "r", kind := .leafList } : Declaration).withReference "../n", []⟩
  let a : Node := (((Node.ofKind .container "a").withChild (.ofLeaf "n" "uint8")).withChild
    reference).withChild (.ofLeafList "t" "string")
  Forest.ofModules [{ name := "m", nodes := [("a", a)] }]

theorem exists_build_listed :
    ∃ s t result y c e, ofMap {} .full = .ok s ∧ s.build {} listed = (t, .ok result) ∧
      t.get? rootId = some y ∧ y.arena.get? 1 = some c ∧ e ∈ c.entries ∧ e.kind = .leafList ∧
      e.typeName = "leafref" ∧ ∃ w d, e.next?.bind y.arena.get? = some w ∧ w.entries = [d] ∧
        d.typeName = "uint8" := by
  obtain ⟨s, hs, htest⟩ := exists_ok_of_any
    (p := fun s => (s.build {} listed).2.toOption.isSome &&
      ((s.build {} listed).1.get? rootId).any fun y => (y.arena.get? 1).any fun c =>
        c.entries.any fun e => e.kind == .leafList && e.typeName == "leafref" &&
          (e.next?.bind y.arena.get?).any fun w => w.entries.map (·.typeName) == ["uint8"])
    (show (ofMap {} .full).toOption.any _ = true by decide +kernel)
  simp only [Bool.and_eq_true, Option.any_eq_true, List.any_eq_true, beq_iff_eq] at htest
  obtain ⟨hresult, y, hy, c, hc, e, he, ⟨hkind, htype⟩, w, hw, hvalue⟩ := htest
  obtain ⟨result, hresult⟩ := exists_ok_of_isSome hresult
  obtain ⟨d, hd, hdtype⟩ := List.map_eq_singleton_iff.1 hvalue
  exact ⟨s, _, result, y, c, e, hs, Prod.ext rfl hresult, hy, hc, he, hkind, htype, w, d, hw, hd,
    hdtype⟩

/-- A leaf-list that refers to a leaf: its value has the type of the leaf, since it refers to it. -/
theorem leafLists_described_reference :
    ∃ (s t u : ResourceSet) (result : Stats × FinishReport) (y : Resource) (c : Container)
      (e d : Entry) (x : Resource) (p : Path), ofMap {} .full = .ok s ∧
      (s.performAll []).build {} listed = (t, .ok result) ∧
      (s.performAll []).compile {} listed = (u, .ok result.1) ∧ t.get? rootId = some y ∧
      y.arena.get? 1 = some c ∧ e ∈ c.entries ∧ e.kind = .leafList ∧ d.IsValueOf e ∧
      u.get? rootId = some x ∧ d.target? = some p ∧ x.typeFound p = "uint8" := by
  obtain ⟨s, t, result, y, c, e, hs, h, hy, hc, he, hkind, htype, w, d, hw, hd, hdtype⟩ :=
    exists_build_listed
  obtain ⟨u, hu, hall⟩ := leafLists_described hs [] h
  obtain ⟨x, b, place, w', d', hx, -, -, hnext, hw', hwraps, hvalue, hkeeps, hfound⟩ :=
    hall hy hc he hkind
  rw [hnext, Option.bind_some, hw'] at hw
  obtain rfl := Option.some.inj hw
  obtain rfl := (List.cons.inj (hwraps.entries.symm.trans hd)).1
  cases htarget : d'.target? with
  | none =>
    have hsame := hkeeps (.inr htarget)
    rw [htype, hdtype] at hsame
    exact absurd hsame (by decide)
  | some p =>
    exact ⟨s, t, u, result, y, c, e, d', x, p, hs, h, hu, hy, hc, he, hkind, hvalue, hx, htarget,
      (hfound rfl p htarget).symm.trans hdtype⟩

/-- The entry of a leaf-list that refers to a leaf still has its declared type when the value has
got that of the leaf. -/
theorem types_of_leafList_differ :
    ∃ s t result y c e place w d, ofMap {} .full = .ok s ∧
      s.build {} listed = (t, .ok result) ∧ t.get? rootId = some y ∧ y.arena.get? 1 = some c ∧
      e ∈ c.entries ∧ e.kind = .leafList ∧ e.next? = some place ∧ y.arena.get? place = some w ∧
      w.entries = [d] ∧ e.typeName = "leafref" ∧ d.typeName = "uint8" := by
  obtain ⟨s, t, result, y, c, e, hs, h, hy, hc, he, hkind, htype, w, d, hw, hd, hdtype⟩ :=
    exists_build_listed
  obtain ⟨place, hnext, hw⟩ := Option.bind_eq_some_iff.1 hw
  exact ⟨s, t, result, y, c, e, place, w, d, hs, h, hy, hc, he, hkind, hnext, hw, hd, htype, hdtype⟩

end ResourceSet

end YangPartition
