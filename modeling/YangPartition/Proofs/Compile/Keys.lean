import YangPartition.Proofs.Compile.History
import YangPartition.Proofs.Compile.Records

/-!
# Keys of lists

A node is told the keys of the list around it on the way down, and the container that it is placed
in is found elsewhere. Both belong to the nearest data node above: choices and cases pass on what
they are told, and what is placed in a container are data nodes right below its node. So exactly
the entries of a list's container that have the name of a key are keys.
-/

namespace YangPartition

/-! ### Keys in paths -/

/-- The path element of a list carries its keys, each with any value. -/
theorem Elem.find?_wild (name : String) (keys : List String) (key : String) :
    NameMap.find? key (wild name keys).keys = if key ∈ keys then some wildcard else none := by
  have hfold : ∀ e : Elem, NameMap.find? key
      (keys.foldl (fun e key => e.withKey key wildcard) e).keys =
        if key ∈ keys then some wildcard else NameMap.find? key e.keys := by
    induction keys with
    | nil => exact fun e => rfl
    | cons k keys ih =>
      intro e
      rw [List.foldl_cons, ih, withKey, NameMap.find?_insert]
      by_cases hmem : key ∈ keys
      · rw [if_pos hmem, if_pos (List.mem_cons_of_mem k hmem)]
      · rw [if_neg hmem]
        by_cases hkey : key = k
        · rw [if_pos hkey, if_pos (List.mem_cons.2 (.inl hkey))]
        · rw [if_neg hkey, if_neg (by simp [hkey, hmem])]
  exact hfold (.named name)

/-! ### Keys among entries -/

/-- What the container of a data node says about keys. -/
structure Container.KeyedBy (f : Forest) (i : Site) (z : Container) : Prop where
  /-- It stands at the path of the node. -/
  path_eq : z.path = i.visit.path
  /-- It names the keys that the node names. -/
  keys_eq : z.keys = i.visit.decl.keyNames
  /-- That of a leaf-list stands for one of its values. -/
  synthetic_eq : z.synthetic = (i.visit.decl.kind == .leafList)
  /-- Otherwise its entries are for nodes with no data node in between. -/
  entry : z.synthetic = false → ∀ e ∈ z.entries,
    ∃ v upper, ⟨v, i.visit :: upper⟩ ∈ f.sites ∧ e.name = v.decl.name
  /-- In that of a list the entries with the names of keys are keys and mandatory, and no others. -/
  list : i.visit.decl.kind = .list → ∀ e ∈ z.entries,
    (e.key = true ↔ e.name ∈ z.keys) ∧ (e.mandatory = true ↔ e.name ∈ z.keys)
  /-- The last element of the path of a list has its keys, each with any value, and no others. -/
  wild : i.visit.decl.kind = .list → ∃ last, z.path.last? = some last ∧
    ∀ key, NameMap.find? key last.keys = if key ∈ z.keys then some "*" else none
  /-- Where there is no list, nothing is a key or mandatory. -/
  bare : i.visit.decl.kind ≠ .list → ∀ e ∈ z.entries, e.key = false ∧ e.mandatory = false

namespace Slot

variable {s : ResourceSet} {o : Options} {id : Nat} {f : Forest} {t : Slot}

/-- A container whose nodes are told the keys of its own node has entries for keys exactly under
the names of these. -/
theorem key_iff_of_mem_entries (hheld : ∀ h ∈ t.held, h.1.listKeys = t.visit.decl.keysBelow)
    {e : Entry} (he : e ∈ t.entries s o id) :
    (e.key = true ↔ e.name ∈ t.visit.decl.keysBelow) ∧ e.mandatory = e.key := by
  rw [entries] at he
  rcases List.mem_append.1 he with he | he
  · -- the one value of a leaf-list, which has no keys
    rw [ownEntries] at he
    split at he
    · next hkind =>
      obtain rfl := List.mem_singleton.1 he
      rw [Declaration.keysBelow, hkind]
      simp [Entry.value, Entry.ofDeclaration]
    · cases he
  · obtain ⟨h, hmem, rfl⟩ := List.mem_map.1 he
    rw [(Entry.key_ofHeld h).1, (Entry.key_ofHeld h).2, Entry.name_ofHeld, hheld h hmem,
      List.contains_iff_mem]
    exact ⟨Iff.rfl, rfl⟩

/-- The container of a slot is keyed by its node when it holds nodes right below this one. -/
theorem keyedBy_container (hheld : ∀ h ∈ t.held, ∃ upper, ⟨h.1, t.visit :: upper⟩ ∈ f.sites)
    {i : Site} (hi : i.visit = t.visit) : (t.container s o id).KeyedBy f i := by
  have hkeys : ∀ h ∈ t.held, h.1.listKeys = t.visit.decl.keysBelow := by
    intro h hmem
    obtain ⟨upper, hsite⟩ := hheld h hmem
    exact (Forest.fits_of_mem_sites hsite).listKeys_eq
  have hmarks : ∀ e ∈ (t.container s o id).entries,
      (e.key = true ↔ e.name ∈ t.visit.decl.keysBelow) ∧ e.mandatory = e.key := by
    rw [entries_container]
    exact fun e he => key_iff_of_mem_entries hkeys he
  refine ⟨?_, ?_, ?_, fun hsynthetic e he => ?_, fun hkind e he => ?_, fun hkind => ?_,
    fun hkind e he => ?_⟩
  · rw [path_container, hi]
  · rw [keys_container, hi]
  · rw [synthetic_container, hi]
  · rw [synthetic_container, beq_eq_false_iff_ne] at hsynthetic
    rw [entries_container, entries, ownEntries, if_neg hsynthetic, List.nil_append] at he
    obtain ⟨h, hmem, rfl⟩ := List.mem_map.1 he
    obtain ⟨upper, hsite⟩ := hheld h hmem
    exact ⟨h.1, upper, hi ▸ hsite, Entry.name_ofHeld h⟩
  · obtain ⟨hkey, hmandatory⟩ := hmarks e he
    rw [hmandatory, keys_container, hkey, Declaration.keysBelow, if_pos (hi ▸ hkind)]
    exact ⟨Iff.rfl, Iff.rfl⟩
  · refine ⟨t.visit.decl.elem, ?_, fun key => ?_⟩
    · rw [path_container]
      exact List.getLast?_concat
    · rw [keys_container, Declaration.elem, if_pos (hi ▸ hkind), Elem.find?_wild]
      rfl
  · obtain ⟨hkey, hmandatory⟩ := hmarks e he
    have hno : e.key = false := by
      rw [← Bool.not_eq_true, hkey, Declaration.keysBelow, if_neg (hi ▸ hkind)]
      exact List.not_mem_nil
    exact ⟨hno, hmandatory.trans hno⟩

end Slot

/-! ### The result -/

/-- The data nodes that a resource has a container for, in the order of the schema. -/
def Forest.housed (s : ResourceSet) (o : Options) (x : Resource) (f : Forest) : List Site :=
  f.sites.filter fun i => x.isPlaced s o i.visit i.above && i.visit.decl.kind.hasContainer

namespace Forest

variable {s : ResourceSet} {o : Options} {x : Resource} {f : Forest}

/-- The slots are those of the placed nodes that have containers. -/
theorem visits_housed (hbare : f.scalarsBare = true) :
    (f.slots s o x).map (·.visit) = (f.housed s o x).map (·.visit) := by
  rw [visits_slots hbare, flatten_plan, List.filter_map, List.filter_filter, housed]
  congr 2
  funext i
  exact Bool.and_comm ..

/-- The entries in the container of the top of the whole schema are no keys. -/
theorem key_of_mem_top (hs : s.Instantiated) {id : Nat} (hx : s.get? id = some x)
    (htop : Resource.HasTop s x) {e : Entry}
    (he : e ∈ ((Container.ofName "root" none).filled s o x.id
      (Planned.placesAll 1 (f.plan s o x))).entries) : e.key = false ∧ e.mandatory = false := by
  rw [Container.filled, Container.ofName, List.nil_append] at he
  obtain ⟨h, hmem, rfl⟩ := List.mem_map.1 he
  have hself := hs.get?_self hs.blank hx
  have hsite := (relates_sites (o := o) (f := f) hs hself).of_mem_placesAll hmem htop
  have hkeys : h.1.listKeys = [] := (fits_of_mem_sites hsite).listKeys_eq
  rw [(Entry.key_ofHeld h).1, (Entry.key_ofHeld h).2, hkeys]
  exact ⟨rfl, rfl⟩

end Forest

namespace ResourceSet

variable {s t : ResourceSet} {o : Options} {f : Forest} {stats : Stats}

/-- After a compilation the first container of the whole schema stands for its top and has no
entries for keys. All others, in their order, are those of the placed nodes that have containers:
in the container of a list, and in no other, the entries with the names of its keys are keys and
mandatory, whatever choices and cases there are in the schema between the list and their nodes. -/
theorem keys_follow_lists {m : ResourceMap} {mode : Mode} (hs : ofMap m mode = .ok s)
    (hbare : f.scalarsBare = true) (h : s.compile o f = (t, .ok stats)) {id : Nat}
    {x y : Resource} (hx : s.get? id = some x) (hy : t.get? id = some y) :
    ∀ c z, y.arena.get? c = some z →
      (mode = .full ∧ id = Resource.rootId ∧ c = 0 ∧ z.path = .root ∧ z.synthetic = true ∧
        ∀ e ∈ z.entries, e.key = false ∧ e.mandatory = false) ∨
      ∃ k i, c = x.firstPlace s + k ∧ (f.housed s o x)[k]? = some i ∧ z.KeyedBy f i := by
  intro c z hz
  have hinst := instantiated_ofMap hs
  have hid := hinst.id_eq hinst.blank hx
  obtain rfl := Option.some.inj (hy.symm.trans (Forest.grow_of_compile hinst hbare h hx))
  rcases Forest.get?_grow_cases hinst hx hz with ⟨hc, htop, rfl⟩ | ⟨k, u, hc, hu, rfl⟩
  · exact .inl ⟨(exists_root_ofMap hs).1.symm.trans htop.1, hid.symm.trans htop.2, hc, rfl, rfl,
      fun e he => Forest.key_of_mem_top hinst hx htop he⟩
  · have hvisits := congrArg (·[k]?) (Forest.visits_housed (s := s) (o := o) (x := x) hbare)
    simp only [List.getElem?_map, hu, Option.map_some] at hvisits
    obtain ⟨i, hi, hvisit⟩ := Option.map_eq_some_iff.1 hvisits.symm
    have hself : s.get? x.id = some x.blank := by rw [hid, hx, hinst.blank_eq hx]
    have hlinked := Forest.linked_slots (Forest.relates_sites (o := o) (f := f) hinst hself)
    exact .inr ⟨k, i, hc, hi, Slot.keyedBy_container
      (fun h hmem => hlinked.held (List.mem_of_getElem? hu) hmem) hvisit⟩

/-- A key two choices below its list, and a value of the same name in a container of the list. -/
theorem keys_follow_lists_choice :
    let k : Node := .ofLeaf "k" "string"
    let choice : Node := ⟨{ name := "h", kind := .choice }, [("g", ⟨{ name := "g", kind := .case },
      [("i", ⟨{ name := "i", kind := .choice }, [("k", k)]⟩)]⟩)]⟩
    let a : Node := ⟨{ name := "a", kind := .list, key? := some "k" },
      [("b", ⟨{ name := "b", kind := .container }, [("k", k)]⟩), ("h", choice)]⟩
    let f : Forest := { modules := [{ name := "m", nodes := [("a", a)] }] }
    ∃ s t stats y z w e d, ofMap { declared := [("/a", {})] } .declared = .ok s ∧
      s.compile {} f = (t, .ok stats) ∧ t.get? 1 = some y ∧
      (y.arena.get? 0 = some z ∧ e ∈ z.entries ∧ e.name = "k" ∧ e.key = true ∧
        e.mandatory = true) ∧
      y.arena.get? 1 = some w ∧ d ∈ w.entries ∧ d.name = "k" ∧ d.key = false ∧
        d.mandatory = false := by
  intro k choice a f
  obtain ⟨s, hs, htest⟩ := exists_ok_of_any
    (p := fun s => (s.compile {} f).2.toOption.isSome &&
      ((s.get? 1).any (fun x => x.firstPlace s == 0 &&
        (f.housed s {} x).map (·.visit.decl) == [a.decl, { name := "b", kind := .container }]) &&
      ((s.compile {} f).1.get? 1).any fun y =>
        (y.arena.get? 0).any (fun z => z.keys.contains "k" && z.entries.any (·.name == "k")) &&
        (y.arena.get? 1).any fun w => w.entries.any (·.name == "k")))
    (show (ofMap { declared := [("/a", {})] } .declared).toOption.any _ = true by decide +kernel)
  simp only [Bool.and_eq_true, Option.any_eq_true, List.any_eq_true, beq_iff_eq,
    List.contains_iff_mem] at htest
  obtain ⟨hok, ⟨x, hx, hfirst, hdecls⟩, y, hy, ⟨z, hz, hkey, e, he, hename⟩, w, hw, d, hd,
    hdname⟩ := htest
  obtain ⟨stats, hstats⟩ := exists_ok_of_isSome hok
  have hkeyed := keys_follow_lists hs (by decide) (Prod.ext rfl hstats) hx hy
  have hdecl : ∀ {k : Nat} {i : Site}, (f.housed s {} x)[k]? = some i →
      [a.decl, { name := "b", kind := .container }][k]? = some i.visit.decl := by
    intro k i hi
    rw [← hdecls, List.getElem?_map, hi, Option.map_some]
  refine ⟨s, _, stats, y, z, w, e, d, hs, Prod.ext rfl hstats, hy, ⟨hz, he, hename, ?_⟩, hw, hd,
    hdname, ?_⟩
  · obtain ⟨hmode, -⟩ | ⟨k, i, hc, hi, hz⟩ := hkeyed 0 z hz
    · cases hmode
    · rw [hfirst, Nat.zero_add] at hc
      have hlist := congrArg (·.kind) (Option.some.inj (hdecl (hc ▸ hi)))
      obtain ⟨hekey, hemandatory⟩ := hz.list hlist.symm e he
      exact ⟨hekey.2 (hename ▸ hkey), hemandatory.2 (hename ▸ hkey)⟩
  · obtain ⟨hmode, -⟩ | ⟨k, i, hc, hi, hw⟩ := hkeyed 1 w hw
    · cases hmode
    · rw [hfirst, Nat.zero_add] at hc
      have hcontainer := congrArg (·.kind) (Option.some.inj (hdecl (hc ▸ hi)))
      exact hw.bare (by rw [← hcontainer]; decide) d hd

end ResourceSet

end YangPartition
