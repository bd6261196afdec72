import YangPartition.Proofs.Compile.Balance

/-!
# Where other resources begin

A container is marked as a boundary when a declared resource other than the owner of its path is
rooted there. The owner is the resource with the longest path above, and the longest path above is
the path itself when a resource is rooted there. So declared resources never mark a container:
one rooted at the path would be the owner. The root resource owns everything when the whole
schema is compiled, and marks exactly the nodes at which the declared ones are rooted.
-/

namespace YangPartition

/-! ### What a container stands for -/

/-- What a container of a resource stands for after some visits, and what that says about its
mark. -/
inductive Container.Bounded (s : ResourceSet) (id : Nat) (vs : List Visit) (z : Container) : Prop
    where
  /-- The top of the whole schema, never marked. -/
  | top : z.path = .root → z.synthetic = true → z.boundary = false → Bounded s id vs z
  /-- One value of a leaf-list, never marked. -/
  | value {v : Visit} : v ∈ vs → v.decl.kind = .leafList → z.path = v.path → z.synthetic = true →
      z.boundary = false → Bounded s id vs z
  /-- A container or list that the resource owns, marked when another resource is rooted there. -/
  | node {v : Visit} : v ∈ vs → v.decl.kind.isBranch = true → z.path = v.path →
      z.synthetic = false → Resource.Owns s id v.path → z.boundary = s.isBoundary id v.path →
      Bounded s id vs z

namespace Container

variable {s : ResourceSet} {o : Options} {id : Nat} {vs : List Visit} {v : Visit} {c : Container}

theorem boundary_made (parent? : Option Nat) :
    (made s o id parent? v).boundary = (v.decl.kind != .leafList && s.isBoundary id v.path) := by
  rw [made]
  by_cases hkind : v.decl.kind = .leafList
  · rw [if_pos hkind, hkind]
    rfl
  · rw [if_neg hkind, bne_iff_ne.2 hkind, Bool.true_and]

theorem boundary_receive (place : Nat) : (c.receive s o id place v).boundary = c.boundary := by
  unfold receive
  cases Resource.referenceOf? s o id v with
  | none => cases v.decl.kind.hasContainer <;> rfl
  | some ref => cases v.decl.kind.hasContainer <;> rfl

theorem bounded_made (hv : v ∈ vs) (hown : Resource.Owns s id v.path)
    (hkind : v.decl.kind.hasContainer = true) (parent? : Option Nat) :
    (made s o id parent? v).Bounded s id vs := by
  have hpath := path_made (s := s) (o := o) id parent? v
  have hsynthetic : (made s o id parent? v).synthetic = _ := synthetic_made parent?
  have hboundary : (made s o id parent? v).boundary = _ := boundary_made parent?
  by_cases hlist : v.decl.kind = .leafList
  · rw [hlist] at hsynthetic hboundary
    exact .value hv hlist hpath hsynthetic hboundary
  · rw [beq_false_of_ne hlist] at hsynthetic
    rw [bne_iff_ne.2 hlist, Bool.true_and] at hboundary
    rw [Kind.hasContainer, beq_false_of_ne hlist, Bool.or_false] at hkind
    exact .node hv hkind hpath hsynthetic hown hboundary

/-- A node that is placed in a container changes nothing about what it stands for. -/
theorem Bounded.receive (hc : c.Bounded s id vs) (place : Nat) :
    (c.receive s o id place v).Bounded s id vs := by
  have houtline := outline_receive (s := s) (o := o) id c place v
  have hpath := path_of_outline houtline
  have hsynthetic := synthetic_of_outline houtline
  have hboundary : (c.receive s o id place v).boundary = _ := boundary_receive place
  cases hc with
  | top hroot htop hno =>
    exact .top (hpath.trans hroot) (hsynthetic.trans htop) (hboundary.trans hno)
  | value hw hkind hat hwrap hno =>
    exact .value hw hkind (hpath.trans hat) (hsynthetic.trans hwrap) (hboundary.trans hno)
  | node hw hkind hat hown hreal hmark =>
    exact .node hw hkind (hpath.trans hat) (hsynthetic.trans hown) hreal (hboundary.trans hmark)

end Container

namespace ResourceSet

variable {s t : ResourceSet} {o : Options} {f : Forest} {stats : Stats}

theorem Instantiated.bounded_compile (hs : s.Instantiated) (h : s.compile o f = (t, .ok stats))
    {id : Nat} {y : Resource} (hy : t.get? id = some y) {c : Nat} {z : Container}
    (hz : y.arena.get? c = some z) : z.Bounded s id f.visits := by
  obtain ⟨x, hx, -⟩ := exists_get?_of_blank hs.blank (hs.blank_compile h) hy
  obtain rfl := hs.id_eq hs.blank hx
  refine hs.forall_containers h hx hy (P := Container.Bounded s x.id f.visits) (.top rfl rfl rfl)
    (fun hv htakes hkind => ?_) (fun _ _ hw => hw.receive _) hz
  exact Container.bounded_made hv (Resource.takes_iff.1 htakes).1 hkind _

/-! ### Resources rooted at a path -/

/-- The declared resources come behind the root resource. -/
theorem Instantiated.id_ne_rootId (hs : s.Instantiated) {r : Resource} (hr : r ∈ s.declared) :
    r.id ≠ Resource.rootId := by
  obtain ⟨i, hi⟩ := mem_declared_iff.1 hr
  rw [hs.id_eq hs.blank hi]
  exact Nat.succ_ne_zero i

/-- Seen from the root resource, every declared resource is another one. -/
theorem Instantiated.isBoundary_rootId (hs : s.Instantiated) (p : Path) :
    s.isBoundary Resource.rootId p = true ↔ ∃ r ∈ s.declared, r.path.names = p.names := by
  rw [isBoundary, List.any_eq_true]
  refine exists_congr fun r => and_congr_right fun hr => ?_
  rw [Bool.and_eq_true, bne_iff_ne, Path.sameNames_iff]
  exact and_iff_right (hs.id_ne_rootId hr)

/-- Seen from the declared resource that owns a path, no other one is rooted there. -/
theorem Instantiated.isBoundary_of_owns (hs : s.Instantiated) (hmode : s.mode = .declared)
    {id : Nat} {p : Path} (hown : Resource.Owns s id p) : s.isBoundary id p = false := by
  rw [isBoundary, List.any_eq_false]
  intro r hr hboth
  rw [Bool.and_eq_true, bne_iff_ne, Path.sameNames_iff] at hboth
  have hactive : r ∈ s.active := by
    rw [active, hmode]
    exact hr
  rw [Resource.Owns, hs.bestMatch?_of_rooted hactive hboth.2] at hown
  exact hboth.1 (Option.some.inj hown)

/-! ### The result -/

/-- After a compilation the containers that are no containers or lists of the schema stand for its
top and for values of leaf-lists. When the whole schema is compiled, a container or list of the
schema is marked exactly when a declared resource has its names. When the declared resources are
compiled, nothing is marked: a resource with the names of a path is the owner of the path. -/
theorem boundary_iff_rooted {m : ResourceMap} {mode : Mode} (hs : ofMap m mode = .ok s)
    (h : s.compile o f = (t, .ok stats)) {id : Nat} {y : Resource} (hy : t.get? id = some y) :
    (∀ c z, y.arena.get? c = some z →
      (z.synthetic = true ∧ (z.path = .root ∨
          ∃ v ∈ f.visits, v.decl.kind = .leafList ∧ z.path = v.path) ∨
        z.synthetic = false ∧ ∃ v ∈ f.visits, v.decl.kind.isBranch = true ∧ z.path = v.path) ∧
      (mode = .full → (z.boundary = true ↔
        z.synthetic = false ∧ ∃ r ∈ s.declared, r.path.names = z.path.names)) ∧
      (mode = .declared → z.boundary = false)) ∧
    (mode = .declared → ∀ r ∈ s.declared, ∀ p : Path, r.path.names = p.names →
      s.bestMatch? p = some r) := by
  have hinst := instantiated_ofMap hs
  have hmode : s.mode = mode := (exists_root_ofMap hs).1
  refine ⟨fun c z hz => ?_, fun hdeclared r hr p hp => ?_⟩
  · cases hinst.bounded_compile h hy hz with
    | top hpath hsynthetic hno =>
      exact ⟨.inl ⟨hsynthetic, .inl hpath⟩, fun _ => by simp [hno, hsynthetic], fun _ => hno⟩
    | @value v hv hkind hpath hsynthetic hno =>
      exact ⟨.inl ⟨hsynthetic, .inr ⟨v, hv, hkind, hpath⟩⟩, fun _ => by simp [hno, hsynthetic],
        fun _ => hno⟩
    | @node v hv hkind hpath hsynthetic hown hmark =>
      refine ⟨.inr ⟨hsynthetic, v, hv, hkind, hpath⟩, fun hfull => ?_, fun hdeclared => ?_⟩
      · -- the owner is the root resource
        obtain ⟨x, hx, -⟩ := exists_get?_of_blank hinst.blank (hinst.blank_compile h) hy
        obtain ⟨-, hactive, -⟩ := hinst.above_of_owns hinst.blank hx hown
        obtain ⟨rfl, -⟩ :=
          hinst.eq_rootId_of_active hinst.blank (hmode.trans hfull) hx hactive
        rw [hmark, hinst.isBoundary_rootId, hpath]
        exact (and_iff_right hsynthetic).symm
      · rw [hmark]
        exact hinst.isBoundary_of_owns (hmode.trans hdeclared) hown
  · refine hinst.bestMatch?_of_rooted ?_ hp
    rw [active, hmode.trans hdeclared]
    exact hr

/-- Resources at a container, at a leaf-list in it and at nothing, seen from the whole schema: the
container is marked, the leaf-list is not, and neither is a list beside it. -/
theorem boundary_iff_rooted_leafList :
    let a : Node := ⟨{ name := "a", kind := .container },
      [("c", .ofKind .leafList "c"), ("d", ⟨{ name := "d", kind := .list }, []⟩)]⟩
    let f : Forest := { modules := [{ name := "m", nodes := [("a", a)] }] }
    ∃ s t stats y z w u, ofMap { declared := [("/a", { hierarchy? := some [("c", {})] }),
        ("/b", {})] } .full = .ok s ∧ s.compile {} f = (t, .ok stats) ∧ t.get? 0 = some y ∧
      (y.arena.get? 1 = some z ∧ z.path.names = ["a"] ∧ z.boundary = true) ∧
      (y.arena.get? 2 = some w ∧ w.path.names = ["a", "c"] ∧ w.boundary = false ∧
        ∃ r ∈ s.declared, r.path.names = w.path.names) ∧
      y.arena.get? 3 = some u ∧ u.path.names = ["a", "d"] ∧ u.boundary = false := by
  intro a f
  obtain ⟨s, hs, htest⟩ := exists_ok_of_any
    (p := fun s => (s.compile {} f).2.toOption.isSome &&
      (s.declared.map (·.path.names) == [["a"], ["a", "c"], ["b"]] &&
      ((s.compile {} f).1.get? 0).any fun y =>
        (y.arena.get? 1).any (fun z => z.path.names == ["a"] && !z.synthetic) &&
        ((y.arena.get? 2).any (fun w => w.path.names == ["a", "c"] && w.synthetic) &&
        (y.arena.get? 3).any fun u => u.path.names == ["a", "d"])))
    (show (ofMap { declared := [("/a", { hierarchy? := some [("c", {})] }), ("/b", {})] }
      .full).toOption.any _ = true by decide +kernel)
  simp only [Bool.and_eq_true, Option.any_eq_true, beq_iff_eq, Bool.not_eq_true'] at htest
  obtain ⟨hok, hdeclared, y, hy, ⟨z, hz, hznames, hzreal⟩, ⟨w, hw, hwnames, hwwrap⟩, u, hu,
    hunames⟩ := htest
  obtain ⟨stats, hstats⟩ := exists_ok_of_isSome hok
  have hall := (boundary_iff_rooted hs (Prod.ext rfl hstats) hy).1
  have hrooted : ∀ names, (∃ r ∈ s.declared, r.path.names = names) ↔
      names ∈ [["a"], ["a", "c"], ["b"]] := by
    intro names
    rw [← hdeclared, List.mem_map]
  refine ⟨s, _, stats, y, z, w, u, hs, Prod.ext rfl hstats, hy, ⟨hz, hznames, ?_⟩,
    ⟨hw, hwnames, ?_, ?_⟩, hu, hunames, ?_⟩
  · refine ((hall 1 z hz).2.1 rfl).2 ⟨hzreal, ?_⟩
    rw [hrooted, hznames]
    decide
  · rw [← Bool.not_eq_true, (hall 2 w hw).2.1 rfl, hwwrap]
    rintro ⟨hreal, -⟩
    cases hreal
  · rw [hrooted, hwnames]
    decide
  · rw [← Bool.not_eq_true, (hall 3 u hu).2.1 rfl, hrooted, hunames]
    rintro ⟨-, hmem⟩
    revert hmem
    decide

end ResourceSet

end YangPartition
