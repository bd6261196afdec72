import YangPartition.Compile.Finish
import YangPartition.Proofs.Container.Lookup
import YangPartition.Proofs.Outcome
import YangPartition.Proofs.Path.Expression
import YangPartition.Resource.Declare
import YangPartition.Resource.Map

/-!
# Overridden references

A map may state the path of the leaf that a leaf refers to. The path is stored
folded, with the keys it was written with, so the key before the leaf that comes
first decides which type is found; an expression of the same text is resolved
without its keys, and finds the type of the leaf.
-/

namespace YangPartition.Overrides

open YangPartition.Path

/-- The one pair of a map is stored with its folded target. -/
theorem get?_ofPairs_single {leafText remote : String} {leafPath p : Path}
    (hleaf : parse leafText = .ok leafPath) (h : parse remote = .ok p) :
    (ofPairs [(leafText, remote)]).toOption.bind (·.get? leafPath) = some p.foldKey := by
  simp only [ofPairs, List.foldlM_cons, List.foldlM_nil, hleaf, h]
  simp [get?, NameMap.find?, NameMap.insert, Except.toOption, pure, Except.pure, bind, Except.bind]

/-- The path that is stored for a written target leads to the first of the leaf's name and the keys
of the element before, in the container along the other names. So it gives the type of the leaf in
every tree of containers just if no key of that element comes before the leaf; the path that an
expression of plain segments resolves to gives that type in any case. -/
theorem typeAt?_of_written {remote : String} {p : Path} (h : parse remote = .ok p)
    {above : List Elem} {owner leaf : Elem} (helems : p.elems = above ++ [owner, leaf]) :
    (∀ leafText leafPath, parse leafText = .ok leafPath →
      (ofPairs [(leafText, remote)]).toOption.bind (·.get? leafPath) = some p.foldKey) ∧
    (∀ (a : Arena) root, a.typeAt? root p.foldKey =
      a.typeBelow? root p.names.dropLast (owner.leastKey leaf.name)) ∧
    ((∀ (a : Arena) root, a.typeAt? root p.foldKey =
      a.typeBelow? root p.names.dropLast leaf.name) ↔ ∀ key ∈ owner.keys.names, leaf.name ≤ key) ∧
    ∀ ss : List Segment, (Text.trim remote.toList = ss.flatMap fun s => '/' :: s.text) →
      (∀ s ∈ ss, s.Plain) → ∀ leafPath, ∃ target, Expression.resolve remote leafPath = .ok target ∧
        ∀ (a : Arena) root, a.typeAt? root target = a.typeBelow? root p.names.dropLast leaf.name := by
  refine ⟨fun leafText leafPath hleaf => get?_ofPairs_single hleaf h, fun a root => ?_,
    Arena.typeAt?_foldKey_iff helems, fun ss hremote hplain leafPath => ?_⟩
  · rw [Arena.typeAt?, Arena.entryAt?_foldKey helems]
    rfl
  · have hnames : p.names = p.names.dropLast ++ [leaf.name] := by
      rw [names_dropLast helems, names, helems]
      simp
    have hne : p.names ≠ [] := by
      rw [hnames]
      exact List.append_ne_nil_of_right_ne_nil _ (List.cons_ne_nil _ _)
    refine ⟨_, Expression.resolve_of_parse h hremote hplain hne leafPath, fun a root => ?_⟩
    rw [Arena.typeAt?, hnames, Arena.entryAt?_ofNames, ← hnames]
    rfl

/-- A leaf behind two keys, the first of which comes before it. -/
theorem typeAt?_of_written_keys :
    let ss : List Segment := [⟨"m:a".toList, []⟩, ⟨"b ".toList, [("k='1/2'".toList, []),
      ("id=1".toList, " ".toList)]⟩, ⟨"name".toList, []⟩]
    let remote := "/m:a/b [k='1/2'][id=1] /name"
    let owner := ((Elem.named "b").withKey "k" "1/2").withKey "id" "1"
    let p : Path := ⟨[.named "a"] ++ [owner, .named "name"]⟩
    parse remote = .ok p ∧ (Text.trim remote.toList = ss.flatMap fun s => '/' :: s.text) ∧
      (∀ s ∈ ss, s.Plain) ∧
      (∀ (a : Arena) root, a.typeAt? root p.foldKey = a.typeBelow? root ["a", "b"] "id") ∧
      ∃ target, Expression.resolve remote .root = .ok target ∧
        ∀ (a : Arena) root, a.typeAt? root target = a.typeBelow? root ["a", "b"] "name" := by
  intro ss remote owner p
  have hp : parse remote = .ok p := by
    obtain ⟨q, hq, htest⟩ := exists_ok_of_any (x := parse remote) (p := (· == p))
      (by decide +kernel)
    rw [hq, beq_iff_eq.1 htest]
  have hremote : Text.trim remote.toList = ss.flatMap fun s => '/' :: s.text := by decide +kernel
  have hplain : ∀ s ∈ ss, s.Plain := by decide +kernel
  obtain ⟨-, htype, -, hresolve⟩ := typeAt?_of_written hp
    (show p.elems = [.named "a"] ++ [owner, .named "name"] from rfl)
  have hleast : owner.leastKey "name" = "id" := by decide +kernel
  refine ⟨hp, hremote, hplain, fun a root => ?_, hresolve ss hremote hplain .root⟩
  rw [← hleast]
  exact htype a root

/-- A leaf whose reference is stated with the key of a list gets the type of the key, not that of
the leaf that it refers to. -/
theorem key_gives_type_for_leaf :
    let r : Node := ⟨{ name := "r", kind := .leaf, typeName := "leafref" }, []⟩
    let a := (Node.ofKind .container "a").withChild r
    let b := ((Node.ofList "b" "id").withChild (.ofLeaf "id" "uint32")).withChild
      (.ofLeaf "name" "string")
    let f := Forest.ofModules [{ name := "m", nodes := [("a", a), ("b", b)] }]
    ∃ s o t result x, ResourceSet.ofMap {} .full = .ok s ∧
      ofPairs [("/a/r", "/b[id=1]/name")] = .ok o ∧
      s.build { overrides := o } f = (t, .ok result) ∧ t.get? Resource.rootId = some x ∧
      x.arena.typeBelow? 0 ["b"] "name" = some "string" ∧
      x.arena.typeBelow? 0 ["a"] "r" = some "uint32" := by
  intro r a b f
  obtain ⟨o, ho, htest⟩ := exists_ok_of_any
    (p := fun o => (ResourceSet.ofMap {} .full).toOption.any fun s =>
      (s.build { overrides := o } f).2.toOption.isSome &&
        ((s.build { overrides := o } f).1.get? Resource.rootId).any fun x =>
          x.arena.typeBelow? 0 ["b"] "name" == some "string" &&
            x.arena.typeBelow? 0 ["a"] "r" == some "uint32")
    (show (ofPairs [("/a/r", "/b[id=1]/name")]).toOption.any _ = true by decide +kernel)
  obtain ⟨s, hs, htest⟩ := exists_ok_of_any htest
  rw [Bool.and_eq_true] at htest
  obtain ⟨result, hresult⟩ := exists_ok_of_isSome htest.1
  obtain ⟨x, hx, htypes⟩ := (Option.any_eq_true _ _).1 htest.2
  rw [Bool.and_eq_true, beq_iff_eq, beq_iff_eq] at htypes
  exact ⟨s, o, _, result, x, hs, ho, Prod.ext rfl hresult, hx, htypes⟩

end YangPartition.Overrides
