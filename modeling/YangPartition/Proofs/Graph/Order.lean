import YangPartition.Proofs.Graph.Edges
import YangPartition.Proofs.Graph.Search

/-!
# The order of resources

Each declared resource has to come after the one above it and after the others that its references
lead to. Where this can be met the order meets it; where it cannot, the order is the ascending one,
in which those above still come first, as they have the smaller numbers. All this holds for any
topological sort that gives an order exactly when there is one.
-/

namespace YangPartition

namespace ResourceSet

variable {s t : ResourceSet}

/-- One declared resource has to come before another: it stands right above it, or references of the
other lead to it. -/
def Precedes (t : ResourceSet) (a b : Nat) : Prop := t.StandsAbove a b ∨ t.RefersTo b a

theorem mem_of_precedes {a b : Nat} (h : t.Precedes a b) :
    a ∈ t.declared.map (·.id) ∧ b ∈ t.declared.map (·.id) := by
  rcases h with ⟨p, hp, c, hc, rfl, rfl, -⟩ | ⟨-, x, hx, y, hy, rfl, rfl, -⟩
  · exact ⟨List.mem_map_of_mem hp, List.mem_map_of_mem hc⟩
  · exact ⟨List.mem_map_of_mem hy, List.mem_map_of_mem hx⟩

/-- An edge down the hierarchy puts its source first, one along references its target. -/
theorem mem_constraints_iff {g : ResourceGraph} {a b : Nat} :
    (a, b) ∈ g.constraints ↔ ⟨a, b, .hierarchy⟩ ∈ g.edges ∨ ⟨b, a, .reference⟩ ∈ g.edges := by
  rw [ResourceGraph.constraints, List.mem_map]
  constructor
  · rintro ⟨⟨source, target, kind⟩, he, heq⟩
    cases kind with
    | hierarchy =>
      obtain ⟨rfl, rfl⟩ := Prod.mk.inj heq
      exact .inl he
    | reference =>
      obtain ⟨rfl, rfl⟩ := Prod.mk.inj heq
      exact .inr he
  · rintro (he | he)
    · exact ⟨_, he, rfl⟩
    · exact ⟨_, he, rfl⟩

/-- The constraints are exactly what has to come before what. -/
theorem Builds.mem_constraints_iff_precedes {as : List MapEntry} (h : s.Builds as)
    (ht : t.blank = s) {a b : Nat} :
    (a, b) ∈ (ResourceGraph.ofSet t).constraints ↔ t.Precedes a b := by
  rw [mem_constraints_iff, h.mem_edges_hierarchy ht, mem_edges_reference, Precedes]

theorem Builds.chained_constraints {as : List MapEntry} (h : s.Builds as) (ht : t.blank = s) :
    ResourceGraph.Chained (ResourceGraph.ofSet t).constraints = Relation.TransGen t.Precedes := by
  simp only [ResourceGraph.Chained, h.mem_constraints_iff_precedes ht]

/-- A declared resource has a smaller number than those below it. -/
theorem Builds.lt_of_standsAbove {as : List MapEntry} (h : s.Builds as) (ht : t.blank = s)
    {a b : Nat} (hab : t.StandsAbove a b) : a < b := by
  obtain ⟨-, -, c, hc, -, rfl, hparent⟩ := hab
  have hget := h.inst.get?_of_mem ht (mem_toList_of_declared hc)
  have hblank : s.get? c.id = some c.blank := by rw [← ht, get?_blank, hget, Option.map_some]
  exact h.parent_lt hblank hparent

/-- In an ascending list the smaller of two numbers comes first. -/
theorem idxOf_lt_of_lt {l : List Nat} (h : l.Pairwise (· < ·)) {a b : Nat} (ha : a ∈ l)
    (hb : b ∈ l) (hab : a < b) : l.idxOf a < l.idxOf b := by
  have hlt := List.idxOf_lt_length_of_mem ha
  have hlt' := List.idxOf_lt_length_of_mem hb
  by_contra hle
  rcases Nat.lt_or_eq_of_le (Nat.le_of_not_lt hle) with hback | heq
  · have hba := List.pairwise_iff_getElem.1 h _ _ hlt' hlt hback
    rw [List.getElem_idxOf, List.getElem_idxOf] at hba
    exact Nat.lt_asymm hab hba
  · have hsame := List.getElem_idxOf hlt'
    simp only [heq, List.getElem_idxOf] at hsame
    exact Nat.lt_irrefl _ (hsame ▸ hab)

/-- Declared resources are in ascending order from the beginning. -/
theorem Instantiated.dependencyOrderWith_eq (hs : s.Instantiated) (ht : t.blank = s)
    (sort : ResourceGraph.TopologicalSort) :
    (ResourceGraph.ofSet t).dependencyOrderWith sort =
      (sort (t.declared.map (·.id)) (ResourceGraph.ofSet t).constraints).getD
        (t.declared.map (·.id)) := by
  have hascending : (t.declared.map (·.id)).Pairwise fun a b => decide (a ≤ b) = true :=
    (hs.pairwise_declared ht).imp fun h => decide_eq_true (Nat.le_of_lt h)
  rw [ResourceGraph.dependencyOrderWith, map_nodes, List.mergeSort_of_pairwise hascending]

/-- The order of the resources of a map that a topological sort gives, whatever references are
recorded with them. It has each declared resource once, and each comes before those right below it.
When no chain of resources that have to come before one another leads back to its beginning, each
also comes before the other ones whose references lead to it. When one does, the order is the
ascending one. -/
theorem dependencyOrder_valid {sort : ResourceGraph.TopologicalSort} (hsort : sort.Lawful)
    {m : ResourceMap} {mode : Mode} (hs : ofMap m mode = .ok s) (ht : t.blank = s) :
    let order := (ResourceGraph.ofSet t).dependencyOrderWith sort
    order.Perm (t.declared.map (·.id)) ∧ order.Nodup ∧
    (∀ a b, t.StandsAbove a b → order.idxOf a < order.idxOf b) ∧
    ((∀ a, ¬ Relation.TransGen t.Precedes a a) →
      ∀ a b, t.RefersTo a b → order.idxOf b < order.idxOf a) ∧
    ((∃ a, Relation.TransGen t.Precedes a a) →
      order = t.declared.map (·.id) ∧ order.Pairwise (· < ·)) := by
  intro order
  have hbuilds := builds_ofMap hs
  have hascending := hbuilds.inst.pairwise_declared ht
  have hnodup : (t.declared.map (·.id)).Nodup := hascending.imp Nat.ne_of_lt
  have hends : ∀ p ∈ (ResourceGraph.ofSet t).constraints,
      p.1 ∈ t.declared.map (·.id) ∧ p.2 ∈ t.declared.map (·.id) :=
    fun p hp => mem_of_precedes ((hbuilds.mem_constraints_iff_precedes ht).1 hp)
  have hchained := hbuilds.chained_constraints ht
  have horder : order = _ := hbuilds.inst.dependencyOrderWith_eq ht sort
  by_cases hcycle : ∃ a, Relation.TransGen t.Precedes a a
  · have horder' : order = t.declared.map (·.id) := by
      obtain ⟨a, ha⟩ := hcycle
      rw [← hchained] at ha
      rw [horder, hsort.getD_of_cycle hnodup hends ha]
    rw [horder']
    refine ⟨.refl _, hnodup, fun a b hab => ?_, fun hacyclic => ?_, fun _ => ⟨rfl, hascending⟩⟩
    · -- those above have the smaller numbers
      obtain ⟨ha, hb⟩ := mem_of_precedes (.inl hab)
      exact idxOf_lt_of_lt hascending ha hb (hbuilds.lt_of_standsAbove ht hab)
    · obtain ⟨a, ha⟩ := hcycle
      exact absurd ha (hacyclic a)
  · have hacyclic : ∀ a, ¬ Relation.TransGen t.Precedes a a := fun a ha => hcycle ⟨a, ha⟩
    rw [← hchained] at hacyclic
    obtain ⟨hperm, hbefore⟩ := hsort.getD_of_acyclic hnodup hends hacyclic
    rw [← horder] at hperm hbefore
    have hrespects : ∀ a b, t.Precedes a b → order.idxOf a < order.idxOf b := fun a b hab =>
      hbefore a b ((hbuilds.mem_constraints_iff_precedes ht).2 hab)
    exact ⟨hperm, hperm.nodup_iff.2 hnodup, fun a b hab => hrespects a b (.inl hab),
      fun _ a b hab => hrespects b a (.inr hab), fun h => absurd h hcycle⟩

/-- Three resources of which the first stands above the second and refers to the third, to itself
and to what is no declared resource; and the same with a reference from the third to the first. -/
theorem dependencyOrder_valid_nested :
    let m : ResourceMap := { declared := [("/a", { hierarchy? := some [("b", {})] }), ("/c", {})] }
    let leadTo (owners : List (Option Nat)) (r : Resource) : Resource :=
      { r with outerReferences := owners.map fun owner? =>
          { leaf := .root, target := .root, scope := .outside owner? } }
    ∃ s, ofMap m .declared = .ok s ∧
      let t := s.modify 1 (leadTo [none, some 0, some 1, some 9, some 3, some 3])
      let u := t.modify 3 (leadTo [some 1])
      ((∀ a, ¬ Relation.TransGen t.Precedes a a) ∧ t.StandsAbove 1 2 ∧ t.RefersTo 1 3 ∧
        let order := (ResourceGraph.ofSet t).dependencyOrder
        order = [3, 1, 2] ∧ order.idxOf 1 < order.idxOf 2 ∧ order.idxOf 3 < order.idxOf 1) ∧
      (∃ a, Relation.TransGen u.Precedes a a) ∧
        (ResourceGraph.ofSet u).dependencyOrder = u.declared.map (·.id) := by
  intro m leadTo
  obtain ⟨s, hs, htest⟩ := exists_ok_of_any
    (p := fun s =>
      let t := s.modify 1 (leadTo [none, some 0, some 1, some 9, some 3, some 3])
      (ResourceGraph.ofSet t).edges == [⟨1, 2, .hierarchy⟩, ⟨1, 3, .reference⟩] &&
        (ResourceGraph.ofSet (t.modify 3 (leadTo [some 1]))).edges ==
          [⟨1, 2, .hierarchy⟩, ⟨1, 3, .reference⟩, ⟨3, 1, .reference⟩] &&
        t.declared.map (·.id) == [1, 2, 3])
    (show (ofMap m .declared).toOption.any _ = true by decide +kernel)
  simp only [Bool.and_eq_true, beq_iff_eq] at htest
  obtain ⟨⟨hedges, hedges'⟩, hids⟩ := htest
  have hbuilds := builds_ofMap hs
  have hlead : ∀ (t : ResourceSet) i owners, t.blank = s → (t.modify i (leadTo owners)).blank = s :=
    fun t i owners ht => (blank_modify (f := leadTo owners) fun r _ => rfl).trans ht
  refine ⟨s, hs, ?_⟩
  intro t u
  have ht : t.blank = s := hlead s _ _ hbuilds.inst.blank
  have hu : u.blank = s := hlead t _ _ ht
  have habove : t.StandsAbove 1 2 := (hbuilds.mem_edges_hierarchy ht).1 (by rw [hedges]; simp)
  have hrefers : t.RefersTo 1 3 := mem_edges_reference.1 (by rw [hedges]; simp)
  have hconstraints : (ResourceGraph.ofSet t).constraints = [(1, 2), (3, 1)] := by
    rw [ResourceGraph.constraints, hedges]
    rfl
  have horder : (ResourceGraph.ofSet t).dependencyOrder = [3, 1, 2] := by
    rw [ResourceGraph.dependencyOrder, hbuilds.inst.dependencyOrderWith_eq ht, hids, hconstraints]
    decide
  have hacyclic : ∀ a, ¬ Relation.TransGen t.Precedes a a := by
    have hrespects : ResourceGraph.respects [3, 1, 2] [(1, 2), (3, 1)] = true := by decide
    rw [← hbuilds.chained_constraints ht, hconstraints]
    exact ResourceGraph.not_chained_of_respects hrespects
  have hcycle : Relation.TransGen u.Precedes 1 1 := by
    refine .tail (.single (b := 3) (.inr ?_)) (.inr ?_)
    · exact mem_edges_reference.1 (by rw [hedges']; simp)
    · exact mem_edges_reference.1 (by rw [hedges']; simp)
  have hsort := ResourceGraph.lawful_depthFirst
  obtain ⟨-, -, hhierarchy, hreference, -⟩ := dependencyOrder_valid hsort hs ht
  obtain ⟨-, -, -, -, hascending⟩ := dependencyOrder_valid hsort hs hu
  exact ⟨⟨hacyclic, habove, hrefers, horder, hhierarchy 1 2 habove,
    hreference hacyclic 1 3 hrefers⟩, ⟨1, hcycle⟩, (hascending ⟨1, hcycle⟩).1⟩

end ResourceSet

end YangPartition
