import Mathlib.Data.List.Nodup
import Mathlib.Logic.Relation
import YangPartition.Graph

/-!
# Searching through followers

A node is open from when it is seen until its followers are finished. Every open node leads to the
one that is visited, so where no node leads to itself no follower is open: each is finished before
the node itself is, and stands behind it. Where a node does lead to itself no list respects all
pairs. So the search does what is expected of a topological sort.
-/

namespace YangPartition

namespace ResourceGraph

namespace Search

variable {next : Nat → List Nat} {ids : List Nat} {s s' s'' : Search}

/-! ### Followers behind -/

/-- The followers of each of a list come behind it. -/
def Followed (next : Nat → List Nat) : List Nat → Prop
  | [] => True
  | id :: order => (∀ k ∈ next id, k ∈ order) ∧ Followed next order

theorem Followed.mem {order : List Nat} (h : Followed next order) {a b : Nat} (ha : a ∈ order)
    (hb : b ∈ next a) : b ∈ order := by
  induction order with
  | nil => cases ha
  | cons id order ih =>
    rcases List.mem_cons.1 ha with rfl | ha
    · exact List.mem_cons_of_mem _ (h.1 b hb)
    · exact List.mem_cons_of_mem _ (ih h.2 ha)

/-- In a list without repetitions each comes before its followers. -/
theorem Followed.idxOf_lt {order : List Nat} (h : Followed next order) (hnodup : order.Nodup)
    {a b : Nat} (ha : a ∈ order) (hb : b ∈ next a) : order.idxOf a < order.idxOf b := by
  induction order with
  | nil => cases ha
  | cons id order ih =>
    obtain ⟨hfirst, hrest⟩ := h
    obtain ⟨hid, hnodup⟩ := List.nodup_cons.1 hnodup
    have hbehind : ∀ k ∈ order, (id :: order).idxOf k = order.idxOf k + 1 := by
      intro k hk
      exact List.idxOf_cons_ne _ fun heq => hid (heq ▸ hk)
    rcases List.mem_cons.1 ha with rfl | ha
    · rw [List.idxOf_cons_self, hbehind b (hfirst b hb)]
      exact Nat.succ_pos _
    · rw [hbehind a ha, hbehind b (hrest.mem ha hb)]
      exact Nat.succ_lt_succ (ih hrest hnodup ha)

/-! ### States of a search -/

/-- What holds of a search at any time. -/
structure Valid (next : Nat → List Nat) (ids : List Nat) (s : Search) : Prop where
  /-- What is finished has been seen. -/
  seen : ∀ id ∈ s.order, id ∈ s.seen
  /-- It is among what is searched. -/
  within : ∀ id ∈ s.order, id ∈ ids
  /-- It has been finished once. -/
  nodup : s.order.Nodup
  /-- Followers have been finished before. -/
  followed : Followed next s.order

/-- Seen and not finished. -/
def Open (s : Search) (id : Nat) : Prop := id ∈ s.seen ∧ id ∉ s.order

/-- How many have not been seen. -/
def unseen (ids : List Nat) (s : Search) : Nat := ids.countP fun id => !s.seen.contains id

/-- A search has come further, and left open what was. -/
structure Extends (next : Nat → List Nat) (ids : List Nat) (s s' : Search) : Prop where
  /-- It is a search still. -/
  valid : s'.Valid next ids
  /-- What is finished stays finished. -/
  order : s.order ⊆ s'.order
  /-- The same is open. -/
  open_iff : ∀ id, s'.Open id ↔ s.Open id
  /-- Nothing becomes unseen. -/
  unseen : s'.unseen ids ≤ s.unseen ids

theorem Valid.extends (h : s.Valid next ids) : Extends next ids s s :=
  ⟨h, List.Subset.refl _, fun _ => .rfl, Nat.le_refl _⟩

theorem Extends.trans (h : Extends next ids s s') (h' : Extends next ids s' s'') :
    Extends next ids s s'' :=
  ⟨h'.valid, List.Subset.trans h.order h'.order, fun id => (h'.open_iff id).trans (h.open_iff id),
    Nat.le_trans h'.unseen h.unseen⟩

/-- Visits, one after the other, of which each extends the search and finishes its node, extend
it and finish all. -/
theorem extends_foldl {f : Search → Nat → Search} {l : List Nat} (hs : s.Valid next ids)
    (hf : ∀ s', Extends next ids s s' → ∀ id ∈ l,
      Extends next ids s' (f s' id) ∧ id ∈ (f s' id).order) :
    Extends next ids s (l.foldl f s) ∧ ∀ id ∈ l, id ∈ (l.foldl f s).order := by
  induction l generalizing s with
  | nil => exact ⟨hs.extends, fun id hid => by cases hid⟩
  | cons id l ih =>
    obtain ⟨hfirst, hmem⟩ := hf s hs.extends id List.mem_cons_self
    obtain ⟨hrest, hall⟩ := ih hfirst.valid fun s' hs' k hk =>
      hf s' (hfirst.trans hs') k (List.mem_cons_of_mem _ hk)
    refine ⟨hfirst.trans hrest, fun k hk => ?_⟩
    rcases List.mem_cons.1 hk with rfl | hk
    · exact hrest.order hmem
    · exact hall k hk

/-! ### Seeing and finishing -/

/-- Seeing a node finishes nothing. -/
theorem Valid.see (hs : s.Valid next ids) (id : Nat) :
    Valid next ids { s with seen := id :: s.seen } where
  seen k hk := List.mem_cons_of_mem _ (hs.seen k hk)
  within := hs.within
  nodup := hs.nodup
  followed := hs.followed

/-- A node that is seen for the first time is open then, beside those that were. -/
theorem Valid.open_see_iff (hs : s.Valid next ids) {id : Nat} (hnew : id ∉ s.seen) (k : Nat) :
    Open { s with seen := id :: s.seen } k ↔ k = id ∨ s.Open k := by
  rw [Open, List.mem_cons]
  constructor
  · rintro ⟨rfl | hk, hout⟩
    · exact .inl rfl
    · exact .inr ⟨hk, hout⟩
  · rintro (rfl | ⟨hk, hout⟩)
    · exact ⟨.inl rfl, fun hk => hnew (hs.seen _ hk)⟩
    · exact ⟨.inr hk, hout⟩

/-- Seeing one that is searched and has not been seen leaves fewer unseen. -/
theorem unseen_see_lt {id : Nat} (hid : id ∈ ids) (hnew : id ∉ s.seen) :
    unseen ids { s with seen := id :: s.seen } < s.unseen ids := by
  rw [unseen, unseen, List.countP_eq_length_filter, List.countP_eq_length_filter]
  have hstill : ids.filter (fun k => !(id :: s.seen).contains k) =
      (ids.filter fun k => !s.seen.contains k).filter (· != id) := by
    rw [List.filter_filter]
    refine List.filter_congr fun k _ => ?_
    rw [List.contains_cons, Bool.not_or]
    rfl
  rw [hstill]
  refine List.length_filter_lt_length_iff_exists.2 ⟨id, List.mem_filter.2 ⟨hid, ?_⟩, by simp⟩
  simpa using hnew

/-- A node that is finished last stands first. -/
theorem Valid.finish (hs : s.Valid next ids) {id : Nat} (hid : id ∈ ids) (hopen : s.Open id)
    (hfollowers : ∀ k ∈ next id, k ∈ s.order) :
    Valid next ids { s with order := id :: s.order } where
  seen k hk := by
    rcases List.mem_cons.1 hk with rfl | hk
    · exact hopen.1
    · exact hs.seen k hk
  within k hk := by
    rcases List.mem_cons.1 hk with rfl | hk
    · exact hid
    · exact hs.within k hk
  nodup := List.nodup_cons.2 ⟨hopen.2, hs.nodup⟩
  followed := ⟨hfollowers, hs.followed⟩

/-- A node that is finished is not open any more. -/
theorem open_finish_iff {id k : Nat} :
    Open { s with order := id :: s.order } k ↔ s.Open k ∧ k ≠ id := by
  rw [Open, Open, List.mem_cons, not_or, and_assoc, and_comm (a := k ≠ id)]

/-- A search that has seen a node and come further, up to all followers of the node,
finishes it last. What was open before is open after that, and nothing else. -/
theorem Extends.finish (hs : s.Valid next ids) {id : Nat} (hid : id ∈ ids) (hnew : id ∉ s.seen)
    (h : Extends next ids { s with seen := id :: s.seen } s')
    (hfollowers : ∀ k ∈ next id, k ∈ s'.order) :
    Extends next ids s { s' with order := id :: s'.order } where
  valid := by
    have hopen : s'.Open id := (h.open_iff id).2 ((hs.open_see_iff hnew id).2 (.inl rfl))
    exact h.valid.finish hid hopen hfollowers
  order k hk := List.mem_cons_of_mem _ (h.order hk)
  open_iff k := by
    rw [open_finish_iff, h.open_iff, hs.open_see_iff hnew]
    constructor
    · exact fun ⟨hk, hne⟩ => hk.resolve_left hne
    · intro hk
      refine ⟨.inr hk, ?_⟩
      rintro rfl
      exact hnew hk.1
  unseen := Nat.le_trans h.unseen (Nat.le_of_lt (unseen_see_lt hid hnew))

/-! ### Visits -/

/-- One leads to another along followers. -/
def Leads (next : Nat → List Nat) : Nat → Nat → Prop :=
  Relation.TransGen fun a b => b ∈ next a

/-- Where none leads to itself, a visit to which all that is open leads finishes its node, if
there is fuel for all that have not been seen. -/
theorem extends_from (hacyclic : ∀ id, ¬ Leads next id id)
    (hnext : ∀ id ∈ ids, ∀ k ∈ next id, k ∈ ids) {fuel id : Nat} (hs : s.Valid next ids)
    (hid : id ∈ ids) (hopen : ∀ k, s.Open k → Leads next k id) (hfuel : s.unseen ids < fuel) :
    Extends next ids s (Search.from next fuel s id) ∧
      id ∈ (Search.from next fuel s id).order := by
  induction fuel generalizing s id with
  | zero => exact absurd hfuel (Nat.not_lt_zero _)
  | succ fuel ih =>
    rw [Search.from]
    by_cases hseen : id ∈ s.seen
    · rw [if_pos (List.contains_iff_mem.2 hseen)]
      refine ⟨hs.extends, ?_⟩
      -- an open node would lead to itself
      by_contra hnot
      exact hacyclic id (hopen id ⟨hseen, hnot⟩)
    · rw [if_neg fun h => hseen (List.contains_iff_mem.1 h)]
      have hfewer := unseen_see_lt hid hseen
      -- all that is open leads to the followers too
      have hleads : ∀ k, Open { s with seen := id :: s.seen } k → ∀ follower ∈ next id,
          Leads next k follower := by
        intro k hk follower hfollower
        rcases (hs.open_see_iff hseen k).1 hk with rfl | hk
        · exact .single hfollower
        · exact (hopen k hk).tail hfollower
      obtain ⟨hextends, hall⟩ := extends_foldl (f := Search.from next fuel) (hs.see id)
        fun s' hs' follower hfollower => ih hs'.valid (hnext id hid follower hfollower)
          (fun k hk => hleads k ((hs'.open_iff k).1 hk) follower hfollower)
          (by have := hs'.unseen; omega)
      exact ⟨hextends.finish hs hid hseen hall, List.mem_cons_self⟩

/-- Where none leads to itself, all are finished once, each before its followers. -/
theorem perm_foldl_from (hacyclic : ∀ id, ¬ Leads next id id) (hnodup : ids.Nodup)
    (hnext : ∀ id ∈ ids, ∀ k ∈ next id, k ∈ ids) :
    let order := (ids.foldl (Search.from next (ids.length + 1)) {}).order
    order.Perm ids ∧ ∀ a ∈ ids, ∀ b ∈ next a, order.idxOf a < order.idxOf b := by
  have hempty : ({} : Search).Valid next ids :=
    ⟨fun id hid => (by cases hid), fun id hid => (by cases hid), List.nodup_nil, trivial⟩
  obtain ⟨hextends, hall⟩ := extends_foldl (f := Search.from next (ids.length + 1)) hempty
    fun s' hs' id hid => extends_from hacyclic hnext hs'.valid hid
      (fun k hk => by cases ((hs'.open_iff k).1 hk).1)
      (Nat.lt_succ_of_le (Nat.le_trans hs'.unseen List.countP_le_length))
  have hvalid := hextends.valid
  exact ⟨(List.perm_ext_iff_of_nodup hvalid.nodup hnodup).2 fun id =>
      ⟨hvalid.within id, hall id⟩,
    fun a ha b hb => hvalid.followed.idxOf_lt hvalid.nodup (hall a ha) hb⟩

end Search

/-! ### Topological sorts -/

/-- One node has to come before another, or before one that has to. -/
abbrev Chained (pairs : List (Nat × Nat)) : Nat → Nat → Prop :=
  Relation.TransGen fun a b => (a, b) ∈ pairs

/-- What is expected of a topological sort of different nodes and of pairs of them. -/
structure TopologicalSort.Lawful (sort : TopologicalSort) : Prop where
  /-- There is an order exactly when no node has to come before itself. -/
  isSome_iff : ∀ {nodes : List Nat} {pairs : List (Nat × Nat)}, nodes.Nodup →
    (∀ p ∈ pairs, p.1 ∈ nodes ∧ p.2 ∈ nodes) →
    ((sort nodes pairs).isSome = true ↔ ∀ a, ¬ Chained pairs a a)
  /-- The order has every node once, and the first of each pair before the second. -/
  sorted : ∀ {nodes : List Nat} {pairs : List (Nat × Nat)} {order : List Nat}, nodes.Nodup →
    (∀ p ∈ pairs, p.1 ∈ nodes ∧ p.2 ∈ nodes) → sort nodes pairs = some order →
    order.Perm nodes ∧ ∀ a b, (a, b) ∈ pairs → order.idxOf a < order.idxOf b

variable {pairs : List (Nat × Nat)} {order : List Nat}

theorem mem_followers_iff {a b : Nat} : b ∈ followers pairs a ↔ (a, b) ∈ pairs := by
  rw [followers, List.mem_map]
  constructor
  · rintro ⟨⟨a', b'⟩, h, rfl⟩
    obtain ⟨hmem, ha⟩ := List.mem_filter.1 h
    rw [← beq_iff_eq.1 ha]
    exact hmem
  · intro h
    exact ⟨(a, b), List.mem_filter.2 ⟨h, beq_self_eq_true a⟩, rfl⟩

theorem leads_followers : Search.Leads (followers pairs) = Chained pairs := by
  simp only [Search.Leads, mem_followers_iff]

theorem respects_iff :
    respects order pairs = true ↔ ∀ a b, (a, b) ∈ pairs → order.idxOf a < order.idxOf b := by
  simp [respects]

/-- A list that respects all pairs tells that none leads back. -/
theorem not_chained_of_respects (h : respects order pairs = true) (a : Nat) :
    ¬ Chained pairs a a := by
  have hlt : ∀ {a b}, Chained pairs a b → order.idxOf a < order.idxOf b := by
    intro a b hab
    induction hab with
    | single hab => exact respects_iff.1 h _ _ hab
    | tail _ hbc ih => exact Nat.lt_trans ih (respects_iff.1 h _ _ hbc)
  exact fun hcycle => Nat.lt_irrefl _ (hlt hcycle)

/-- Where no pairs lead back, the search finishes all nodes in an order that respects the pairs. -/
theorem respects_of_acyclic {nodes : List Nat} (hnodup : nodes.Nodup)
    (hwithin : ∀ p ∈ pairs, p.1 ∈ nodes ∧ p.2 ∈ nodes) (hacyclic : ∀ a, ¬ Chained pairs a a) :
    let order := (nodes.foldl (Search.from (followers pairs) (nodes.length + 1)) {}).order
    order.Perm nodes ∧ respects order pairs = true := by
  intro order
  rw [← leads_followers] at hacyclic
  obtain ⟨hperm, hbefore⟩ := Search.perm_foldl_from hacyclic hnodup fun a _ b hb =>
    (hwithin (a, b) (mem_followers_iff.1 hb)).2
  refine ⟨hperm, respects_iff.2 fun a b hab => ?_⟩
  exact hbefore a (hwithin (a, b) hab).1 b (mem_followers_iff.2 hab)

/-- The search is a topological sort. -/
theorem lawful_depthFirst : depthFirst.Lawful where
  isSome_iff := by
    intro nodes pairs hnodup hwithin
    rw [depthFirst, Option.isSome_ite]
    exact ⟨not_chained_of_respects, fun h => (respects_of_acyclic hnodup hwithin h).2⟩
  sorted := by
    intro nodes pairs order hnodup hwithin hsort
    obtain ⟨hrespects, hfound⟩ := Option.ite_none_right_eq_some.1 hsort
    obtain rfl := Option.some.inj hfound
    have hacyclic := not_chained_of_respects hrespects
    exact ⟨(respects_of_acyclic hnodup hwithin hacyclic).1, respects_iff.1 hrespects⟩

namespace TopologicalSort.Lawful

variable {sort : TopologicalSort} {nodes : List Nat}

/-- Where no pairs lead back, the order that is taken is the one that the sort gives. -/
theorem getD_of_acyclic (hsort : sort.Lawful) (hnodup : nodes.Nodup)
    (hwithin : ∀ p ∈ pairs, p.1 ∈ nodes ∧ p.2 ∈ nodes) (hacyclic : ∀ a, ¬ Chained pairs a a) :
    let order := (sort nodes pairs).getD nodes
    order.Perm nodes ∧ ∀ a b, (a, b) ∈ pairs → order.idxOf a < order.idxOf b := by
  obtain ⟨order, horder⟩ :=
    Option.isSome_iff_exists.1 ((hsort.isSome_iff hnodup hwithin).2 hacyclic)
  rw [horder, Option.getD_some]
  exact hsort.sorted hnodup hwithin horder

/-- Where some do, it is the order of the nodes themselves. -/
theorem getD_of_cycle (hsort : sort.Lawful) (hnodup : nodes.Nodup)
    (hwithin : ∀ p ∈ pairs, p.1 ∈ nodes ∧ p.2 ∈ nodes) {a : Nat} (hcycle : Chained pairs a a) :
    (sort nodes pairs).getD nodes = nodes := by
  have hnone : sort nodes pairs = none := by
    rw [← Option.not_isSome_iff_eq_none, hsort.isSome_iff hnodup hwithin]
    exact fun hacyclic => hacyclic a hcycle
  rw [hnone, Option.getD_none]

end TopologicalSort.Lawful

end ResourceGraph

end YangPartition
