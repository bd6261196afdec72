import Mathlib.Data.List.Basic
import Mathlib.Data.List.Induction
import YangPartition.Container.Levels

/-!
# Level stacks and their history

A level stack is what a row of operations has left of an empty one. The container at a depth is the
one that was put there last, as long as nothing since has forgotten the depth; whatever has not been
put there, or has been forgotten, is not answered. The depths with an answer have no gap between
them.
-/

namespace YangPartition.LevelStack

variable {l : LevelStack} {d : Nat}

/-! ### Levels -/

/-- Entering a depth below one that has a container keeps the depths above and drops those
further down. -/
theorem getElem?_enter (h : d ≤ l.levels.length) (id i : Nat) :
    (l.enter d id).levels[i]? =
      if i < d then l.levels[i]? else if i = d then some id else none := by
  rw [enter, enter?, depth, if_neg (Nat.not_lt.2 h), Option.getD_some]
  have hlen : (l.levels.take d).length = d := List.length_take_of_le h
  by_cases hi : i < d
  · rw [if_pos hi, List.getElem?_append_left (by omega), List.getElem?_take, if_pos hi]
  · rw [if_neg hi, List.getElem?_append_right (by omega), hlen, List.getElem?_singleton]
    by_cases heq : i = d
    · rw [if_pos heq, if_pos (by omega)]
    · rw [if_neg heq, if_neg (by omega)]

/-- After starting over only depth 0 has a container. -/
theorem getElem?_reset_iff {new id : Nat} :
    (l.reset new).levels[d]? = some id ↔ d = 0 ∧ id = new := by
  rw [reset, List.getElem?_singleton]
  by_cases hd : d = 0
  · simp [hd, eq_comm]
  · simp [hd]

/-- Cutting the stack keeps the depths above the cut. -/
theorem getElem?_truncate_iff {depth id : Nat} :
    (l.truncate depth).levels[d]? = some id ↔ d < depth ∧ l.levels[d]? = some id := by
  rw [truncate, List.getElem?_take]
  by_cases hd : d < depth
  · simp [hd]
  · simp [hd]

theorem parentFor?_eq_some {parent : Nat} :
    l.parentFor? d = some parent ↔ ∃ n, d = n + 1 ∧ l.levels[n]? = some parent := by
  cases d with
  | zero => simp [parentFor?]
  | succ n => simp [parentFor?]

/-- A depth is refused just if the depth above has no container. -/
theorem enter?_eq_none_iff {id : Nat} : l.enter? d id = none ↔ l.depth < d := by
  simp [enter?]

/-- What is refused changes nothing. -/
theorem enter_of_eq_none {id : Nat} (h : l.enter? d id = none) : l.enter d id = l := by
  rw [enter, h, Option.getD_none]

/-- The depths below one that has a container are all that are answered. -/
theorem isSome_parentFor?_iff : (l.parentFor? d).isSome ↔ 1 ≤ d ∧ d ≤ l.depth := by
  cases d with
  | zero => simp [parentFor?]
  | succ n =>
    rw [parentFor?, isSome_getElem?, depth]
    omega

/-! ### Operations -/

/-- A change of a level stack. -/
inductive Operation where
  /-- Starts over with a container at depth 0. -/
  | reset (id : Nat)
  /-- Puts a container at a depth, if the stack takes it there. -/
  | enter (depth id : Nat)
  /-- Forgets the containers from a depth on. -/
  | truncate (depth : Nat)
  /-- Forgets all containers. -/
  | clear

/-- The stack after an operation. -/
def apply (l : LevelStack) : Operation → LevelStack
  | .reset id => l.reset id
  | .enter depth id => l.enter depth id
  | .truncate depth => l.truncate depth
  | .clear => l.clear

/-- What operations leave of an empty stack. -/
def ofHistory (ops : List Operation) : LevelStack := ops.foldl apply {}

theorem ofHistory_concat (ops : List Operation) (op : Operation) :
    ofHistory (ops ++ [op]) = (ofHistory ops).apply op := by
  rw [ofHistory, List.foldl_append]
  rfl

/-! ### What an operation does at a depth -/

/-- The operation puts a container at the depth: it starts over, or it enters the depth and is not
refused. -/
def Puts (l : LevelStack) (d id : Nat) : Operation → Prop
  | .reset new => d = 0 ∧ id = new
  | .enter depth new => d = depth ∧ id = new ∧ (l.enter? depth new).isSome
  | .truncate _ => False
  | .clear => False

/-- The operation forgets what stood at the depth: it starts over or clears all, it cuts the stack
there or above, or it enters a smaller depth and is not refused. -/
def Forgets (l : LevelStack) (d : Nat) : Operation → Prop
  | .reset _ => True
  | .enter depth new => depth < d ∧ (l.enter? depth new).isSome
  | .truncate depth => depth ≤ d
  | .clear => True

/-- The operation leaves what stands at the depth. -/
def Leaves (l : LevelStack) (d : Nat) (op : Operation) : Prop :=
  ¬ Forgets l d op ∧ ∀ id, ¬ Puts l d id op

theorem getElem?_enter_iff {depth new id : Nat} :
    (l.enter depth new).levels[d]? = some id ↔
      Puts l d id (.enter depth new) ∨ l.levels[d]? = some id ∧ Leaves l d (.enter depth new) := by
  by_cases hrefused : l.enter? depth new = none
  · rw [enter_of_eq_none hrefused]
    simp [Puts, Leaves, Forgets, hrefused]
  · have htaken : (l.enter? depth new).isSome := Option.isSome_iff_ne_none.2 hrefused
    have hle : depth ≤ l.levels.length := Nat.not_lt.1 (mt enter?_eq_none_iff.2 hrefused)
    rw [getElem?_enter hle]
    simp only [Puts, Leaves, Forgets, htaken, and_true, Nat.not_lt]
    rcases Nat.lt_trichotomy d depth with habove | rfl | hbelow
    · simp [habove, Nat.ne_of_lt habove, Nat.le_of_lt habove]
    · simp [eq_comm]
    · simp [Nat.lt_asymm hbelow, Nat.ne_of_gt hbelow, Nat.not_le.2 hbelow]

/-- After an operation a depth has the container that it put there, and else the one from before,
unless it forgets it. -/
theorem getElem?_apply_iff {op : Operation} {id : Nat} :
    (l.apply op).levels[d]? = some id ↔
      Puts l d id op ∨ l.levels[d]? = some id ∧ Leaves l d op := by
  cases op with
  | reset new =>
    rw [apply, getElem?_reset_iff]
    simp [Puts, Leaves, Forgets]
  | enter depth new => exact getElem?_enter_iff
  | truncate depth =>
    rw [apply, getElem?_truncate_iff]
    simp [Puts, Leaves, Forgets, and_comm]
  | clear => simp [apply, LevelStack.clear, Puts, Leaves, Forgets]

/-! ### Histories -/

/-- The last operation that put a container at the depth put this one there, and none since has
forgotten the depth. -/
def LastPut (ops : List Operation) (d id : Nat) : Prop :=
  ∃ before op after, ops = before ++ op :: after ∧ Puts (ofHistory before) d id op ∧
    ∀ first op' rest, after = first ++ op' :: rest →
      Leaves (ofHistory (before ++ op :: first)) d op'

theorem not_lastPut_nil {id : Nat} : ¬ LastPut [] d id := by
  rintro ⟨before, op, after, h, -⟩
  exact List.append_ne_nil_of_right_ne_nil before (List.cons_ne_nil op after) h.symm

/-- One more operation either puts a container at the depth or leaves what was put there. -/
theorem lastPut_concat_iff {ops : List Operation} {op : Operation} {id : Nat} :
    LastPut (ops ++ [op]) d id ↔
      Puts (ofHistory ops) d id op ∨ LastPut ops d id ∧ Leaves (ofHistory ops) d op := by
  constructor
  · rintro ⟨before, first, after, hops, hputs, hleaves⟩
    rcases List.eq_nil_or_concat' after with rfl | ⟨between, last, rfl⟩
    · obtain ⟨rfl, hop⟩ := List.append_inj' hops rfl
      obtain rfl := (List.cons.inj hop).1
      exact .inl hputs
    · rw [← List.cons_append, ← List.append_assoc] at hops
      obtain ⟨rfl, hop⟩ := List.append_inj' hops rfl
      obtain rfl := (List.cons.inj hop).1
      refine .inr ⟨⟨before, first, between, rfl, hputs, fun u op' rest hbetween => ?_⟩,
        hleaves between op [] rfl⟩
      refine hleaves u op' (rest ++ [op]) ?_
      rw [hbetween, List.append_assoc, List.cons_append]
  · rintro (hputs | ⟨⟨before, first, after, rfl, hputs, hleaves⟩, hlast⟩)
    · refine ⟨ops, op, [], rfl, hputs, fun u op' rest hnil => ?_⟩
      exact absurd hnil.symm (List.append_ne_nil_of_right_ne_nil u (List.cons_ne_nil op' rest))
    · refine ⟨before, first, after ++ [op], by simp, hputs, fun u op' rest hafter => ?_⟩
      rcases List.eq_nil_or_concat' rest with rfl | ⟨more, last, rfl⟩
      · obtain ⟨rfl, hop⟩ := List.append_inj' hafter rfl
        obtain rfl := (List.cons.inj hop).1
        exact hlast
      · rw [← List.cons_append, ← List.append_assoc] at hafter
        exact hleaves u op' more (List.append_inj' hafter rfl).1

/-- A depth has the container that was put there last and has not been forgotten. -/
theorem getElem?_ofHistory_iff (ops : List Operation) (d id : Nat) :
    (ofHistory ops).levels[d]? = some id ↔ LastPut ops d id := by
  induction ops using List.reverseRecOn with
  | nil =>
    refine iff_of_false (fun h => ?_) not_lastPut_nil
    cases h
  | append_singleton ops op ih =>
    rw [ofHistory_concat, getElem?_apply_iff, lastPut_concat_iff, ih]

/-- What a level stack answers after any operations on an empty one. For the nodes below a depth it
answers the container that was put there last, if the depth has not been forgotten since, and else
none; for depth 0 it answers none. A container is refused just if its depth is beyond those that
have one, and then nothing changes. The depths with an answer are those from 1 to the number of
depths that have a container. -/
theorem answers_of_history (ops : List Operation) :
    (∀ d id, (ofHistory ops).parentFor? (d + 1) = some id ↔ LastPut ops d id) ∧
    (∀ d, (ofHistory ops).parentFor? (d + 1) = none ↔ ∀ id, ¬ LastPut ops d id) ∧
    (ofHistory ops).parentFor? 0 = none ∧
    (∀ d id, ((ofHistory ops).enter? d id = none ↔ (ofHistory ops).depth < d) ∧
      ((ofHistory ops).enter? d id = none →
        ofHistory (ops ++ [.enter d id]) = ofHistory ops)) ∧
    ∀ d, ((ofHistory ops).parentFor? d).isSome ↔ 1 ≤ d ∧ d ≤ (ofHistory ops).depth := by
  refine ⟨getElem?_ofHistory_iff ops, fun d => ?_, rfl, fun d id => ⟨enter?_eq_none_iff, ?_⟩,
    fun d => isSome_parentFor?_iff⟩
  · simp only [← getElem?_ofHistory_iff, parentFor?]
    exact Option.eq_none_iff_forall_ne_some
  · intro h
    rw [ofHistory_concat]
    exact enter_of_eq_none h

/-- A container at a smaller depth forgets the branch before it, and one that is beyond the depths
is refused. -/
theorem answers_of_history_refused :
    let ops : List Operation := [.reset 0, .enter 1 1, .enter 2 2, .enter 1 3, .truncate 2]
    LastPut ops 1 3 ∧ (∀ id, ¬ LastPut ops 2 id) ∧ (ofHistory ops).enter? 4 4 = none ∧
      ofHistory (ops ++ [.enter 4 4]) = ofHistory ops := by
  intro ops
  obtain ⟨hput, hnone, -, hrefused, -⟩ := answers_of_history ops
  have hbeyond : (ofHistory ops).enter? 4 4 = none := (hrefused 4 4).1.2 (by decide)
  exact ⟨(hput 1 3).1 (by decide), (hnone 2).1 (by decide), hbeyond, (hrefused 4 4).2 hbeyond⟩

end YangPartition.LevelStack
