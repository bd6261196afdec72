import Mathlib.Data.Nat.Count
import YangPartition.Proofs.Compile.Placement

/-!
# Selections

One plan may hold some of the nodes of another one. When no node moves into the container of a
node that it was not placed in before, the containers of what is left are those that were there,
less the ones dropped; they keep their order, and their places are counted anew.
-/

namespace YangPartition

namespace Planned

/-- Placed nodes of which some have been kept, `inside` the container of a node that has been kept
or not. Inside, what is dropped is dropped with all below it. Elsewhere, what is kept below a
container that is dropped comes to stand on top. -/
inductive Selects (keep : Visit → Bool) : Bool → List Planned → List Planned → Prop where
  /-- Of no nodes none are kept. -/
  | nil {inside : Bool} : Selects keep inside [] []
  /-- Nodes stand beside each other. -/
  | append {inside : Bool} {ps ps' qs qs' : List Planned} :
      Selects keep inside ps ps' → Selects keep inside qs qs' →
        Selects keep inside (ps ++ qs) (ps' ++ qs')
  /-- A node is kept. -/
  | keep {inside : Bool} {v : Visit} {cs cs' : List Planned} :
      keep v = true → Selects keep true cs cs' → Selects keep inside [⟨v, cs⟩] [⟨v, cs'⟩]
  /-- A node is dropped with all below it. -/
  | drop {inside : Bool} {v : Visit} {cs : List Planned} :
      keep v = false → Selects keep false cs [] → Selects keep inside [⟨v, cs⟩] []
  /-- A container is dropped, and what is below comes to stand on top. -/
  | lift {v : Visit} {cs cs' : List Planned} :
      keep v = false → v.decl.kind.isBranch = true → Selects keep false cs cs' →
        Selects keep false [⟨v, cs⟩] cs'

end Planned

/-! ### Places that are kept -/

/-- Whether places from a given one on are kept when the nodes of the slots there are. -/
def Slot.Marks (keep : Visit → Bool) (kept : Nat → Bool) (start : Nat) (ts : List Slot) : Prop :=
  ∀ (i : Nat) (t : Slot), ts[i]? = some t → kept (start + i) = keep t.visit

/-- An entry with the place of its container given anew. -/
def Entry.mapPlace (f : Nat → Nat) (e : Entry) : Entry := { e with next? := e.next?.map f }

/-- Those of the nodes placed in a container that are kept, their places counted anew. -/
def Slot.keptHeld (keep : Visit → Bool) (kept : Nat → Bool) (held : List (Visit × Option Nat)) :
    List (Visit × Option Nat) :=
  (held.filter fun h => keep h.1).map fun h => (h.1, h.2.map (Nat.count (kept ·)))

/-- A slot with only the nodes that are kept placed in it, and all places counted anew. -/
def Slot.renumbered (keep : Visit → Bool) (kept : Nat → Bool) (t : Slot) : Slot where
  visit := t.visit
  parent? := (t.parent?.filter kept).map (Nat.count (kept ·))
  held := keptHeld keep kept t.held

namespace Slot.Marks

variable {keep : Visit → Bool} {kept : Nat → Bool} {start : Nat}

theorem left {ts us : List Slot} (h : Slot.Marks keep kept start (ts ++ us)) :
    Slot.Marks keep kept start ts := fun i t ht =>
  h i t (by rw [List.getElem?_append_left (List.getElem?_eq_some_iff.1 ht).1, ht])

theorem right {ts us : List Slot} (h : Slot.Marks keep kept start (ts ++ us)) :
    Slot.Marks keep kept (start + ts.length) us := fun i t ht => by
  rw [Nat.add_assoc]
  refine h _ t ?_
  rw [List.getElem?_append_right (Nat.le_add_right ..), Nat.add_sub_cancel_left, ht]

theorem head {t : Slot} {ts : List Slot} (h : Slot.Marks keep kept start (t :: ts)) :
    kept start = keep t.visit :=
  h 0 t rfl

theorem count_head {t : Slot} {ts : List Slot} (h : Slot.Marks keep kept start (t :: ts)) :
    Nat.count (kept ·) (start + 1) =
      Nat.count (kept ·) start + if keep t.visit then 1 else 0 := by
  rw [Nat.count_succ, h.head]

theorem tail {t : Slot} {ts : List Slot} (h : Slot.Marks keep kept start (t :: ts)) :
    Slot.Marks keep kept (start + 1) ts := fun i u hu => by
  rw [Nat.add_assoc, Nat.add_comm 1]
  exact h (i + 1) u hu

end Slot.Marks

/-- The children of a container are those kept, when the place of a node is kept with the node. -/
theorem Slot.filterMap_keptHeld {keep : Visit → Bool} {kept : Nat → Bool}
    {held : List (Visit × Option Nat)}
    (h : ∀ v place, (v, some place) ∈ held → kept place = keep v) :
    (keptHeld keep kept held).filterMap (·.2) =
      ((held.filterMap (·.2)).filter kept).map (Nat.count (kept ·)) := by
  rw [keptHeld]
  induction held with
  | nil => rfl
  | cons head held ih =>
    obtain ⟨v, place?⟩ := head
    have hrest := ih fun w place hw => h w place (List.mem_cons_of_mem _ hw)
    cases place? with
    | none =>
      rw [List.filter_cons, List.filterMap_cons_none rfl, ← hrest]
      split
      · rfl
      · rfl
    | some place =>
      have hkept := h v place List.mem_cons_self
      simp only [List.filter_cons, List.filterMap_cons, hkept]
      split
      · rw [List.map_cons, List.map_cons, List.filterMap_cons, ← hrest]
        rfl
      · exact hrest

/-- The slots with marked places are those of the nodes that are kept. -/
theorem Slot.Marks.filter_zipIdx {keep : Visit → Bool} {kept : Nat → Bool} {start : Nat}
    {ts : List Slot} (h : Slot.Marks keep kept start ts) :
    ((ts.zipIdx start).filter fun p => kept p.2).map (·.1) = ts.filter fun t => keep t.visit := by
  induction ts generalizing start with
  | nil => rfl
  | cons t ts ih =>
    rw [List.zipIdx_cons, List.filter_cons, List.filter_cons, h.head]
    split
    · rw [List.map_cons, ih h.tail]
    · exact ih h.tail

/-- A slot that is kept has as many others before it among those kept as there are places kept
before its own. -/
theorem Slot.Marks.exists_filter {keep : Visit → Bool} {kept : Nat → Bool} {start : Nat}
    {ts : List Slot} (h : Slot.Marks keep kept start ts) {k : Nat} {t : Slot}
    (ht : ts[k]? = some t) (hkeep : keep t.visit = true) :
    ∃ i, (ts.filter fun t => keep t.visit)[i]? = some t ∧
      Nat.count (kept ·) (start + k) = Nat.count (kept ·) start + i := by
  induction ts generalizing start k with
  | nil => cases ht
  | cons u ts ih =>
    cases k with
    | zero =>
      obtain rfl := Option.some.inj ht
      exact ⟨0, by rw [List.filter_cons, if_pos hkeep]; rfl, rfl⟩
    | succ k =>
      obtain ⟨i, hi, hcount⟩ := ih h.tail ht
      rw [h.count_head, Nat.add_assoc, Nat.add_comm 1] at hcount
      rw [List.filter_cons, hcount]
      split
      · exact ⟨i + 1, hi, by omega⟩
      · exact ⟨i, hi, by omega⟩

/-- A slot among those kept stands at a place that has as many places kept before it. -/
theorem Slot.Marks.exists_of_filter {keep : Visit → Bool} {kept : Nat → Bool} {start : Nat}
    {ts : List Slot} (h : Slot.Marks keep kept start ts) {i : Nat} {t : Slot}
    (ht : (ts.filter fun t => keep t.visit)[i]? = some t) :
    ∃ k : Nat, ts[k]? = some t ∧ keep t.visit = true ∧
      Nat.count (kept ·) (start + k) = Nat.count (kept ·) start + i := by
  induction ts generalizing start i with
  | nil => cases ht
  | cons u ts ih =>
    have hlater : ∀ {j}, (ts.filter fun t => keep t.visit)[j]? = some t → ∃ k : Nat,
        (u :: ts)[k]? = some t ∧ keep t.visit = true ∧ Nat.count (kept ·) (start + k) =
          Nat.count (kept ·) start + (if keep u.visit then 1 else 0) + j := by
      intro j hj
      obtain ⟨k, hk, hkeep, hcount⟩ := ih h.tail hj
      rw [h.count_head, Nat.add_assoc, Nat.add_comm 1] at hcount
      exact ⟨k + 1, hk, hkeep, hcount⟩
    rw [List.filter_cons] at ht
    split at ht
    · next hkeep =>
      cases i with
      | zero =>
        obtain rfl := Option.some.inj ht
        exact ⟨0, rfl, hkeep, rfl⟩
      | succ i =>
        obtain ⟨k, hk, hkeep', hcount⟩ := hlater ht
        rw [if_pos hkeep] at hcount
        exact ⟨k, hk, hkeep', by omega⟩
    · next hkeep =>
      obtain ⟨k, hk, hkeep', hcount⟩ := hlater ht
      rw [if_neg hkeep, Nat.add_zero] at hcount
      exact ⟨k, hk, hkeep', hcount⟩

namespace Planned

namespace Selects

variable {keep : Visit → Bool} {kept : Nat → Bool} {inside : Bool} {ps ps' : List Planned}

/-- Nothing moves into a container, so what is selected inside one is selected elsewhere. -/
theorem outside (h : Selects keep inside ps ps') : Selects keep false ps ps' := by
  induction h with
  | nil => exact .nil
  | append _ _ ihp ihq => exact .append ihp ihq
  | keep hv hcs _ => exact .keep hv hcs
  | drop hv hcs _ => exact .drop hv hcs
  | lift hv hbranch hcs _ => exact .lift hv hbranch hcs

theorem flatMap {α : Type} {f g : α → List Planned} {l : List α}
    (h : ∀ a ∈ l, Selects keep inside (f a) (g a)) :
    Selects keep inside (l.flatMap f) (l.flatMap g) := by
  induction l with
  | nil => exact .nil
  | cons a l ih =>
    rw [List.forall_mem_cons] at h
    rw [List.flatMap_cons, List.flatMap_cons]
    exact .append h.1 (ih h.2)

/-- As many places are kept as the nodes kept have containers. -/
theorem count_size (h : Selects keep inside ps ps') {parent? : Option Nat} {start : Nat}
    (hmarks : Slot.Marks keep kept start (slotsAll parent? start ps)) :
    Nat.count (kept ·) (start + sizeAll ps) = Nat.count (kept ·) start + sizeAll ps' := by
  induction h generalizing parent? start with
  | nil => rfl
  | append _ _ ihp ihq =>
    rw [slotsAll_append] at hmarks
    have hright := hmarks.right
    rw [length_slotsAll] at hright
    rw [sizeAll_append, sizeAll_append, ← Nat.add_assoc, ihq hright, ihp hmarks.left, Nat.add_assoc]
  | @keep _ v cs cs' hv _ ih =>
    rw [slotsAll_singleton, slots] at hmarks
    rw [sizeAll_singleton, sizeAll_singleton, size, size]
    split
    · next hbranch =>
      rw [if_pos hbranch] at hmarks
      rw [Nat.add_comm (sizeAll cs), ← Nat.add_assoc, ih hmarks.tail, Nat.count_succ,
        if_pos (by rw [hmarks.head, hv])]
      omega
    · next hbranch =>
      rw [if_neg hbranch] at hmarks
      split
      · next hkind =>
        rw [if_pos hkind] at hmarks
        rw [Nat.count_succ, if_pos (by rw [hmarks.head, hv])]
      · rfl
  | @drop _ v cs hv _ ih =>
    rw [slotsAll_singleton, slots] at hmarks
    rw [sizeAll_singleton, size]
    split
    · next hbranch =>
      rw [if_pos hbranch] at hmarks
      rw [Nat.add_comm (sizeAll cs), ← Nat.add_assoc, ih hmarks.tail, Nat.count_succ,
        if_neg (by rw [hmarks.head, hv]; exact Bool.false_ne_true)]
      rfl
    · next hbranch =>
      rw [if_neg hbranch] at hmarks
      split
      · next hkind =>
        rw [if_pos hkind] at hmarks
        rw [Nat.count_succ, if_neg (by rw [hmarks.head, hv]; exact Bool.false_ne_true)]
        rfl
      · rfl
  | @lift v cs cs' hv hbranch _ ih =>
    rw [slotsAll_singleton, slots, if_pos hbranch] at hmarks
    rw [sizeAll_singleton, size, if_pos hbranch, Nat.add_comm (sizeAll cs), ← Nat.add_assoc,
      ih hmarks.tail, Nat.count_succ, if_neg (by rw [hmarks.head, hv]; exact Bool.false_ne_true)]
    rfl

/-- In a container that is kept those nodes are left that are kept. -/
theorem placesAll_eq (h : Selects keep inside ps ps') (hinside : inside = true)
    {parent? : Option Nat} {start : Nat}
    (hmarks : Slot.Marks keep kept start (slotsAll parent? start ps)) :
    placesAll (Nat.count (kept ·) start) ps' = Slot.keptHeld keep kept (placesAll start ps) := by
  rw [Slot.keptHeld]
  induction h generalizing start with
  | nil => rfl
  | append hp _ ihp ihq =>
    rw [slotsAll_append] at hmarks
    have hright := hmarks.right
    rw [length_slotsAll] at hright
    rw [placesAll_append, placesAll_append, List.filter_append, List.map_append,
      ← hp.count_size hmarks.left, ihp hinside hmarks.left, ihq hinside hright]
  | keep hv _ _ =>
    rw [placesAll_singleton, placesAll_singleton, List.filter_singleton, hv, cond_true,
      List.map_singleton]
    simp only
    split
    · rfl
    · rfl
  | drop hv _ _ =>
    rw [placesAll_singleton, List.filter_singleton, hv, cond_false]
    rfl
  | lift => cases hinside

/-- The slots of what is kept are those that were there and are kept. -/
theorem slotsAll_eq (h : Selects keep inside ps ps') {parent? : Option Nat} {start : Nat}
    (hmarks : Slot.Marks keep kept start (slotsAll parent? start ps))
    (hparent : inside = false → parent?.filter kept = none) :
    slotsAll ((parent?.filter kept).map (Nat.count (kept ·))) (Nat.count (kept ·) start) ps' =
      ((slotsAll parent? start ps).filter fun t => keep t.visit).map
        (Slot.renumbered keep kept) := by
  induction h generalizing parent? start with
  | nil => rfl
  | append hp _ ihp ihq =>
    rw [slotsAll_append] at hmarks
    have hright := hmarks.right
    rw [length_slotsAll] at hright
    rw [slotsAll_append, slotsAll_append, List.filter_append, List.map_append,
      ← hp.count_size hmarks.left, ihp hmarks.left hparent, ihq hright hparent]
  | @keep _ v cs cs' hv hcs ih =>
    rw [slotsAll_singleton, slots] at hmarks
    rw [slotsAll_singleton, slotsAll_singleton, slots, slots]
    split
    · next hbranch =>
      rw [if_pos hbranch] at hmarks
      have hstart : kept start = true := hmarks.head.trans hv
      have hnext : Nat.count (kept ·) start + 1 = Nat.count (kept ·) (start + 1) := by
        rw [Nat.count_succ, if_pos hstart]
      have hbelow := ih hmarks.tail fun hout => (by cases hout)
      rw [Option.filter_some, if_pos hstart, Option.map_some] at hbelow
      rw [List.filter_cons, if_pos hv, List.map_cons, hnext, hbelow,
        hcs.placesAll_eq rfl hmarks.tail]
      rfl
    · split
      · rw [List.filter_singleton, hv, cond_true]
        rfl
      · rfl
  | @drop _ v cs hv hcs ih =>
    rw [slotsAll_singleton, slots] at hmarks
    rw [slotsAll_singleton, slots]
    split
    · next hbranch =>
      rw [if_pos hbranch] at hmarks
      have hbelow := ih hmarks.tail fun _ => by
        rw [Option.filter_some, if_neg (by rw [hmarks.head, hv]; exact Bool.false_ne_true)]
      rw [List.filter_cons, if_neg (by simp [hv]), ← hbelow]
      rfl
    · split
      · rw [List.filter_singleton, hv, cond_false]
        rfl
      · rfl
  | @lift v cs cs' hv hbranch _ ih =>
    rw [slotsAll_singleton, slots, if_pos hbranch] at hmarks
    have hnone : (some start).filter kept = none := by
      rw [Option.filter_some, if_neg (by rw [hmarks.head, hv]; exact Bool.false_ne_true)]
    have hbelow := ih hmarks.tail fun _ => hnone
    rw [hnone, Nat.count_succ, if_neg (by rw [hmarks.head, hv]; exact Bool.false_ne_true),
      Nat.add_zero] at hbelow
    rw [slotsAll_singleton, slots, if_pos hbranch, List.filter_cons, if_neg (by simp [hv]),
      ← hbelow, hparent rfl]

end Selects

end Planned

end YangPartition
