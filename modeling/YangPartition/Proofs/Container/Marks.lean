import Mathlib.Data.Set.Card
import Mathlib.Logic.Relation
import YangPartition.Container.State
import YangPartition.Proofs.Container.Arena

/-!
# Marks for state

Marking walks up from every container that holds state, so a mark set on the way
could be taken for state of its own. It is not: the places that are marked in the
end are those reached by going up from a container that held state before, and
marking once more changes nothing.
-/

namespace YangPartition

/-- A container without its mark. -/
def Container.unmarked (c : Container) : Container := { c with hasState := false }

theorem Container.isStateful_iff {c : Container} :
    c.isStateful = true ↔ c.hasState = true ∨ ∃ e ∈ c.entries, e.readOnly = true := by
  simp [isStateful]

namespace Arena

variable {a b : Arena}

/-! ### Arenas in the order of their making -/

/-- Arenas to which containers are added, each on top or below one that is there, and values
are added to containers that are there. -/
inductive Built : Arena → Prop where
  /-- Nothing is there. -/
  | empty : Built {}
  /-- A container is added. -/
  | alloc {a : Arena} {c : Container} (ha : Built a) (hc : ∀ p, c.parent? = some p → p < a.size) :
      Built (a.alloc c).1
  /-- A value is added. -/
  | pushValue {a : Arena} {i : Nat} {e : Entry} (ha : Built a) (hi : i < a.size) :
      Built (a.modify i (·.pushValue e))

theorem Built.ordered (h : a.Built) : a.Ordered := by
  induction h with
  | empty =>
    intro c p hp
    cases hp
  | @alloc a c ha hc ih =>
    intro i p hp
    rw [parent?_alloc] at hp
    split at hp
    · next hi =>
      rw [hi]
      exact hc p hp
    · exact ih hp
  | @pushValue a i e ha hi ih =>
    intro c p hp
    rw [parent?_modify (f := (·.pushValue e)) (fun c => rfl)] at hp
    exact ih hp

/-! ### Going up -/

/-- Whether a place is reached from another one by going up, any number of times or not at all. -/
def Reaches (a : Arena) : Nat → Nat → Prop :=
  Relation.ReflTransGen fun c p => a.parent? c = some p

theorem Reaches.le (h : a.Ordered) {i j : Nat} (hji : a.Reaches j i) : i ≤ j := by
  induction hji with
  | refl => exact Nat.le_refl j
  | tail _ hp ih => exact Nat.le_trans (Nat.le_of_lt (h hp)) ih

/-- A container and its ancestors are what is reached from it by going up. -/
theorem mem_cons_ancestors_iff (h : a.Ordered) {i j : Nat} :
    i ∈ j :: a.ancestors j ↔ a.Reaches j i := by
  induction j using Nat.strong_induction_on with
  | h j ih =>
    rw [Reaches, Relation.ReflTransGen.cases_head_iff, List.mem_cons, eq_comm]
    refine or_congr_right ?_
    cases hp : a.parent? j with
    | none =>
      rw [ancestors_of_parent?_eq_none hp]
      simp
    | some p =>
      rw [h.ancestors_eq_cons hp, ih p (h hp)]
      simp [Reaches]

theorem above_congr (h : ∀ i, b.parent? i = a.parent? i) (n c : Nat) :
    b.above n c = a.above n c := by
  induction n generalizing c with
  | zero => rfl
  | succ n ih =>
    rw [above, above, h]
    cases a.parent? c with
    | none => rfl
    | some p => exact congrArg (p :: ·) (ih p)

/-! ### Marking places -/

/-- Whether the container at a place is marked. -/
def isMarked (a : Arena) (i : Nat) : Bool := (a.get? i).any (·.hasState)

theorem isMarked_iff {i : Nat} :
    a.isMarked i = true ↔ ∃ c, a.get? i = some c ∧ c.hasState = true :=
  Option.any_eq_true _ _

theorem isMarked_lt {i : Nat} (h : a.isMarked i = true) : i < a.size := by
  obtain ⟨c, hc, -⟩ := isMarked_iff.1 h
  exact get?_lt hc

theorem parent?_mark (a : Arena) (id j : Nat) : (a.mark id).parent? j = a.parent? j :=
  parent?_modify (f := fun c => { c with hasState := true }) (fun _ => rfl) a id j

theorem isMarked_mark (a : Arena) (id i : Nat) :
    (a.mark id).isMarked i = true ↔ a.isMarked i = true ∨ (i = id ∧ i < a.size) := by
  unfold isMarked mark
  rw [get?_modify]
  by_cases hi : id = i
  · subst hi
    rw [if_pos rfl]
    cases hc : a.get? id with
    | none =>
      have hsize : ¬ id < a.size := fun hlt => by
        obtain ⟨c, hc'⟩ := exists_get? hlt
        rw [hc] at hc'
        cases hc'
      simp [hsize]
    | some c => simp [get?_lt hc]
  · rw [if_neg hi]
    simp [Ne.symm hi]

/-- Marking a container changes nothing but the mark. -/
theorem map_mark {α : Type} {view : Container → α}
    (hview : ∀ c : Container, view { c with hasState := true } = view c) (a : Arena) (id i : Nat) :
    ((a.mark id).get? i).map view = (a.get? i).map view := by
  rw [mark, get?_modify]
  split
  · rw [Option.map_map]
    exact congrArg (fun g => Option.map g (a.get? i)) (funext hview)
  · rfl

/-- Marking a marked container changes nothing. -/
theorem mark_eq_self {id : Nat} (h : a.isMarked id = true) : a.mark id = a := by
  refine ext_get? fun i => ?_
  rw [mark, get?_modify]
  split
  · next hi =>
    subst hi
    obtain ⟨c, hc, hmarked⟩ := isMarked_iff.1 h
    rw [hc, Option.map_some, ← hmarked]
  · rfl

theorem isMarked_foldl_mark (a : Arena) (places : List Nat) (i : Nat) :
    (places.foldl mark a).isMarked i = true ↔
      a.isMarked i = true ∨ (i ∈ places ∧ i < a.size) := by
  induction places generalizing a with
  | nil => simp
  | cons place places ih =>
    rw [List.foldl_cons, ih, isMarked_mark, List.mem_cons, mark, size_modify, or_assoc]
    refine or_congr_right ?_
    rw [← or_and_right]

theorem map_foldl_mark {α : Type} {view : Container → α}
    (hview : ∀ c : Container, view { c with hasState := true } = view c) (a : Arena)
    (places : List Nat) (i : Nat) :
    ((places.foldl mark a).get? i).map view = (a.get? i).map view ∧
      (places.foldl mark a).size = a.size := by
  induction places generalizing a with
  | nil => exact ⟨rfl, rfl⟩
  | cons place places ih =>
    obtain ⟨hsame, hsize⟩ := ih (a.mark place)
    rw [List.foldl_cons]
    exact ⟨hsame.trans (map_mark hview a place i), hsize.trans (size_modify _ _ _)⟩

theorem foldl_mark_eq_self {places : List Nat} (h : ∀ i ∈ places, a.isMarked i = true) :
    places.foldl mark a = a := by
  induction places with
  | nil => rfl
  | cons place places ih =>
    rw [List.foldl_cons, mark_eq_self (h place List.mem_cons_self)]
    exact ih fun i hi => h i (List.mem_cons_of_mem place hi)

/-! ### Closing under going up -/

/-- No mark changes what stands above a container, so all the places to be marked are known
from the start. -/
theorem closeState_eq (a : Arena) :
    a.closeState = (a.statefulIds.flatMap fun j => j :: a.ancestors j).foldl mark a := by
  have hfold : ∀ (places : List Nat) (b : Arena), (∀ i, b.parent? i = a.parent? i) →
      places.foldl markUp b = (places.flatMap fun j => j :: a.ancestors j).foldl mark b := by
    intro places
    induction places with
    | nil => exact fun b _ => rfl
    | cons j places ih =>
      intro b hb
      have hparent : ∀ (up : List Nat) (b : Arena), (∀ i, b.parent? i = a.parent? i) →
          ∀ i, (up.foldl mark b).parent? i = a.parent? i := by
        intro up
        induction up with
        | nil => exact fun b hb => hb
        | cons k up ih => exact fun b hb => ih (b.mark k) fun i => (parent?_mark b k i).trans (hb i)
      have hup : b.markUp j = (j :: a.ancestors j).foldl mark b := by
        rw [markUp, ancestors, above_congr hb]
        rfl
      rw [List.foldl_cons, List.flatMap_cons, List.foldl_append, hup]
      exact ih _ (hparent _ b hb)
  exact hfold a.statefulIds a fun _ => rfl

/-- Marking the containers that hold state changes nothing but the marks. -/
theorem map_closeState {α : Type} (view : Container → α)
    (hview : ∀ c : Container, view { c with hasState := true } = view c) (a : Arena) (i : Nat) :
    (a.closeState.get? i).map view = (a.get? i).map view ∧ a.closeState.size = a.size := by
  rw [closeState_eq]
  exact map_foldl_mark hview a _ i

/-- The container at a place has a read-only entry. -/
def HasReadOnly (a : Arena) (i : Nat) : Prop :=
  ∃ c, a.get? i = some c ∧ ∃ e ∈ c.entries, e.readOnly = true

/-- The container at a place or one below it has a read-only entry. -/
def HoldsReadOnly (a : Arena) (i : Nat) : Prop := ∃ j, a.Reaches j i ∧ a.HasReadOnly j

/-- The container at a place or one below it is marked or has a read-only entry. -/
def HoldsState (a : Arena) (i : Nat) : Prop :=
  ∃ j, a.Reaches j i ∧ (a.isMarked j = true ∨ a.HasReadOnly j)

theorem HasReadOnly.lt {i : Nat} (h : a.HasReadOnly i) : i < a.size := by
  obtain ⟨c, hc, -⟩ := h
  exact get?_lt hc

theorem mem_statefulIds {j : Nat} :
    j ∈ a.statefulIds ↔ a.isMarked j = true ∨ a.HasReadOnly j := by
  rw [statefulIds, List.mem_filter, ids, List.mem_range, isMarked_iff, HasReadOnly, ← exists_or,
    Option.any_eq_true]
  simp only [Container.isStateful_iff, ← and_or_left]
  constructor
  · rintro ⟨-, hstate⟩
    exact hstate
  · rintro ⟨c, hc, hstate⟩
    exact ⟨get?_lt hc, c, hc, hstate⟩

/-- The places from which the marks start, with all above them, are those that hold state. -/
theorem mem_marked_iff (h : a.Ordered) {i : Nat} :
    i ∈ a.statefulIds.flatMap (fun j => j :: a.ancestors j) ↔ a.HoldsState i := by
  simp only [List.mem_flatMap, mem_cons_ancestors_iff h, mem_statefulIds, HoldsState]
  exact exists_congr fun j => and_comm

/-- A container is marked in the end when it or one below it held state before. -/
theorem isMarked_closeState (h : a.Ordered) (i : Nat) :
    a.closeState.isMarked i = true ↔ a.HoldsState i := by
  rw [closeState_eq, isMarked_foldl_mark, mem_marked_iff h]
  constructor
  · rintro (hmarked | ⟨hstate, -⟩)
    · exact ⟨i, .refl, .inl hmarked⟩
    · exact hstate
  · intro hstate
    have ⟨j, hji, hj⟩ := hstate
    have hlt : j < a.size := hj.elim isMarked_lt HasReadOnly.lt
    exact .inr ⟨hstate, Nat.lt_of_le_of_lt (hji.le h) hlt⟩

theorem parent?_closeState (a : Arena) (i : Nat) : a.closeState.parent? i = a.parent? i := by
  have hmap := (map_closeState Container.parent? (fun _ => rfl) a i).1
  have hbind := congrArg (·.bind id) hmap
  simp only [Option.bind_map] at hbind
  exact hbind

theorem reaches_closeState {i j : Nat} : a.closeState.Reaches j i ↔ a.Reaches j i := by
  unfold Reaches
  simp only [parent?_closeState]

theorem hasReadOnly_closeState {i : Nat} : a.closeState.HasReadOnly i ↔ a.HasReadOnly i := by
  have hentries := (map_closeState Container.entries (fun _ => rfl) a i).1
  have hiff : ∀ b : Arena, b.HasReadOnly i ↔
      ∃ es, (b.get? i).map Container.entries = some es ∧ ∃ e ∈ es, e.readOnly = true := by
    intro b
    simp only [HasReadOnly, Option.map_eq_some_iff]
    constructor
    · rintro ⟨c, hc, he⟩
      exact ⟨c.entries, ⟨c, hc, rfl⟩, he⟩
    · rintro ⟨es, ⟨c, hc, rfl⟩, he⟩
      exact ⟨c, hc, he⟩
  rw [hiff, hiff, hentries]

theorem holdsReadOnly_closeState {i : Nat} : a.closeState.HoldsReadOnly i ↔ a.HoldsReadOnly i := by
  simp only [HoldsReadOnly, reaches_closeState, hasReadOnly_closeState]

/-- Marking once more changes nothing: what is reached from a marked place held state before. -/
theorem closeState_closeState (h : a.Ordered) : a.closeState.closeState = a.closeState := by
  have hordered : a.closeState.Ordered := fun c p hp => h ((parent?_closeState a c).symm.trans hp)
  rw [closeState_eq a.closeState]
  refine foldl_mark_eq_self fun i hi => ?_
  rw [mem_marked_iff hordered] at hi
  obtain ⟨j, hji, hstate⟩ := hi
  rw [reaches_closeState] at hji
  rw [hasReadOnly_closeState, isMarked_closeState h] at hstate
  rw [isMarked_closeState h]
  rcases hstate with ⟨k, hkj, hk⟩ | hreadOnly
  · exact ⟨k, hkj.trans hji, hk⟩
  · exact ⟨j, hji, .inr hreadOnly⟩

/-- Where nothing has been marked, state is what is read-only. -/
theorem holdsState_iff_of_unmarked (h : ∀ i, a.isMarked i = false) {i : Nat} :
    a.HoldsState i ↔ a.HoldsReadOnly i := by
  simp [HoldsState, HoldsReadOnly, h]

/-! ### Counting marks -/

theorem countP_eq_length_filter_range {α : Type} (l : List α) (p : α → Bool) :
    l.countP p = ((List.range l.length).filter fun i => l[i]?.any p).length := by
  induction l with
  | nil => rfl
  | cons c l ih =>
    rw [List.length_cons, List.range_succ_eq_map, List.filter_cons, List.filter_map,
      List.countP_cons, ih]
    simp only [List.getElem?_cons_zero, Option.any_some, Function.comp_def,
      List.getElem?_cons_succ]
    split <;> simp

/-- The number of marked containers is the number of marked places. -/
theorem markedCount_eq_ncard (a : Arena) : a.markedCount = {i | a.isMarked i = true}.ncard := by
  have hset : {i | a.isMarked i = true} =
      ((Finset.range a.size).filter fun i => a.isMarked i = true : Finset Nat) := by
    ext i
    rw [Finset.mem_coe, Finset.mem_filter, Finset.mem_range]
    exact ⟨fun h => ⟨isMarked_lt h, h⟩, fun h => h.2⟩
  rw [hset, Set.ncard_coe_finset, markedCount, countP_eq_length_filter_range, length_toList]
  have hplaces : ∀ i, a.toList[i]?.any (·.hasState) = a.isMarked i := by
    intro i
    rw [toList, Array.getElem?_toList]
    rfl
  simp only [hplaces]
  rw [Finset.card, Finset.filter_val, Finset.range_val, Multiset.range, Multiset.filter_coe,
    Multiset.coe_card]
  simp

end Arena

end YangPartition
