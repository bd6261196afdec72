import YangPartition.Proofs.Compile.Attachment
import YangPartition.Proofs.Compile.Lasting
import YangPartition.Proofs.Compile.Success
import YangPartition.Proofs.Path.Folded

/-!
# Targets of references

Compilation only puts names into containers that a path can hold, so a reference that is not
stated in a map refers to a path that is folded from names without slashes or predicates. All
calls that go by no overrides keep it so.
-/

namespace YangPartition

open YangPartition.Path

/-! ### Names on the way -/

theorem Declaration.isBare_of_hasPathName {d : Declaration} (h : d.hasPathName = true) :
    IsBare d.name := by
  rw [hasPathName, Bool.and_eq_true, Bool.not_eq_true', Bool.not_eq_true', List.any_eq_false] at h
  intro c hc
  have hchar := h.2 c hc
  simp only [Bool.or_eq_true, beq_iff_eq, not_or] at hchar
  exact ⟨hchar.1.1, hchar.1.2, hchar.2⟩

/-- The names on the way to a data node are those of nodes before it. -/
theorem Sited.names_below {above : List Visit} {below : Path} {l : List Site}
    (h : Sited above below l) {before after : List Site} {i : Site}
    (hl : l = before ++ i :: after) :
    ∀ n ∈ i.visit.below.names, n ∈ below.names ∨ ∃ u ∈ before, u.visit.decl.name = n := by
  induction hlen : before.length using Nat.strong_induction_on generalizing before after i with
  | _ k ih =>
    intro n hn
    rcases h.parent hl with ⟨-, hbelow⟩ | ⟨u, upper, first, between, -, hbelow, rfl, -⟩
    · rw [hbelow] at hn
      exact .inl hn
    · rw [hbelow, Visit.names_path] at hn
      rcases List.mem_append.1 hn with hn | hn
      · -- a name above the parent
        have hparent : l = first ++ ⟨u, upper⟩ :: (between ++ i :: after) := by
          rw [hl, List.append_assoc, List.cons_append]
        have hlt : first.length < k := by
          rw [← hlen, List.length_append, List.length_cons]
          omega
        refine (ih _ hlt hparent rfl n hn).imp_right fun ⟨w, hw, hname⟩ => ⟨w, ?_, hname⟩
        exact List.mem_append_left _ hw
      · refine .inr ⟨⟨u, upper⟩, List.mem_append_right _ List.mem_cons_self, ?_⟩
        exact (List.mem_singleton.1 hn).symm

/-- In visits each data node comes behind nodes of all names on the way to it. -/
def Visit.Ordered (below : Path) (vs : List Visit) : Prop :=
  ∀ first v rest, vs = first ++ v :: rest → v.decl.kind.isTransparent = false →
    ∀ n ∈ v.below.names, n ∈ below.names ∨
      ∃ u ∈ first, u.decl.kind.isTransparent = false ∧ u.decl.name = n

theorem Visit.ordered_of_sited {above : List Visit} {below : Path} {l : List Site}
    (h : Sited above below l) {vs : List Visit}
    (hvs : (vs.filter fun v => !v.decl.kind.isTransparent) = l.map (·.visit)) :
    Visit.Ordered below vs := by
  intro first v rest heq hdata n hn
  rw [heq, List.filter_append, List.filter_cons_of_pos (by simp [hdata])] at hvs
  obtain ⟨before, tail, rfl, hfirst, htail⟩ := List.map_eq_append_iff.1 hvs.symm
  obtain ⟨i, after, rfl, rfl, -⟩ := List.map_eq_cons_iff.1 htail
  refine (h.names_below rfl n hn).imp_right fun ⟨u, hu, hname⟩ => ?_
  have hmem : u.visit ∈ first.filter fun v => !v.decl.kind.isTransparent := by
    rw [← hfirst]
    exact List.mem_map_of_mem hu
  obtain ⟨hmem, hdata⟩ := List.mem_filter.1 hmem
  exact ⟨u.visit, hmem, by simpa using hdata, hname⟩

theorem Node.ordered_visits (below : Path) (listKeys : List String) (n : Node) :
    Visit.Ordered below (n.visits below listKeys) :=
  Visit.ordered_of_sited (sited_sites [] below listKeys n) (filter_visits [] below listKeys n)

theorem Forest.ordered_visits (f : Forest) : Visit.Ordered .root f.visits :=
  Visit.ordered_of_sited f.sited_sites f.filter_visits

/-! ### Containers -/

/-- The names in a container are bare, and what its entries refer to is folded from loose names. -/
structure Container.IsTidy (c : Container) : Prop where
  /-- The name of the container. -/
  name : IsBare c.name
  /-- The names and targets of the entries. -/
  entry : ∀ e ∈ c.entries, IsBare e.name ∧ ∀ p, e.target? = some p → p.IsFolded

/-- All containers of a resource are tidy. -/
def Resource.IsTidy (x : Resource) : Prop := ∀ i c, x.arena.get? i = some c → c.IsTidy

section

variable {s : ResourceSet} {o : Options} {id : Nat} {v : Visit}

/-- Without overrides a node refers to a path that is folded from loose names. -/
theorem Resource.isFolded_of_referenceOf? (ho : o.overrides = {})
    (hv : ∀ n ∈ v.path.names, IsBare n) {p : Path}
    (h : (referenceOf? s o id v).map (·.target) = some p) : p.IsFolded := by
  rw [target_referenceOf?] at h
  split at h
  · rw [Reference.target?, ho] at h
    obtain ⟨expr, -, hexpr⟩ := Option.bind_eq_some_iff.1 h
    cases hresolve : Expression.resolve expr v.path with
    | error e =>
      rw [hresolve] at hexpr
      cases hexpr
    | ok q =>
      rw [hresolve] at hexpr
      obtain rfl := Option.some.inj hexpr
      exact Expression.isFolded_of_resolve hresolve fun n hn => (hv n hn).isLoose
  · cases h

theorem Container.isTidy_made (ho : o.overrides = {}) (hv : ∀ n ∈ v.path.names, IsBare n)
    (parent? : Option Nat) : (made s o id parent? v).IsTidy := by
  have hname : IsBare v.decl.name := hv _ (by rw [Visit.names_path]; simp)
  have hmade : made s o id parent? v = Slot.container s o id ⟨v, parent?, []⟩ :=
    (Container.filled_nil _).symm
  rw [hmade, Slot.container_eq]
  refine ⟨hname, fun e he => ?_⟩
  have he : e ∈ Slot.ownEntries s o id ⟨v, parent?, []⟩ := by
    simpa [Slot.entries] using he
  rw [Slot.ownEntries] at he
  split at he
  · rw [List.mem_singleton.1 he]
    exact ⟨hname, fun p hp => Resource.isFolded_of_referenceOf? ho hv hp⟩
  · cases he

theorem Container.IsTidy.receive {c : Container} (hc : c.IsTidy) (ho : o.overrides = {})
    (hv : ∀ n ∈ v.path.names, IsBare n) (place : Nat) : (c.receive s o id place v).IsTidy := by
  rw [Container.receive_eq_filled]
  refine ⟨hc.name, fun e he => ?_⟩
  rcases List.mem_append.1 he with he | he
  · exact hc.entry e he
  · rw [List.map_singleton] at he
    rw [List.mem_singleton.1 he, Entry.ofHeld]
    have hname : IsBare v.decl.name := hv _ (by rw [Visit.names_path]; simp)
    split
    · exact ⟨hname, fun p hp => by cases hp⟩
    · exact ⟨hname, fun p hp => Resource.isFolded_of_referenceOf? ho hv hp⟩

end

/-! ### Runs -/

namespace Resource

variable {s : ResourceSet} {o : Options} {x y : Resource} {tops : List Nat} {v : Visit}

theorem IsTidy.see (h : x.IsTidy) (hx : x.Sound tops) (ho : o.overrides = {})
    (hv : v.decl.kind.isTransparent = false → ∀ n ∈ v.path.names, IsBare n)
    (hy : x.see s o v = .ok y) : y.IsTidy := by
  by_cases hdata : v.decl.kind.isTransparent = true
  · rw [Resource.see, if_neg fun hboth => hboth.1 hdata] at hy
    obtain rfl := Except.ok.inj hy
    exact h
  have hbare := hv (by simpa using hdata)
  intro c z hz
  rcases get?_see_cases hx hy hz with hz | ⟨-, rfl⟩ | ⟨home, -, -, ⟨-, rfl⟩ | ⟨w, hw, -, rfl⟩⟩
  · exact h c z hz
  · exact Container.isTidy_made ho hbare none
  · exact Container.isTidy_made ho hbare (some home)
  · exact (h c w hw).receive ho hbare _

/-- Views of containers that keep names, entry names and targets keep a resource tidy. -/
theorem IsTidy.congr (h : x.IsTidy)
    (hview : ∀ i d, y.arena.get? i = some d → ∃ c, x.arena.get? i = some c ∧ d.name = c.name ∧
      d.entries.map (fun e => (e.name, e.target?)) = c.entries.map fun e => (e.name, e.target?)) :
    y.IsTidy := by
  intro i d hd
  obtain ⟨c, hc, hname, hentries⟩ := hview i d hd
  refine ⟨by rw [hname]; exact (h i c hc).name, fun e he => ?_⟩
  have hmem : (e.name, e.target?) ∈ c.entries.map fun e => (e.name, e.target?) := by
    rw [← hentries]
    exact List.mem_map_of_mem he
  obtain ⟨e', he', heq⟩ := List.mem_map.1 hmem
  obtain ⟨hname', htarget⟩ := Prod.mk.inj heq
  rw [← hname', ← htarget]
  exact (h i c hc).entry e' he'

theorem IsTidy.withTypes (h : x.IsTidy) (f : Findings) : (x.withTypes f).IsTidy := by
  refine h.congr fun i d hd => ?_
  rw [get?_withTypes] at hd
  obtain ⟨c, hc, rfl⟩ := Option.map_eq_some_iff.1 hd
  refine ⟨c, hc, rfl, ?_⟩
  rw [List.map_map]
  refine List.map_congr_left fun e _ => ?_
  rw [Function.comp_apply, typedEntry]
  split <;> rfl

theorem IsTidy.placeTop (h : x.IsTidy) : x.placeTop.IsTidy := by
  intro i c hc
  rw [get?_placeTop] at hc
  split at hc
  · obtain rfl := Option.some.inj hc
    refine ⟨?_, fun e he => by cases he⟩
    show IsBare "root"
    decide +kernel
  · exact h i c hc

theorem IsTidy.closeState (h : x.IsTidy) : IsTidy { x with arena := x.arena.closeState } := by
  refine h.congr fun i d hd => ?_
  have hview := (Arena.map_closeState Container.unmarked (fun _ => rfl) x.arena i).1
  rw [show x.arena.closeState.get? i = some d from hd, Option.map_some] at hview
  obtain ⟨c, hc, hcd⟩ := Option.map_eq_some_iff.1 hview.symm
  exact ⟨c, hc, (congrArg Container.name hcd).symm,
    congrArg (fun e : Container => e.entries.map fun e => (e.name, e.target?)) hcd.symm⟩

end Resource

namespace ResourceSet

variable {s t : ResourceSet} {o : Options} {places : List Nat}

/-- All containers of all resources are tidy. -/
def IsTidy (t : ResourceSet) : Prop := ∀ id x, t.get? id = some x → x.IsTidy

theorem Instantiated.isTidy (hs : s.Instantiated) : s.IsTidy := by
  intro id x hx i c hc
  rw [← hs.blank_eq hx] at hc
  cases hc

/-- Visits keep tidy what is. -/
theorem IsTidy.visitAll (hs : s.Instantiated) {r : Run} (hsound : s.Sound places r.set)
    (h : r.set.IsTidy) (ho : o.overrides = {}) {below : Path} (hbelow : ∀ n ∈ below.names, IsBare n)
    {vs : List Visit} (hvs : Visit.Ordered below vs) : (Run.visitAll o r vs).1.set.IsTidy := by
  -- the visits before have names that paths can hold
  have hrun : ∀ (vs before : List Visit) (r : Run), s.Sound places r.set → r.set.IsTidy →
      Visit.Ordered below (before ++ vs) →
      (∀ u ∈ before, u.decl.kind.isTransparent = false → IsBare u.decl.name) →
      (Run.visitAll o r vs).1.set.IsTidy := by
    intro vs
    induction vs with
    | nil => exact fun _ _ _ h _ _ => h
    | cons v vs ih =>
      intro before r hsound h hvs hbefore
      rw [Run.visitAll]
      cases hv : r.visit o v with
      | error e => exact h
      | ok r' =>
        have hname : v.decl.kind.isTransparent = false → IsBare v.decl.name := fun hdata =>
          Declaration.isBare_of_hasPathName
            (((Run.exists_visit_iff hs hsound.blank).1 ⟨r', hv⟩).1 hdata)
        have hpath : v.decl.kind.isTransparent = false → ∀ n ∈ v.path.names, IsBare n := by
          intro hdata n hn
          rw [Visit.names_path] at hn
          rcases List.mem_append.1 hn with hn | hn
          · rcases hvs before v vs rfl hdata n hn with hn | ⟨u, hu, hdata', rfl⟩
            · exact hbelow n hn
            · exact hbefore u hu hdata'
          · rw [List.mem_singleton.1 hn]
            exact hname hdata
        refine ih (before ++ [v]) r' (hsound.visit hs hv) (fun id y hy => ?_) ?_ ?_
        · obtain ⟨x, hx, hsee⟩ := Run.exists_see_of_visit hs hsound.blank hv hy
          obtain ⟨tops, htops⟩ := (hsound.each hx).exists_sound
          exact (h id x hx).see htops ho hpath hsee
        · rw [List.append_assoc]
          exact hvs
        · intro u hu hdata
          rcases List.mem_append.1 hu with hu | hu
          · exact hbefore u hu hdata
          · rw [List.mem_singleton.1 hu] at hdata ⊢
            exact hname hdata
  exact hrun vs [] r hsound h hvs fun u hu => by cases hu

theorem IsTidy.compile (hs : s.Instantiated) (hsound : s.Sound places t) (h : t.IsTidy)
    (ho : o.overrides = {}) (f : Forest) : (t.compile o f).1.IsTidy := by
  have hprepared : t.prepared.IsTidy := All.prepared h Resource.IsTidy.placeTop
  exact All.compile (hprepared.visitAll (r := { set := t.prepared }) hs (hsound.prepared hs) ho
    (fun n hn => by cases hn) f.ordered_visits) id

theorem IsTidy.finish (h : t.IsTidy) : t.finish.1.IsTidy :=
  All.finish h (fun _ _ g hx => hx.withTypes g) Resource.IsTidy.closeState

end ResourceSet

/-! ### Calls -/

/-- A call goes by no overrides, and starts below a path whose names are bare. -/
def Call.IsPlain : Call → Prop
  | .compile o _ | .build o _ => o.overrides = {}
  | .walk o below _ _ => o.overrides = {} ∧ ∀ n ∈ below.names, IsBare n

namespace ResourceSet

variable {s t : ResourceSet} {places : List Nat}

theorem IsTidy.perform (hs : s.Instantiated) (hsound : s.Sound places t) (h : t.IsTidy) {c : Call}
    (hc : c.IsPlain) : (c.perform t).IsTidy := by
  cases c with
  | compile o f => exact h.compile hs hsound hc f
  | build o f =>
    have hcompiled := h.compile hs hsound hc f
    refine All.build hcompiled fun {u stats} hu => ?_
    rw [hu] at hcompiled
    exact IsTidy.finish hcompiled
  | walk o below listKeys n =>
    exact h.visitAll (r := { set := t }) hs hsound hc.1 hc.2 (n.ordered_visits below listKeys)

/-- Calls without overrides keep all containers tidy. -/
theorem IsTidy.performAll (hs : s.Instantiated) (hsound : s.Sound places t) (h : t.IsTidy)
    {cs : List Call} (hcs : ∀ c ∈ cs, c.IsPlain) : (t.performAll cs).IsTidy := by
  induction cs generalizing places t with
  | nil => exact h
  | cons c cs ih =>
    rw [List.forall_mem_cons] at hcs
    exact ih (hsound.perform hs c) (h.perform hs hsound hcs.1) hcs.2

end ResourceSet

end YangPartition
