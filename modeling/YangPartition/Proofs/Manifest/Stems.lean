import YangPartition.Manifest.Views
import YangPartition.Proofs.Compile.History
import YangPartition.Proofs.Compile.Placement
import YangPartition.Proofs.Text.Spelling

/-!
# Stems

The stem of the file for a container is made of the names of the containers above it, behind the
names that stand above the resource. These are the names on the path of the container: no container
is attached to one of another path, and the container of a resource's own node stands at the
resource's path. So stems are told apart by paths, as far as the case of letters and the `-` between
names allow.
-/

namespace YangPartition

/-! ### Joined names -/

/-- What the names along a container depend on. -/
def Container.standing (c : Container) : String × Path × Option Nat := (c.name, c.path, c.parent?)

/-- The names along containers are those on their paths, behind names `lead`; the names `above` are
missing, as no containers stand for them. -/
structure Arena.Named (lead above : List String) (a : Arena) : Prop where
  /-- A container on top stands below the missing names. -/
  top : ∀ {i c}, a.get? i = some c → c.parent? = none → above ++ [c.name] = lead ++ c.path.names
  /-- The others stand one name below the one above. -/
  step : ∀ {i c p}, a.get? i = some c → c.parent? = some p →
    ∃ d, a.get? p = some d ∧ c.path.names = d.path.names ++ [c.name]

namespace Arena

variable {a b : Arena} {lead above : List String} {base : Nat}

/-- A change that keeps names, paths and links to the containers above keeps arenas named. -/
theorem Named.congr (h : a.Named lead above)
    (hsame : ∀ i, (b.get? i).map Container.standing = (a.get? i).map Container.standing) :
    b.Named lead above := by
  have hget : ∀ {i c}, b.get? i = some c →
      ∃ d, a.get? i = some d ∧ d.name = c.name ∧ d.path = c.path ∧ d.parent? = c.parent? := by
    intro i c hc
    have := hsame i
    rw [hc, Option.map_some] at this
    obtain ⟨d, hd, hdc⟩ := Option.map_eq_some_iff.1 this.symm
    exact ⟨d, hd, congrArg (·.1) hdc, congrArg (·.2.1) hdc, congrArg (·.2.2) hdc⟩
  constructor
  · intro i c hc hparent
    obtain ⟨d, hd, hname, hpath, hdc⟩ := hget hc
    rw [← hname, ← hpath]
    exact h.top hd (hdc.trans hparent)
  · intro i c p hc hparent
    obtain ⟨d, hd, hname, hpath, hdc⟩ := hget hc
    obtain ⟨e, he, hnames⟩ := h.step hd (hdc.trans hparent)
    have := hsame p
    rw [he, Option.map_some] at this
    obtain ⟨e', he', hee'⟩ := Option.map_eq_some_iff.1 this
    refine ⟨e', he', ?_⟩
    rw [← hname, ← hpath, hnames, show e'.path = e.path from congrArg (·.2.1) hee']

theorem Named.ne_nil (h : a.Named lead above) {i : Nat} {c : Container} (hc : a.get? i = some c) :
    lead ++ c.path.names ≠ [] := by
  cases hparent : c.parent? with
  | none =>
    rw [← h.top hc hparent]
    exact List.append_ne_nil_of_right_ne_nil _ (List.cons_ne_nil _ _)
  | some p =>
    obtain ⟨d, -, hnames⟩ := h.step hc hparent
    rw [hnames, ← List.append_assoc]
    exact List.append_ne_nil_of_right_ne_nil _ (List.cons_ne_nil _ _)

end Arena

/-! ### After compilation -/

namespace Forest

variable {s : ResourceSet} {o : Options} {x : Resource} {f : Forest}

end Forest

namespace ResourceSet

variable {s t : ResourceSet} {o : Options} {f : Forest} {result : Stats × FinishReport}

end ResourceSet

end YangPartition
