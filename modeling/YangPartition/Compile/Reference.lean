import YangPartition.Path.Expression
import YangPartition.Path.Parser
import YangPartition.Resource.Match

/-!
# References of leaves

A leaf refers to the path that the map states for it, or else to the path of
its expression. The reference stays inside its resource when the path belongs
to that resource.
-/

namespace YangPartition

/-! ### Overrides -/

/-- What the map states about references: the target of each leaf, under the
written names of the leaf's path. -/
structure Overrides where
  /-- The targets. -/
  targets : NameMap Path := []
  deriving DecidableEq, Repr

namespace Overrides

/-- Reads pairs of a leaf and the leaf it refers to, in ascending order; of
pairs with one leaf the last counts. -/
def ofPairs (pairs : NameMap String) : Except Error Overrides :=
  pairs.foldlM (fun o (leaf, target) => do
    let leaf ← Path.parse leaf
    let target ← Path.parse target
    return ⟨o.targets.insert leaf.nameText target.foldKey⟩) {}

/-- The target of the leaf at a path. -/
def get? (o : Overrides) (leaf : Path) : Option Path := o.targets.find? leaf.nameText

/-- The number of leaves. -/
def size (o : Overrides) : Nat := o.targets.length

end Overrides

/-! ### References -/

namespace Reference

/-- The path that the leaf at a path refers to. -/
def target? (o : Overrides) (leaf : Path) (d : Declaration) : Option Path :=
  (o.get? leaf).or (d.reference?.bind fun expr => (Expression.resolve expr leaf).toOption)

/-- Whether a path stays inside a resource. -/
def scopeOf (s : ResourceSet) (owner : Nat) (target : Path) : Scope :=
  let found? := (s.bestMatch? target).map (·.id)
  if found? = some owner then .within
  else .outside (found?.or ((s.owner? target).map (·.id)))

/-- The reference of the leaf at a path that belongs to a resource. -/
def of? (s : ResourceSet) (o : Overrides) (owner : Nat) (leaf : Path) (d : Declaration) :
    Option Reference :=
  (target? o leaf d).map fun target => { leaf, target, scope := scopeOf s owner target }

end Reference

end YangPartition
