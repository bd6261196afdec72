import YangPartition.Proofs.Manifest.Stems
import YangPartition.Proofs.Manifest.Written

/-!
# File names

Each container is written to a file, and each resource to another one. The stem of the first is the
camel case of the names on the path of the container, joined by `-`; that of the second is the
snake case of the names on the path of the resource, behind the prefix. As the `-` between two
names and one inside a name are the same, the names `b` and `c` are joined to what `b-c` is, and two
files may come to one name. For plain names this is the only way.
-/

namespace YangPartition

namespace ResourceSet

variable {s t : ResourceSet} {o : Options} {f : Forest} {result : Stats × FinishReport}

/-! ### Names of containers -/

/-- The containers of all compiled resources. -/
def containers (t : ResourceSet) : List Container := t.active.flatMap (·.arena.toList)

end ResourceSet

end YangPartition
