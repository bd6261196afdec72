import Mathlib.Data.List.Nodup
import YangPartition.Generation

/-!
# Written files

The files of a manifest are written below one directory: one for each container, named by its stem,
one for each resource, and the manifest itself. The names of the three kinds end in different ways,
so no path is written twice if none is within one kind.
-/

namespace YangPartition

namespace Writing

variable {α β : Type}

end Writing

/-! ### Joined paths -/

namespace FileName

end FileName

/-! ### Files of a manifest -/

namespace Manifest

/-- The containers of a manifest. -/
def containers (m : Manifest) : List ContainerView := m.resources.flatMap (·.containers)

variable {m : Manifest} {templates : Templates} {settings : OutputSettings} {out : String}
  {d d' : Disk} {files : List String}

end Manifest

end YangPartition
