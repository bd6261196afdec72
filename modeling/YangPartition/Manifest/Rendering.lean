import YangPartition.Manifest.Data
import YangPartition.Settings.Basic
import YangPartition.Template.Collection

/-!
# Rendering

What a manifest describes is rendered with templates, which see the view of a
container or resource together with the settings of the output.
-/

namespace YangPartition

/-- The settings that templates see. -/
def OutputSettings.data (s : OutputSettings) : Json :=
  .obj [("package", .str s.package), ("version", .str s.version), ("api_group", .str s.apiGroup),
    ("prefix", .str s.leading), ("emit_schema", .bool s.emitsSchema),
    ("emit_api", .bool s.emitsApi)]

namespace Templates

/-- The text of a container. -/
def renderContainer (t : Templates) (s : OutputSettings) (v : ContainerView) :
    Except Error String :=
  t.fill containerName (.obj [("settings", s.data), ("container", v.data)])

/-- The text of a resource. -/
def renderResource (t : Templates) (s : OutputSettings) (v : ResourceView) :
    Except Error String :=
  t.fill resourceName (.obj [("settings", s.data), ("resource", v.data)])

end Templates

end YangPartition
