import YangPartition.Digest.Sha256
import YangPartition.Json.Printer
import YangPartition.Manifest.Views

/-!
# Manifests as data

The JSON form of a manifest: every member is always there, with null for what
is missing, and members come in a fixed order. The fingerprint of compiled
resources is the SHA-256 digest of the manifest without a prefix on one line.
-/

namespace YangPartition

/-- The data of an entry. -/
def EntryView.data (v : EntryView) : Json :=
  .obj [("name", .str v.entry.name), ("type", .str v.entry.typeName),
    ("kind", .str v.entry.kind.text), ("key", .bool v.entry.key),
    ("mandatory", .bool v.entry.mandatory), ("read_only", .bool v.entry.readOnly),
    ("default", .ofText? v.entry.default?), ("next", .ofText? v.next?),
    ("next_name", .ofText? v.nextName?), ("leafref", .ofText? (v.entry.target?.map (·.text))),
    ("description", .ofText? v.entry.description?)]

/-- The data of a reference. -/
def ReferenceView.data (v : ReferenceView) : Json :=
  .obj [("local_path", .str v.reference.leaf.text), ("remote_path", .str v.reference.target.text),
    ("scope", .str (if v.reference.scope.isWithin then "local" else "external")),
    ("target_resource", .ofText? v.resource?),
    ("resolved_type", .ofText? v.reference.resolvedType?)]

/-- The data of a container. -/
def ContainerView.data (v : ContainerView) : Json :=
  let c := v.container
  .obj [("name", .str c.name), ("full_name", .str v.fullName), ("file_stem", .str v.fileStem),
    ("xpath", .str c.path.text), ("module", .str c.identity.moduleName),
    ("namespace", .str c.identity.namespaceUri), ("prefix", .str c.identity.shortName),
    ("keys", .ofTexts c.keys),
    ("children", .arr (v.children.map fun (name, stem) =>
      .obj [("name", .str name), ("file_stem", .str stem)])),
    ("resource_boundary", .bool c.boundary), ("has_state", .bool c.hasState),
    ("synthetic", .bool c.synthetic), ("leafrefs", .arr (v.references.map (·.data))),
    ("defaults", .obj (c.defaults.map fun (name, value) => (name, .str value))),
    ("entries", .arr (v.entries.map (·.data)))]

/-- The data of a resource. -/
def ResourceView.data (v : ResourceView) : Json :=
  let r := v.resource
  .obj [("name", .str r.name), ("name_with_prefix", .str v.prefixedName),
    ("xpath", .str r.pathText), ("module", .str r.topName), ("parent", .ofText? v.parent?),
    ("children", .ofTexts v.children), ("excludes", .ofTexts (r.excludes.map (·.nameText))),
    ("sub_resources", .ofTexts (r.subResources.map (·.nameText))),
    ("has_state", .bool v.hasState),
    ("local_leafrefs", .arr (v.innerReferences.map (·.data))),
    ("external_leafrefs", .arr (v.outerReferences.map (·.data))),
    ("containers", .arr (v.containers.map (·.data)))]

/-- The data of a manifest. -/
def Manifest.data (m : Manifest) : Json :=
  .obj [("mode", .str m.mode.text), ("resources", .arr (m.resources.map (·.data)))]

/-- The digest of the compiled resources. -/
def ResourceSet.fingerprint (s : ResourceSet) : String :=
  Sha256.hexOfText (s.manifest "").data.text

end YangPartition
