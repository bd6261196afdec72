import YangPartition.Error
import YangPartition.Files.Disk
import YangPartition.Template.Evaluate
import YangPartition.Template.Parser
import YangPartition.Template.Standard

/-!
# Collections of templates

Templates have names. Two are there from the start; the files of a directory
that end in `.hbs` add others or replace them, each under its path within the
directory, without the ending.
-/

namespace YangPartition

/-- Templates under their names. -/
structure Templates where
  /-- The templates, by name. -/
  byName : NameMap Template := []

namespace Templates

/-- The name of the template of a container. -/
def containerName : String := "container"

/-- The name of the template of a resource. -/
def resourceName : String := "resource"

/-- The extension of a file that holds a template. -/
def fileExtension : String := "hbs"

/-- Whether there is a template of a name. -/
def has (t : Templates) (name : String) : Bool := t.byName.contains name

/-- Adds the template of a text, which replaces one of the same name. -/
def add (t : Templates) (name source : String) : Except Error Templates :=
  match Template.parse? source with
  | some template => .ok ⟨t.byName.insert name template⟩
  | none => .error (.templateMalformed name "not well formed")

/-- The templates that are there from the start. -/
def standard : Except Error Templates := do
  (← ({} : Templates).add containerName Template.Standard.container).add
    resourceName Template.Standard.resource

/-- The name of the template in a file, for the names on the way from the directory. -/
def nameOf (below : List String) : String :=
  "/".intercalate (FileName.withoutExtension below)

/-- Adds the templates of a directory. -/
def addDirectory (d : Disk) (t : Templates) (directory : String) : Except Error Templates := do
  let found ← (d.walk directory).mapError fun cause =>
    .templateMalformed directory cause.message
  let above := (FileName.names directory).length
  found.foldlM (fun t (file, kind) => do
    if kind = .file ∧ FileName.extension? file = some fileExtension then
      let source ← (d.readText file).mapError .fileAccess
      t.add (nameOf ((FileName.names file).drop above)) source
    else .ok t) t

/-- The standard templates and those of a directory. -/
def load (d : Disk) (directory? : Option String) : Except Error Templates := do
  match directory? with
  | none => standard
  | some directory => addDirectory d (← standard) directory

/-- The text of the template of a name, filled in from data. -/
def fill (t : Templates) (name : String) (data : Json) : Except Error String :=
  (Template.fill t.byName.find? name data).mapError fun f => .renderFailed name f.message

end Templates

end YangPartition
