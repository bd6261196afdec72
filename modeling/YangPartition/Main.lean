import YangPartition.Command.Outcome

/-!
# The program

The part of the program that touches the world. It takes from the real disk what
the settings name, runs the command on it, and writes what the command has
changed. Nothing is decided here.
-/

namespace YangPartition.Main

/-! ### Taking from the disk -/

/-- The path of names from the top. -/
def pathOf (names : List String) : String := "/" ++ "/".intercalate names

/-- What stands at a path, without following a link there. -/
def kindAt (path : String) : IO (Option IO.FS.FileType) := do
  let here ← IO.currentDir
  try return some (← (here / path).symlinkMetadata).type
  catch _ => return none

/-- The names of the path that a link leads to. -/
def targetOf (path : String) : IO (List String) := do
  try return FileName.names (← IO.FS.realPath path).toString
  catch _ => return []

/-- The node of a file. -/
def fileAt (path : String) : IO FileNode := do
  try return .file (← IO.FS.readBinFile path).data
  catch _ => return .file #[]

/-- A tree with everything from a directory down put in its place, and the files
that links there lead to. -/
partial def addAll (tree : FileNode) (names : List String) : IO FileNode := do
  let here ← IO.currentDir
  let mut tree := if (tree.find? names).isSome then tree else (FileNode.directory []).put names tree
  let entries ← try (here / pathOf names).readDir catch _ => pure #[]
  for entry in entries do
    let below := names ++ [entry.fileName]
    match ← kindAt (pathOf below) with
    | some .dir => tree ← addAll tree below
    | some .file => tree := (← fileAt (pathOf below)).put below tree
    | some .symlink =>
      let target ← targetOf (pathOf below)
      tree := (FileNode.link (pathOf target)).put below tree
      if let some .file ← kindAt (pathOf target) then
        tree := (← fileAt (pathOf target)).put target tree
    | _ => pure ()
  return tree

/-- A tree with what stands at the end of names put in its place, and all on the
way there. -/
partial def addWay (tree : FileNode) (here : List String) : List String → IO FileNode
  | [] => addAll tree here
  | "." :: names => addWay tree here names
  | ".." :: names => addWay tree here.dropLast names
  | name :: names => do
    let there := here ++ [name]
    match ← kindAt (pathOf there) with
    | some .dir =>
      let known := (tree.find? there).isSome
      addWay (if known then tree else (FileNode.directory []).put there tree) there names
    | some .file => return (← fileAt (pathOf there)).put there tree
    | some .symlink =>
      let target ← targetOf (pathOf there)
      let tree := (FileNode.link (pathOf target)).put there tree
      if target.isEmpty then return tree else addWay tree [] (target ++ names)
    | _ => return tree

/-- A disk with what stands at paths. -/
def addPaths (d : Disk) (paths : List String) : IO Disk := do
  let mut tree := d.tree
  for path in paths do
    tree ← addWay tree [] (FileName.names (FileName.join d.workingPath path))
  return { d with tree }

/-- The paths of files that may hold settings. -/
def settingsPaths (env : Environment) (asked? : Option String) : List String :=
  let named := Settings.files ++ (Settings.userFile? env).toList ++ asked?.toList
  named ++ named.map (· ++ "." ++ Settings.fileExtension)

/-- The paths that settings and a task name. -/
def namedPaths (s : Settings) (task : Command.Task) : List String :=
  let drawn := match task with
    | .graph file? => file?.toList
    | _ => []
  s.importLocations ++ s.moduleLocations ++ s.mapFile?.toList ++
    s.output.templateDirectory?.toList ++ [s.output.directory] ++ drawn

/-! ### Writing to the disk -/

/-- Makes the directories and files of a tree that are not in another one. -/
def writeChanges (before after : FileNode) : IO Unit := do
  for (path, node) in after.descendants "/" do
    match node, before.find? (FileName.names path) with
    | .directory _, none => IO.FS.createDir path
    | .file bytes, some (.file old) => if bytes != old then IO.FS.writeBinFile path ⟨bytes⟩
    | .file bytes, _ => IO.FS.writeBinFile path ⟨bytes⟩
    | _, _ => pure ()

/-! ### The environment -/

/-- The variable in a text of a name, a sign of equality and a value. -/
def variableOf? (cs : List Char) : Option (String × String) :=
  (Text.cutAt '=' cs).map fun (name, value) => (String.ofList name, String.ofList value)

/-- The variables of the environment. -/
def environment : IO Environment := do
  let bytes ← try IO.FS.readBinFile "/proc/self/environ" catch _ => pure .empty
  let text := (String.fromUTF8? bytes).getD ""
  return .ofPairs ((Text.pieces (· == '\x00') text.toList).filterMap variableOf?)

/-- The disk that arguments need: what the settings and then what they name. -/
def diskFor (env : Environment) (args : List String) : IO Disk := do
  let path := (← IO.currentDir).toString
  let d : Disk := ⟨(FileNode.directory []).put (FileName.names path) (.directory []), path⟩
  match Command.Invocation.ofArguments args with
  | .error _ => return d
  | .ok i =>
    let d ← addPaths d (settingsPaths env i.settingsFile?)
    match Settings.load d env i.settingsFile? with
    | .error _ => return d
    | .ok s => addPaths d (namedPaths (Command.apply i.given s) i.task)

end YangPartition.Main

/-- Runs the program. -/
def main (args : List String) : IO UInt32 := do
  let env ← YangPartition.Main.environment
  let d ← YangPartition.Main.diskFor env args
  let o := YangPartition.Command.run env d args
  YangPartition.Main.writeChanges d.tree o.disk.tree
  IO.print o.out
  IO.eprint o.complaints
  return o.code.toUInt32
