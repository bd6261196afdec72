import YangPartition.Files.Error
import YangPartition.Files.Name
import YangPartition.NameMap

/-!
# Disks

A disk is a tree of directories, files and links, with a working directory from
which relative paths start. A path is followed name by name; links on the way
lead on, `..` leads to the directory above the one reached. Operations that
write give the disk after them.
-/

namespace YangPartition

/-- What stands under a name on a disk. -/
inductive FileNode where
  /-- A file and its bytes. -/
  | file (bytes : Array UInt8)
  /-- A link and the path it leads to. -/
  | link (target : String)
  /-- A directory: what it holds, under ascending names. -/
  | directory (entries : List (String × FileNode))
  deriving Inhabited

/-- What kind of thing stands under a name. -/
inductive FileKind where
  | file | link | directory
  deriving DecidableEq, Repr

namespace FileNode

/-- The kind of a node. -/
def kind : FileNode → FileKind
  | file _ => .file
  | link _ => .link
  | directory _ => .directory

/-- The node under names, without following links. -/
def find? (n : FileNode) : List String → Option FileNode
  | [] => some n
  | name :: names =>
    match n with
    | directory entries => (entries.lookup name).bind (·.find? names)
    | _ => none

/-- The tree with a node put under names; directories on the way are made. -/
def put (new : FileNode) : List String → FileNode → FileNode
  | [], _ => new
  | name :: names, directory entries =>
    let below := (entries.lookup name).getD (directory [])
    directory (NameMap.insert name (new.put names below) entries)
  | name :: names, _ => directory [(name, new.put names (directory []))]

mutual

/-- All nodes below one that stands under a path, each directory followed by
what it holds; links are not followed. -/
def descendants (path : String) : FileNode → List (String × FileNode)
  | directory entries => descendantsAll path entries
  | _ => []
termination_by structural n => n

/-- The nodes of entries of a directory and all nodes below them. -/
def descendantsAll (path : String) : List (String × FileNode) → List (String × FileNode)
  | [] => []
  | (name, n) :: rest =>
    let here := FileName.join path name
    (here, n) :: n.descendants here ++ descendantsAll path rest
termination_by structural ns => ns

end

end FileNode

/-- A disk and the directory from which relative paths start. -/
structure Disk where
  /-- What stands on the disk. -/
  tree : FileNode
  /-- The absolute path of the working directory. -/
  workingPath : String

namespace Disk

/-! ### Following paths -/

/-- The most links that a path may lead over. -/
def maxLinks : Nat := 40

/-- The most bytes of a name. -/
def maxNameBytes : Nat := 255

/-- Where a path leads: the names from the top without links, and what stands
there. Nothing stands there only if the directory above does. -/
structure Location where
  /-- The names from the top. -/
  names : List String
  /-- What stands there. -/
  node? : Option FileNode

/-- Where the way along names ends: at a location, or at a link with names left. -/
inductive Way where
  /-- It ends. -/
  | arrived (l : Location)
  /-- It goes on from the names, along the target of a link and then the rest. -/
  | linked (names : List String) (target : String) (rest : List String)

/-- Goes along names from a directory up to the first link. A link at the end is
taken only if `follow` is set. -/
def along (tree : FileNode) (follow : Bool) (here : List String) :
    List String → Except FileError Way
  | [] => .ok (.arrived ⟨here, tree.find? here⟩)
  | name :: rest =>
    match tree.find? here with
    | some (.directory entries) =>
      if name = "." then along tree follow here rest
      else if name = ".." then along tree follow here.dropLast rest
      else if maxNameBytes < name.utf8ByteSize then .error .nameTooLong
      else
        match entries.lookup name with
        | none => if rest.isEmpty then .ok (.arrived ⟨here ++ [name], none⟩) else .error .notFound
        | some (.link target) =>
          if rest.isEmpty && !follow then .ok (.arrived ⟨here ++ [name], some (.link target)⟩)
          else .ok (.linked here target rest)
        | some _ => along tree follow (here ++ [name]) rest
    | some _ => .error .notDirectory
    | none => .error .notFound

/-- Goes along names from a directory, over a number of links. -/
def follow (tree : FileNode) (last : Bool) :
    Nat → List String → List String → Except FileError Location
  | 0, _, _ => .error .tooManyLinks
  | links + 1, here, names => do
    match ← along tree last here names with
    | .arrived l => .ok l
    | .linked here target rest =>
      let start := if FileName.isAbsolute target then [] else here
      follow tree last links start (FileName.steps target ++ rest)

/-- Where a path leads; the last name may be a link only if `last` is not set. -/
def locate (d : Disk) (path : String) (last : Bool) : Except FileError Location :=
  if path.isEmpty then .error .notFound
  else
    let start := if FileName.isAbsolute path then [] else FileName.names d.workingPath
    follow d.tree last (maxLinks + 1) start (FileName.steps path)

/-! ### Reading -/

/-- What a path leads to, over all links. -/
def node (d : Disk) (path : String) : Except FileError FileNode := do
  match (← d.locate path true).node? with
  | some n => .ok n
  | none => .error .notFound

/-- Whether a path leads to a file. -/
def isFile (d : Disk) (path : String) : Bool :=
  match d.node path with
  | .ok n => n.kind = .file
  | .error _ => false

/-- Whether a path leads to a directory. -/
def isDirectory (d : Disk) (path : String) : Bool :=
  match d.node path with
  | .ok n => n.kind = .directory
  | .error _ => false

/-- Whether a path leads to anything. -/
def isThere (d : Disk) (path : String) : Bool :=
  match d.node path with
  | .ok _ => true
  | .error _ => false

/-- The bytes of a file. -/
def readBytes (d : Disk) (path : String) : Except FileError (Array UInt8) := do
  match ← d.node path with
  | .file bytes => .ok bytes
  | .directory _ => .error .isDirectory
  | .link _ => .error .tooManyLinks

/-- The text of bytes. -/
def textOfBytes (bytes : Array UInt8) : Except FileError String :=
  match String.fromUTF8? ⟨bytes⟩ with
  | some s => .ok s
  | none => .error .notText

/-- The text of a file. -/
def readText (d : Disk) (path : String) : Except FileError String := do
  textOfBytes (← d.readBytes path)

/-- Everything from a path down: what stands there, and then what stands below
it or, if it is a link, below what it leads to, each directory before what it
holds and names in ascending order. Links below are not followed. -/
def walk (d : Disk) (path : String) : Except FileError (List (String × FileKind)) := do
  let n ← d.node path
  let here := ((← d.locate path false).node?.getD n).kind
  .ok ((path, here) :: (n.descendants path).map fun (p, n) => (p, n.kind))

/-! ### Writing -/

/-- Writes a file, which replaces what the file held before. -/
def write (d : Disk) (path : String) (bytes : Array UInt8) : Except FileError Disk := do
  if FileName.endsInSlash path then .error .isDirectory
  let l ← d.locate path true
  match l.node? with
  | some (.directory _) => .error .isDirectory
  | _ => .ok { d with tree := (FileNode.file bytes).put l.names d.tree }

/-- Writes a text to a file. -/
def writeText (d : Disk) (path text : String) : Except FileError Disk :=
  d.write path text.toUTF8.data

/-- Makes a directory where nothing stands. -/
def makeDirectory (d : Disk) (path : String) : Except FileError Disk := do
  let l ← d.locate path false
  match l.node? with
  | some _ => .error .exists
  | none => .ok { d with tree := (FileNode.directory []).put l.names d.tree }

/-- Makes a directory, given by its names in reverse order, and those above it
where they are not there yet. -/
def makeAll (d : Disk) (absolute : Bool) : List String → Except FileError Disk
  | [] => .ok d
  | name :: above =>
    let path := (if absolute then "/" else "") ++ "/".intercalate (name :: above).reverse
    let made (d : Disk) (e : FileError) : Except FileError Disk :=
      if d.isDirectory path then .ok d else .error e
    match d.makeDirectory path with
    | .ok d => .ok d
    | .error .notFound =>
      match d.makeAll absolute above with
      | .error e => .error e
      | .ok d =>
        match d.makeDirectory path with
        | .ok d => .ok d
        | .error e => made d e
    | .error e => made d e

/-- Makes a directory and those above it, where they are not there yet. No
directory can be made under the name `.`, so a path that ends in it has to lead
to one that is there. -/
def makeDirectories (d : Disk) (path : String) : Except FileError Disk := do
  let names := FileName.names path
  let below := (names.filter (· != ".")).reverse
  if names.getLast? = some "." ∧ !d.isDirectory path then
    let d ← d.makeAll (FileName.isAbsolute path) below.tail
    let _ ← d.locate path true
    .error .notFound
  else d.makeAll (FileName.isAbsolute path) below

end Disk

end YangPartition
