import YangPartition.Command.Invocation
import YangPartition.Graph
import YangPartition.Readers
import YangPartition.Settings.Sources
import YangPartition.Text.Quoted

/-!
# Outcomes

What a command leaves: a code, texts for the user and for complaints, and the
disk after it.
-/

namespace YangPartition.Command

/-- What a run of the program leaves. -/
structure Outcome where
  /-- The code that tells success, failure and wrong arguments apart. -/
  code : UInt8 := 0
  /-- The text for the user. -/
  out : String := ""
  /-- The text of complaints. -/
  complaints : String := ""
  /-- The disk afterwards. -/
  disk : Disk

/-! ### Texts -/

/-- The text about arguments. -/
def usage : String :=
  "Usage: ygen [--config <FILE>] [--debug] <generate|resources|graph> [OPTIONS]\n"

/-- The text of a failure: what was being done, the error, and its cause. -/
def complaint (doing : Option String) (e : Error) : String :=
  ": ".intercalate ("Error" :: doing.toList ++ [e.message] ++ e.causeMessage?.toList) ++ "\n"

/-- The text about a reference without a target. -/
def unresolvedLine (u : Unresolved) : String :=
  s!"   ⚠️  unresolved leafref {u.container}/{u.entry} -> {u.target}\n"

/-- The text about generated files. -/
def generationText (r : GenerationReport) (directory : String) : String :=
  let counts := r.stats
  s!"✅ {counts.containers} containers, {counts.entries} entries, {counts.references} leafrefs\n" ++
    s!"   {r.files.length} files written to {directory}\n" ++
    s!"   fingerprint {r.fingerprint}\n" ++
    String.join (r.report.unresolved.map unresolvedLine)

/-- The text about a declared resource. -/
def resourceText (s : ResourceSet) (r : Resource) : String :=
  let above := (r.parent?.filter (· != Resource.rootId)).toList
  s!"  {r.pathText} (module {r.topName})\n" ++
    String.join (above.map fun id => s!"      parent: {s.pathTextOf id}\n") ++
    String.join (r.excludes.map fun p => s!"      exclude: {p.nameText}\n") ++
    String.join (r.subResources.map fun p => s!"      sub-resource: {p.nameText}\n")

/-- The text about the declared resources. -/
def resourcesText (s : ResourceSet) (o : Overrides) : String :=
  s!"📦 Resources ({s.declared.length}):\n" ++
    String.join (s.declared.map (resourceText s)) ++
    if o.size = 0 then "" else s!"🔗 {o.size} static leafrefs\n"

/-! ### Tasks -/

/-- The outcome of a failure. -/
def failed (d : Disk) (doing : Option String) (e : Error) : Outcome :=
  { code := 1, complaints := complaint doing e, disk := d }

/-- The outcome of an attempt on a disk that it does not change. -/
def attempt {α : Type} (d : Disk) (doing : Option String) (result : Except Error α)
    (go : α → Outcome) : Outcome :=
  match result with
  | .ok a => go a
  | .error e => failed d doing e

/-- Generates all files. -/
def generate (s : Settings) (d : Disk) : Outcome :=
  match s.generate.run.run d with
  | (.ok r, d) => { out := generationText r (s.outputPath d.workingPath), disk := d }
  | (.error e, d) => failed d (some "generation failed") e

/-- Lists the declared resources. -/
def listResources (s : Settings) (d : Disk) : Outcome :=
  attempt d none (s.loadResources .standard d) fun (set, o) => { out := resourcesText set o, disk := d }

/-- Draws the graph of the resources. -/
def draw (s : Settings) (d : Disk) (file? : Option String) : Outcome :=
  attempt d none (s.compile .standard d) fun c =>
    let dot := (ResourceGraph.ofSet c.resources).toDot
    match file? with
    | none => { out := dot, disk := d }
    | some file =>
      match d.writeText file dot with
      | .ok d => { out := s!"✅ Exported DOT to: {Text.quotedFile file}\n", disk := d }
      | .error cause =>
        { code := 1, complaints := s!"Error: writing {file}: {cause.message}\n", disk := d }

/-- Does what is asked for. -/
def Invocation.run (i : Invocation) (env : Environment) (d : Disk) : Outcome :=
  attempt d (some "loading configuration") (Settings.load d env i.settingsFile?) fun s =>
    let s := apply i.given s
    match i.task with
    | .generate => generate s d
    | .resources => listResources s d
    | .graph file? => draw s d file?

/-- The outcome of the program for its arguments. -/
def run (env : Environment) (d : Disk) (args : List String) : Outcome :=
  match Invocation.ofArguments args with
  | .ok i => i.run env d
  | .error .help => { out := usage, disk := d }
  | .error .wrong => { code := 2, complaints := usage, disk := d }

end YangPartition.Command
