import YangPartition.Command.Options
import YangPartition.Settings.Basic

/-!
# Invocations

What the program is asked for: one of its commands, with a file of settings and
changes to the settings that have been loaded.
-/

namespace YangPartition.Command

/-! ### Options -/

/-- The options that may stand before a command and among its options. -/
def commonOptions : List OptionSpec := [
  ⟨helpName, some 'h', .nothing⟩,
  ⟨"config", none, .path⟩,
  ⟨"debug", none, .nothing⟩]

/-- The options about what is read. -/
def inputOptions : List OptionSpec := [
  ⟨"yang-import-dirs", some 'i', .paths⟩,
  ⟨"yang-module-dirs", some 'm', .paths⟩,
  ⟨"resource-map-input", some 'r', .path⟩,
  ⟨"resource-map-full", some 'f', .nothing⟩,
  ⟨"include-state", none, .truth⟩]

/-- The options about what is written. -/
def outputOptions : List OptionSpec := [
  ⟨"output-dir", some 'o', .path⟩,
  ⟨"package-name", some 'p', .text⟩,
  ⟨"version", some 'v', .text⟩,
  ⟨"api-group", some 'g', .text⟩,
  ⟨"prefix", some 'a', .text⟩,
  ⟨"schema", some 'x', .nothing⟩,
  ⟨"template-dir", none, .path⟩]

/-- The option for the file of the graph. -/
def graphOption : OptionSpec := ⟨"output", some 'o', .path⟩

/-! ### Settings -/

/-- The settings of the output with what is given. -/
def applyOutput (g : Given) (s : OutputSettings) : OutputSettings where
  directory := (g.value? "output-dir").getD s.directory
  package := (g.value? "package-name").getD s.package
  version := (g.value? "version").getD s.version
  apiGroup := (g.value? "api-group").getD s.apiGroup
  leading := (g.value? "prefix").getD s.leading
  templateDirectory? := (g.value? "template-dir").or s.templateDirectory?
  emitsSchema := s.emitsSchema
  emitsApi := s.emitsApi && !g.isGiven "schema"

/-- Settings with what is given. -/
def apply (g : Given) (s : Settings) : Settings :=
  let listed (name : String) (l : List String) : List String :=
    if g.isGiven name then g.values name else l
  { importLocations := listed "yang-import-dirs" s.importLocations
    moduleLocations := listed "yang-module-dirs" s.moduleLocations
    mapFile? := (g.value? "resource-map-input").or s.mapFile?
    mode := if g.isGiven "resource-map-full" then .full else s.mode
    includeState? := ((g.value? "include-state").map (· == "true")).or s.includeState?
    output := applyOutput g s.output }

/-! ### Commands -/

/-- What to do. -/
inductive Task where
  /-- Generate all files. -/
  | generate
  /-- List the declared resources. -/
  | resources
  /-- Draw the graph of the resources, into a file if one is named. -/
  | graph (file? : Option String)
  deriving DecidableEq, Repr

/-- What the program is asked for. -/
structure Invocation where
  /-- A file of settings. -/
  settingsFile? : Option String
  /-- What to do. -/
  task : Task
  /-- What is given to change the settings. -/
  given : Given

/-- The options of a command. -/
def optionsOf? (command : String) : Option (List OptionSpec) :=
  match command with
  | "generate" => some (inputOptions ++ outputOptions)
  | "resources" => some inputOptions
  | "graph" => some (inputOptions ++ [graphOption])
  | _ => none

/-- What a command does, for what is given. -/
def taskOf (command : String) (g : Given) : Task :=
  match command with
  | "resources" => .resources
  | "graph" => .graph (g.value? graphOption.name)
  | _ => .generate

/-- Why there is nothing to do when the command is to help with other commands: it
helps with one command or with none. -/
def helpFor (commands : List String) : Refusal :=
  match commands with
  | [] => .help
  | [command] => if (optionsOf? command).isSome ∨ command = helpName then .help else .wrong
  | _ => .wrong

/-- What arguments ask for. Options behind the command count before those in front of it. -/
def Invocation.ofArguments (args : List String) : Arguments Invocation := do
  let (common, rest) ← read commonOptions ([], none) args
  match rest with
  | [] => .error .wrong
  | command :: args =>
    match optionsOf? command with
    | none => .error (if command = helpName then helpFor args else .wrong)
    | some options =>
      let (given, rest) ← read (commonOptions ++ options) ([], none) args
      if rest.isEmpty then
        .ok ⟨(given.value? "config").or (common.value? "config"), taskOf command given, given⟩
      else .error .wrong

end YangPartition.Command
