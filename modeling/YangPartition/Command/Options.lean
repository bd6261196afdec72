import YangPartition.NameMap
import YangPartition.Text.Blank

/-!
# Options of a command line

An option has a name behind two dashes and perhaps a letter behind one. Its
value is the rest of its argument or the next argument; letters of options
without a value may share an argument. Most options may be given once.
-/

namespace YangPartition.Command

open Text (pieces cutAt)

/-! ### Options -/

/-- The values that an option takes. -/
inductive Takes where
  /-- None. -/
  | nothing
  /-- A text. -/
  | text
  /-- A path, which is not empty. -/
  | path
  /-- Paths with commas between, as often as wanted. -/
  | paths
  /-- A truth value behind the sign of equality, or none. -/
  | truth
  deriving DecidableEq, Repr

/-- An option. -/
structure OptionSpec where
  /-- Its name. -/
  name : String
  /-- Its letter. -/
  letter? : Option Char
  /-- The values that it takes. -/
  takes : Takes
  deriving DecidableEq, Repr

/-- The values of the options that are given. -/
abbrev Given := NameMap (List String)

/-- Why arguments are not taken. -/
inductive Refusal where
  /-- Help is asked for instead. -/
  | help
  /-- They do not fit the options. -/
  | wrong
  deriving DecidableEq, Repr

/-- Reading of arguments. -/
abbrev Arguments := Except Refusal

/-- The name of the option that asks for help. -/
def helpName : String := "help"

/-! ### Taking an option -/

/-- The values that a text gives an option. -/
def OptionSpec.values (o : OptionSpec) (text : String) : Arguments (List String) :=
  match o.takes with
  | .nothing => .error .wrong
  | .text => .ok [text]
  | .path => if text.isEmpty then .error .wrong else .ok [text]
  | .paths =>
    let paths := (pieces (· == ',') text.toList).map String.ofList
    if paths.contains "" then .error .wrong else .ok paths
  | .truth => if text = "true" ∨ text = "false" then .ok [text] else .error .wrong

/-- Gives an option values; only one that takes many paths may have some already. -/
def give (given : Given) (o : OptionSpec) (values : List String) : Arguments Given :=
  match given.find? o.name with
  | none => .ok (given.insert o.name values)
  | some before =>
    if o.takes = .paths then .ok (given.insert o.name (before ++ values)) else .error .wrong

/-- What has been given, and the option whose value is the next argument. -/
abbrev Taken := Given × Option OptionSpec

/-- Takes an option, with the text that stands behind it in its argument;
`equals` if a sign of equality stands between. -/
def take (given : Given) (o : OptionSpec) (equals : Bool) (behind? : Option String) :
    Arguments Taken := do
  if o.name = helpName then .error .help
  match o.takes, behind? with
  | .nothing, none => .ok (← give given o [], none)
  | .truth, none => .ok (← give given o ["true"], none)
  | .truth, some text =>
    if equals then .ok (← give given o (← o.values text), none) else .error .wrong
  | _, some text => .ok (← give given o (← o.values text), none)
  | _, none => .ok (given, some o)

/-- Takes an argument with the name of an option. -/
def takeNamed (specs : List OptionSpec) (given : Given) (arg : List Char) : Arguments Taken :=
  let (name, behind?) := match cutAt '=' arg with
    | some (name, behind) => (name, some (String.ofList behind))
    | none => (arg, none)
  match specs.find? (·.name == String.ofList name) with
  | some o => take given o behind?.isSome behind?
  | none => .error .wrong

/-- Takes an argument with letters of options: a value follows the letter of the
first option that takes one. -/
def takeLetters (specs : List OptionSpec) (given : Given) : List Char → Arguments Taken
  | [] => .ok (given, none)
  | c :: cs =>
    match specs.find? (·.letter? == some c) with
    | none => .error .wrong
    | some o =>
      if o.takes = .nothing then do
        takeLetters specs (← take given o false none).1 cs
      else
        match cs with
        | [] => take given o false none
        | '=' :: text => take given o true (some (String.ofList text))
        | text => take given o false (some (String.ofList text))

/-! ### Reading arguments -/

/-- Whether an argument is meant as an option. -/
def isOption (arg : String) : Bool :=
  match arg.toList with
  | '-' :: _ :: _ => true
  | _ => false

/-- Reads options up to the first argument that is none; gives what follows from
there. Behind two dashes alone nothing may follow. -/
def read (specs : List OptionSpec) (taken : Taken) : List String → Arguments (Given × List String)
  | [] => if taken.2.isSome then .error .wrong else .ok (taken.1, [])
  | arg :: args =>
    match taken, arg.toList with
    | (given, some o), _ =>
      if isOption arg then .error .wrong
      else do read specs (← give given o (← o.values arg), none) args
    | (given, none), ['-', '-'] => if args.isEmpty then .ok (given, []) else .error .wrong
    | (given, none), '-' :: '-' :: name => do read specs (← takeNamed specs given name) args
    | (given, none), '-' :: c :: cs => do read specs (← takeLetters specs given (c :: cs)) args
    | (given, none), _ => .ok (given, arg :: args)

/-! ### What is given -/

namespace Given

/-- The values of an option; none if it is not given. -/
def values (g : Given) (name : String) : List String := (NameMap.find? name g).getD []

/-- The value of an option. -/
def value? (g : Given) (name : String) : Option String := (g.values name).head?

/-- Whether an option is given. -/
def isGiven (g : Given) (name : String) : Bool := NameMap.contains name g

end Given

end YangPartition.Command
