import YangPartition.Template.Basic
import YangPartition.Template.Function

/-!
# Filling in templates

A template is filled in within a scope: the data as a whole, and a stack of the
values that the blocks around have chosen, each with the variables and names
that go with it. Every value that is written must be there. Templates may stand
in each other up to a fixed depth.
-/

namespace YangPartition.Template

/-! ### Scopes -/

/-- What a block has chosen. -/
structure Frame where
  /-- The value. -/
  value : Json
  /-- The variables that tell of its place among others. -/
  labels : List (String × Json) := []
  /-- The values under names that the block gives. -/
  binders : List (String × Json) := []

/-- What references are read in. -/
structure Scope where
  /-- The data as a whole. -/
  data : Json
  /-- What the blocks around have chosen, innermost first. -/
  frames : List Frame

namespace Scope

/-- The scope of a template that is filled in from data. -/
def ofData (data : Json) : Scope := ⟨data, [{ value := data }]⟩

/-- The scope within a block that has chosen something. -/
def within (s : Scope) (f : Frame) : Scope := { s with frames := f :: s.frames }

/-- The value of the block that many blocks further out; the one of the
innermost block if there are not that many. -/
def valueAt (s : Scope) (up : Nat) : Json :=
  match (s.frames[up]?).orElse fun _ => s.frames.head? with
  | some f => f.value
  | none => s.data

/-- The value of a reference, if there is one. A name that a block gives counts
before the members of a value. -/
def resolve (s : Scope) (r : DataRef) : Except Failure (Option Json) :=
  match r.origin, r.names with
  | .data, names => follow s.data names
  | .variable up, name :: _ => .ok ((s.frames[up]?).bind (·.labels.lookup name))
  | .value up, name :: names =>
    match s.frames.findSome? (·.binders.lookup name) with
    | some v => follow v names
    | none => follow (s.valueAt up) (name :: names)
  | .variable _, [] => .ok (some (s.valueAt 0))
  | .value up, [] => .ok (some (s.valueAt up))

end Scope

/-! ### Expressions -/

/-- The value of a function of a name, for the values that are there. A block
without a body leaves nothing. -/
def call (name : String) (args : List (Option Json)) : Except Failure Json :=
  match Function.named? name with
  | some f => f.call name args
  | none =>
    if ["if", "unless", "each", "with"].contains name then
      match args with
      | [] => .error (.badValue name)
      | v? :: _ =>
        if name = "with" ∧ !(v?.any (isTruthy false)) then .error (.missing name)
        else .ok (.str "")
    else .error (.unknownFunction name)

mutual

/-- The value of an expression, if there is one. -/
def Expr.value (s : Scope) : Expr → Except Failure (Option Json)
  | .literal v => .ok (some v)
  | .ref r => s.resolve r
  | .call name args named => do
    let args ← Expr.values s args
    let _ ← Expr.namedValues s named
    some <$> Template.call name args
termination_by structural e => e

/-- The values of expressions. -/
def Expr.values (s : Scope) : List Expr → Except Failure (List (Option Json))
  | [] => .ok []
  | e :: es => do
    let v ← e.value s
    let vs ← Expr.values s es
    .ok (v :: vs)
termination_by structural es => es

/-- The values of named expressions. -/
def Expr.namedValues (s : Scope) :
    List (String × Expr) → Except Failure (List (String × Option Json))
  | [] => .ok []
  | (name, e) :: es => do
    let v ← e.value s
    let vs ← Expr.namedValues s es
    .ok ((name, v) :: vs)
termination_by structural es => es

end

/-- A value that must be there; `what` asks for it. -/
def demand (what : String) : Option Json → Except Failure Json
  | some v => .ok v
  | none => .error (.missing what)

/-- The text of an expression. The name of a function is no reference. -/
def Expr.output (s : Scope) (e : Expr) : Except Failure String := do
  match e with
  | .ref r =>
    match Template.call r.text [] with
    | .error (.unknownFunction _) => textOf <$> (demand r.text (← s.resolve r))
    | .error e => .error e
    | .ok v => .ok (textOf v)
  | e => textOf <$> (demand "an expression" (← e.value s))

/-! ### Choices of blocks -/

/-- What a block does with its body. -/
inductive Choice where
  /-- It fills in its body within each of the frames. -/
  | frames (l : List Frame)
  /-- It fills in its body as it stands. -/
  | body
  /-- It fills in the part in place of its body; `needed` if that has to be there. -/
  | instead (needed : Bool)
  /-- It leaves a text. -/
  | text (s : String)

/-- The values that a block gives names to. -/
def bound (names : List String) (values : List Json) : List (String × Json) :=
  names.zip values

/-- The frame of a member that stands at a place among a number of others. -/
def memberFrame (binders : List String) (label : String) (key : Json) (place count : Nat)
    (v : Json) : Frame :=
  { value := v
    labels := [("first", .bool (place = 0)), ("last", .bool (place + 1 = count)), (label, key)]
    binders := bound binders [v, key] }

/-- The frames of the members of a value. -/
def memberFrames (binders : List String) : Json → Option (List Frame)
  | .arr items => some (items.zipIdx.map fun (v, i) =>
      memberFrame binders "index" (.ofNat i) i items.length v)
  | .obj members =>
    let members := NameMap.ofPairs members
    some (members.zipIdx.map fun ((name, v), i) =>
      memberFrame binders "key" (.str name) i members.length v)
  | _ => none

/-- What a block does, for its values and named values. -/
def choice (head : BlockHead) (args : List (Option Json)) (named : List (String × Option Json))
    (hasInstead : Bool) : Except Failure Choice :=
  match head.name, args with
  | "if", v? :: _ | "unless", v? :: _ =>
    let zeroCounts := (named.lookup "includeZero").join == some (.bool true)
    let holds := (v?.any (isTruthy zeroCounts)) == (head.name == "if")
    .ok (if holds then .body else .instead false)
  | "with", v? :: _ =>
    match v?.filter (isTruthy false) with
    | some v => .ok (.frames [{ value := v, binders := bound (head.binders.take 1) [v] }])
    | none => .ok (.instead true)
  | "each", v? :: _ =>
    match v?.bind (memberFrames head.binders) with
    | some [] => .ok (if hasInstead then .instead false else .frames [])
    | some frames => .ok (.frames frames)
    | none => .ok (.instead true)
  | name, args => (fun v => .text (textOf v)) <$> call name args

/-! ### Parts -/

/-- A text whose lines start with an indent; not the first one unless `firstToo`. -/
def indented (indent : String) (firstToo : Bool) (text : String) : String :=
  let rec rest : List Char → List Char
    | [] => []
    | [c] => [c]
    | c :: cs => if c = '\n' then c :: indent.toList ++ rest cs else c :: rest cs
  let cs := text.toList
  let starts := firstToo && cs.head?.any fun c => c != '\n' && c != '\r'
  String.ofList ((if starts then indent.toList else []) ++ rest cs)

/-- The scope of a template that stands in another one, with the value and the
named values that are given to it. -/
def includeScope (s : Scope) (value? : Option (Option Json)) (named : List (String × Option Json)) :
    Scope :=
  if named.isEmpty then
    match value?.join with
    | some v => { s with frames := [{ value := v }] }
    | none => s
  else
    let base := match value? with
      | some v? => v?.getD .null
      | none => s.valueAt 0
    let members := match base with
      | .obj members => members
      | _ => []
    let members := named.foldl (fun m (name, v?) => NameMap.insert name (v?.getD .null) m)
      (NameMap.ofPairs members)
    { s with frames := [{ value := .obj members }] }

/-- The text of a block, from the texts of its body and of the part in its place
within a scope. -/
def Choice.fill (c : Choice) (what : String) (s : Scope) (body : Scope → Except Failure String)
    (instead? : Option (Scope → Except Failure String)) : Except Failure String :=
  match c, instead? with
  | .text t, _ => .ok t
  | .body, _ => body s
  | .frames chosen, _ => String.join <$> chosen.mapM fun f => body (s.within f)
  | .instead _, some other => other s
  | .instead needed, none => if needed then .error (.missing what) else .ok ""

mutual

/-- A part of a template, filled in; `other` fills in another template within a scope. -/
def Element.fill (other : String → Scope → Except Failure String) (s : Scope) :
    Element → Except Failure String
  | .text t => .ok t
  | .comment => .ok ""
  | .output e => e.output s
  | .block head body instead => do
    let args ← Expr.values s head.args
    let named ← Expr.namedValues s head.named
    let instead? := match instead with
      | some parts => some fun s => fillAll other s parts
      | none => none
    (← choice head args named instead?.isSome).fill head.name s (fun s => fillAll other s body)
      instead?
  | .include name value? named indent ownLine => do
    let name := ((← name.value s).map textOf).getD ""
    let value? ← value?.mapM (·.value s)
    let text ← other name (includeScope s value? (← Expr.namedValues s named))
    .ok (indented indent ownLine text)
termination_by structural e => e

/-- Parts of a template, filled in. -/
def fillAll (other : String → Scope → Except Failure String) (s : Scope) :
    List Element → Except Failure String
  | [] => .ok ""
  | e :: es => do
    let text ← e.fill other s
    let rest ← fillAll other s es
    .ok (text ++ rest)
termination_by structural es => es

end

/-- How deep templates may stand in each other. -/
def maxDepth : Nat := 128

/-- A template filled in within a scope, where others up to a depth may stand in it. -/
def fillWithin (named? : String → Option Template) : Nat → String → Scope → Except Failure String
  | 0, _, _ => .error .tooDeep
  | depth + 1, name, s =>
    match named? name with
    | some t => fillAll (fillWithin named? depth) s t
    | none => .error (.unknownTemplate name)

/-- The template of a name filled in from data. -/
def fill (named? : String → Option Template) (name : String) (data : Json) :
    Except Failure String :=
  fillWithin named? maxDepth name (.ofData data)

end YangPartition.Template
