import YangPartition.Document.Basic
import YangPartition.Yaml.Scanner

/-!
# Reading YAML

The tokens of a text make up one document of scalars, sequences and mappings. A
scalar is read as its text wherever a text is wanted; a plain one may also be a
truth value or stand for no value, and an empty one for an empty collection.
Collections nested too deep are parts of the document that cannot be read.
-/

namespace YangPartition.Yaml

/-! ### Scalars -/

/-- The truth value of a plain scalar. -/
def truthOf? (s : String) : Option Bool :=
  if s = "true" ∨ s = "True" ∨ s = "TRUE" then some true
  else if s = "false" ∨ s = "False" ∨ s = "FALSE" then some false
  else none

/-- Whether a plain scalar stands for no value. -/
def isNull (s : String) : Bool :=
  s == "" || s == "~" || s == "null" || s == "Null" || s == "NULL"

/-- A scalar as a document. -/
def scalar (plain : Bool) (s : String) : Document :=
  if plain then .scalar ⟨some s, truthOf? s, isNull s, s.isEmpty⟩
  else .scalar ⟨some s, none, false, false⟩

/-- A value that is left out. -/
def omitted : Document := scalar true ""

/-- How deep values that are read may be nested. -/
def maxDepth : Nat := 128

/-- The document of a collection, `depth` being how deep it may be nested itself. -/
def collection (depth : Nat) (d : Document) : Document :=
  if depth = 0 then .unreadable else d

/-! ### Values -/

/-- The text of a key, which has to be a scalar. -/
def keyText : Document → Option String
  | .scalar ⟨s, _, _, _⟩ => s
  | _ => none

/-- Whether a token ends an entry of a block mapping. -/
def endsBlockPart : List Token → Bool
  | .key :: _ | .value :: _ | .blockEnd :: _ => true
  | _ => false

/-- Whether a token ends an entry of a sequence without a block of its own. -/
def endsEntry : List Token → Bool
  | .blockEntry :: _ => true
  | ts => endsBlockPart ts

/-- Whether a token ends a key or a value of a flow mapping. -/
def endsFlowPart : List Token → Bool
  | .value :: _ | .flowEntry :: _ | .flowMappingEnd :: _ => true
  | _ => false

mutual

/-- Reads a value, whose collections are readable `depth` deep. In a block, a sequence may stand
at the column of the mapping around it when `indentless` is set. -/
def node (depth : Nat) (block indentless : Bool) :
    Nat → List Token → Option (Document × List Token)
  | 0, _ => none
  | fuel + 1, ts =>
    match ts with
    | .scalar plain s :: ts => some (scalar plain s, ts)
    | .flowSequenceStart :: ts =>
      (flowItems (depth - 1) true fuel ts).map fun (items, ts) =>
        (collection depth (.sequence false items), ts)
    | .flowMappingStart :: ts =>
      (flowMembers (depth - 1) true fuel ts).map fun (ms, ts) =>
        (collection depth (.mapping false ms), ts)
    | .sequenceStart :: ts =>
      if ¬ block then none
      else (blockItems (depth - 1) fuel ts).map fun (items, ts) =>
        (collection depth (.sequence false items), ts)
    | .mappingStart :: ts =>
      if ¬ block then none
      else (blockMembers (depth - 1) fuel ts).map fun (ms, ts) =>
        (collection depth (.mapping false ms), ts)
    | .blockEntry :: _ =>
      if ¬ indentless then none
      else (entries (depth - 1) fuel ts).map fun (items, ts) =>
        (collection depth (.sequence false items), ts)
    | _ => none
termination_by structural n _ => n

/-- Reads the items of a block sequence to its end. -/
def blockItems (depth : Nat) : Nat → List Token → Option (List Document × List Token)
  | 0, _ => none
  | fuel + 1, ts =>
    match ts with
    | .blockEnd :: ts => some ([], ts)
    | .blockEntry :: ts => do
      let (item, ts) ← match ts with
        | .blockEntry :: _ | .blockEnd :: _ => some (omitted, ts)
        | ts => node depth true false fuel ts
      let (items, ts) ← blockItems depth fuel ts
      some (item :: items, ts)
    | _ => none
termination_by structural n _ => n

/-- Reads the items of a sequence without a block of its own. -/
def entries (depth : Nat) : Nat → List Token → Option (List Document × List Token)
  | 0, _ => none
  | fuel + 1, ts =>
    match ts with
    | .blockEntry :: ts => do
      let (item, ts) ←
        if endsEntry ts then some (omitted, ts) else node depth true false fuel ts
      let (items, ts) ← entries depth fuel ts
      some (item :: items, ts)
    | ts => some ([], ts)
termination_by structural n _ => n

/-- Reads the members of a block mapping to its end. -/
def blockMembers (depth : Nat) :
    Nat → List Token → Option (List (String × Document) × List Token)
  | 0, _ => none
  | fuel + 1, ts =>
    match ts with
    | .blockEnd :: ts => some ([], ts)
    | .key :: ts => do
      let (name, ts) ←
        if endsBlockPart ts then some (omitted, ts) else node depth true true fuel ts
      let (value, ts) ← match ts with
        | .value :: ts =>
          if endsBlockPart ts then some (omitted, ts) else node depth true true fuel ts
        | ts => some (omitted, ts)
      let name ← keyText name
      let (members, ts) ← blockMembers depth fuel ts
      some ((name, value) :: members, ts)
    | _ => none
termination_by structural n _ => n

/-- Reads the items of a flow sequence to its end. -/
def flowItems (depth : Nat) (first : Bool) :
    Nat → List Token → Option (List Document × List Token)
  | 0, _ => none
  | fuel + 1, ts =>
    match ts with
    | .flowSequenceEnd :: ts => some ([], ts)
    | ts => do
      let ts ← if first then some ts else match ts with
        | .flowEntry :: ts => some ts
        | _ => none
      match ts with
      | .flowSequenceEnd :: ts => some ([], ts)
      | .key :: ts => do
        let (name, ts) ← match ts with
          | .value :: _ | .flowEntry :: _ | .flowSequenceEnd :: _ => some (omitted, ts)
          | ts => node depth false false fuel ts
        let (value, ts) ← match ts with
          | .value :: ts =>
            match ts with
            | .flowEntry :: _ | .flowSequenceEnd :: _ => some (omitted, ts)
            | ts => node depth false false fuel ts
          | ts => some (omitted, ts)
        let name ← keyText name
        let (items, ts) ← flowItems depth false fuel ts
        some (.mapping false [(name, value)] :: items, ts)
      | ts => do
        let (item, ts) ← node depth false false fuel ts
        let (items, ts) ← flowItems depth false fuel ts
        some (item :: items, ts)
termination_by structural n _ => n

/-- Reads the members of a flow mapping to its end. -/
def flowMembers (depth : Nat) (first : Bool) : Nat → List Token →
    Option (List (String × Document) × List Token)
  | 0, _ => none
  | fuel + 1, ts =>
    match ts with
    | .flowMappingEnd :: ts => some ([], ts)
    | ts => do
      let ts ← if first then some ts else match ts with
        | .flowEntry :: ts => some ts
        | _ => none
      match ts with
      | .flowMappingEnd :: ts => some ([], ts)
      | .key :: ts => do
        let (name, ts) ←
          if endsFlowPart ts then some (omitted, ts) else node depth false false fuel ts
        let (value, ts) ← match ts with
          | .value :: ts =>
            match ts with
            | .flowEntry :: _ | .flowMappingEnd :: _ => some (omitted, ts)
            | ts => node depth false false fuel ts
          | ts => some (omitted, ts)
        let name ← keyText name
        let (members, ts) ← flowMembers depth false fuel ts
        some ((name, value) :: members, ts)
      | ts => do
        let (name, ts) ← node depth false false fuel ts
        let name ← keyText name
        let (members, ts) ← flowMembers depth false fuel ts
        some ((name, omitted) :: members, ts)
termination_by structural n _ => n

end

/-! ### Documents -/

/-- The document of a text; a text without one holds a value that is left out. -/
def parse? (s : String) : Option Document := do
  let ts ← tokens s
  let ts := match ts with
    | .documentStart :: ts => ts
    | ts => ts
  let (d, ts) ← match ts with
    | [] | .documentStart :: _ | .documentEnd :: _ => some (omitted, ts)
    | ts => node maxDepth true false (3 * ts.length + 3) ts
  if ts.all (· == .documentEnd) then some d else none

end YangPartition.Yaml
