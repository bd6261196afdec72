import YangPartition.Text.Property

/-!
# Grapheme clusters

A text falls into clusters, the units a reader takes for one character. A
cluster is extended from the left by the break class of the next character.
Indic conjuncts are left apart.
-/

namespace YangPartition.Text

/-! ### Break classes -/

/-- What a character does at a cluster break. -/
inductive BreakClass where
  | carriageReturn | lineFeed | control | extend | joiner | flag | prepend | spacingMark
  | leading | vowel | trailing | syllable | closedSyllable | pictograph | other
  deriving DecidableEq, Repr

/-- The break class of a character. -/
def BreakClass.of (c : Char) : BreakClass :=
  let n := c.toNat
  let within (first last : Nat) : Bool := first ≤ n && n ≤ last
  if n == 0x0D then .carriageReturn
  else if n == 0x0A then .lineFeed
  else if n < 0x20 then .control
  else if n < 0x7F then .other
  else if n == 0x200D then .joiner
  else if within 0x1F1E6 0x1F1FF then .flag
  else if within 0x1F3FB 0x1F3FF then .extend
  else if within 0x1100 0x115F || within 0xA960 0xA97C then .leading
  else if within 0x1160 0x11A7 || within 0xD7B0 0xD7C6 then .vowel
  else if within 0x11A8 0x11FF || within 0xD7CB 0xD7FB then .trailing
  else if within 0xAC00 0xD7A3 then
    if (n - 0xAC00) % 28 == 0 then .syllable else .closedSyllable
  else if Property.inRanges Property.control n then .control
  else if Property.inRanges Property.graphemeExtend n then .extend
  else if Property.inRanges Property.prepend n then .prepend
  else if Property.inRanges Property.spacingMark n then .spacingMark
  else if Property.inRanges Property.pictographic n then .pictograph
  else .other

/-! ### Breaks -/

/-- Where a cluster stands after its last character: that character's class,
whether the number of flags it ends in is odd, and whether it ends in a
pictograph with extensions, and with a joiner after them. -/
structure ClusterState where
  /-- The class of the last character. -/
  last : BreakClass
  /-- The cluster ends in an odd number of flags. -/
  oddFlags : Bool
  /-- The cluster ends in a pictograph and extensions. -/
  pictured : Bool
  /-- The cluster ends in a pictograph, extensions and a joiner. -/
  joined : Bool

/-- The state after a first character. -/
def ClusterState.start (b : BreakClass) : ClusterState :=
  ⟨b, b = .flag, b = .pictograph, false⟩

/-- The state after one more character. -/
def ClusterState.next (s : ClusterState) (b : BreakClass) : ClusterState :=
  ⟨b, b = .flag && !s.oddFlags, b = .pictograph || (b = .extend && s.pictured),
    b = .joiner && s.pictured⟩

/-- Whether a character of the given class goes on with the cluster. -/
def ClusterState.continues (s : ClusterState) (b : BreakClass) : Bool :=
  match s.last, b with
  | .carriageReturn, .lineFeed => true
  | .carriageReturn, _ | .lineFeed, _ | .control, _ => false
  | _, .carriageReturn | _, .lineFeed | _, .control => false
  | .leading, .leading | .leading, .vowel | .leading, .syllable | .leading, .closedSyllable => true
  | .syllable, .vowel | .vowel, .vowel | .syllable, .trailing | .vowel, .trailing => true
  | .closedSyllable, .trailing | .trailing, .trailing => true
  | _, .extend | _, .joiner | _, .spacingMark => true
  | .prepend, _ => true
  | .joiner, .pictograph => s.joined
  | .flag, .flag => s.oddFlags
  | _, _ => false

/-- The clusters of the rest of a text after the cluster `held`, last character first. -/
def clustersAfter (held : List Char) (s : ClusterState) : List Char → List (List Char)
  | [] => [held.reverse]
  | c :: cs =>
    let b := BreakClass.of c
    if s.continues b then clustersAfter (c :: held) (s.next b) cs
    else held.reverse :: clustersAfter [c] (.start b) cs

/-- The grapheme clusters of a text. -/
def clusters : List Char → List (List Char)
  | [] => []
  | c :: cs => clustersAfter [c] (.start (.of c)) cs

end YangPartition.Text
