/-!
# SHA-256

The digest of FIPS 180-4: a message is padded to whole blocks of 64 bytes, and
each block is mixed into a state of eight words by 64 rounds.
-/

namespace YangPartition.Sha256

/-! ### Constants -/

/-- The round constants, from the cube roots of the first 64 primes. -/
def roundConstants : List UInt32 :=
  [0x428a2f98, 0x71374491, 0xb5c0fbcf, 0xe9b5dba5, 0x3956c25b, 0x59f111f1, 0x923f82a4, 0xab1c5ed5,
    0xd807aa98, 0x12835b01, 0x243185be, 0x550c7dc3, 0x72be5d74, 0x80deb1fe, 0x9bdc06a7, 0xc19bf174,
    0xe49b69c1, 0xefbe4786, 0x0fc19dc6, 0x240ca1cc, 0x2de92c6f, 0x4a7484aa, 0x5cb0a9dc, 0x76f988da,
    0x983e5152, 0xa831c66d, 0xb00327c8, 0xbf597fc7, 0xc6e00bf3, 0xd5a79147, 0x06ca6351, 0x14292967,
    0x27b70a85, 0x2e1b2138, 0x4d2c6dfc, 0x53380d13, 0x650a7354, 0x766a0abb, 0x81c2c92e, 0x92722c85,
    0xa2bfe8a1, 0xa81a664b, 0xc24b8b70, 0xc76c51a3, 0xd192e819, 0xd6990624, 0xf40e3585, 0x106aa070,
    0x19a4c116, 0x1e376c08, 0x2748774c, 0x34b0bcb5, 0x391c0cb3, 0x4ed8aa4a, 0x5b9cca4f, 0x682e6ff3,
    0x748f82ee, 0x78a5636f, 0x84c87814, 0x8cc70208, 0x90befffa, 0xa4506ceb, 0xbef9a3f7, 0xc67178f2]

/-- The eight words of the state. -/
structure State where
  (a b c d e f g h : UInt32)
  deriving DecidableEq

/-- The state before the first block, from the square roots of the first eight primes. -/
def initial : State :=
  ⟨0x6a09e667, 0xbb67ae85, 0x3c6ef372, 0xa54ff53a, 0x510e527f, 0x9b05688c, 0x1f83d9ab, 0x5be0cd19⟩

/-! ### Rounds -/

/-- A word turned right by `n` bits, for `n` from 1 to 31. -/
def rotate (x : UInt32) (n : UInt32) : UInt32 := (x >>> n) ||| (x <<< (32 - n))

/-- One round with a schedule word and a round constant. -/
def round (s : State) (w k : UInt32) : State :=
  let mix := rotate s.e 6 ^^^ rotate s.e 11 ^^^ rotate s.e 25
  let choice := (s.e &&& s.f) ^^^ (~~~s.e &&& s.g)
  let t := s.h + mix + choice + k + w
  let mix := rotate s.a 2 ^^^ rotate s.a 13 ^^^ rotate s.a 22
  let majority := (s.a &&& s.b) ^^^ (s.a &&& s.c) ^^^ (s.b &&& s.c)
  ⟨t + mix + majority, s.a, s.b, s.c, s.d + t, s.e, s.f, s.g⟩

/-- The word that follows those of a schedule. -/
def nextWord (ws : Array UInt32) : UInt32 :=
  let w (back : Nat) : UInt32 := ws[ws.size - back]?.getD 0
  let x := w 15
  let y := w 2
  w 16 + (rotate x 7 ^^^ rotate x 18 ^^^ (x >>> 3)) + w 7 +
    (rotate y 17 ^^^ rotate y 19 ^^^ (y >>> 10))

/-- The 64 words of the schedule of a block of 16. -/
def schedule (block : Array UInt32) : Array UInt32 :=
  (List.range 48).foldl (fun ws _ => ws.push (nextWord ws)) block

/-- Mixes a block into the state. -/
def compress (s : State) (block : Array UInt32) : State :=
  let t := ((schedule block).toList.zip roundConstants).foldl (fun t (w, k) => round t w k) s
  ⟨s.a + t.a, s.b + t.b, s.c + t.c, s.d + t.d, s.e + t.e, s.f + t.f, s.g + t.g, s.h + t.h⟩

/-! ### Messages -/

/-- The big-endian bytes of a word of `n` bytes. -/
def bytesOf (n value : Nat) : List UInt8 :=
  (List.range n).reverse.map fun i => UInt8.ofNat (value >>> (8 * i))

/-- The number of zero bytes after the end mark of a message. -/
def zeroCount (size : Nat) : Nat := (119 - size % 64) % 64

/-- A message padded to whole blocks: an end mark, zeros and the length in bits. -/
def pad (message : Array UInt8) : Array UInt8 :=
  message ++ (0x80 :: List.replicate (zeroCount message.size) 0 ++
    bytesOf 8 (8 * message.size)).toArray

/-- The big-endian word at a place. -/
def wordAt (bytes : Array UInt8) (i : Nat) : UInt32 :=
  let byte (k : Nat) : UInt32 := (bytes[i + k]?.getD 0).toUInt32
  (byte 0 <<< 24) ||| (byte 1 <<< 16) ||| (byte 2 <<< 8) ||| byte 3

/-- The digest of a message, as a state. -/
def digest (message : Array UInt8) : State :=
  let bytes := pad message
  (List.range (bytes.size / 64)).foldl (fun s b =>
    compress s ((Array.range 16).map fun i => wordAt bytes (64 * b + 4 * i))) initial

/-- A word in eight hexadecimal digits. -/
def hexWord (w : UInt32) : List Char :=
  let digits := Nat.toDigits 16 w.toNat
  List.replicate (8 - digits.length) '0' ++ digits

/-- The digest of a message in hexadecimal digits. -/
def hex (message : Array UInt8) : String :=
  let s := digest message
  String.ofList ([s.a, s.b, s.c, s.d, s.e, s.f, s.g, s.h].flatMap hexWord)

/-- The digest of a text in hexadecimal digits. -/
def hexOfText (s : String) : String := hex s.toUTF8.data

end YangPartition.Sha256
