import StorageOrchestrator.Lib.Hex

/-!
# SHA-256

The hash function over lists of bytes: padding, the message schedule, the
sixty-four rounds of a block, and the digest.
-/

namespace StorageOrchestrator.Lib.Sha256

open Lib.Hex

abbrev Word := BitVec 32

def roundConstants : List Word :=
  [0x428a2f98, 0x71374491, 0xb5c0fbcf, 0xe9b5dba5, 0x3956c25b, 0x59f111f1,
    0x923f82a4, 0xab1c5ed5, 0xd807aa98, 0x12835b01, 0x243185be, 0x550c7dc3,
    0x72be5d74, 0x80deb1fe, 0x9bdc06a7, 0xc19bf174, 0xe49b69c1, 0xefbe4786,
    0x0fc19dc6, 0x240ca1cc, 0x2de92c6f, 0x4a7484aa, 0x5cb0a9dc, 0x76f988da,
    0x983e5152, 0xa831c66d, 0xb00327c8, 0xbf597fc7, 0xc6e00bf3, 0xd5a79147,
    0x06ca6351, 0x14292967, 0x27b70a85, 0x2e1b2138, 0x4d2c6dfc, 0x53380d13,
    0x650a7354, 0x766a0abb, 0x81c2c92e, 0x92722c85, 0xa2bfe8a1, 0xa81a664b,
    0xc24b8b70, 0xc76c51a3, 0xd192e819, 0xd6990624, 0xf40e3585, 0x106aa070,
    0x19a4c116, 0x1e376c08, 0x2748774c, 0x34b0bcb5, 0x391c0cb3, 0x4ed8aa4a,
    0x5b9cca4f, 0x682e6ff3, 0x748f82ee, 0x78a5636f, 0x84c87814, 0x8cc70208,
    0x90befffa, 0xa4506ceb, 0xbef9a3f7, 0xc67178f2]

/-- The eight words that chain the blocks. -/
structure Chaining where
  a : Word
  b : Word
  c : Word
  d : Word
  e : Word
  f : Word
  g : Word
  h : Word

def initial : Chaining where
  a := 0x6a09e667
  b := 0xbb67ae85
  c := 0x3c6ef372
  d := 0xa54ff53a
  e := 0x510e527f
  f := 0x9b05688c
  g := 0x1f83d9ab
  h := 0x5be0cd19

/-! ## The message -/

/-- The big-endian bytes of a number. -/
def bigEndian (size value : Nat) : List Byte :=
  (List.range size).reverse.map fun place =>
    ⟨value / 256 ^ place % 256, Nat.mod_lt _ (by decide)⟩

/-- The message with its delimiter, zeros up to a whole block, and length. -/
def padded (message : List Byte) : List Byte :=
  message ++ [0x80] ++
    List.replicate ((119 - message.length % 64) % 64) 0 ++
    bigEndian 8 (message.length * 8)

/-- Big-endian words. -/
def words : List Byte → List Word
  | first :: second :: third :: fourth :: rest =>
    BitVec.ofNat 32 (((first * 256 + second) * 256 + third) * 256 + fourth : Nat) :: words rest
  | _ => []

/-! ## A block -/

def smallSigma0 (word : Word) : Word := word.rotateRight 7 ^^^ word.rotateRight 18 ^^^ (word >>> 3)

def smallSigma1 (word : Word) : Word :=
  word.rotateRight 17 ^^^ word.rotateRight 19 ^^^ (word >>> 10)

def bigSigma0 (word : Word) : Word :=
  word.rotateRight 2 ^^^ word.rotateRight 13 ^^^ word.rotateRight 22

def bigSigma1 (word : Word) : Word :=
  word.rotateRight 6 ^^^ word.rotateRight 11 ^^^ word.rotateRight 25

/-- Extend a schedule whose latest word comes first. -/
def extend : Nat → List Word → List Word
  | 0, schedule => schedule
  | count + 1, schedule =>
    extend count ((smallSigma1 (schedule.getD 1 0) + schedule.getD 6 0 +
        smallSigma0 (schedule.getD 14 0) + schedule.getD 15 0) :: schedule)

/-- The sixty-four words of a block. -/
def schedule (block : List Word) : List Word := (extend 48 block.reverse).reverse

def round (state : Chaining) (constant word : Word) : Chaining :=
  let choice := (state.e &&& state.f) ^^^ (~~~state.e &&& state.g)
  let majority := (state.a &&& state.b) ^^^ (state.a &&& state.c) ^^^ (state.b &&& state.c)
  let first := state.h + bigSigma1 state.e + choice + constant + word
  let second := bigSigma0 state.a + majority
  { a := first + second
    b := state.a
    c := state.b
    d := state.c
    e := state.d + first
    f := state.e
    g := state.f
    h := state.g }

/-- All rounds over a block, added to the chaining words. -/
def compress (state : Chaining) (block : List Word) : Chaining :=
  let mixed := (roundConstants.zip (schedule block)).foldl
    (fun state pair => round state pair.1 pair.2) state
  { a := state.a + mixed.a
    b := state.b + mixed.b
    c := state.c + mixed.c
    d := state.d + mixed.d
    e := state.e + mixed.e
    f := state.f + mixed.f
    g := state.g + mixed.g
    h := state.h + mixed.h }

/-- The given number of blocks of sixteen words each. -/
def compressAll : Nat → Chaining → List Word → Chaining
  | 0, state, _ => state
  | count + 1, state, message =>
    compressAll count (compress state (message.take 16)) (message.drop 16)

def Chaining.bytes (state : Chaining) : List Byte :=
  [state.a, state.b, state.c, state.d, state.e, state.f, state.g,
    state.h].flatMap fun word => bigEndian 4 word.toNat

def sha256 (message : List Byte) : List Byte :=
  let message := words (padded message)
  (compressAll (message.length / 16) initial message).bytes

theorem length_sha256 (msg : List Byte) : (sha256 msg).length = 32 :=
  rfl

/-- The digest of the empty message. -/
example : String.ofList (encode (sha256 [])) =
    "e3b0c44298fc1c149afbf4c8996fb92427ae41e4649b934ca495991b7852b855" := by
  decide +kernel

end StorageOrchestrator.Lib.Sha256
