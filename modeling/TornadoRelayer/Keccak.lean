import TornadoRelayer.Bytes

/-! Keccak-256 with the original `0x01` padding, as the EVM and its client
libraries compute it. The 1600-bit state is one natural number whose lane
`x + 5 * y` occupies bits `64 * (x + 5 * y)` upwards. -/
namespace Keccak

open BigEndian

def lane (state i : Nat) : Nat := (state >>> (64 * i)) % 2 ^ 64

def assemble (f : Nat → Nat) : Nat → Nat
  | 0 => 0
  | n + 1 => assemble f n ||| (f n <<< (64 * n))

def rotate (n x : Nat) : Nat := ((x <<< n) ||| (x >>> (64 - n))) % 2 ^ 64

def rotations : List Nat :=
  [0, 1, 62, 28, 27, 36, 44, 6, 55, 20, 3, 10, 43, 25, 39, 41, 45, 15, 21, 8, 18, 2, 61, 56, 14]

def roundConstants : List Nat := [
  0x0000000000000001, 0x0000000000008082, 0x800000000000808a, 0x8000000080008000,
  0x000000000000808b, 0x0000000080000001, 0x8000000080008081, 0x8000000000008009,
  0x000000000000008a, 0x0000000000000088, 0x0000000080008009, 0x000000008000000a,
  0x000000008000808b, 0x800000000000008b, 0x8000000000008089, 0x8000000000008003,
  0x8000000000008002, 0x8000000000000080, 0x000000000000800a, 0x800000008000000a,
  0x8000000080008081, 0x8000000000008080, 0x0000000080000001, 0x8000000080008008]

def column (state x : Nat) : Nat :=
  lane state x ^^^ lane state (x + 5) ^^^ lane state (x + 10) ^^^ lane state (x + 15) ^^^
    lane state (x + 20)

def theta (state : Nat) : Nat :=
  let columns := assemble (column state) 5
  assemble (fun i =>
    lane state i ^^^ lane columns ((i + 4) % 5) ^^^ rotate 1 (lane columns ((i + 1) % 5))) 25

/-- Target lane `(x, y)` receives source lane `(x + 3 * y, x)`, rotated. -/
def rhoPi (state : Nat) : Nat :=
  assemble (fun i =>
    let source := (i % 5 + 3 * (i / 5)) % 5 + 5 * (i % 5)
    rotate (rotations.getD source 0) (lane state source)) 25

def chi (state : Nat) : Nat :=
  assemble (fun i =>
    let row := 5 * (i / 5)
    lane state i ^^^
      ((lane state (row + (i + 1) % 5) ^^^ (2 ^ 64 - 1)) &&& lane state (row + (i + 2) % 5))) 25

def permute (state : Nat) : Nat :=
  roundConstants.foldl (fun state constant => chi (rhoPi (theta state)) ^^^ constant) state

def littleEndian : Bytes → Nat
  | [] => 0
  | b :: bs => b.toNat + 256 * littleEndian bs

/-- Multi-rate padding to whole blocks of 136 bytes. -/
def pad (message : Bytes) : Bytes :=
  let free := 135 - message.length % 136
  if free = 0 then message ++ [0x81]
  else message ++ 0x01 :: List.replicate (free - 1) 0 ++ [0x80]

def absorb : Nat → Bytes → Nat → Nat
  | 0, _, state => state
  | n + 1, bytes, state =>
    absorb n (bytes.drop 136) (permute (state ^^^ littleEndian (bytes.take 136)))

def squeeze : Nat → Nat → Bytes
  | 0, _ => []
  | n + 1, state => UInt8.ofNat state :: squeeze n (state / 256)

@[irreducible] def keccak256 (message : Bytes) : Word 32 :=
  Word.ofBytes 32 (squeeze 32 (absorb (message.length / 136 + 1) (pad message) 0))

set_option maxRecDepth 20000 in
example : keccak256 [] =
    0xc5d2460186f7233c927e7db2dcc703c0e500b653ca82273b7bfad8045d85a470#256 := by
  decide +kernel

/-- No two of the listed strings share a digest: the standing assumption about
the hash, stated for the finitely many strings an argument hashes. -/
def CollisionFree (strings : List Bytes) : Prop :=
  ∀ a ∈ strings, ∀ b ∈ strings, keccak256 a = keccak256 b → a = b

instance (strings : List Bytes) : Decidable (CollisionFree strings) :=
  inferInstanceAs (Decidable (∀ a ∈ strings, ∀ b ∈ strings, _ → _))

theorem CollisionFree.subset {few many : List Bytes} (free : CollisionFree many)
    (sub : ∀ a ∈ few, a ∈ many) : CollisionFree few :=
  fun a ha b hb same => free a (sub a ha) b (sub b hb) same

/-- What a sound hash shows on the listed strings: no collision, no zero digest. -/
structure Sound (strings : List Bytes) : Prop where
  collisionFree : CollisionFree strings
  nonzero : ∀ a ∈ strings, keccak256 a ≠ 0

end Keccak
