/-!
# SHA-2

The digests SHA-256, SHA-384 and SHA-512. They run one algorithm on words of 32 or 64 bits and
differ in their constants, which are the first bits of the fractions of roots of prime numbers.
-/

namespace AuthCore.Digest.Sha2

/-- The first 64 bits of the fractions of the cube roots of the first 80 primes. -/
def cubeRoots : List Nat :=
  [0x428a2f98d728ae22, 0x7137449123ef65cd, 0xb5c0fbcfec4d3b2f, 0xe9b5dba58189dbbc,
   0x3956c25bf348b538, 0x59f111f1b605d019, 0x923f82a4af194f9b, 0xab1c5ed5da6d8118,
   0xd807aa98a3030242, 0x12835b0145706fbe, 0x243185be4ee4b28c, 0x550c7dc3d5ffb4e2,
   0x72be5d74f27b896f, 0x80deb1fe3b1696b1, 0x9bdc06a725c71235, 0xc19bf174cf692694,
   0xe49b69c19ef14ad2, 0xefbe4786384f25e3, 0x0fc19dc68b8cd5b5, 0x240ca1cc77ac9c65,
   0x2de92c6f592b0275, 0x4a7484aa6ea6e483, 0x5cb0a9dcbd41fbd4, 0x76f988da831153b5,
   0x983e5152ee66dfab, 0xa831c66d2db43210, 0xb00327c898fb213f, 0xbf597fc7beef0ee4,
   0xc6e00bf33da88fc2, 0xd5a79147930aa725, 0x06ca6351e003826f, 0x142929670a0e6e70,
   0x27b70a8546d22ffc, 0x2e1b21385c26c926, 0x4d2c6dfc5ac42aed, 0x53380d139d95b3df,
   0x650a73548baf63de, 0x766a0abb3c77b2a8, 0x81c2c92e47edaee6, 0x92722c851482353b,
   0xa2bfe8a14cf10364, 0xa81a664bbc423001, 0xc24b8b70d0f89791, 0xc76c51a30654be30,
   0xd192e819d6ef5218, 0xd69906245565a910, 0xf40e35855771202a, 0x106aa07032bbd1b8,
   0x19a4c116b8d2d0c8, 0x1e376c085141ab53, 0x2748774cdf8eeb99, 0x34b0bcb5e19b48a8,
   0x391c0cb3c5c95a63, 0x4ed8aa4ae3418acb, 0x5b9cca4f7763e373, 0x682e6ff3d6b2b8a3,
   0x748f82ee5defb2fc, 0x78a5636f43172f60, 0x84c87814a1f0ab72, 0x8cc702081a6439ec,
   0x90befffa23631e28, 0xa4506cebde82bde9, 0xbef9a3f7b2c67915, 0xc67178f2e372532b,
   0xca273eceea26619c, 0xd186b8c721c0c207, 0xeada7dd6cde0eb1e, 0xf57d4f7fee6ed178,
   0x06f067aa72176fba, 0x0a637dc5a2c898a6, 0x113f9804bef90dae, 0x1b710b35131c471b,
   0x28db77f523047d84, 0x32caab7b40c72493, 0x3c9ebe0a15c9bebc, 0x431d67c49c100d4c,
   0x4cc5d4becb3e42b6, 0x597f299cfc657e2a, 0x5fcb6fab3ad6faec, 0x6c44198c4a475817]

/-- The first 64 bits of the fractions of the square roots of the first 8 primes. -/
def squareRoots : List Nat :=
  [0x6a09e667f3bcc908, 0xbb67ae8584caa73b, 0x3c6ef372fe94f82b, 0xa54ff53a5f1d36f1,
   0x510e527fade682d1, 0x9b05688c2b3e6c1f, 0x1f83d9abfb41bd6b, 0x5be0cd19137e2179]

/-- The first 64 bits of the fractions of the square roots of the next 8 primes. -/
def laterSquareRoots : List Nat :=
  [0xcbbb9d5dc1059ed8, 0x629a292a367cd507, 0x9159015a3070dd17, 0x152fecd8f70e5939,
   0x67332667ffc00b31, 0x8eb44a8768581511, 0xdb0c2e0d64f98fa7, 0x47b5481dbefa4fa4]

/-- The eight words that the digest works on. -/
structure State (w : Nat) where
  /-- The first word. -/
  a : BitVec w
  /-- The second word. -/
  b : BitVec w
  /-- The third word. -/
  c : BitVec w
  /-- The fourth word. -/
  d : BitVec w
  /-- The fifth word. -/
  e : BitVec w
  /-- The sixth word. -/
  f : BitVec w
  /-- The seventh word. -/
  g : BitVec w
  /-- The eighth word. -/
  h : BitVec w

namespace State

/-- The words in order. -/
def words (s : State w) : List (BitVec w) := [s.a, s.b, s.c, s.d, s.e, s.f, s.g, s.h]

/-- The state made of the first eight words of a list; missing ones are zero. -/
def ofWords (ws : List (BitVec w)) : State w :=
  ⟨ws.getD 0 0, ws.getD 1 0, ws.getD 2 0, ws.getD 3 0, ws.getD 4 0, ws.getD 5 0, ws.getD 6 0,
    ws.getD 7 0⟩

/-- Word by word addition. -/
def add (s t : State w) : State w :=
  ⟨s.a + t.a, s.b + t.b, s.c + t.c, s.d + t.d, s.e + t.e, s.f + t.f, s.g + t.g, s.h + t.h⟩

end State

/-- What tells the members of the family apart. -/
structure Variant (w : Nat) where
  /-- The number of rounds. -/
  rounds : Nat
  /-- The rotations of the first sum of the state. -/
  sumA : Nat × Nat × Nat
  /-- The rotations of the second sum of the state. -/
  sumE : Nat × Nat × Nat
  /-- Two rotations and a shift that mix an old word of the schedule. -/
  mixOld : Nat × Nat × Nat
  /-- Two rotations and a shift that mix a new word of the schedule. -/
  mixNew : Nat × Nat × Nat
  /-- The state at the start. -/
  start : List Nat
  /-- The number of bytes of the digest that are kept. -/
  size : Nat

variable {w : Nat}

/-- The first `w` bits of a constant of 64 bits. -/
def constant (w n : Nat) : BitVec w := BitVec.ofNat w (n >>> (64 - w))

/-- The exclusive or of three rotations. -/
def sum (r : Nat × Nat × Nat) (x : BitVec w) : BitVec w :=
  x.rotateRight r.1 ^^^ x.rotateRight r.2.1 ^^^ x.rotateRight r.2.2

/-- The exclusive or of two rotations and a shift. -/
def mix (r : Nat × Nat × Nat) (x : BitVec w) : BitVec w :=
  x.rotateRight r.1 ^^^ x.rotateRight r.2.1 ^^^ (x >>> r.2.2)

/-- A big-endian number as bytes. -/
def bytesOf (count n : Nat) : List UInt8 :=
  (List.range count).map fun i => UInt8.ofNat (n >>> (8 * (count - 1 - i)))

/-- The number that big-endian bytes write. -/
def number (bytes : List UInt8) : Nat := bytes.foldl (fun n b => n * 256 + b.toNat) 0

/-- Cuts a list into pieces of `n`; what is left over at the end is dropped. -/
def chunks (n : Nat) : Nat → List α → List (List α)
  | 0, _ => []
  | count + 1, xs => xs.take n :: chunks n count (xs.drop n)

/-- The message with a one bit, zeros, and its length in bits, a multiple of the block. -/
def pad (w : Nat) (message : List UInt8) : List UInt8 :=
  let block := 2 * w
  let field := w / 4
  let used := message.length + 1 + field
  let zeros := (block - used % block) % block
  message ++ 0x80 :: (List.replicate zeros 0 ++ bytesOf field (8 * message.length))

/-- Adds `n` words to a schedule that is held newest first. -/
def extend (v : Variant w) : Nat → List (BitVec w) → List (BitVec w)
  | 0, ws => ws
  | n + 1, ws =>
    let next := mix v.mixNew (ws.getD 1 0) + ws.getD 6 0 + mix v.mixOld (ws.getD 14 0)
      + ws.getD 15 0
    extend v n (next :: ws)

/-- One word for every round. -/
def schedule (v : Variant w) (block : List UInt8) : List (BitVec w) :=
  let first := (chunks (w / 8) 16 block).map fun bytes => BitVec.ofNat w (number bytes)
  (extend v (v.rounds - 16) first.reverse).reverse

/-- One round. -/
def round (v : Variant w) (s : State w) (k word : BitVec w) : State w :=
  let choice := (s.e &&& s.f) ^^^ (~~~s.e &&& s.g)
  let majority := (s.a &&& s.b) ^^^ (s.a &&& s.c) ^^^ (s.b &&& s.c)
  let t := s.h + sum v.sumE s.e + choice + k + word
  ⟨t + sum v.sumA s.a + majority, s.a, s.b, s.c, s.d + t, s.e, s.f, s.g⟩

/-- Takes a block into the state. -/
def compress (v : Variant w) (s : State w) (block : List UInt8) : State w :=
  let keyed := cubeRoots.zip (schedule v block)
  s.add (keyed.foldl (fun s (k, word) => round v s (constant w k) word) s)

/-- The digest of a message. -/
def digest (v : Variant w) (message : List UInt8) : List UInt8 :=
  let padded := pad w message
  let start := State.ofWords (v.start.map (constant w))
  let last := (chunks (2 * w) (padded.length / (2 * w)) padded).foldl (compress v) start
  (last.words.flatMap fun x => bytesOf (w / 8) x.toNat).take v.size

/-- SHA-256. -/
def sha256 : Variant 32 where
  rounds := 64
  sumA := (2, 13, 22)
  sumE := (6, 11, 25)
  mixOld := (7, 18, 3)
  mixNew := (17, 19, 10)
  start := squareRoots
  size := 32

/-- SHA-512. -/
def sha512 : Variant 64 where
  rounds := 80
  sumA := (28, 34, 39)
  sumE := (14, 18, 41)
  mixOld := (1, 8, 7)
  mixNew := (19, 61, 6)
  start := squareRoots
  size := 64

/-- SHA-384: SHA-512 from another start, cut to 48 bytes. -/
def sha384 : Variant 64 := { sha512 with start := laterSquareRoots, size := 48 }

end AuthCore.Digest.Sha2
