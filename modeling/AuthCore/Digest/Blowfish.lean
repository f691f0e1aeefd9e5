import AuthCore.Power

/-!
# The Blowfish cipher with an expensive key

The block cipher Blowfish, whose tables start as the binary digits of π and are then replaced by its
own output, again and again, so that setting up a key takes as long as one wants.
-/

namespace AuthCore.Digest.Blowfish

/-! ### The digits of π -/

/-- The sum of the series of the inverse tangent of `1 / x`, times a scale; `power` is the scale
over the next power of `x`, and `k` the next odd number. -/
def arctan (x : Nat) : Nat → Nat → Nat → Int → Int → Int
  | 0, _, _, _, total => total
  | fuel + 1, power, k, sign, total =>
    if power = 0 then total
    else arctan x fuel (power / (x * x)) (k + 2) (-sign) (total + sign * (power / k : Nat))

/-- The number of bits in the tables. -/
def tableBits : Nat := 32 * (18 + 4 * 256)

/-- The fraction of π as a number of `tableBits` bits, from
π / 4 = 4 arctan (1 / 5) - arctan (1 / 239). -/
def piFraction : Nat :=
  let scale := 2 ^ (tableBits + 64)
  let fuel := tableBits
  let a := arctan 5 fuel (scale / 5) 1 1 0
  let b := arctan 239 fuel (scale / 239) 1 1 0
  (4 * (4 * a - b)).toNat / 2 ^ 64 % 2 ^ tableBits

/-- Words of the fraction of π, from the word at `first` on. -/
def piWords (first count : Nat) : Array UInt32 :=
  (Array.range count).map fun i =>
    UInt32.ofNat (piFraction >>> (tableBits - 32 * (first + i + 1)))

/-! ### The cipher -/

/-- The tables of the cipher. -/
structure Tables where
  /-- The 18 words mixed into the halves of a block. -/
  keys : Array UInt32
  /-- Four boxes of 256 words each. -/
  boxes : Array UInt32

/-- The tables at the start. -/
def Tables.initial : Tables := ⟨piWords 0 18, piWords 18 1024⟩

/-- The round function. -/
@[inline] def mixing (boxes : Array UInt32) (x : UInt32) : UInt32 :=
  let a := boxes.getD (x >>> 24).toNat 0
  let b := boxes.getD (256 + ((x >>> 16) &&& 255).toNat) 0
  let c := boxes.getD (512 + ((x >>> 8) &&& 255).toNat) 0
  let d := boxes.getD (768 + (x &&& 255).toNat) 0
  ((a + b) ^^^ c) + d

/-- The last `n` of sixteen rounds, and the words mixed in at the end. -/
def rounds (keys boxes : Array UInt32) : Nat → UInt32 → UInt32 → UInt32 × UInt32
  | 0, l, r => (r ^^^ keys.getD 17 0, l ^^^ keys.getD 16 0)
  | n + 1, l, r =>
    let l := l ^^^ keys.getD (16 - (n + 1)) 0
    rounds keys boxes n (r ^^^ mixing boxes l) l

/-- Enciphers a block. -/
@[inline] def encipher (keys boxes : Array UInt32) (l r : UInt32) : UInt32 × UInt32 :=
  rounds keys boxes 16 l r

/-! ### Setting up a key -/

/-- The word that starts at byte `i` of bytes repeated without end. -/
def cyclicWord (bytes : Array UInt8) (i : Nat) : UInt32 :=
  let byte := fun k => (bytes.getD ((i + k) % bytes.size) 0).toUInt32
  (byte 0 <<< 24) ||| (byte 1 <<< 16) ||| (byte 2 <<< 8) ||| byte 3

/-- The first 18 words of bytes repeated without end. -/
def keyWords (bytes : Array UInt8) : Array UInt32 :=
  (Array.range 18).map fun i => cyclicWord bytes (4 * i)

/-- Replaces the last `n` pairs of the nine pairs of key words by output of the cipher. -/
def fillKeys (salt boxes : Array UInt32) :
    Nat → Array UInt32 → UInt32 → UInt32 → Array UInt32 × UInt32 × UInt32
  | 0, keys, l, r => (keys, l, r)
  | n + 1, keys, l, r =>
    let i := 9 - (n + 1)
    let (l, r) := encipher keys boxes
      (l ^^^ salt.getD (2 * i % 4) 0) (r ^^^ salt.getD ((2 * i + 1) % 4) 0)
    fillKeys salt boxes n ((keys.setIfInBounds (2 * i) l).setIfInBounds (2 * i + 1) r) l r

/-- Replaces the last `n` pairs of the 512 pairs of the boxes by output of the cipher. -/
def fillBoxes (salt keys : Array UInt32) :
    Nat → Array UInt32 → UInt32 → UInt32 → Array UInt32
  | 0, boxes, _, _ => boxes
  | n + 1, boxes, l, r =>
    let i := 512 - (n + 1)
    let (l, r) := encipher keys boxes
      (l ^^^ salt.getD ((2 * i + 2) % 4) 0) (r ^^^ salt.getD ((2 * i + 3) % 4) 0)
    fillBoxes salt keys n ((boxes.setIfInBounds (2 * i) l).setIfInBounds (2 * i + 1) r) l r

/-- Mixes 18 words of a key and four words of a salt into the tables. -/
def expand (salt words : Array UInt32) (t : Tables) : Tables :=
  let keys := t.keys.zipWith (· ^^^ ·) words
  let (keys, l, r) := fillKeys salt t.boxes 9 keys 0 0
  ⟨keys, fillBoxes salt keys 512 t.boxes l r⟩

/-- Mixes key and salt in turn, `n` times each. -/
def stretch (key salt : Array UInt32) : Nat → Tables → Tables
  | 0, t => t
  | n + 1, t => stretch key salt n (expand #[] salt (expand #[] key t))

/-- The tables for a key and a salt after `2 ^ cost` repetitions. -/
def setup (cost : Nat) (salt key : Array UInt8) : Tables :=
  let words := keyWords key
  let salted := keyWords salt
  stretch words salted (2 ^ cost) (expand (salted.extract 0 4) words .initial)

/-- Enciphers a block `n` times. -/
def encipherTimes (t : Tables) : Nat → UInt32 → UInt32 → UInt32 × UInt32
  | 0, l, r => (l, r)
  | n + 1, l, r =>
    let (l, r) := encipher t.keys t.boxes l r
    encipherTimes t n l r

end AuthCore.Digest.Blowfish
