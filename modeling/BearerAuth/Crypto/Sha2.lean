/-!
# Digests

The SHA-2 digests of 256, 384 and 512 bits.  A message is padded, cut into blocks of sixteen words
and folded block by block into a state of eight words; each block is worked through in rounds, with
a window over the sixteen latest words of its schedule.

* `Digest.hash` is the digest of a message.
-/

namespace BearerAuth.Crypto

/-- A SHA-2 digest. -/
inductive Digest where
  /-- 256 bits. -/
  | sha256
  /-- 384 bits. -/
  | sha384
  /-- 512 bits. -/
  | sha512
  deriving DecidableEq, Repr

namespace Digest

/-- The number of octets of a digest. -/
def size : Digest → Nat
  | sha256 => 32
  | sha384 => 48
  | sha512 => 64

/-- The number of bits of a word. -/
def width : Digest → Nat
  | sha256 => 32
  | sha384 | sha512 => 64

/-- The first 64 bits of the fractional parts of the cube roots of the first eighty primes. -/
def cubeRoots : List Nat :=
  [0x428a2f98d728ae22, 0x7137449123ef65cd, 0xb5c0fbcfec4d3b2f, 0xe9b5dba58189dbbc,
   0x3956c25bf348b538, 0x59f111f1b605d019, 0x923f82a4af194f9b, 0xab1c5ed5da6d8118,
   0xd807aa98a3030242, 0x12835b0145706fbe, 0x243185be4ee4b28c, 0x550c7dc3d5ffb4e2,
   0x72be5d74f27b896f, 0x80deb1fe3b1696b1, 0x9bdc06a725c71235, 0xc19bf174cf692694,
   0xe49b69c19ef14ad2, 0xefbe4786384f25e3, 0x0fc19dc68b8cd5b5, 0x240ca1cc77ac9c65,
   0x2de92c6f592b0275, 0x4a7484aa6ea6e483, 0x5cb0a9dcbd41fbd4, 0x76f988da831153b5,
   0x983e5152ee66dfab, 0xa831c66d2db43210, 0xb00327c898fb213f, 0xbf597fc7beef0ee4,
   0xc6e00bf33da88fc2, 0xd5a79147930aa725, 0x06ca6351e003826f, 0x142929670a0e6e70,
   0x27b70a8546d22ffc, 0x2e1b21385c26c926, 0x4d2c6dfc5ac42aed, 0x53380d139d95b3df,
   0x650a73548baf63de, 0x766a0abb3c77b2a8, 0x81c2c92e47edaee6, 0x92722c851482353b,
   0xa2bfe8a14cf10364, 0xa81a664bbc423001, 0xc24b8b70d0f89791, 0xc76c51a30654be30,
   0xd192e819d6ef5218, 0xd69906245565a910, 0xf40e35855771202a, 0x106aa07032bbd1b8,
   0x19a4c116b8d2d0c8, 0x1e376c085141ab53, 0x2748774cdf8eeb99, 0x34b0bcb5e19b48a8,
   0x391c0cb3c5c95a63, 0x4ed8aa4ae3418acb, 0x5b9cca4f7763e373, 0x682e6ff3d6b2b8a3,
   0x748f82ee5defb2fc, 0x78a5636f43172f60, 0x84c87814a1f0ab72, 0x8cc702081a6439ec,
   0x90befffa23631e28, 0xa4506cebde82bde9, 0xbef9a3f7b2c67915, 0xc67178f2e372532b,
   0xca273eceea26619c, 0xd186b8c721c0c207, 0xeada7dd6cde0eb1e, 0xf57d4f7fee6ed178,
   0x06f067aa72176fba, 0x0a637dc5a2c898a6, 0x113f9804bef90dae, 0x1b710b35131c471b,
   0x28db77f523047d84, 0x32caab7b40c72493, 0x3c9ebe0a15c9bebc, 0x431d67c49c100d4c,
   0x4cc5d4becb3e42b6, 0x597f299cfc657e2a, 0x5fcb6fab3ad6faec, 0x6c44198c4a475817]

/-- The first 64 bits of the fractional parts of the square roots of the first eight primes. -/
def squareRoots : List Nat :=
  [0x6a09e667f3bcc908, 0xbb67ae8584caa73b, 0x3c6ef372fe94f82b, 0xa54ff53a5f1d36f1,
   0x510e527fade682d1, 0x9b05688c2b3e6c1f, 0x1f83d9abfb41bd6b, 0x5be0cd19137e2179]

/-- The same of the next eight primes. -/
def nextSquareRoots : List Nat :=
  [0xcbbb9d5dc1059ed8, 0x629a292a367cd507, 0x9159015a3070dd17, 0x152fecd8f70e5939,
   0x67332667ffc00b31, 0x8eb44a8768581511, 0xdb0c2e0d64f98fa7, 0x47b5481dbefa4fa4]

/-- The constant added in each round. -/
def roundConstants : Digest → List Nat
  | sha256 => (cubeRoots.take 64).map (· >>> 32)
  | sha384 | sha512 => cubeRoots

/-- The words that the fold starts from. -/
def initial : Digest → List Nat
  | sha256 => squareRoots.map (· >>> 32)
  | sha384 => nextSquareRoots
  | sha512 => squareRoots

/-! ### Words -/

/-- Rotates a word of `w` bits to the right. -/
def rotate (w x n : Nat) : Nat := (x >>> n) ||| ((x <<< (w - n)) % Nat.pow 2 w)

/-- The amounts of the mixing functions of the rounds and of the schedule, three of each. -/
structure Amounts where
  /-- Rotations of the first word of the state. -/
  first : Nat × Nat × Nat
  /-- Rotations of the fifth word of the state. -/
  fifth : Nat × Nat × Nat
  /-- Two rotations and a shift of an earlier word of the schedule. -/
  early : Nat × Nat × Nat
  /-- Two rotations and a shift of a later word of the schedule. -/
  late : Nat × Nat × Nat

/-- The amounts of a digest. -/
def amounts : Digest → Amounts
  | sha256 => ⟨(2, 13, 22), (6, 11, 25), (7, 18, 3), (17, 19, 10)⟩
  | sha384 | sha512 => ⟨(28, 34, 39), (14, 18, 41), (1, 8, 7), (19, 61, 6)⟩

/-- Mixes a word with itself by three rotations. -/
def mix (w x : Nat) (by_ : Nat × Nat × Nat) : Nat :=
  rotate w x by_.1 ^^^ rotate w x by_.2.1 ^^^ rotate w x by_.2.2

/-- Mixes a word with itself by two rotations and a shift. -/
def mixShift (w x : Nat) (by_ : Nat × Nat × Nat) : Nat :=
  rotate w x by_.1 ^^^ rotate w x by_.2.1 ^^^ (x >>> by_.2.2)

/-! ### Rounds -/

/-- The word after a window of sixteen. -/
def nextWord (w : Nat) (m : Amounts) (window : List Nat) : Nat :=
  match window with
  | [w0, w1, _, _, _, _, _, _, _, w9, _, _, _, _, w14, _] =>
    (mixShift w w14 m.late + w9 + mixShift w w1 m.early + w0) % Nat.pow 2 w
  | _ => 0

/-- One round: the state after it. -/
def round (w : Nat) (m : Amounts) (k word : Nat) (state : List Nat) : List Nat :=
  match state with
  | [a, b, c, d, e, f, g, h] =>
    let choice := (e &&& f) ^^^ ((Nat.pow 2 w - 1 - e) &&& g)
    let majority := (a &&& b) ^^^ (a &&& c) ^^^ (b &&& c)
    let t := h + mix w e m.fifth + choice + k + word
    [(t + mix w a m.first + majority) % Nat.pow 2 w, a, b, c, (d + t) % Nat.pow 2 w, e, f, g]
  | _ => state

/-- The rounds of a block, one for each constant. -/
def rounds (w : Nat) (m : Amounts) : List Nat → List Nat → List Nat → List Nat
  | [], _, state => state
  | _, [], state => state
  | k :: ks, word :: window, state =>
    rounds w m ks (window ++ [nextWord w m (word :: window)]) (round w m k word state)

/-- Folds a block of sixteen words into the state. -/
def compress (d : Digest) (state block : List Nat) : List Nat :=
  List.zipWith (fun x y => (x + y) % Nat.pow 2 d.width) state
    (rounds d.width d.amounts d.roundConstants block state)

/-! ### Messages -/

/-- The number that octets write, the first one weighing most. -/
def ofOctets (bytes : List UInt8) : Nat := bytes.foldl (fun n b => n * 256 + b.toNat) 0

/-- A number in `n` octets, the first one weighing most. -/
def toOctets : Nat → Nat → List UInt8
  | 0, _ => []
  | n + 1, x => toOctets n (x / 256) ++ [UInt8.ofNat (x % 256)]

/-- A message with its padding: a one, zeros, and its length in bits in the last two words of a
block. -/
def pad (d : Digest) (message : List UInt8) : List UInt8 :=
  let word := d.width / 8
  let block := 16 * word
  let rest := (message.length + 1 + 2 * word) % block
  let zeros := if rest == 0 then 0 else block - rest
  message ++ 0x80 :: List.replicate zeros 0 ++ toOctets (2 * word) (8 * message.length)

/-- The first `n` runs of `size` octets, as numbers. -/
def chunks (size : Nat) : Nat → List UInt8 → List Nat
  | 0, _ => []
  | n + 1, bytes => ofOctets (bytes.take size) :: chunks size n (bytes.drop size)

/-- Folds the first `n` blocks of a padded message into the state. -/
def fold (d : Digest) : Nat → List UInt8 → List Nat → List Nat
  | 0, _, state => state
  | n + 1, bytes, state =>
    fold d n (bytes.drop (2 * d.width)) (compress d state (chunks (d.width / 8) 16 bytes))

/-- The digest of a message. -/
def hash (d : Digest) (message : List UInt8) : List UInt8 :=
  let padded := d.pad message
  let state := fold d (padded.length / (2 * d.width)) padded d.initial
  (state.flatMap (toOctets (d.width / 8))).take d.size

end Digest

end BearerAuth.Crypto
