import CompanyRegistry.Text.Bytes

/-!
# SHA-512, its keyed form and PBKDF2

The digest of 64-bit words behind stored passwords: eight chaining words, blocks of sixteen, 80 rounds.
A key is absorbed once, into the two chaining values that its inner and outer padded blocks give; each
further application of the key costs two blocks.
-/

namespace CompanyRegistry.Sha512

/-- The chaining value: eight words. -/
structure State where
  a : UInt64
  b : UInt64
  c : UInt64
  d : UInt64
  e : UInt64
  f : UInt64
  g : UInt64
  h : UInt64
  deriving DecidableEq

/-- A message block: sixteen words. -/
structure Block where
  w0 : UInt64
  w1 : UInt64
  w2 : UInt64
  w3 : UInt64
  w4 : UInt64
  w5 : UInt64
  w6 : UInt64
  w7 : UInt64
  w8 : UInt64
  w9 : UInt64
  w10 : UInt64
  w11 : UInt64
  w12 : UInt64
  w13 : UInt64
  w14 : UInt64
  w15 : UInt64

/-- The chaining value before the first block. -/
def initial : State :=
  ⟨0x6a09e667f3bcc908, 0xbb67ae8584caa73b, 0x3c6ef372fe94f82b, 0xa54ff53a5f1d36f1,
   0x510e527fade682d1, 0x9b05688c2b3e6c1f, 0x1f83d9abfb41bd6b, 0x5be0cd19137e2179⟩

/-- The constants of the rounds. -/
def constants : List UInt64 :=
  [0x428a2f98d728ae22, 0x7137449123ef65cd, 0xb5c0fbcfec4d3b2f, 0xe9b5dba58189dbbc,
   0x3956c25bf348b538, 0x59f111f1b605d019, 0x923f82a4af194f9b, 0xab1c5ed5da6d8118,
   0xd807aa98a3030242, 0x12835b0145706fbe, 0x243185be4ee4b28c, 0x550c7dc3d5ffb4e2,
   0x72be5d74f27b896f, 0x80deb1fe3b1696b1, 0x9bdc06a725c71235, 0xc19bf174cf692694,
   0xe49b69c19ef14ad2, 0xefbe4786384f25e3, 0x0fc19dc68b8cd5b5, 0x240ca1cc77ac9c65,
   0x2de92c6f592b0275, 0x4a7484aa6ea6e483, 0x5cb0a9dcbd41fbd4, 0x76f988da831153b5,
   0x983e5152ee66dfab, 0xa831c66d2db43210, 0xb00327c898fb213f, 0xbf597fc7beef0ee4,
   0xc6e00bf33da88fc2, 0xd5a79147930aa725, 0x06ca6351e003826f, 0x142929670a0e6e70,
   0x27b70a8546d22ffc, 0x2e1b21385c26c926, 0x4d2c6dfc5ac42aed, 0x53380d139d95b3df,
   0x650a73548baf63de, 0x766a0abb3c77b2a8, 0x81c2c92e47edaee6, 0x92722c851482353b,
   0xa2bfe8a14cf10364, 0xa81a664bbc423001, 0xc24b8b70d0f89791, 0xc76c51a30654be30,
   0xd192e819d6ef5218, 0xd69906245565a910, 0xf40e35855771202a, 0x106aa07032bbd1b8,
   0x19a4c116b8d2d0c8, 0x1e376c085141ab53, 0x2748774cdf8eeb99, 0x34b0bcb5e19b48a8,
   0x391c0cb3c5c95a63, 0x4ed8aa4ae3418acb, 0x5b9cca4f7763e373, 0x682e6ff3d6b2b8a3,
   0x748f82ee5defb2fc, 0x78a5636f43172f60, 0x84c87814a1f0ab72, 0x8cc702081a6439ec,
   0x90befffa23631e28, 0xa4506cebde82bde9, 0xbef9a3f7b2c67915, 0xc67178f2e372532b,
   0xca273eceea26619c, 0xd186b8c721c0c207, 0xeada7dd6cde0eb1e, 0xf57d4f7fee6ed178,
   0x06f067aa72176fba, 0x0a637dc5a2c898a6, 0x113f9804bef90dae, 0x1b710b35131c471b,
   0x28db77f523047d84, 0x32caab7b40c72493, 0x3c9ebe0a15c9bebc, 0x431d67c49c100d4c,
   0x4cc5d4becb3e42b6, 0x597f299cfc657e2a, 0x5fcb6fab3ad6faec, 0x6c44198c4a475817]

/-- Rotation to the right. -/
@[inline] def rotr (x n : UInt64) : UInt64 := (x >>> n) ||| (x <<< (64 - n))

/-- The rounds for the constants left, on eight working words and a window of sixteen words of the
message schedule. -/
def rounds : List UInt64 →
    (a b c d e f g h w0 w1 w2 w3 w4 w5 w6 w7 w8 w9 w10 w11 w12 w13 w14 w15 : UInt64) → State
  | [], a, b, c, d, e, f, g, h, _, _, _, _, _, _, _, _, _, _, _, _, _, _, _, _ =>
    ⟨a, b, c, d, e, f, g, h⟩
  | k :: ks, a, b, c, d, e, f, g, h, w0, w1, w2, w3, w4, w5, w6, w7, w8, w9, w10, w11, w12, w13, w14, w15 =>
    let t₁ := h + (rotr e 14 ^^^ rotr e 18 ^^^ rotr e 41) + ((e &&& f) ^^^ (~~~e &&& g)) + k + w0
    let t₂ := (rotr a 28 ^^^ rotr a 34 ^^^ rotr a 39) + ((a &&& b) ^^^ (a &&& c) ^^^ (b &&& c))
    let w16 := (rotr w14 19 ^^^ rotr w14 61 ^^^ (w14 >>> 6)) + w9 +
      (rotr w1 1 ^^^ rotr w1 8 ^^^ (w1 >>> 7)) + w0
    rounds ks (t₁ + t₂) a b c (d + t₁) e f g w1 w2 w3 w4 w5 w6 w7 w8 w9 w10 w11 w12 w13 w14 w15 w16

/-- The chaining value after one more block. -/
def compress (s : State) (m : Block) : State :=
  let r := rounds constants s.a s.b s.c s.d s.e s.f s.g s.h
    m.w0 m.w1 m.w2 m.w3 m.w4 m.w5 m.w6 m.w7
    m.w8 m.w9 m.w10 m.w11 m.w12 m.w13 m.w14 m.w15
  ⟨s.a + r.a, s.b + r.b, s.c + r.c, s.d + r.d, s.e + r.e, s.f + r.f, s.g + r.g, s.h + r.h⟩

/-- The number of octets of a block. -/
def blockSize : Nat := 128

/-- The word of a list of octets, the most significant first. -/
def word (b : Bytes) : UInt64 := UInt64.ofNat (Bytes.bigEndian b)

/-- The block that 128 octets make. -/
def blockOf (b : Bytes) : Block :=
  let w (i : Nat) := word ((b.drop (8 * i)).take 8)
  ⟨w 0, w 1, w 2, w 3, w 4, w 5, w 6, w 7,
   w 8, w 9, w 10, w 11, w 12, w 13, w 14, w 15⟩

/-- The chaining value after the whole blocks of a text; the first argument bounds their number. -/
def absorb : Nat → State → Bytes → State
  | 0, s, _ => s
  | n + 1, s, b =>
    if b.length < blockSize then s
    else absorb n (compress s (blockOf (b.take blockSize))) (b.drop blockSize)

/-- What completes a message of so many octets to whole blocks: one bit, zeros, its length in bits. -/
def padding (length : Nat) : Bytes :=
  let zeros := (256 - 16 - 1 - length % 128) % 128
  0x80 :: List.replicate zeros 0 ++ Bytes.ofNatBE 16 (length * 8)

/-- The chaining value after the rest of a message, of which `before` octets were taken already. -/
def finish (s : State) (before : Nat) (rest : Bytes) : State :=
  let b := rest ++ padding (before + rest.length)
  absorb (b.length / blockSize) s b

/-- The octets of a chaining value. -/
def State.octets (s : State) : Bytes :=
  [s.a, s.b, s.c, s.d, s.e, s.f, s.g, s.h].flatMap fun x => Bytes.ofNatBE 8 x.toNat

/-- The digest of a message. -/
def digest (b : Bytes) : Bytes := (finish initial 0 b).octets

/-- A key as a block: a long one by its digest, zeros behind it. -/
def keyBlock (key : Bytes) : Bytes :=
  let k := if key.length > blockSize then digest key else key
  k ++ List.replicate (blockSize - k.length) 0

/-- The chaining values after the inner and the outer block of a key. -/
structure Key where
  inner : State
  outer : State

/-- Absorbs a key. -/
def Key.of (key : Bytes) : Key :=
  let k := keyBlock key
  ⟨compress initial (blockOf (k.map (· ^^^ 0x36))), compress initial (blockOf (k.map (· ^^^ 0x5C)))⟩

/-- The last block of a message of one block and a digest. -/
def State.lastBlock (s : State) : Block :=
  ⟨s.a, s.b, s.c, s.d, s.e, s.f, s.g, s.h, 0x8000000000000000, 0, 0, 0, 0, 0, 0, 1536⟩

/-- The keyed digest (HMAC) of a message. -/
def Key.mac (k : Key) (message : Bytes) : State :=
  compress k.outer (finish k.inner blockSize message).lastBlock

/-- The keyed digest of a digest. -/
def Key.macState (k : Key) (s : State) : State :=
  compress k.outer (compress k.inner s.lastBlock).lastBlock

/-- Bitwise difference, word by word. -/
def State.xor (s t : State) : State :=
  ⟨s.a ^^^ t.a, s.b ^^^ t.b, s.c ^^^ t.c, s.d ^^^ t.d, s.e ^^^ t.e, s.f ^^^ t.f, s.g ^^^ t.g, s.h ^^^ t.h⟩

/-- Applies the key over and over, gathering the difference of all results. -/
def Key.iterate (k : Key) : Nat → State → State → State
  | 0, _, gathered => gathered
  | n + 1, last, gathered =>
    let next := k.macState last
    iterate k n next (gathered.xor next)

/-- The 64 octets that PBKDF2 derives from a password, a salt and a number of iterations. -/
def derive (password salt : Bytes) (iterations : Nat) : Bytes :=
  let k := Key.of password
  let first := k.mac (salt ++ [0, 0, 0, 1])
  (k.iterate (iterations - 1) first first).octets

end CompanyRegistry.Sha512
