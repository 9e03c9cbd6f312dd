import CompanyRegistry.Text.Bytes

/-!
# SHA-256

The digest of 32-bit words that signs tokens: eight chaining words, blocks of sixteen, 64 rounds.
-/

namespace CompanyRegistry.Sha256

/-- The chaining value: eight words. -/
structure State where
  a : UInt32
  b : UInt32
  c : UInt32
  d : UInt32
  e : UInt32
  f : UInt32
  g : UInt32
  h : UInt32
  deriving DecidableEq

/-- A message block: sixteen words. -/
structure Block where
  w0 : UInt32
  w1 : UInt32
  w2 : UInt32
  w3 : UInt32
  w4 : UInt32
  w5 : UInt32
  w6 : UInt32
  w7 : UInt32
  w8 : UInt32
  w9 : UInt32
  w10 : UInt32
  w11 : UInt32
  w12 : UInt32
  w13 : UInt32
  w14 : UInt32
  w15 : UInt32

/-- The chaining value before the first block. -/
def initial : State :=
  ⟨0x6a09e667, 0xbb67ae85, 0x3c6ef372, 0xa54ff53a,
   0x510e527f, 0x9b05688c, 0x1f83d9ab, 0x5be0cd19⟩

/-- The constants of the rounds. -/
def constants : List UInt32 :=
  [0x428a2f98, 0x71374491, 0xb5c0fbcf, 0xe9b5dba5,
   0x3956c25b, 0x59f111f1, 0x923f82a4, 0xab1c5ed5,
   0xd807aa98, 0x12835b01, 0x243185be, 0x550c7dc3,
   0x72be5d74, 0x80deb1fe, 0x9bdc06a7, 0xc19bf174,
   0xe49b69c1, 0xefbe4786, 0x0fc19dc6, 0x240ca1cc,
   0x2de92c6f, 0x4a7484aa, 0x5cb0a9dc, 0x76f988da,
   0x983e5152, 0xa831c66d, 0xb00327c8, 0xbf597fc7,
   0xc6e00bf3, 0xd5a79147, 0x06ca6351, 0x14292967,
   0x27b70a85, 0x2e1b2138, 0x4d2c6dfc, 0x53380d13,
   0x650a7354, 0x766a0abb, 0x81c2c92e, 0x92722c85,
   0xa2bfe8a1, 0xa81a664b, 0xc24b8b70, 0xc76c51a3,
   0xd192e819, 0xd6990624, 0xf40e3585, 0x106aa070,
   0x19a4c116, 0x1e376c08, 0x2748774c, 0x34b0bcb5,
   0x391c0cb3, 0x4ed8aa4a, 0x5b9cca4f, 0x682e6ff3,
   0x748f82ee, 0x78a5636f, 0x84c87814, 0x8cc70208,
   0x90befffa, 0xa4506ceb, 0xbef9a3f7, 0xc67178f2]

/-- Rotation to the right. -/
@[inline] def rotr (x n : UInt32) : UInt32 := (x >>> n) ||| (x <<< (32 - n))

/-- The rounds for the constants left, on eight working words and a window of sixteen words of the
message schedule. -/
def rounds : List UInt32 →
    (a b c d e f g h w0 w1 w2 w3 w4 w5 w6 w7 w8 w9 w10 w11 w12 w13 w14 w15 : UInt32) → State
  | [], a, b, c, d, e, f, g, h, _, _, _, _, _, _, _, _, _, _, _, _, _, _, _, _ =>
    ⟨a, b, c, d, e, f, g, h⟩
  | k :: ks, a, b, c, d, e, f, g, h, w0, w1, w2, w3, w4, w5, w6, w7, w8, w9, w10, w11, w12, w13, w14, w15 =>
    let t₁ := h + (rotr e 6 ^^^ rotr e 11 ^^^ rotr e 25) + ((e &&& f) ^^^ (~~~e &&& g)) + k + w0
    let t₂ := (rotr a 2 ^^^ rotr a 13 ^^^ rotr a 22) + ((a &&& b) ^^^ (a &&& c) ^^^ (b &&& c))
    let w16 := (rotr w14 17 ^^^ rotr w14 19 ^^^ (w14 >>> 10)) + w9 +
      (rotr w1 7 ^^^ rotr w1 18 ^^^ (w1 >>> 3)) + w0
    rounds ks (t₁ + t₂) a b c (d + t₁) e f g w1 w2 w3 w4 w5 w6 w7 w8 w9 w10 w11 w12 w13 w14 w15 w16

/-- The chaining value after one more block. -/
def compress (s : State) (m : Block) : State :=
  let r := rounds constants s.a s.b s.c s.d s.e s.f s.g s.h
    m.w0 m.w1 m.w2 m.w3 m.w4 m.w5 m.w6 m.w7
    m.w8 m.w9 m.w10 m.w11 m.w12 m.w13 m.w14 m.w15
  ⟨s.a + r.a, s.b + r.b, s.c + r.c, s.d + r.d, s.e + r.e, s.f + r.f, s.g + r.g, s.h + r.h⟩

/-- The number of octets of a block. -/
def blockSize : Nat := 64

/-- The word of a list of octets, the most significant first. -/
def word (b : Bytes) : UInt32 := UInt32.ofNat (Bytes.bigEndian b)

/-- The block that 64 octets make. -/
def blockOf (b : Bytes) : Block :=
  let w (i : Nat) := word ((b.drop (4 * i)).take 4)
  ⟨w 0, w 1, w 2, w 3, w 4, w 5, w 6, w 7,
   w 8, w 9, w 10, w 11, w 12, w 13, w 14, w 15⟩

/-- The chaining value after the whole blocks of a text; the first argument bounds their number. -/
def absorb : Nat → State → Bytes → State
  | 0, s, _ => s
  | n + 1, s, b =>
    if b.length < blockSize then s
    else absorb n (compress s (blockOf (b.take blockSize))) (b.drop blockSize)

/-- What completes a message of so many octets to whole blocks: one bit, zeros, its length in bits. -/
def padding (length : Nat) : Bytes :=
  let zeros := (128 - 8 - 1 - length % 64) % 64
  0x80 :: List.replicate zeros 0 ++ Bytes.ofNatBE 8 (length * 8)

/-- The chaining value after the rest of a message, of which `before` octets were taken already. -/
def finish (s : State) (before : Nat) (rest : Bytes) : State :=
  let b := rest ++ padding (before + rest.length)
  absorb (b.length / blockSize) s b

/-- The octets of a chaining value. -/
def State.octets (s : State) : Bytes :=
  [s.a, s.b, s.c, s.d, s.e, s.f, s.g, s.h].flatMap fun x => Bytes.ofNatBE 4 x.toNat

/-- The digest of a message. -/
def digest (b : Bytes) : Bytes := (finish initial 0 b).octets

/-- A key as a block: a long one by its digest, zeros behind it. -/
def keyBlock (key : Bytes) : Bytes :=
  let k := if key.length > blockSize then digest key else key
  k ++ List.replicate (blockSize - k.length) 0

/-- The keyed digest (HMAC) of a message. -/
def mac (key message : Bytes) : Bytes :=
  let k := keyBlock key
  digest (k.map (· ^^^ 0x5C) ++ digest (k.map (· ^^^ 0x36) ++ message))

end CompanyRegistry.Sha256
