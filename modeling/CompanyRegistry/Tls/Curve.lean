/-!
# Curves of keys

The points of a curve `y² = x³ - 3x + b` over a prime field, with a generator of prime order, and the
points of the twisted Edwards curve `-x² + y² = 1 + d·x²·y²`. A key pair is a number and its multiple
of the generator. Coordinates are residues; quotients are taken by Fermat's little theorem.
-/

namespace CompanyRegistry.Tls

/-- A power modulo a number, by squaring. -/
def powMod (m b e : Nat) : Nat :=
  if h : e = 0 then 1 % m
  else
    let half := powMod m (b * b % m) (e / 2)
    if e % 2 = 1 then half * b % m else half
termination_by e
decreasing_by omega

/-- The inverse of a residue that is not zero, modulo a prime. -/
def inverse (prime n : Nat) : Nat := powMod prime n (prime - 2)

/-- The difference of two residues. -/
def subMod (m a b : Nat) : Nat := (a + (m - b % m)) % m

/-- A curve `y² = x³ - 3x + b` and a generator of its points. `width` is the number of octets of a
coordinate. -/
structure Curve where
  width : Nat
  prime : Nat
  order : Nat
  x : Nat
  y : Nat
  deriving DecidableEq

/-- A point by its coordinates, or the neutral one. -/
abbrev Point := Option (Nat × Nat)

namespace Curve

/-- The curve named P-256. -/
def p256 : Curve :=
  { width := 32
    prime := 0xffffffff00000001000000000000000000000000ffffffffffffffffffffffff
    order := 0xffffffff00000000ffffffffffffffffbce6faada7179e84f3b9cac2fc632551
    x := 0x6b17d1f2e12c4247f8bce6e563a440f277037d812deb33a0f4a13945d898c296
    y := 0x4fe342e2fe1a7f9b8ee7eb4a7c0f9e162bce33576b315ececbb6406837bf51f5 }

/-- The curve named P-384. -/
def p384 : Curve :=
  { width := 48
    prime := Nat.pow 2 384 - Nat.pow 2 128 - Nat.pow 2 96 + Nat.pow 2 32 - 1
    order := 0xffffffffffffffffffffffffffffffffffffffffffffffffc7634d81f4372ddf581a0db248b0a77aecec196accc52973
    x := 0xaa87ca22be8b05378eb1c71ef320ad746e1d3b628ba79b9859f741e082542a385502f25dbf55296c3a545e3872760ab7
    y := 0x3617de4a96262c6f5d9e98bf9292dc29f8f41dbd289a147ce9da3113b5f0b8c00a60b1ce1d7e819d7a431d7c90ea0e5f }

/-- The third point on the line through two, mirrored, from the line's slope. -/
def third (c : Curve) (slope x₁ y₁ x₂ : Nat) : Nat × Nat :=
  let x := subMod c.prime (subMod c.prime (slope * slope) x₁) x₂
  (x, subMod c.prime (slope * subMod c.prime x₁ x) y₁)

/-- The sum of two points. -/
def add (c : Curve) : Point → Point → Point
  | none, q => q
  | p, none => p
  | some (x₁, y₁), some (x₂, y₂) =>
    if x₁ = x₂ then
      if (y₁ + y₂) % c.prime = 0 then none
      else
        let slope := subMod c.prime (3 * x₁ * x₁) 3 * inverse c.prime (2 * y₁ % c.prime) % c.prime
        some (c.third slope x₁ y₁ x₂)
    else
      let slope := subMod c.prime y₂ y₁ * inverse c.prime (subMod c.prime x₂ x₁) % c.prime
      some (c.third slope x₁ y₁ x₂)

/-- A multiple of a point. -/
def multiple (c : Curve) (k : Nat) (p : Point) : Point :=
  if h : k = 0 then none
  else
    let half := multiple c (k / 2) (c.add p p)
    if k % 2 = 1 then c.add half p else half
termination_by k
decreasing_by omega

/-- The point that belongs to a private number. -/
def publicPoint (c : Curve) (k : Nat) : Point := c.multiple k (some (c.x, c.y))

end Curve

namespace Edwards

def prime : Nat := Nat.pow 2 255 - 19

/-- The coefficient of the curve. -/
def d : Nat := 0x52036cee2b6ffe738cc740797779e89800700a4d4141d8ab75eb4dca135978a3

/-- The generator. -/
def base : Nat × Nat :=
  (0x216936d3cd6e53fec0a4e231fdd6dc5c692cc7609525a7b2c9562d608f25d51a,
   0x6666666666666666666666666666666666666666666666666666666666666658)

/-- The sum of two points; one rule serves all pairs. -/
def add (p q : Nat × Nat) : Nat × Nat :=
  let product := d * (p.1 * q.1 % prime) * (p.2 * q.2 % prime) % prime
  ((p.1 * q.2 + p.2 * q.1) * inverse prime (1 + product) % prime,
   (p.2 * q.2 + p.1 * q.1) * inverse prime (subMod prime 1 product) % prime)

/-- A multiple of a point. -/
def multiple (k : Nat) (p : Nat × Nat) : Nat × Nat :=
  if h : k = 0 then (0, 1)
  else
    let half := multiple (k / 2) (add p p)
    if k % 2 = 1 then add half p else half
termination_by k
decreasing_by omega

/-- The number of a point: its second coordinate and, above that, the lowest bit of the first. -/
def code (p : Nat × Nat) : Nat := p.2 + p.1 % 2 * Nat.pow 2 255

end Edwards

end CompanyRegistry.Tls
