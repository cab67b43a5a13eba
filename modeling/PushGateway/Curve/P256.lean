import PushGateway.Text.Utf8
/-!
The elliptic curve P-256: its field, its points and their multiples. Points are kept in Jacobian
coordinates, where `(x, y, z)` stands for the affine point `(x / z^2, y / z^3)` and `z = 0` for the
point at infinity.
-/

namespace PushGateway.P256

def fieldPrime : Nat := 0xffffffff00000001000000000000000000000000ffffffffffffffffffffffff

/-- The number of points, a prime. -/
def order : Nat := 0xffffffff00000000ffffffffffffffffbce6faada7179e84f3b9cac2fc632551

/-- The constant term of the curve's equation `y^2 = x^3 - 3 x + b`. -/
def coefficient : Nat := 0x5ac635d8aa3a93e7b3ebbd55769886bc651d06b0cc53b0f63bce3c3e27d2604b

/-- `b ^ e` modulo `m`, for exponents below `2 ^ fuel`. -/
def powMod (m : Nat) : Nat → Nat → Nat → Nat
  | 0, _, _ => 1
  | fuel + 1, b, e =>
    let rest := powMod m fuel (b * b % m) (e / 2)
    if e % 2 = 1 then b * rest % m else rest

/-- The inverse modulo a prime of at most 256 bits. -/
def inverse (m a : Nat) : Nat := powMod m 256 (a % m) (m - 2)

def fsub (a b : Nat) : Nat := (a + (fieldPrime - b)) % fieldPrime

def fmul (a b : Nat) : Nat := a * b % fieldPrime

structure Point where
  x : Nat
  y : Nat
  deriving DecidableEq, Repr

/-- Coordinates are reduced and satisfy the curve's equation. -/
def Point.onCurve (p : Point) : Bool :=
  p.x < fieldPrime ∧ p.y < fieldPrime ∧
    (p.y * p.y) % fieldPrime = (p.x * p.x * p.x + (fieldPrime - 3) * p.x + coefficient) % fieldPrime

def generator : Point where
  x := 0x6b17d1f2e12c4247f8bce6e563a440f277037d812deb33a0f4a13945d898c296
  y := 0x4fe342e2fe1a7f9b8ee7eb4a7c0f9e162bce33576b315ececbb6406837bf51f5

structure Jacobian where
  x : Nat
  y : Nat
  z : Nat
  deriving DecidableEq, Repr

namespace Jacobian

def infinity : Jacobian := ⟨1, 1, 0⟩

def ofPoint (p : Point) : Jacobian := ⟨p.x, p.y, 1⟩

def toPoint? (p : Jacobian) : Option Point :=
  if p.z = 0 then none
  else
    let i := inverse fieldPrime p.z
    let i2 := fmul i i
    some ⟨fmul p.x i2, fmul p.y (fmul i2 i)⟩

def double (p : Jacobian) : Jacobian :=
  if p.z = 0 then infinity
  else
    let delta := fmul p.z p.z
    let gamma := fmul p.y p.y
    let beta := fmul p.x gamma
    let alpha := fmul 3 (fmul (fsub p.x delta) ((p.x + delta) % fieldPrime))
    let x := fsub (fmul alpha alpha) (fmul 8 beta)
    let z := fmul 2 (fmul p.y p.z)
    let y := fsub (fmul alpha (fsub (fmul 4 beta) x)) (fmul 8 (fmul gamma gamma))
    if z = 0 then infinity else ⟨x, y, z⟩

def add (p q : Jacobian) : Jacobian :=
  if p.z = 0 then q
  else if q.z = 0 then p
  else
    let z1 := fmul p.z p.z
    let z2 := fmul q.z q.z
    let u1 := fmul p.x z2
    let u2 := fmul q.x z1
    let s1 := fmul p.y (fmul q.z z2)
    let s2 := fmul q.y (fmul p.z z1)
    if u1 = u2 then if s1 = s2 then double p else infinity
    else
      let h := fsub u2 u1
      let r := fsub s2 s1
      let h2 := fmul h h
      let h3 := fmul h2 h
      let v := fmul u1 h2
      let x := fsub (fsub (fmul r r) h3) (fmul 2 v)
      let y := fsub (fmul r (fsub v x)) (fmul s1 h3)
      ⟨x, y, fmul (fmul h p.z) q.z⟩

/-- The `k`-th multiple, for `k` below `2 ^ fuel`. -/
def multiple : Nat → Nat → Jacobian → Jacobian
  | 0, _, _ => infinity
  | fuel + 1, k, p =>
    let half := multiple fuel (k / 2) p
    let twice := double half
    if k % 2 = 1 then add twice p else twice

end Jacobian

/-- The octets of a number below `2 ^ 256`, the most significant first. -/
def octets32 (n : Nat) : Bytes := (List.range 32).map fun i => (n >>> (8 * (31 - i))).toUInt8

/-- The number that octets stand for, the most significant first. -/
def ofOctets (bs : Bytes) : Nat := bs.foldl (fun n b => n * 256 + b.toNat) 0

namespace Point

def encode (p : Point) : Bytes := 4 :: octets32 p.x ++ octets32 p.y

/-- The coordinates of an uncompressed encoding, on the curve or not. -/
def decode? : Bytes → Option Point
  | 4 :: rest => if rest.length = 64 then some ⟨ofOctets (rest.take 32), ofOctets (rest.drop 32)⟩ else none
  | _ => none

end Point
end PushGateway.P256
