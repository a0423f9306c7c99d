/-
  The elliptic curve P-256, y² = x³ - 3x + b over the integers modulo a prime.

  A public key is a multiple of the base point, written with its first
  coordinate and the parity of the second (`Point.compress`, read back by
  `Point.decompress`).  Two ends agree on the first coordinate of the multiple
  of one's public key by the other's secret number (`sharedSecret`).
-/
import AirLink.Bytes

namespace AirLink.Curve

/-- The prime of the coordinates. -/
def prime : Nat := 0xffffffff00000001000000000000000000000000ffffffffffffffffffffffff

/-- The order of the base point. -/
def order : Nat := 0xffffffff00000000ffffffffffffffffbce6faada7179e84f3b9cac2fc632551

/-- The constant of the curve. -/
def coefficient : Nat := 0x5ac635d8aa3a93e7b3ebbd55769886bc651d06b0cc53b0f63bce3c3e27d2604b

/-- A point other than the one at infinity. -/
structure Point where
  x : Nat
  y : Nat
deriving DecidableEq, Repr

/-- The base point. -/
def base : Point where
  x := 0x6b17d1f2e12c4247f8bce6e563a440f277037d812deb33a0f4a13945d898c296
  y := 0x4fe342e2fe1a7f9b8ee7eb4a7c0f9e162bce33576b315ececbb6406837bf51f5

/-! ## Arithmetic modulo the prime -/

def mul (a b : Nat) : Nat := a * b % prime

def add (a b : Nat) : Nat := (a + b) % prime

/-- Difference of two numbers, the second of them reduced. -/
def sub (a b : Nat) : Nat := (a + (prime - b)) % prime

/-- Places of a 256-bit number, the most significant first. -/
def places : List Nat := (List.range 256).reverse

/-- A power with an exponent of up to 256 bits. -/
def pow (a e : Nat) : Nat :=
  places.foldl (fun acc i => if e.testBit i then mul (mul acc acc) a else mul acc acc) 1

/-- The inverse of a number other than zero. -/
def inverse (a : Nat) : Nat := pow a (prime - 2)

/-- The square root, if there is one. -/
def root? (a : Nat) : Option Nat :=
  let r := pow a ((prime + 1) / 4)
  if mul r r = a then some r else none

/-- The right-hand side of the equation. -/
def rightSide (x : Nat) : Nat := add (sub (mul (mul x x) x) (mul 3 x)) coefficient

/-! ## Multiples of a point -/

/-- A point as a ratio: `x / z²` and `y / z³`, at infinity if `z` is zero. -/
structure Ratio where
  x : Nat
  y : Nat
  z : Nat

def Ratio.infinity : Ratio := ⟨1, 1, 0⟩

def Ratio.double (p : Ratio) : Ratio :=
  if p.z = 0 then p else
  let delta := mul p.z p.z
  let gamma := mul p.y p.y
  let beta := mul p.x gamma
  let alpha := mul 3 (mul (sub p.x delta) (add p.x delta))
  let x := sub (mul alpha alpha) (mul 8 beta)
  let s := add p.y p.z
  ⟨x, sub (mul alpha (sub (mul 4 beta) x)) (mul 8 (mul gamma gamma)),
    sub (sub (mul s s) gamma) delta⟩

/-- The sum of a ratio and a point. -/
def Ratio.addPoint (p : Ratio) (q : Point) : Ratio :=
  if p.z = 0 then ⟨q.x, q.y, 1⟩ else
  let zz := mul p.z p.z
  let h := sub (mul q.x zz) p.x
  let r := sub (mul q.y (mul zz p.z)) p.y
  if h = 0 then (if r = 0 then p.double else .infinity) else
  let hh := mul h h
  let hhh := mul h hh
  let v := mul p.x hh
  let x := sub (sub (mul r r) hhh) (mul 2 v)
  ⟨x, sub (mul r (sub v x)) (mul p.y hhh), mul p.z h⟩

/-- The point of a ratio that is not at infinity. -/
def Ratio.toPoint (p : Ratio) : Point :=
  let i := inverse p.z
  let ii := mul i i
  ⟨mul p.x ii, mul p.y (mul ii i)⟩

/-- The multiple of a point by a number of up to 256 bits that is not a
    multiple of the order. -/
def multiple (n : Nat) (p : Point) : Point :=
  (places.foldl (fun acc i => if n.testBit i then acc.double.addPoint p else acc.double)
    Ratio.infinity).toPoint

/-! ## Keys -/

/-- A secret number: at least one and below the order. -/
structure Secret where
  val : Nat
  pos : 0 < val
  lt : val < order

/-- Reads a secret number, written with 32 bytes or with up to eight of the
    leading ones left out. -/
def Secret.ofBytes? (bs : Bytes) : Option Secret :=
  if 24 ≤ bs.length ∧ bs.length ≤ 32 then
    if h : 0 < bs.toNat ∧ bs.toNat < order then some ⟨bs.toNat, h.1, h.2⟩ else none
  else none

def Secret.publicKey (s : Secret) : Point := multiple s.val base

/-- Bytes of a compressed point. -/
def compressedSize : Nat := 33

/-- A point as a parity byte and its first coordinate. -/
def Point.compress (p : Point) : Bytes :=
  (if p.y % 2 = 0 then 0x02 else 0x03) :: Bytes.ofNat 32 p.x

/-- Whether bytes have the form of a compressed point. -/
def isCompressed (bs : Bytes) : Bool :=
  bs.length = compressedSize && (bs.head? = some 0x02 || bs.head? = some 0x03)

/-- The point on the curve that compressed bytes stand for. -/
def Point.decompress (bs : Bytes) : Option Point :=
  let x := Bytes.toNat (bs.drop 1)
  if !isCompressed bs || prime ≤ x then none
  else (root? (rightSide x)).map fun y =>
    if y % 2 = (bs.headD 0).toNat % 2 then ⟨x, y⟩ else ⟨x, sub 0 y⟩

/-- The secret that both ends arrive at. -/
def sharedSecret (s : Secret) (partner : Point) : Bytes :=
  Bytes.ofNat 32 (multiple s.val partner).x

end AirLink.Curve
