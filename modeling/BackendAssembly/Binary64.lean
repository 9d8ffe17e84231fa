namespace BackendAssembly

/-- A double-precision number. A finite one is its significand times a power of two; the significand has at most 53
bits and the exponent is at least -1074. -/
inductive Binary64 where
  | nan
  | infinite (negative : Bool)
  | finite (negative : Bool) (significand : Nat) (exponent : Int)
  deriving DecidableEq, Repr

/-- The quotient of two naturals to the nearest natural, a half to the even one. -/
def roundDiv (n d : Nat) : Nat :=
  let quotient := n / d
  let twice := 2 * (n % d)
  if twice > d ∨ (twice = d ∧ quotient % 2 = 1) then quotient + 1 else quotient

def scaleFraction (base : Nat) (e : Int) (n d : Nat) : Nat × Nat :=
  if 0 ≤ e then (n * base.pow e.toNat, d) else (n, d * base.pow (-e).toNat)

namespace Binary64

def significandBound : Nat :=
  9007199254740992

def ofFraction (negative : Bool) (n d : Nat) : Binary64 :=
  let q := max (Int.ofNat n.log2 - Int.ofNat d.log2 - 53) (-1074)
  let (n₁, d₁) := scaleFraction 2 (-q) n d
  let q := if n₁ / d₁ ≥ significandBound then q + 1 else q
  let (n₂, d₂) := scaleFraction 2 (-q) n d
  let m := roundDiv n₂ d₂
  let (m, q) := if m = significandBound then (m / 2, q + 1) else (m, q)
  if q > 971 then infinite negative else finite negative m q

/-- The number nearest to `digits * 10 ^ exponent`. Far outside the range of doubles no power is computed. -/
def ofDecimal (negative : Bool) (digits : Nat) (exponent : Int) : Binary64 :=
  if digits = 0 then finite negative 0 0
  else
    let magnitude := Int.ofNat (Nat.toDigits 10 digits).length + exponent
    if magnitude > 310 then infinite negative
    else if magnitude < -330 then finite negative 0 0
    else
      let (n, d) := scaleFraction 10 exponent digits 1
      ofFraction negative n d

def leadingExponent (n d : Nat) : Int :=
  if n ≥ d then Int.ofNat (Nat.toDigits 10 (n / d)).length - 1
  else -Int.ofNat (((List.range 400).find? fun j => n * Nat.pow 10 j ≥ d).getD 400)

/-- Of the two neighbours of the fraction `n / d` on the grid of `10 ^ k`, the one that lies between `low` and `high`,
all over `d`; the nearer one if both do, and the upper one if they are equally near. -/
def onGrid (n d low high : Nat) (ends : Bool) (k : Int) : Option Nat :=
  let (n', d') := scaleFraction 10 (-k) n d
  let below := n' / d'
  let fits (g : Nat) : Bool :=
    let (g', one) := scaleFraction 10 k g 1
    let point := g' * d
    if ends then low * one ≤ point && point ≤ high * one else low * one < point && point < high * one
  let nearer := if 2 * (n' % d') < d' then [below, below + 1] else [below + 1, below]
  nearer.find? fits

/-- The fewest decimal digits that read back as `significand * 2 ^ exponent`, with the power of ten to multiply by. The
search begins at the grid above the first digit, where a power of ten may lie that the number falls just short of. -/
def shortest (significand : Nat) (exponent : Int) : Nat × Int :=
  let unit := exponent - 2
  let gap := if 2 * significand = significandBound ∧ exponent > -1074 then 1 else 2
  let (n, d) := scaleFraction 2 unit (4 * significand) 1
  let (low, _) := scaleFraction 2 unit (4 * significand - gap) 1
  let (high, _) := scaleFraction 2 unit (4 * significand + 2) 1
  let top := leadingExponent n d + 1
  let found := (List.range 18).findSome? fun i =>
    let k := top - Int.ofNat i
    (onGrid n d low high (significand % 2 == 0) k).map fun g => (g, k)
  found.getD (significand, exponent)

def positional (digits : List Char) (k : Int) : List Char :=
  if 0 ≤ k then digits ++ List.replicate k.toNat '0' ++ ['.', '0']
  else
    let places := (-k).toNat
    if places < digits.length then
      digits.take (digits.length - places) ++ '.' :: digits.drop (digits.length - places)
    else ['0', '.'] ++ List.replicate (places - digits.length) '0' ++ digits

def text : Binary64 → String
  | nan => "NaN"
  | infinite false => "inf"
  | infinite true => "-inf"
  | finite negative significand exponent =>
    let digits :=
      if significand = 0 then positional ['0'] 0
      else
        let (g, k) := shortest significand exponent
        positional (Nat.toDigits 10 g) k
    String.ofList (if negative then '-' :: digits else digits)

end Binary64

end BackendAssembly
