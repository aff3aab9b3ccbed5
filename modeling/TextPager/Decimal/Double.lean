import TextPager.Text.Number

/-!
# Double precision numbers

A fraction in a configuration file stands for a number of double precision. Such a number is
`mantissa * 2 ^ exponent` with a mantissa below `2 ^ 53` and an exponent of at least
`Double.minExponent`; negative ones carry their sign apart. Its text has the fewest digits that
read back as the same number, and of those the nearest.

**Results.**
* `Double.roundHalfEven_le`, `Double.lt_roundHalfEven`: rounding a quotient stays within one of
  it.
-/
namespace TextPager

/-- A number of double precision, without its sign. -/
structure Double where
  mantissa : Nat
  exponent : Int
  deriving DecidableEq, Repr

namespace Double

/-- The exponent of the smallest numbers. -/
def minExponent : Int := -1074

/-- The exponent of the largest numbers. -/
def maxExponent : Int := 971

def zero : Double := ⟨0, minExponent⟩

/-- A quotient rounded to the nearest whole number, halves to the even one. -/
def roundHalfEven (num den : Nat) : Nat :=
  let q := num / den
  let r := num % den
  if den < 2 * r ∨ (2 * r = den ∧ q % 2 = 1) then q + 1 else q

/-- Numerator and denominator of `num / den * 2 ^ e`. -/
def scale (num den : Nat) (e : Int) : Nat × Nat :=
  if 0 ≤ e then (num * Nat.pow 2 e.toNat, den) else (num, den * Nat.pow 2 (-e).toNat)

/-- The number nearest to a quotient; none if that is beyond the largest. -/
def ofQuotient (num den : Nat) : Option Double :=
  if num = 0 then some zero
  else
    let guess := max ((num.log2 : Int) - (den.log2 : Int) - 53) minExponent
    let (n, d) := scale num den (-guess)
    let e := if Nat.pow 2 53 ≤ n / d then guess + 1 else guess
    let (n, d) := scale num den (-e)
    let m := roundHalfEven n d
    let rounded : Double := if m = Nat.pow 2 53 then ⟨Nat.pow 2 52, e + 1⟩ else ⟨m, e⟩
    if maxExponent < rounded.exponent then none else some rounded

/-- The number nearest to a whole number. -/
def ofNat (n : Nat) : Option Double := ofQuotient n 1

/-- The product of two numbers, rounded. -/
def mul (a b : Double) : Option Double :=
  let (n, d) := scale (a.mantissa * b.mantissa) 1 (a.exponent + b.exponent)
  ofQuotient n d

/-- The quotient of two numbers, rounded. -/
def div (a b : Double) : Option Double :=
  let (n, d) := scale a.mantissa b.mantissa (a.exponent - b.exponent)
  ofQuotient n d

/-! ## Text -/

/-- Numerator and denominator of `num / den / 10 ^ k`. -/
def shift10 (num den : Nat) (k : Int) : Nat × Nat :=
  if 0 ≤ k then (num, den * Nat.pow 10 k.toNat) else (num * Nat.pow 10 (-k).toNat, den)

/-- The multiple of `10 ^ k` nearest to the number, as a factor, if one reads back as it. All
three bounds are in quarters of the last place. -/
def digitsAt? (x : Double) (k : Int) : Option Nat :=
  let below := if x.mantissa = Nat.pow 2 52 ∧ minExponent < x.exponent then 1 else 2
  let ends := x.mantissa % 2 = 0
  let at10 (quarters : Nat) : Nat × Nat :=
    let (n, d) := scale quarters 1 (x.exponent - 2)
    shift10 n d k
  let (n, d) := at10 (4 * x.mantissa)
  let (lo, _) := at10 (4 * x.mantissa - below)
  let (hi, _) := at10 (4 * x.mantissa + 2)
  let within (c : Nat) : Bool :=
    if ends then lo ≤ c * d && c * d ≤ hi else lo < c * d && c * d < hi
  let floor := n / d
  let nearest := roundHalfEven n d
  if within nearest then some nearest
  else if within floor then some floor
  else if within (floor + 1) then some (floor + 1)
  else none

/-- The digits at the first grid that has any, from `10 ^ k` down; a double needs no more than
seventeen. -/
def digitsFrom (x : Double) : Nat → Int → Nat × Int
  | 0, k => (0, k)
  | steps + 1, k => match x.digitsAt? k with
    | some c => (c, k)
    | none => digitsFrom x steps (k - 1)

/-- The fewest digits that read back as the number, and the power of ten of the last one. -/
def shortest (x : Double) : Nat × Int :=
  let (n, d) := scale x.mantissa 1 x.exponent
  let start : Int :=
    if d ≤ n then (Text.ofNat (n / d)).length else 1 - ((Text.ofNat (d / n)).length : Int)
  digitsFrom x 20 start

/-- The text of a number: positional from `1e-5` to below `1e16`, with at least one place after
the point, and with an exponent elsewhere. -/
def text (x : Double) : Text :=
  if x.mantissa = 0 then "0.0".toList
  else
    let (c, k) := x.shortest
    let digits := Text.ofNat c
    let point : Int := digits.length + k
    if 0 ≤ k ∧ point ≤ 16 then digits ++ List.replicate k.toNat '0' ++ ".0".toList
    else if 0 < point ∧ point ≤ 16 then
      digits.take point.toNat ++ ['.'] ++ digits.drop point.toNat
    else if -5 < point ∧ point ≤ 0 then
      "0.".toList ++ List.replicate (-point).toNat '0' ++ digits
    else
      let fraction := if digits.length = 1 then [] else ['.'] ++ digits.drop 1
      let power := point - 1
      digits.take 1 ++ fraction ++ ['e', if power < 0 then '-' else '+'] ++
        Text.ofNat power.natAbs

theorem roundHalfEven_le (num den : Nat) : roundHalfEven num den ≤ num / den + 1 := by
  unfold roundHalfEven
  dsimp only
  split <;> omega

theorem lt_roundHalfEven (num den : Nat) : num / den ≤ roundHalfEven num den := by
  unfold roundHalfEven
  dsimp only
  split <;> omega

end Double

end TextPager
