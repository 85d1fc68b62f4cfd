/-! # Numbers of 64 bits

The ranges of whole numbers of 64 bits, without and with a sign, the wrapping of a number into the
range with a sign, and what a decimal fraction is taken as. -/

namespace BlockLayout

namespace Bits64

/-- The number of values, two to the sixty-fourth. -/
def size : Nat := 18446744073709551616

/-- Half the number of values, which bounds the range with a sign. -/
def half : Nat := 9223372036854775808

/-- A quarter of the number of values: two numbers below it have a sum in the range with a sign. -/
def quarter : Nat := 4611686018427387904

/-- The largest number without a sign. -/
def maxWhole : Nat := 18446744073709551615

/-- The number lies in the range with a sign. -/
def fitsSigned (n : Int) : Bool := -(half : Int) ≤ n && n < half

/-- The number with a sign that is congruent to `n`. -/
def signed (n : Int) : Int := n.bmod size

theorem size_eq : size = Nat.pow 2 64 := by decide

theorem signed_of_lt {n : Nat} (h : n < half) : signed n = n := by
  unfold signed
  rw [Int.bmod_eq_of_le] <;> simp only [size, half] at * <;> omega

theorem signed_of_bounds {n : Int} (lower : -(half : Int) ≤ n) (upper : n < half) :
    signed n = n := by
  unfold signed
  rw [Int.bmod_eq_of_le] <;> simp only [size, half] at * <;> omega

theorem signed_neg_signed (n : Int) : signed (-signed n) = signed (-n) := by
  unfold signed
  exact Int.bmod_neg_bmod

theorem signed_add_signed (m n : Int) : signed (signed m + signed n) = signed (m + n) := by
  unfold signed
  rw [Int.bmod_add_bmod, Int.add_bmod_bmod]

theorem signed_lt (n : Int) : signed n < half :=
  Int.bmod_lt (by decide)

/-- A whole number keeps its value exactly if it lies in the range with a sign. -/
theorem signed_eq_self_iff {n : Nat} : signed n = n ↔ n < half := by
  refine ⟨fun h => ?_, signed_of_lt⟩
  have hlt := signed_lt n
  omega

theorem toNat_signed_eq_iff {n : Nat} : (signed n).toNat = n ↔ n < half := by
  constructor
  · intro h
    have hlt := signed_lt n
    simp only [half] at *
    omega
  · intro h
    rw [signed_of_lt h, Int.toNat_natCast]

end Bits64

/-! ## Decimal fractions as whole numbers

A fraction is written in decimal, stands for the nearest binary fraction of double precision, and is
taken as a whole number of 64 bits: the nearest one, a half going away from zero, and the end of the
range where the fraction lies outside of it.  The two roundings may not be joined into one, as a
fraction just below a half can stand for a half. -/

/-- The fraction `digits · 10 ^ exponent`, maybe negated. -/
structure Decimal where
  negative : Bool
  digits : Nat
  exponent : Int
  deriving DecidableEq, Repr

/-- The quotient rounded to the nearest whole number, a tie to the even one. -/
def roundHalfEven (num den : Nat) : Nat :=
  let q := num / den
  let r := num % den
  if 2 * r < den || (2 * r = den && q % 2 = 0) then q else q + 1

/-- The exponent of the largest power of two that is at most a positive quotient. -/
def log2Quotient (num den : Nat) : Int :=
  let k : Int := (num.log2 : Int) - den.log2
  if num * Nat.pow 2 (-k).toNat < den * Nat.pow 2 k.toNat then k - 1 else k

/-- A binary fraction `significand · 2 ^ exponent`. -/
structure Binary where
  significand : Nat
  exponent : Int
  deriving DecidableEq, Repr

namespace Binary

/-- The binary fraction of double precision nearest to a positive quotient. -/
def nearest (num den : Nat) : Binary :=
  let exponent := max (log2Quotient num den - 52) (-1074)
  ⟨roundHalfEven (num * Nat.pow 2 (-exponent).toNat) (den * Nat.pow 2 exponent.toNat), exponent⟩

/-- The whole number nearest to a binary fraction, a half going up. -/
def toNat (b : Binary) : Nat :=
  let den := Nat.pow 2 (-b.exponent).toNat
  (2 * (b.significand * Nat.pow 2 b.exponent.toNat) + den) / (2 * den)

end Binary

/-- A fraction that was written down, or one of the values that stand beside them. -/
inductive Fraction where
  | finite (value : Decimal)
  | infinite (negative : Bool)
  | undefined
  deriving DecidableEq, Repr

namespace Decimal

/-- The binary fraction that the size of a decimal stands for, or nothing if the decimal is too
large for any.  Exponents far out of range are told apart before any power is computed. -/
def magnitude? (d : Decimal) : Option Binary :=
  if d.digits = 0 || d.exponent + (d.digits.log2 / 3 + 1 : Nat) < -400 then some ⟨0, 0⟩
  else if 400 < d.exponent then none
  else
    let b := Binary.nearest (d.digits * Nat.pow 10 d.exponent.toNat) (Nat.pow 10 (-d.exponent).toNat)
    if Nat.pow 2 1024 ≤ b.significand * Nat.pow 2 b.exponent.toNat then none else some b

/-- The fraction that a decimal stands for. -/
def toFraction (d : Decimal) : Fraction :=
  if d.magnitude?.isNone then .infinite d.negative else .finite d

end Decimal

/-- The whole number of 64 bits that a fraction is taken as. -/
def Fraction.toWhole : Fraction → Nat
  | finite d =>
    if d.negative then 0
    else match d.magnitude? with
      | some b => min b.toNat Bits64.maxWhole
      | none => Bits64.maxWhole
  | infinite negative => if negative then 0 else Bits64.maxWhole
  | undefined => 0

end BlockLayout
