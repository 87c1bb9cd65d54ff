import AgentOdometer.Base.Machine
import Mathlib.Data.Rat.Floor

/-!
# `f64` helpers

Lean's `Float` is IEEE binary64 with a logical model, so it is used for `f64` as it is.
This module adds the operations of Rust's `f64` which Lean leaves without a model:
rounding, saturating conversion, clamping and fixed-precision formatting.
-/

namespace AgentOdometer.Float64

/-- The biased exponent field. -/
def exponentField (x : Float) : Nat :=
  x.toBits.toNat / 2 ^ 52 % 2 ^ 11

/-- The significand of a finite value, hidden bit included. -/
def significand (x : Float) : Nat :=
  let fraction := x.toBits.toNat % 2 ^ 52
  if exponentField x = 0 then fraction else 2 ^ 52 + fraction

/-- The sign bit. -/
def isSignNegative (x : Float) : Bool :=
  2 ^ 63 ≤ x.toBits.toNat

/-- Absolute value of a finite `f64`, exactly. -/
def magnitude (x : Float) : ℚ :=
  let e : Int := if exponentField x = 0 then -1074 else exponentField x - 1075
  (significand x : ℚ) * 2 ^ e

/-- Nearest integer, ties away from zero: `f64::round` on an exact value. -/
def roundHalfAway (q : ℚ) : Nat :=
  (q + 1 / 2).floor.toNat

/-- Nearest integer, ties to the even one: the rounding of Rust's formatter. -/
def roundHalfEven (q : ℚ) : Nat :=
  let below := q.floor.toNat
  let rest := q - below
  if rest < 1 / 2 then below
  else if 1 / 2 < rest then below + 1
  else if below % 2 = 0 then below else below + 1

/-- `x.round() as i64`: NaN gives zero, everything else saturates. -/
def roundAsI64 (x : Float) : Int :=
  if x.isNaN then 0
  else if x.isInf then (if isSignNegative x then i64Min else i64Max)
  else
    let n : Int := roundHalfAway (magnitude x)
    max i64Min (min i64Max (if isSignNegative x then -n else n))

/-- `f64::max`: the other operand when one is NaN. -/
def max (x y : Float) : Float :=
  if x.isNaN then y else if y.isNaN then x else if x < y then y else x

/-- `f64::clamp`. -/
def clamp (x lo hi : Float) : Float :=
  if x < lo then lo else if hi < x then hi else x

/-- Left-pad with zeros up to `width`. -/
def padZeros (width : Nat) (s : String) : String :=
  String.ofList (List.replicate (width - s.length) '0') ++ s

/-- The text of `x` with a fixed number of decimals, as `format!` prints it. -/
def formatFixed (digits : Nat) (x : Float) : String :=
  if x.isNaN then "NaN"
  else
    let sign := if isSignNegative x then "-" else ""
    if x.isInf then sign ++ "inf"
    else
      let scaled := roundHalfEven (magnitude x * 10 ^ digits)
      let whole := toString (scaled / 10 ^ digits)
      if digits = 0 then sign ++ whole
      else sign ++ whole ++ "." ++ padZeros digits (toString (scaled % 10 ^ digits))

example : formatFixed 0 2.5 = "2" := by decide +kernel

example : formatFixed 2 (-0.125) = "-0.12" := by decide +kernel

end AgentOdometer.Float64
