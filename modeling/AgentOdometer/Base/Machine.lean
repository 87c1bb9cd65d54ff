import Mathlib.Algebra.Order.Ring.Int

/-!
# Machine integers

The places where the source converts between fixed-width integers. Arithmetic wraps, as it
does in the release profile.
-/

namespace AgentOdometer

/-- `i64::MIN`. -/
def i64Min : Int :=
  -2 ^ 63

/-- `i64::MAX`. -/
def i64Max : Int :=
  2 ^ 63 - 1

/-- Two's complement wrap-around to `i64`. -/
def wrapI64 (n : Int) : Int :=
  (n + 2 ^ 63) % 2 ^ 64 - 2 ^ 63

/-- `i64::abs`, which leaves `i64::MIN` as it is. -/
def absI64 (n : Int) : Int :=
  if n = i64Min then n else |n|

/-- `n as u32`. -/
def asU32 (n : Nat) : Nat :=
  n % 2 ^ 32

theorem asU32_of_lt {n : Nat} (h : n < 2 ^ 32) : asU32 n = n :=
  Nat.mod_eq_of_lt h

end AgentOdometer
