import Mathlib.Data.Nat.Bitwise

/-!
# Stable hash

The FNV-1a fold of `stable_hash.rs` and the 16-digit text which `history_store.rs` derives
its local keys from.
-/

namespace AgentOdometer

/-- FNV-1a over 64 bits. Follows `stable_hash.rs:2–9`. -/
def fnv1a64 (bytes : List UInt8) : Nat :=
  bytes.foldl (fun hash byte ↦ ((hash ^^^ byte.toNat) * 0x100000001b3) % 2 ^ 64)
    0xcbf29ce484222325

/-- The `digits` low hexadecimal digits of a number, as `{:0digits x}` prints a number which
has at most that many. -/
def hexDigits : Nat → Nat → List Char
  | 0, _ => []
  | digits + 1, n => hexDigits digits (n / 16) ++ [Nat.digitChar (n % 16)]

/-- `stable_hash`, `history_store.rs:6086–6094`. -/
def stableHash (value : String) : String :=
  String.ofList (hexDigits 16 (fnv1a64 value.toUTF8.toList))

end AgentOdometer
