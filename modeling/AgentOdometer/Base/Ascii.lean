import Mathlib.Init

/-!
# Letter case of ASCII

Rust's case folding and comparison which leave all but the ASCII letters alone.
-/

namespace AgentOdometer.Text

/-- `to_ascii_lowercase`. -/
def asciiLowercase (s : String) : String :=
  String.ofList (s.toList.map Char.toLower)

/-- `eq_ignore_ascii_case`. -/
def eqIgnoreAsciiCase (a b : String) : Bool :=
  asciiLowercase a = asciiLowercase b

theorem toNat_val_A : ('A' : Char).val.toNat = 65 := rfl

theorem toNat_val_Z : ('Z' : Char).val.toNat = 90 := rfl

theorem toNat_case_distance : (('a' : Char).val - ('A' : Char).val).toNat = 32 := rfl

/-- Folding the case twice is folding it once. -/
theorem toLower_toLower (c : Char) : c.toLower.toLower = c.toLower := by
  unfold Char.toLower
  split
  next hupper =>
    split
    next hlower =>
      simp only [UInt32.le_iff_toNat_le, ge_iff_le, UInt32.toNat_add, toNat_val_A, toNat_val_Z,
        toNat_case_distance] at hupper hlower
      omega
    · rfl
  · rfl

/-- Only a slash is folded to one. -/
theorem eq_slash_of_toLower {c : Char} (h : c.toLower = '/') : c = '/' := by
  unfold Char.toLower at h
  split at h
  next hupper =>
    have hval : (c.val + (('a' : Char).val - ('A' : Char).val)).toNat = 47 :=
      congrArg (fun c : Char ↦ c.val.toNat) h
    simp only [UInt32.le_iff_toNat_le, ge_iff_le, toNat_val_A, toNat_val_Z] at hupper
    rw [UInt32.toNat_add, toNat_case_distance] at hval
    omega
  · exact h

theorem asciiLowercase_asciiLowercase (s : String) :
    asciiLowercase (asciiLowercase s) = asciiLowercase s := by
  simp only [asciiLowercase, String.toList_ofList, List.map_map, Function.comp_def, toLower_toLower]

end AgentOdometer.Text
