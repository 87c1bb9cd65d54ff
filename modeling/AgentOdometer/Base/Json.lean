import Mathlib.Data.List.Basic

/-!
# Report values

A `serde_json` value: an object is an ordered map, so its keys are in ascending order. The numbers
are a parameter, with the text of each. What is written for a text is read back.
-/

namespace AgentOdometer.Report

/-- The numbers of a JSON value with the text which is written for each. -/
class JsonNumber (ν : Type) where
  ofNat : Nat → ν
  text : ν → String

/-- `serde_json::Value`. -/
inductive Value (ν : Type) where
  | null
  | bool (b : Bool)
  | number (n : ν)
  | string (s : String)
  | array (entries : List (Value ν))
  | object (entries : List (String × Value ν))

variable {ν : Type}

/-- The keys of every object are in ascending order. -/
inductive Value.IsValid : Value ν → Prop
  | null : IsValid .null
  | bool (b : Bool) : IsValid (.bool b)
  | number (n : ν) : IsValid (.number n)
  | string (s : String) : IsValid (.string s)
  | array {entries : List (Value ν)} (hentries : ∀ e ∈ entries, IsValid e) :
      IsValid (.array entries)
  | object {entries : List (String × Value ν)}
      (hkeys : (entries.map Prod.fst).Pairwise (· < ·))
      (hentries : ∀ e ∈ entries, IsValid e.2) : IsValid (.object entries)

/-! ### Texts -/

/-- A digit below sixteen, in lower case. -/
def hexDigit (n : Nat) : Char :=
  if n < 10 then Char.ofNat (48 + n) else Char.ofNat (87 + n)

/-- A character of a text as JSON writes it. -/
def escapeChar (c : Char) : List Char :=
  if c = '"' then ['\\', '"']
  else if c = '\\' then ['\\', '\\']
  else if c.toNat = 8 then ['\\', 'b']
  else if c.toNat = 12 then ['\\', 'f']
  else if c = '\n' then ['\\', 'n']
  else if c = '\r' then ['\\', 'r']
  else if c = '\t' then ['\\', 't']
  else if c.toNat < 32 then
    ['\\', 'u', '0', '0', hexDigit (c.toNat / 16), hexDigit (c.toNat % 16)]
  else [c]

/-- A text as JSON writes it. -/
def stringText (s : String) : String :=
  String.ofList ('"' :: s.toList.flatMap escapeChar ++ ['"'])

/-- The value of a digit below sixteen. -/
def hexValue (c : Char) : Nat :=
  if c.toNat < 58 then c.toNat - 48 else c.toNat - 87

/-- The character which a letter after a backslash stands for. -/
def unescapeLetter (c : Char) : Char :=
  if c = 'b' then Char.ofNat 8
  else if c = 'f' then Char.ofNat 12
  else if c = 'n' then '\n'
  else if c = 'r' then '\r'
  else if c = 't' then '\t'
  else c

/-- The characters up to the closing quote. -/
def unescapeChars : List Char → List Char
  | [] => []
  | '\\' :: 'u' :: '0' :: '0' :: a :: b :: cs =>
      Char.ofNat (16 * hexValue a + hexValue b) :: unescapeChars cs
  | '\\' :: c :: cs => unescapeLetter c :: unescapeChars cs
  | '"' :: _ => []
  | c :: cs => c :: unescapeChars cs

/-- The text which JSON has written. -/
def readStringText (s : String) : String :=
  String.ofList (unescapeChars s.toList.tail)

theorem hexValue_hexDigit : ∀ n < 16, hexValue (hexDigit n) = n := by
  decide

theorem unescapeChars_escapeChar (c : Char) (cs : List Char) :
    unescapeChars (escapeChar c ++ cs) = c :: unescapeChars cs := by
  unfold escapeChar
  split
  · subst_vars
    rfl
  split
  · subst_vars
    rfl
  split
  · rename_i hc
    have hletter : unescapeLetter 'b' = c := (congrArg Char.ofNat hc).symm.trans c.ofNat_toNat
    simp [unescapeChars, hletter]
  split
  · rename_i hc
    have hletter : unescapeLetter 'f' = c := (congrArg Char.ofNat hc).symm.trans c.ofNat_toNat
    simp [unescapeChars, hletter]
  split
  · subst_vars
    rfl
  split
  · subst_vars
    rfl
  split
  · subst_vars
    rfl
  split
  · rename_i hlow
    have hhigh := hexValue_hexDigit (c.toNat / 16) (by omega)
    have hrest := hexValue_hexDigit (c.toNat % 16) (by omega)
    have hsum : 16 * (c.toNat / 16) + c.toNat % 16 = c.toNat := Nat.div_add_mod _ _
    simp only [List.cons_append, List.nil_append, unescapeChars, hhigh, hrest, hsum,
      Char.ofNat_toNat]
  · rename_i hquote hslash _ _ _ _ _ _
    rw [List.singleton_append, unescapeChars]
    all_goals simp_all

theorem unescapeChars_flatMap (cs : List Char) :
    unescapeChars (cs.flatMap escapeChar ++ ['"']) = cs := by
  induction cs with
  | nil => rfl
  | cons c cs ih => rw [List.flatMap_cons, List.append_assoc, unescapeChars_escapeChar, ih]

/-- What is written for a text is read back. -/
theorem readStringText_stringText (s : String) : readStringText (stringText s) = s := by
  rw [readStringText, stringText, String.toList_ofList, List.cons_append, List.tail_cons,
    unescapeChars_flatMap, String.ofList_toList]

end AgentOdometer.Report
