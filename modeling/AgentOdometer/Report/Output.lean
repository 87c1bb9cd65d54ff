import AgentOdometer.Base.Json

/-!
# Structured export

The typed stream of leaves of `report_output.rs:7–64`.
-/

namespace AgentOdometer.Report

/-- `EXPORT_SCHEMA_VERSION`, `report_output.rs:10`. -/
def exportSchemaVersion : Nat :=
  2

/-- `str::replace` of one character. -/
def replaceChar (s : String) (c : Char) (replacement : String) : String :=
  String.ofList (s.toList.flatMap fun d ↦ if d = c then replacement.toList else [d])

/-- `csv_field`, `report_output.rs:16–22`. -/
def csvField (value : String) : String :=
  if value.toList.any fun c ↦ c == ',' || c == '"' || c == '\r' || c == '\n' then
    "\"" ++ replaceChar value '"' "\"\"" ++ "\""
  else value

/-- What `leaves` visits: the path, the type and the text of a leaf. -/
structure Leaf where
  path : String
  kind : String
  value : String
deriving Repr, DecidableEq

/-- A key as a segment of a path. Follows `report_output.rs:28`. -/
def escapeKey (key : String) : String :=
  replaceChar (replaceChar key '~' "~0") '/' "~1"

variable {ν : Type} [JsonNumber ν]

/-- `envelope`, `report_output.rs:12–14`. -/
def envelope (report : String) (data : Value ν) : Value ν :=
  .object [("data", data), ("report", .string report),
    ("schema_version", .number (JsonNumber.ofNat exportSchemaVersion))]

mutual

/-- `leaves`, `report_output.rs:24–50`. -/
def leaves : Value ν → String → List Leaf
  | .null, path => [⟨path, "null", "null"⟩]
  | .bool b, path => [⟨path, "boolean", if b then "true" else "false"⟩]
  | .number n, path => [⟨path, "number", JsonNumber.text n⟩]
  | .string s, path => [⟨path, "string", stringText s⟩]
  | .array [], path => [⟨path, "array", "[]"⟩]
  | .array (entry :: entries), path => arrayLeaves (entry :: entries) 0 path
  | .object [], path => [⟨path, "object", "\x7b\x7d"⟩]
  | .object (entry :: entries), path => objectLeaves (entry :: entries) path

/-- The loop over the entries of an array. Follows `report_output.rs:32–36`. -/
def arrayLeaves : List (Value ν) → Nat → String → List Leaf
  | [], _, _ => []
  | child :: entries, index, path =>
      leaves child (path ++ "/" ++ toString index) ++ arrayLeaves entries (index + 1) path

/-- The loop over the entries of an object. Follows `report_output.rs:26–31`. -/
def objectLeaves : List (String × Value ν) → String → List Leaf
  | [], _ => []
  | (key, child) :: entries, path =>
      leaves child (path ++ "/" ++ escapeKey key) ++ objectLeaves entries path

end

/-- One row. Follows `report_output.rs:55–61`. -/
def csvRow (report : String) (leaf : Leaf) : String :=
  toString exportSchemaVersion ++ "," ++ csvField report ++ "," ++ csvField leaf.path ++ "," ++
    leaf.kind ++ "," ++ csvField leaf.value ++ "\n"

/-- `csv`, `report_output.rs:52–64`. -/
def csv (report : String) (value : Value ν) : String :=
  (leaves value "").foldl (fun output leaf ↦ output ++ csvRow report leaf)
    "schema_version,report,path,type,value\n"

end AgentOdometer.Report
