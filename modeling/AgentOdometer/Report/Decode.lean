import AgentOdometer.Lib.CsvText
import AgentOdometer.Report.Leaves
import Mathlib.Algebra.Order.BigOperators.Group.List
import Mathlib.Algebra.Order.Ring.Nat

/-!
# Reading an export back

A decoder of the typed stream. It returns the exported value exactly when no object of the value
has entries under the positions of an array.
-/

namespace AgentOdometer.Report

open CsvText

variable {ν : Type} [JsonNumber ν]

/-! ### Paths -/

/-- A segment of a path as a key. -/
def unescapeKey : List Char → List Char
  | [] => []
  | '~' :: '0' :: cs => '~' :: unescapeKey cs
  | '~' :: '1' :: cs => '/' :: unescapeKey cs
  | c :: cs => c :: unescapeKey cs

/-- The keys and positions of a path. -/
def decodePath (path : List Char) : List String :=
  (path.splitOn '/').tail.map fun segment ↦ String.ofList (unescapeKey segment)

/-- A character of a key in a path. -/
def escapeKeyChar (c : Char) : List Char :=
  if c = '~' then ['~', '0'] else if c = '/' then ['~', '1'] else [c]

theorem toList_escapeKey (key : String) :
    (escapeKey key).toList = key.toList.flatMap escapeKeyChar := by
  simp only [escapeKey, replaceChar, String.toList_ofList, List.flatMap_assoc]
  apply List.flatMap_congr
  intro c _
  unfold escapeKeyChar
  split
  · rfl
  · simp

theorem unescapeKey_flatMap (cs : List Char) : unescapeKey (cs.flatMap escapeKeyChar) = cs := by
  induction cs with
  | nil => rfl
  | cons c cs ih =>
    rw [List.flatMap_cons, escapeKeyChar]
    split
    · subst_vars
      simp [unescapeKey, ih]
    split
    · subst_vars
      simp [unescapeKey, ih]
    · rename_i htilde _
      rw [List.singleton_append, unescapeKey, ih]
      all_goals simp_all

theorem not_mem_escapeKey (key : String) : '/' ∉ (escapeKey key).toList := by
  rw [toList_escapeKey, List.mem_flatMap]
  rintro ⟨c, -, hc⟩
  unfold escapeKeyChar at hc
  split at hc
  · simp at hc
  split at hc
  · simp at hc
  · rename_i hslash
    exact hslash (List.mem_singleton.mp hc).symm

theorem splitOn_pathText (keys : List String) : (pathText keys).toList.splitOn '/' =
    [] :: keys.map fun key ↦ (escapeKey key).toList := by
  have hjoin : ∀ (first : List Char) (keys : List String),
      first ++ (pathText keys).toList =
        ['/'].intercalate (first :: keys.map fun key ↦ (escapeKey key).toList) := by
    intro first keys
    induction keys generalizing first with
    | nil => simp [pathText, List.intercalate]
    | cons key keys ih =>
      rw [List.map_cons, List.intercalate_cons_cons, ← ih]
      simp [pathText]
  have hpath := hjoin [] keys
  rw [List.nil_append] at hpath
  rw [hpath]
  apply List.splitOn_intercalate
  · intro segment hsegment
    rcases List.mem_cons.mp hsegment with rfl | hsegment
    · exact List.not_mem_nil
    · obtain ⟨key, -, rfl⟩ := List.mem_map.mp hsegment
      exact not_mem_escapeKey key
  · exact List.cons_ne_nil _ _

/-- The path of a leaf is read back. -/
theorem decodePath_pathText (keys : List String) : decodePath (pathText keys).toList = keys := by
  rw [decodePath, splitOn_pathText, List.tail_cons, List.map_map]
  have hkey : (fun key : String ↦ String.ofList (unescapeKey (escapeKey key).toList)) = id := by
    funext key
    rw [toList_escapeKey, unescapeKey_flatMap, String.ofList_toList]
    rfl
  exact (congrArg (List.map · keys) hkey).trans (List.map_id keys)

/-! ### Rows -/

/-- The value of a leaf from its type and its text. -/
def decodeLeaf (parse : String → Option ν) (kind value : String) : Option (Value ν) :=
  if kind = "null" then some .null
  else if kind = "boolean" then some (.bool (value = "true"))
  else if kind = "number" then (parse value).map .number
  else if kind = "string" then some (.string (readStringText value))
  else if kind = "array" then some (.array [])
  else if kind = "object" then some (.object [])
  else none

/-- The path and the value of a row. -/
def decodeRow (parse : String → Option ν) : List (List Char) → Option (List String × Value ν)
  | [_, _, path, kind, value] =>
      (decodeLeaf parse (String.ofList kind) (String.ofList value)).map (decodePath path, ·)
  | _ => none

/-- The report and the value of an export. -/
def decode (parse : String → Option ν) (text : String) : Option (String × Value ν) :=
  match readRows .plain [] [] text.toList with
  | _ :: row :: rows => do
      let paths ← (row :: rows).mapM (decodeRow parse)
      let value ← rebuild ((paths.map fun path ↦ path.1.length).sum + 1) paths
      some (String.ofList (row.getD 1 []), value)
  | _ => none

theorem decodeLeaf_leafOf {parse : String → Option ν}
    (hparse : ∀ n, parse (JsonNumber.text n) = some n) {v : Value ν} (h : v.members = [])
    (path : String) : decodeLeaf parse (leafOf path v).kind (leafOf path v).value = some v := by
  cases v with
  | null => rfl
  | bool b => cases b <;> rfl
  | number n => simp [leafOf, decodeLeaf, hparse]
  | string s => simp [leafOf, decodeLeaf, readStringText_stringText]
  | array entries =>
    have hnil : entries = [] := by simpa [Value.members] using h
    rw [hnil]
    rfl
  | object entries =>
    have hnil : entries = [] := h
    rw [hnil]
    rfl

theorem toList_csvField (value : String) : (csvField value).toList = quoteField value.toList := by
  unfold csvField quoteField
  have hspecial : (fun c ↦ c == ',' || c == '"' || c == '\r' || c == '\n') = isSpecial := rfl
  rw [hspecial]
  split
  · simp [replaceChar, doubleQuotes]
  · rfl

/-- The fields of a row. -/
def rowFields (report : String) (leaf : Leaf) : List (List Char) :=
  [(toString exportSchemaVersion).toList, report.toList, leaf.path.toList, leaf.kind.toList,
    leaf.value.toList]

omit [JsonNumber ν] in
theorem quoteField_version :
    quoteField (toString exportSchemaVersion).toList = (toString exportSchemaVersion).toList := by
  decide

theorem quoteField_kind (path : String) (v : Value ν) :
    quoteField (leafOf path v).kind.toList = (leafOf path v).kind.toList := by
  have hkinds : ∀ kind ∈ ["null", "boolean", "number", "string", "array", "object"],
      quoteField kind.toList = kind.toList := by
    decide
  cases v <;> exact hkinds _ (by simp [leafOf])

/-- A row is written field by field. -/
theorem toList_csvRow (report path : String) (v : Value ν) :
    (csvRow report (leafOf path v)).toList = writeRow (rowFields report (leafOf path v)) := by
  simp only [csvRow, String.toList_append, toList_csvField, rowFields, writeRow,
    quoteField_version, quoteField_kind, List.append_assoc]
  rfl

theorem toList_foldl_append {α : Type} (f : α → String) (l : List α) (s : String) :
    (l.foldl (fun output a ↦ output ++ f a) s).toList =
      s.toList ++ l.flatMap fun a ↦ (f a).toList := by
  induction l generalizing s with
  | nil => simp
  | cons a l ih => rw [List.foldl_cons, ih, String.toList_append, List.flatMap_cons,
      List.append_assoc]

/-- The fields of the first row. -/
def headerFields : List (List Char) :=
  ["schema_version".toList, "report".toList, "path".toList, "type".toList, "value".toList]

theorem headerFields_ne_nil : headerFields ≠ [] :=
  List.cons_ne_nil _ _

/-- The rows of an export are read back. -/
theorem readRows_csv (report : String) {v : Value ν} (hv : v.IsValid) :
    readRows .plain [] [] (csv report v).toList =
      headerFields :: v.paths.map fun row ↦ rowFields report (leafOf (pathText row.1) row.2) := by
  have hheader : "schema_version,report,path,type,value\n".toList = writeRow headerFields := by
    decide
  have hrows : (csv report v).toList = (headerFields :: v.paths.map fun row ↦
      rowFields report (leafOf (pathText row.1) row.2)).flatMap writeRow := by
    rw [csv, toList_foldl_append, leaves_eq hv, hheader, List.flatMap_cons, List.flatMap_map,
      List.flatMap_map]
    refine congrArg (writeRow headerFields ++ ·) (List.flatMap_congr fun row _ ↦ ?_)
    rw [String.empty_append, toList_csvRow]
  rw [hrows]
  apply readRows_writeRows
  rw [List.forall_mem_cons]
  refine ⟨headerFields_ne_nil, fun row hrow ↦ ?_⟩
  obtain ⟨path, -, rfl⟩ := List.mem_map.mp hrow
  exact List.cons_ne_nil _ _

/-- An export is read back as its report and the canonical form of its value. -/
theorem decode_csv {parse : String → Option ν} (hparse : ∀ n, parse (JsonNumber.text n) = some n)
    (report : String) {v : Value ν} (hv : v.IsValid) :
    decode parse (csv report v) = some (report, v.canonical) := by
  have hrow : ∀ row ∈ v.paths,
      decodeRow parse (rowFields report (leafOf (pathText row.1) row.2)) = some row := by
    intro row hrow
    have hleaf := decodeLeaf_leafOf hparse (members_of_mem_paths hv row hrow) (pathText row.1)
    have hpath : (leafOf (pathText row.1) row.2).path = pathText row.1 := by
      cases row.2 <;> rfl
    simp only [rowFields, decodeRow, String.ofList_toList, hleaf, hpath, decodePath_pathText,
      Option.map_some]
  have hmapM : (v.paths.map fun row ↦ rowFields report (leafOf (pathText row.1) row.2)).mapM
      (decodeRow parse) = some v.paths := by
    rw [List.mapM_map]
    exact (mapM_eq_some (g := id) hrow).trans (congrArg some (List.map_id _))
  have hrebuild : rebuild ((v.paths.map fun path ↦ path.1.length).sum + 1) v.paths =
      some v.canonical := by
    apply rebuild_paths hv
    intro row hrow
    exact Nat.lt_succ_of_le
      (List.single_le_sum (fun _ _ ↦ Nat.zero_le _) _ (List.mem_map_of_mem hrow))
  unfold decode
  rw [readRows_csv report hv]
  cases hpaths : v.paths with
  | nil => exact absurd hpaths (paths_ne_nil hv)
  | cons row rows =>
    rw [hpaths] at hmapM hrebuild
    rw [List.map_cons] at hmapM ⊢
    simp only [Option.bind_eq_bind, hmapM, hrebuild, Option.bind_some]
    simp only [rowFields, List.getD_cons_succ, List.getD_cons_zero, String.ofList_toList]

end AgentOdometer.Report
