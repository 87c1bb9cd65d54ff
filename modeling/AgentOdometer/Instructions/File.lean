import AgentOdometer.Base.Ascii
import AgentOdometer.Correlation.Correlate
import AgentOdometer.Model.SourceSet

/-!
# Instruction files

The files which a harness reads instructions from, what a scan records of one, and the key under
which two spellings of a path are one (`instructions.rs:21–71,667–734,997–1019`, `paths.rs:44–56`).
Where the repository around a directory starts is a parameter, and so is whether the platform
ignores the case of a path.
-/

namespace AgentOdometer.Instructions

/-- A file name and the harness which reads it. Follows `instructions.rs:23–26`. -/
structure InstructionDefinition where
  fileName : String
  harness : String
deriving Repr, DecidableEq

/-- `DEFINITIONS`, `instructions.rs:31–40`. -/
def DEFINITIONS : List InstructionDefinition :=
  [⟨"AGENTS.md", "codex"⟩, ⟨"CLAUDE.md", "claude_code"⟩]

/-- `definition_for` of the name of a file, `instructions.rs:673–678`. -/
def definitionFor (name : String) : Option InstructionDefinition :=
  DEFINITIONS.find? fun definition ↦ Text.eqIgnoreAsciiCase name definition.fileName

/-- What the hierarchy reads and writes of a file. A file belongs to a project unless it comes
from a global root. Follows `instructions.rs:51–71,691–696`. -/
structure InstructionFile where
  id : String
  directory : String
  fileName : String
  rootSource : String
  projectScope : Option String
  parentId : Option String
  effectiveIds : List String
  global_iff : rootSource = "global" ↔ projectScope = none

/-- The file comes from a global root. -/
def InstructionFile.isGlobal (file : InstructionFile) : Bool :=
  file.rootSource == "global"

variable (windows : Bool)

/-- `normalized_path_key`, `instructions.rs:288–290` and `paths.rs:44–56`. -/
def normalizedPathKey (path : String) : String :=
  let slashed := (stripVerbatimPrefix path).toList.map fun c ↦ if c = '\\' then '/' else c
  let trimmed := String.ofList (slashed.reverse.dropWhile (· == '/')).reverse
  if windows then Text.asciiLowercase trimmed else trimmed

/-- `is_path_ancestor`, `instructions.rs:1001–1005`. -/
def isPathAncestor (ancestor descendant : String) : Bool :=
  normalizedPathKey windows descendant == normalizedPathKey windows ancestor ||
    Text.startsWith (normalizedPathKey windows descendant)
      (normalizedPathKey windows ancestor ++ "/")

/-- A directory with the name of a file in it. -/
def joinName (directory name : String) : String :=
  if directory.toList.getLast? = some '/' then directory ++ name else directory ++ "/" ++ name

/-- `inspect_file`, `instructions.rs:680–734`: the file of a name in a directory under a root. -/
def inspectFile (projectRoot : String → Option String)
    (rootPath rootSource directory name : String) :
    Option InstructionFile :=
  (definitionFor name).map fun definition ↦
    { id := stableHash (normalizedPathKey windows (joinName directory name))
      directory := stripVerbatimPrefix directory
      fileName := definition.fileName
      rootSource
      projectScope :=
        if rootSource = "global" then none
        else some (Correlation.projectScopeIdentity
          (stripVerbatimPrefix ((projectRoot directory).getD rootPath)))
      parentId := none
      effectiveIds := []
      global_iff := by
        by_cases hglobal : rootSource = "global"
        · simp [hglobal]
        · simp [hglobal] }

/-! ### Directories above another -/

/-- A directory lies strictly above another. -/
def IsAbove (ancestor descendant : String) : Prop :=
  (normalizedPathKey windows ancestor ++ "/").toList <+:
    (normalizedPathKey windows descendant).toList

instance (ancestor descendant : String) : Decidable (IsAbove windows ancestor descendant) :=
  inferInstanceAs (Decidable (_ <+: _))

variable {windows}

theorem isPathAncestor_iff {ancestor descendant : String} :
    isPathAncestor windows ancestor descendant = true ↔
      normalizedPathKey windows ancestor = normalizedPathKey windows descendant ∨
        IsAbove windows ancestor descendant := by
  rw [isPathAncestor, Bool.or_eq_true, beq_iff_eq, Text.startsWith, List.isPrefixOf_iff_prefix,
    eq_comm]
  exact Iff.rfl

theorem IsAbove.length_lt {a b : String} (h : IsAbove windows a b) :
    (normalizedPathKey windows a).length < (normalizedPathKey windows b).length := by
  have hlength := List.IsPrefix.length_le h
  simp only [String.length_toList, String.length_append] at hlength
  exact hlength

theorem IsAbove.irrefl (a : String) : ¬ IsAbove windows a a := fun h ↦
  absurd h.length_lt (Nat.lt_irrefl _)

theorem IsAbove.asymm {a b : String} (h : IsAbove windows a b) : ¬ IsAbove windows b a := fun h' ↦
  absurd (h.length_lt.trans h'.length_lt) (Nat.lt_irrefl _)

theorem IsAbove.trans {a b c : String} (hab : IsAbove windows a b) (hbc : IsAbove windows b c) :
    IsAbove windows a c := by
  have hslash : (normalizedPathKey windows b).toList <+:
      (normalizedPathKey windows b ++ "/").toList := by
    rw [String.toList_append]
    exact List.prefix_append _ _
  exact (List.IsPrefix.trans hab hslash).trans hbc

/-- Two directories at or above a third are one, or one lies above the other. -/
theorem comparable_of_isPathAncestor {a b c : String} (ha : isPathAncestor windows a c = true)
    (hb : isPathAncestor windows b c = true) :
    normalizedPathKey windows a = normalizedPathKey windows b ∨ IsAbove windows a b ∨
      IsAbove windows b a := by
  rw [isPathAncestor_iff] at ha hb
  obtain ha | ha := ha
  · obtain hb | hb := hb
    · exact Or.inl (ha.trans hb.symm)
    · rw [IsAbove, ← ha] at hb
      exact Or.inr (Or.inr hb)
  · obtain hb | hb := hb
    · rw [IsAbove, ← hb] at ha
      exact Or.inr (Or.inl ha)
    · -- Both keys, each with a slash behind it, begin the key of the third.
      simp only [IsAbove, String.toList_append] at ha hb
      obtain hlen | hlen | hlen := Nat.lt_trichotomy (normalizedPathKey windows a).toList.length
        (normalizedPathKey windows b).toList.length
      · refine Or.inr (Or.inl ?_)
        rw [IsAbove, String.toList_append]
        refine List.prefix_of_prefix_length_le ha ((List.prefix_append _ _).trans hb) ?_
        rw [List.length_append]
        exact hlen
      · have heq := List.prefix_of_prefix_length_le ((List.prefix_append _ _).trans ha)
          ((List.prefix_append _ _).trans hb) hlen.le
        exact Or.inl (String.toList_inj.mp (heq.eq_of_length hlen))
      · refine Or.inr (Or.inr ?_)
        rw [IsAbove, String.toList_append]
        refine List.prefix_of_prefix_length_le hb ((List.prefix_append _ _).trans ha) ?_
        rw [List.length_append]
        exact hlen

end AgentOdometer.Instructions
