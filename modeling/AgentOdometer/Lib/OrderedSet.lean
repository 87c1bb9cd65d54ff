import Mathlib.Data.List.Basic

/-!
# Insertion-ordered sets

A set which iterates in the order of its insertions, as a list: an element which is there keeps
its place, a deletion leaves the others in order.
-/

namespace AgentOdometer.OrderedSet

variable {α : Type} [DecidableEq α]

/-- Add an element at the end, unless it is there. -/
def add (set : List α) (a : α) : List α :=
  if a ∈ set then set else set ++ [a]

/-- Take an element out. -/
def delete (set : List α) (a : α) : List α :=
  set.filter (· ≠ a)

/-- Add several elements in their order. -/
def addAll (set items : List α) : List α :=
  items.foldl add set

/-- Take several elements out. -/
def deleteAll (set items : List α) : List α :=
  items.foldl delete set

/-- The set of the elements of a list. -/
def ofList (items : List α) : List α :=
  addAll [] items

@[simp]
theorem mem_add {set : List α} {a b : α} : b ∈ add set a ↔ b ∈ set ∨ b = a := by
  unfold add
  split
  · rename_i hmem
    constructor
    · exact .inl
    · rintro (h | rfl)
      · exact h
      · exact hmem
  · simp

@[simp]
theorem mem_delete {set : List α} {a b : α} : b ∈ delete set a ↔ b ∈ set ∧ b ≠ a := by
  simp [delete]

@[simp]
theorem mem_addAll {set items : List α} {b : α} : b ∈ addAll set items ↔ b ∈ set ∨ b ∈ items := by
  unfold addAll
  induction items generalizing set with
  | nil => simp
  | cons a items ih =>
    rw [List.foldl_cons, ih, mem_add, List.mem_cons]
    exact or_assoc

@[simp]
theorem mem_deleteAll {set items : List α} {b : α} :
    b ∈ deleteAll set items ↔ b ∈ set ∧ b ∉ items := by
  unfold deleteAll
  induction items generalizing set with
  | nil => simp
  | cons a items ih =>
    rw [List.foldl_cons, ih, mem_delete, List.mem_cons, not_or]
    exact and_assoc

@[simp]
theorem mem_ofList {items : List α} {b : α} : b ∈ ofList items ↔ b ∈ items := by
  simp [ofList]

end AgentOdometer.OrderedSet
