import AgentOdometer.Lib.OrderedMap
import Mathlib.Logic.Relation

/-!
# Following the links of a map

A map from names to names is followed from a name until a name without a link or a name already
left. As many steps as the map has links, and one more, are enough for both.
-/

namespace AgentOdometer.AliasChain

open Std (ExtTreeMap)

variable {α : Type} [Ord α] [Std.TransOrd α] [DecidableEq α]

/-- Follow links from `current`, never leaving a name of `seen` again: where it stopped, and
whether it followed any. -/
def chase (links : ExtTreeMap α α) : Nat → List α → α → Bool → α × Bool
  | 0, _, current, hopped => (current, hopped)
  | steps + 1, seen, current, hopped =>
      match links[current]? with
      | none => (current, hopped)
      | some next =>
          if current ∈ seen then (current, hopped)
          else chase links steps (current :: seen) next true

/-- One link. -/
def Hop (links : ExtTreeMap α α) (name next : α) : Prop :=
  links[name]? = some next

/-- No name leads back to itself. -/
def Acyclic (links : ExtTreeMap α α) : Prop :=
  ∀ name, ¬ Relation.TransGen (Hop links) name name

variable {links : ExtTreeMap α α}

omit [DecidableEq α] in
theorem mem_of_hop {name next : α} (h : Hop links name next) : name ∈ links :=
  ExtTreeMap.mem_iff_isSome_getElem?.mpr (Option.isSome_of_eq_some h)

/-- The chase stays on the chain of its start. -/
theorem reflTransGen_chase (steps : Nat) (seen : List α) (current : α) (hopped : Bool) :
    Relation.ReflTransGen (Hop links) current (chase links steps seen current hopped).1 := by
  induction steps generalizing seen current hopped with
  | zero => exact Relation.ReflTransGen.refl
  | succ steps ih =>
    unfold chase
    split
    · exact Relation.ReflTransGen.refl
    next next hnext =>
      split
      · exact Relation.ReflTransGen.refl
      · exact Relation.ReflTransGen.head hnext (ih _ _ _)

/-- A chase with a step for every link not yet left ends at a name without a link. -/
theorem getElem?_chase [Std.LawfulEqOrd α] (hacyclic : Acyclic links) (steps : Nat)
    (seen : List α) (current : α) (hopped : Bool) (hnodup : seen.Nodup)
    (hseen : ∀ name ∈ seen, name ∈ links ∧ Relation.TransGen (Hop links) name current)
    (hsteps : links.size < steps + seen.length) :
    links[(chase links steps seen current hopped).1]? = none := by
  induction steps generalizing seen current hopped with
  | zero =>
    have hle := OrderedMap.length_le_size hnodup fun name hname ↦ (hseen name hname).1
    omega
  | succ steps ih =>
    unfold chase
    split
    next hnone => exact hnone
    next next hnext =>
      split
      next hmem => exact absurd (hseen current hmem).2 (hacyclic current)
      next hnew =>
        apply ih
        · exact List.nodup_cons.mpr ⟨hnew, hnodup⟩
        · intro name hname
          rcases List.mem_cons.mp hname with rfl | hname
          · exact ⟨mem_of_hop hnext, Relation.TransGen.single hnext⟩
          · exact ⟨(hseen name hname).1, (hseen name hname).2.tail hnext⟩
        · rw [List.length_cons]
          omega

/-! ### Changing a link -/

omit [DecidableEq α] in
theorem acyclic_empty : Acyclic (∅ : ExtTreeMap α α) := by
  intro name hcycle
  have hnone : ∀ next, ¬ Hop (∅ : ExtTreeMap α α) name next := by
    intro next hhop
    rw [Hop, ExtTreeMap.getElem?_empty] at hhop
    cases hhop
  obtain ⟨next, hhop, -⟩ := Relation.TransGen.head'_iff.mp hcycle
  exact hnone next hhop

omit [DecidableEq α] in
/-- Fewer links close no cycle. -/
theorem Acyclic.of_hop {links' : ExtTreeMap α α} (hacyclic : Acyclic links)
    (hsub : ∀ name next, Hop links' name next → Hop links name next) : Acyclic links' :=
  fun name hcycle ↦ hacyclic name (Relation.TransGen.mono hsub _ _ hcycle)

omit [DecidableEq α] in
theorem Acyclic.erase (hacyclic : Acyclic links) (name : α) : Acyclic (links.erase name) := by
  refine hacyclic.of_hop fun other next hhop ↦ ?_
  rw [Hop, ExtTreeMap.getElem?_erase] at hhop
  split at hhop
  · cases hhop
  · exact hhop

variable [Std.LawfulEqOrd α]

theorem hop_insert_iff {source target name next : α} :
    Hop (links.insert source target) name next ↔
      name = source ∧ next = target ∨ name ≠ source ∧ Hop links name next := by
  rw [Hop, ExtTreeMap.getElem?_insert]
  by_cases hname : name = source
  · rw [hname, Std.compare_self, if_pos rfl, Option.some.injEq, eq_comm]
    simp
  · have hcompare : ¬ compare source name = .eq := fun h ↦
      hname (Std.compare_eq_iff_eq.mp h).symm
    rw [if_neg hcompare]
    simp [hname, Hop]

/-- A path of the changed links either avoids the new one, or reaches it and leaves it. -/
theorem transGen_insert {source target name last : α}
    (hpath : Relation.TransGen (Hop (links.insert source target)) name last) :
    Relation.TransGen (Hop links) name last ∨
      Relation.ReflTransGen (Hop links) name source ∧
        Relation.ReflTransGen (Hop links) target last := by
  induction hpath with
  | single hhop =>
    obtain ⟨rfl, rfl⟩ | ⟨-, hold⟩ := hop_insert_iff.mp hhop
    · exact Or.inr ⟨.refl, .refl⟩
    · exact Or.inl (.single hold)
  | tail _ hhop ih =>
    obtain ⟨rfl, rfl⟩ | ⟨-, hold⟩ := hop_insert_iff.mp hhop
    · exact Or.inr ⟨ih.elim Relation.TransGen.to_reflTransGen And.left, .refl⟩
    · exact ih.imp (fun h ↦ h.tail hold) fun h ↦ ⟨h.1, h.2.tail hold⟩

/-- A path to the source of a changed link does not need that link. -/
theorem reflTransGen_insert {source target name : α}
    (hpath : Relation.ReflTransGen (Hop links) name source) :
    Relation.ReflTransGen (Hop (links.insert source target)) name source := by
  induction hpath using Relation.ReflTransGen.head_induction_on with
  | refl => exact .refl
  | @head name next hhop _ ih =>
    by_cases hname : name = source
    · rw [hname]
    · exact .head (hop_insert_iff.mpr (Or.inr ⟨hname, hhop⟩)) ih

/-- A changed link closes a cycle exactly when its target leads to its source. -/
theorem acyclic_insert_iff (hacyclic : Acyclic links) {source target : α} :
    Acyclic (links.insert source target) ↔ ¬ Relation.ReflTransGen (Hop links) target source := by
  constructor
  · intro hnew hpath
    have hhop : Hop (links.insert source target) source target :=
      hop_insert_iff.mpr (Or.inl ⟨rfl, rfl⟩)
    exact hnew source (.head' hhop (reflTransGen_insert hpath))
  · intro hpath name hcycle
    obtain hold | ⟨hto, hfrom⟩ := transGen_insert hcycle
    · exact hacyclic name hold
    · exact hpath (hfrom.trans hto)

end AgentOdometer.AliasChain
