import AgentOdometer.Lib.OptionFold
import AgentOdometer.Projection.SessionOrder

/-!
# The walk over the rows

What a call of `append` and of `withhold` adds, and the fuel after which they return.
-/

namespace AgentOdometer.Projection

open Std (ExtTreeMap)
open OrderableSession

variable {σ ν : Type} [OrderableSession σ ν] {sorted : List σ} {options : OrderOptions σ}

/-- The rows under an id, in the given order. -/
theorem childrenOf_children (id : String) : childrenOf (children sorted options) id =
    sorted.filter fun child ↦ presentParent sorted options child = some id := by
  have hfold : ∀ l arr : List σ, l.foldl (fun arr session ↦ arr ++ [session]) arr = arr ++ l := by
    intro l
    induction l with
    | nil => simp
    | cons a l ih => simp [ih]
  unfold childrenOf children
  rw [GroupBy.getElem?_groupFold]
  split
  · simp [hfold]
  · rename_i hnone
    simp only [ExtTreeMap.getElem?_empty, Option.getD_none]
    symm
    rw [List.filter_eq_nil_iff]
    intro a ha
    simpa using fun h ↦ hnone ⟨a, ha, h⟩

theorem mem_childrenOf {id : String} {child : σ} :
    child ∈ childrenOf (children sorted options) id ↔
      child ∈ sorted ∧ presentParent sorted options child = some id := by
  rw [childrenOf_children, List.mem_filter, decide_eq_true_eq]

theorem isChild_of_mem {parent child : σ} (hparent : parent ∈ sorted)
    (h : child ∈ childrenOf (children sorted options) (storageId parent)) :
    IsChild sorted options child parent :=
  ⟨(mem_childrenOf.mp h).1, hparent, (mem_childrenOf.mp h).2⟩

theorem IsChild.mem {parent child : σ} (h : IsChild sorted options child parent) :
    child ∈ childrenOf (children sorted options) (storageId parent) :=
  mem_childrenOf.mpr ⟨h.1, h.2.2⟩

/-- A parent which is present is a row. -/
theorem exists_parent {child : σ} (hchild : child ∈ sorted) {id : String}
    (h : presentParent sorted options child = some id) :
    ∃ parent, IsChild sorted options child parent ∧ storageId parent = id := by
  have hpresent := (Option.filter_eq_some_iff.mp h).2
  simp only [Bool.and_eq_true, List.contains_iff_mem, List.mem_map] at hpresent
  obtain ⟨-, parent, hparent, rfl⟩ := hpresent
  exact ⟨parent, ⟨hchild, hparent, h⟩, rfl⟩

/-- The ids of the rows are distinct. -/
abbrev HasDistinctIds (sorted : List σ) : Prop :=
  (sorted.map storageId).Nodup

theorem eq_of_storageId_eq (hdistinct : HasDistinctIds sorted) {s t : σ} (hs : s ∈ sorted)
    (ht : t ∈ sorted) (h : storageId s = storageId t) : s = t :=
  List.inj_on_of_nodup_map hdistinct hs ht h

/-! ### Withholding -/

/-- More ids are withheld, and the children of the new ones are too. -/
structure WithholdsMore (sorted : List σ) (options : OrderOptions σ) (before after : List String) :
    Prop where
  kept : ∀ id ∈ before, id ∈ after
  closed : ∀ id ∈ after, id ∉ before →
    ∀ child ∈ childrenOf (children sorted options) id, storageId child ∈ after

theorem WithholdsMore.refl (ids : List String) : WithholdsMore sorted options ids ids :=
  ⟨fun _ h ↦ h, fun _ h hnot ↦ absurd h hnot⟩

theorem WithholdsMore.trans {a b c : List String} (hab : WithholdsMore sorted options a b)
    (hbc : WithholdsMore sorted options b c) : WithholdsMore sorted options a c := by
  refine ⟨fun id h ↦ hbc.kept id (hab.kept id h), fun id hid hnot child hchild ↦ ?_⟩
  by_cases hmid : id ∈ b
  · exact hbc.kept _ (hab.closed id hmid hnot child hchild)
  · exact hbc.closed id hid hmid child hchild

/-- A withheld id is followed by its own children. -/
theorem WithholdsMore.of_concat {a b : List String} {id : String}
    (h : WithholdsMore sorted options (a ++ [id]) b)
    (hchildren : ∀ child ∈ childrenOf (children sorted options) id, storageId child ∈ b) :
    WithholdsMore sorted options a b := by
  refine ⟨fun other hother ↦ h.kept other (List.mem_append_left _ hother), ?_⟩
  intro other hother hnot
  by_cases heq : other = id
  · exact heq ▸ hchildren
  · exact h.closed other hother (by simp [hnot, heq])

theorem withhold_spec {fuel : Nat} {withheld withheld' : List String} {id : String}
    (h : withhold (children sorted options) fuel withheld id = some withheld') :
    WithholdsMore sorted options withheld withheld' ∧
      ∀ child ∈ childrenOf (children sorted options) id, storageId child ∈ withheld' := by
  induction fuel generalizing withheld withheld' id with
  | zero => cases h
  | succ fuel ih =>
    refine OptionFold.moves WithholdsMore.refl WithholdsMore.trans
      (fun hQ hR ↦ hR.kept _ hQ) (fun child _ before after hround ↦ ?_) h
    by_cases hin : storageId child ∈ before
    · rw [if_pos hin] at hround
      obtain rfl := Option.some.inj hround
      exact ⟨.refl _, hin⟩
    · rw [if_neg hin] at hround
      obtain ⟨hmore, hchildren⟩ := ih hround
      exact ⟨hmore.of_concat hchildren,
        hmore.kept _ (List.mem_append_right _ (List.mem_singleton_self _))⟩

/-- Every withheld id is the one of a row under a given one, apart from those withheld before. -/
theorem withhold_under {fuel : Nat} {withheld withheld' : List String} {s : σ} (hs : s ∈ sorted)
    (h : withhold (children sorted options) fuel withheld (storageId s) = some withheld') :
    ∀ id ∈ withheld', id ∈ withheld ∨ ∃ t, storageId t = id ∧ IsUnder sorted options t s := by
  induction fuel generalizing withheld withheld' s with
  | zero => cases h
  | succ fuel ih =>
    refine OptionFold.invariant (P := fun after ↦ ∀ id ∈ after, id ∈ withheld ∨
      ∃ t, storageId t = id ∧ IsUnder sorted options t s) ?_ h (fun id hid ↦ .inl hid)
    intro child hchild before after hbefore hround
    by_cases hin : storageId child ∈ before
    · rw [if_pos hin] at hround
      exact Option.some.inj hround ▸ hbefore
    · rw [if_neg hin] at hround
      have hunder := isChild_of_mem hs hchild
      intro id hid
      rcases ih hunder.1 hround id hid with hid | ⟨t, rfl, ht⟩
      · rcases List.mem_append.mp hid with hid | hid
        · exact hbefore id hid
        · exact .inr ⟨child, (List.mem_singleton.mp hid).symm, .single hunder⟩
      · exact .inr ⟨t, rfl, ht.tail hunder⟩

/-! ### Enough fuel -/

/-- The ids of the rows which are not among some ids. -/
def remaining (sorted : List σ) (ids : List String) : List String :=
  (sorted.map storageId).filter (· ∉ ids)

theorem remaining_le (sorted : List σ) {ids ids' : List String} (h : ∀ id ∈ ids, id ∈ ids') :
    (remaining sorted ids').length ≤ (remaining sorted ids).length := by
  apply List.Sublist.length_le
  apply List.monotone_filter_right
  intro id hid
  simp only [decide_eq_true_eq] at hid ⊢
  exact fun hin ↦ hid (h id hin)

theorem remaining_concat_lt {ids : List String} {s : σ} (hs : s ∈ sorted)
    (hnot : storageId s ∉ ids) :
    (remaining sorted (ids ++ [storageId s])).length < (remaining sorted ids).length := by
  have hfilter : remaining sorted (ids ++ [storageId s]) =
      (remaining sorted ids).filter (· ≠ storageId s) := by
    unfold remaining
    rw [List.filter_filter]
    congr 1
    funext id
    simp [Bool.and_comm]
  rw [hfilter]
  apply List.length_filter_lt_length_iff_exists.mpr
  refine ⟨storageId s, ?_, by simp⟩
  exact List.mem_filter.mpr ⟨List.mem_map_of_mem hs, by simpa using hnot⟩

theorem remaining_le_length (sorted : List σ) (ids : List String) :
    (remaining sorted ids).length ≤ sorted.length := by
  unfold remaining
  exact (List.length_filter_le _ _).trans (by rw [List.length_map])

theorem withhold_completes (sorted : List σ) (options : OrderOptions σ) {fuel : Nat}
    (withheld : List String) (id : String) (hfuel : (remaining sorted withheld).length < fuel) :
    ∃ withheld', withhold (children sorted options) fuel withheld id = some withheld' := by
  induction fuel generalizing withheld id with
  | zero => omega
  | succ fuel ih =>
    refine (OptionFold.completes (P := fun ids ↦ (remaining sorted ids).length < fuel + 1)
      (fun child hchild before hbefore ↦ ?_) hfuel).imp fun _ h ↦ h.1
    by_cases hin : storageId child ∈ before
    · exact ⟨before, if_pos hin, hbefore⟩
    · have hlt := remaining_concat_lt (mem_childrenOf.mp hchild).1 hin
      obtain ⟨after, hafter⟩ := ih (before ++ [storageId child]) (storageId child) (by omega)
      have hle := remaining_le sorted (withhold_spec hafter).1.kept
      exact ⟨after, (if_neg hin).trans hafter, by omega⟩

/-- More fuel does not change what is withheld. -/
theorem withhold_mono {fuel more : Nat} (hle : fuel ≤ more) {withheld withheld' : List String}
    {id : String} (h : withhold (children sorted options) fuel withheld id = some withheld') :
    withhold (children sorted options) more withheld id = some withheld' := by
  induction fuel generalizing more withheld withheld' id with
  | zero => cases h
  | succ fuel ih =>
    obtain ⟨more, rfl⟩ : ∃ n, more = n + 1 := ⟨more - 1, by omega⟩
    refine OptionFold.mono (fun child _ before after hround ↦ ?_) h
    by_cases hin : storageId child ∈ before
    · rwa [if_pos hin] at hround ⊢
    · rw [if_neg hin] at hround ⊢
      exact ih (by omega) hround

/-! ### Appending -/

/-- Rows are shown after those which were shown before. -/
structure Shows (before : Walk σ ν) (rows : List (σ × ν)) (after : Walk σ ν) : Prop where
  list : after.list = before.list ++ rows.map Prod.fst
  seen : after.seen = before.seen ++ rows.map fun row ↦ storageId row.1
  anchorMs : after.anchorMs =
    rows.foldl (fun anchorMs row ↦ anchorMs.insert (storageId row.1) row.2) before.anchorMs

theorem Shows.refl (w : Walk σ ν) : Shows w [] w :=
  ⟨by simp, by simp, rfl⟩

theorem Shows.trans {u v w : Walk σ ν} {rows rows' : List (σ × ν)} (huv : Shows u rows v)
    (hvw : Shows v rows' w) : Shows u (rows ++ rows') w := by
  refine ⟨?_, ?_, ?_⟩
  · rw [hvw.list, huv.list, List.map_append, List.append_assoc]
  · rw [hvw.seen, huv.seen, List.map_append, List.append_assoc]
  · rw [hvw.anchorMs, huv.anchorMs, List.foldl_append]

theorem shows_push (w : Walk σ ν) (s : σ) (anchor : ν) :
    Shows w [(s, anchor)] (w.push s anchor) :=
  ⟨rfl, rfl, rfl⟩

theorem Shows.withholding {w w' : Walk σ ν} {rows : List (σ × ν)} (h : Shows w rows w')
    (withheld : List String) : Shows w rows { w' with withheld := withheld } :=
  ⟨h.list, h.seen, h.anchorMs⟩

/-- More rows are seen and more withheld, and the children of the new ones are seen or withheld. -/
structure Extends (sorted : List σ) (options : OrderOptions σ) (before after : Walk σ ν) :
    Prop where
  seen : ∀ id ∈ before.seen, id ∈ after.seen
  withheld : WithholdsMore sorted options before.withheld after.withheld
  closed : ∀ id ∈ after.seen, id ∉ before.seen →
    ∀ child ∈ childrenOf (children sorted options) id,
      storageId child ∈ after.seen ∨ storageId child ∈ after.withheld

theorem Extends.refl (w : Walk σ ν) : Extends sorted options w w :=
  ⟨fun _ h ↦ h, .refl _, fun _ h hnot ↦ absurd h hnot⟩

theorem Extends.trans {u v w : Walk σ ν} (huv : Extends sorted options u v)
    (hvw : Extends sorted options v w) : Extends sorted options u w := by
  refine ⟨fun id h ↦ hvw.seen id (huv.seen id h), huv.withheld.trans hvw.withheld, ?_⟩
  intro id hid hnot child hchild
  by_cases hmid : id ∈ v.seen
  · exact (huv.closed id hmid hnot child hchild).imp (hvw.seen _) (hvw.withheld.kept _)
  · exact hvw.closed id hid hmid child hchild

/-- A shown row is followed by its own children. -/
theorem Extends.of_push {w w' : Walk σ ν} {s : σ} {anchor : ν}
    (h : Extends sorted options (w.push s anchor) w')
    (hchildren : ∀ child ∈ childrenOf (children sorted options) (storageId s),
      storageId child ∈ w'.seen ∨ storageId child ∈ w'.withheld) :
    Extends sorted options w w' := by
  refine ⟨fun id hid ↦ h.seen id (List.mem_append_left _ hid), h.withheld, ?_⟩
  intro id hid hnot
  by_cases heq : id = storageId s
  · exact heq ▸ hchildren
  · exact h.closed id hid (by simp [Walk.push, hnot, heq])

section Append

variable {limit fuel : Nat} {w w' : Walk σ ν} {s : σ} {anchor : ν}

/-- What a call of `append` does: nothing, or it shows a collapsed row and withholds those under
it, or it shows a row and the ones nested in it. -/
theorem append_cases (h : append (children sorted options) options.collapsed limit (fuel + 1) w s
      anchor = some w') :
    (storageId s ∈ w.seen ∧ w' = w) ∨
    (storageId s ∉ w.seen ∧ storageId s ∈ options.collapsed ∧ ∃ withheld,
      withhold (children sorted options) limit w.withheld (storageId s) = some withheld ∧
      w' = { w.push s anchor with withheld := withheld }) ∨
    (storageId s ∉ w.seen ∧ storageId s ∉ options.collapsed ∧
      (childrenOf (children sorted options) (storageId s)).foldlM
        (fun w child ↦ append (children sorted options) options.collapsed limit fuel w child anchor)
        (w.push s anchor) = some w') := by
  unfold append at h
  by_cases hseen : storageId s ∈ w.seen
  · rw [if_pos hseen] at h
    exact .inl ⟨hseen, (Option.some.inj h).symm⟩
  · rw [if_neg hseen] at h
    by_cases hcollapsed : storageId s ∈ options.collapsed
    · rw [if_pos hcollapsed, Option.map_eq_some_iff] at h
      obtain ⟨withheld, hwithheld, rfl⟩ := h
      exact .inr (.inl ⟨hseen, hcollapsed, withheld, hwithheld, rfl⟩)
    · rw [if_neg hcollapsed] at h
      exact .inr (.inr ⟨hseen, hcollapsed, h⟩)

theorem append_extends (h : append (children sorted options) options.collapsed limit fuel w s
      anchor = some w') : Extends sorted options w w' ∧ storageId s ∈ w'.seen := by
  induction fuel generalizing w w' s with
  | zero => cases h
  | succ fuel ih =>
    rcases append_cases h with ⟨hseen, rfl⟩ | ⟨-, -, withheld, hwithheld, rfl⟩ | ⟨-, -, hloop⟩
    · exact ⟨.refl _, hseen⟩
    · obtain ⟨hmore, hchildren⟩ := withhold_spec hwithheld
      have hpush : Extends sorted options (w.push s anchor)
          { w.push s anchor with withheld := withheld } :=
        ⟨fun _ h ↦ h, hmore, fun _ h hnot ↦ absurd h hnot⟩
      exact ⟨hpush.of_push fun child hchild ↦ .inr (hchildren child hchild),
        List.mem_append_right _ (List.mem_singleton_self _)⟩
    · obtain ⟨hextends, hchildren⟩ := OptionFold.moves
        (Q := fun child w ↦ storageId child ∈ w.seen) Extends.refl Extends.trans
        (fun hQ hR ↦ hR.seen _ hQ) (fun child _ before after hround ↦ ih hround) hloop
      exact ⟨hextends.of_push fun child hchild ↦ .inl (hchildren child hchild),
        hextends.seen _ (List.mem_append_right _ (List.mem_singleton_self _))⟩

theorem append_completes (options : OrderOptions σ) (w : Walk σ ν) (anchor : ν)
    (hs : s ∈ sorted) (hlimit : sorted.length < limit)
    (hfuel : (remaining sorted w.seen).length < fuel) :
    ∃ w', append (children sorted options) options.collapsed limit fuel w s anchor = some w' := by
  induction fuel generalizing w s with
  | zero => omega
  | succ fuel ih =>
    unfold append
    by_cases hseen : storageId s ∈ w.seen
    · exact ⟨w, if_pos hseen⟩
    · rw [if_neg hseen]
      by_cases hcollapsed : storageId s ∈ options.collapsed
      · have hle := remaining_le_length sorted (w.push s anchor).withheld
        obtain ⟨withheld, hwithheld⟩ := withhold_completes sorted options
          (w.push s anchor).withheld (storageId s) (hle.trans_lt hlimit)
        rw [if_pos hcollapsed, hwithheld]
        exact ⟨_, rfl⟩
      · rw [if_neg hcollapsed]
        have hlt := remaining_concat_lt hs hseen
        have hpush : (remaining sorted (w.push s anchor).seen).length < fuel := by
          show (remaining sorted (w.seen ++ [storageId s])).length < fuel
          omega
        refine (OptionFold.completes
          (P := fun w : Walk σ ν ↦ (remaining sorted w.seen).length < fuel)
          (fun child hchild before hbefore ↦ ?_) hpush).imp fun _ h ↦ h.1
        obtain ⟨after, hafter⟩ := ih before (mem_childrenOf.mp hchild).1 hbefore
        have hle := remaining_le sorted (append_extends hafter).1.seen
        exact ⟨after, hafter, by omega⟩

/-- More fuel does not change what is shown. -/
theorem append_mono {limit' more : Nat} (hlimit : limit ≤ limit') (hle : fuel ≤ more)
    (h : append (children sorted options) options.collapsed limit fuel w s anchor = some w') :
    append (children sorted options) options.collapsed limit' more w s anchor = some w' := by
  induction fuel generalizing more w w' s with
  | zero => cases h
  | succ fuel ih =>
    obtain ⟨more, rfl⟩ : ∃ n, more = n + 1 := ⟨more - 1, by omega⟩
    rcases append_cases h with ⟨hseen, rfl⟩ | ⟨hseen, hcollapsed, withheld, hwithheld, rfl⟩ |
      ⟨hseen, hexpanded, hloop⟩
    · exact if_pos hseen
    · have hmono : withhold (children sorted options) limit' (w.push s anchor).withheld
          (storageId s) = some withheld := withhold_mono hlimit hwithheld
      rw [append, if_neg hseen, if_pos hcollapsed, hmono]
      rfl
    · rw [append, if_neg hseen, if_neg hexpanded]
      exact OptionFold.mono (fun child _ before after hround ↦ ih (by omega) hround) hloop

end Append

end AgentOdometer.Projection
