import AgentOdometer.Projection.DisplayWalk
import Mathlib.Data.Set.Finite.List
import Mathlib.Order.WellFoundedSet

/-!
# The grid shows the forest

Every row is shown once or lies under a collapsed row, and rows without a cycle of parents are
shown in the preorder of their forest.
-/

namespace AgentOdometer.Projection

open Std (ExtTreeMap)
open OrderableSession

variable {σ ν : Type} [OrderableSession σ ν] {sorted : List σ} {options : OrderOptions σ}

/-! ### What is shown and what is withheld -/

/-- The shown rows are distinct rows of the list, and what is withheld lies under a collapsed row
which is shown. -/
structure IsSound (sorted : List σ) (options : OrderOptions σ) (w : Walk σ ν) : Prop where
  shows : ∃ rows, Shows Walk.start rows w ∧ ∀ row ∈ rows, row.1 ∈ sorted
  nodup : w.seen.Nodup
  under : ∀ id ∈ w.withheld, ∃ s t, storageId s = id ∧ IsUnder sorted options s t ∧
    storageId t ∈ options.collapsed ∧ storageId t ∈ w.seen

theorem isSound_start : IsSound sorted options (Walk.start : Walk σ ν) :=
  ⟨⟨[], .refl _, (fun _ h ↦ nomatch h)⟩, .nil, (fun _ h ↦ nomatch h)⟩

theorem IsSound.push {w : Walk σ ν} (h : IsSound sorted options w) {s : σ} (hs : s ∈ sorted)
    (hnot : storageId s ∉ w.seen) (anchor : ν) : IsSound sorted options (w.push s anchor) := by
  obtain ⟨rows, hrows, hmem⟩ := h.shows
  refine ⟨⟨rows ++ [(s, anchor)], hrows.trans (shows_push w s anchor), ?_⟩, ?_, ?_⟩
  · intro row hrow
    rcases List.mem_append.mp hrow with hrow | hrow
    · exact hmem row hrow
    · rw [List.mem_singleton.mp hrow]
      exact hs
  · exact List.nodup_append'.mpr ⟨h.nodup, List.nodup_singleton _,
      List.disjoint_singleton.mpr hnot⟩
  · intro id hid
    obtain ⟨a, b, ha, hab, hcollapsed, hseen⟩ := h.under id hid
    exact ⟨a, b, ha, hab, hcollapsed, List.mem_append_left _ hseen⟩

theorem IsSound.append {limit fuel : Nat} {w w' : Walk σ ν} {s : σ} {anchor : ν} (hs : s ∈ sorted)
    (h : append (children sorted options) options.collapsed limit fuel w s anchor = some w')
    (hsound : IsSound sorted options w) : IsSound sorted options w' := by
  induction fuel generalizing w w' s with
  | zero => cases h
  | succ fuel ih =>
    rcases append_cases h with ⟨-, rfl⟩ | ⟨hseen, hcollapsed, withheld, hwithheld, rfl⟩ |
      ⟨hseen, -, hloop⟩
    · exact hsound
    · have hpush := hsound.push hs hseen anchor
      refine ⟨hpush.shows.imp fun _ h ↦ ⟨h.1.withholding _, h.2⟩, hpush.nodup, fun id hid ↦ ?_⟩
      rcases withhold_under hs hwithheld id hid with hid | ⟨t, rfl, ht⟩
      · exact hpush.under id hid
      · exact ⟨t, s, rfl, ht, hcollapsed,
          List.mem_append_right _ (List.mem_singleton_self _)⟩
    · exact OptionFold.invariant
        (fun child hchild before after hbefore hround ↦
          ih (mem_childrenOf.mp hchild).1 hround hbefore) hloop (hsound.push hs hseen anchor)

theorem Shows.start_list {w : Walk σ ν} {rows : List (σ × ν)} (h : Shows Walk.start rows w) :
    w.list = rows.map Prod.fst :=
  h.list

theorem IsSound.seen_eq {w : Walk σ ν} (h : IsSound sorted options w) :
    w.seen = w.list.map storageId := by
  obtain ⟨rows, hrows, -⟩ := h.shows
  rw [hrows.seen, hrows.list]
  simp [Walk.start]

theorem IsSound.mem_sorted {w : Walk σ ν} (h : IsSound sorted options w) {s : σ}
    (hs : s ∈ w.list) : s ∈ sorted := by
  obtain ⟨rows, hrows, hmem⟩ := h.shows
  rw [hrows.start_list] at hs
  obtain ⟨row, hrow, rfl⟩ := List.mem_map.mp hs
  exact hmem row hrow

/-! ### Rows without a cycle -/

theorem isChild_unique (hdistinct : HasDistinctIds sorted) {s t u : σ}
    (ht : IsChild sorted options s t) (hu : IsChild sorted options s u) : t = u :=
  eq_of_storageId_eq hdistinct ht.2.1 hu.2.1 (Option.some.inj (ht.2.2.symm.trans hu.2.2))

/-- The first row is the second one or lies under it. -/
abbrev IsWithin (sorted : List σ) (options : OrderOptions σ) : σ → σ → Prop :=
  Relation.ReflTransGen (IsChild sorted options)

theorem IsWithin.mem {s t : σ} (h : IsWithin sorted options s t) (ht : t ∈ sorted) :
    s ∈ sorted := by
  rcases h.cases_head with rfl | ⟨u, hsu, -⟩
  · exact ht
  · exact hsu.1

/-- Of two rows with one parent neither lies within the other. -/
theorem not_isWithin_sibling (hacyclic : IsAcyclic sorted options) {s t : σ} (ht : t ∈ sorted)
    (hne : s ≠ t) (hsame : presentParent sorted options s = presentParent sorted options t) :
    ¬ IsWithin sorted options s t := by
  intro hwithin
  rcases hwithin.cases_head with heq | ⟨u, hsu, hut⟩
  · exact hne heq
  · have htu : IsChild sorted options t u := ⟨ht, hsu.2.1, hsame ▸ hsu.2.2⟩
    exact hacyclic t (Relation.TransGen.head' htu hut)

/-- The trees of two rows with one parent are disjoint. -/
theorem disjoint_siblings (hdistinct : HasDistinctIds sorted) (hacyclic : IsAcyclic sorted options)
    {s t x : σ} (hs : s ∈ sorted) (ht : t ∈ sorted) (hne : s ≠ t)
    (hsame : presentParent sorted options s = presentParent sorted options t)
    (hxs : IsWithin sorted options x s) : ¬ IsWithin sorted options x t := by
  intro hxt
  have hunique : Relator.RightUnique (IsChild sorted options) :=
    fun _ _ _ hab hac ↦ isChild_unique hdistinct hab hac
  rcases Relation.ReflTransGen.total_of_right_unique hunique hxs hxt with h | h
  · exact not_isWithin_sibling hacyclic ht hne hsame h
  · exact not_isWithin_sibling hacyclic hs hne.symm hsame.symm h

theorem IsPreorder.append {pending pending' rows rows' : List (σ × ν)}
    (h : IsPreorder sorted options pending rows) (h' : IsPreorder sorted options pending' rows') :
    IsPreorder sorted options (pending ++ pending') (rows ++ rows') := by
  induction h with
  | nil => exact h'
  | collapsed hcollapsed _ ih => exact .collapsed hcollapsed ih
  | expanded hexpanded hbelow _ _ ih =>
    rw [List.append_assoc]
    exact .expanded hexpanded hbelow ih

/-- A loop over rows whose trees are disjoint and not shown yet shows the preorder of the trees. -/
theorem foldlM_preorder (hdistinct : HasDistinctIds sorted)
    {f : Walk σ ν → σ × ν → Option (Walk σ ν)} {pending : List (σ × ν)} {w w' : Walk σ ν}
    (hround : ∀ p ∈ pending, ∀ w w', f w p = some w' →
      (∀ x, IsWithin sorted options x p.1 → storageId x ∉ w.seen) →
        ∃ rows, Shows w rows w' ∧ IsPreorder sorted options [p] rows ∧
          ∀ row ∈ rows, IsWithin sorted options row.1 p.1)
    (hsorted : ∀ p ∈ pending, p.1 ∈ sorted)
    (hdisjoint : pending.Pairwise fun p q ↦
      ∀ x, IsWithin sorted options x p.1 → ¬ IsWithin sorted options x q.1)
    (hfresh : ∀ p ∈ pending, ∀ x, IsWithin sorted options x p.1 → storageId x ∉ w.seen)
    (hloop : pending.foldlM f w = some w') :
    ∃ rows, Shows w rows w' ∧ IsPreorder sorted options pending rows ∧
      ∀ row ∈ rows, ∃ p ∈ pending, IsWithin sorted options row.1 p.1 := by
  induction pending generalizing w with
  | nil =>
    obtain rfl := Option.some.inj hloop
    exact ⟨[], .refl _, .nil, fun _ h ↦ nomatch h⟩
  | cons p pending ih =>
    obtain ⟨v, hv, hrest⟩ := OptionFold.foldlM_cons_eq_some.mp hloop
    rw [List.forall_mem_cons] at hsorted hfresh
    obtain ⟨hapart, hdisjoint⟩ := List.pairwise_cons.mp hdisjoint
    obtain ⟨rows, hrows, hpreorder, hwithin⟩ := hround p List.mem_cons_self w v hv hfresh.1
    have hfresh' : ∀ q ∈ pending, ∀ x, IsWithin sorted options x q.1 → storageId x ∉ v.seen := by
      intro q hq x hx
      rw [hrows.seen, List.mem_append, List.mem_map]
      rintro (hin | ⟨row, hrow, heq⟩)
      · exact hfresh.2 q hq x hx hin
      · have hmem := (hwithin row hrow).mem hsorted.1
        obtain rfl := eq_of_storageId_eq hdistinct hmem (hx.mem (hsorted.2 q hq)) heq
        exact hapart q hq _ (hwithin row hrow) hx
    obtain ⟨rows', hrows', hpreorder', hwithin'⟩ := ih
      (fun q hq ↦ hround q (List.mem_cons_of_mem _ hq)) hsorted.2 hdisjoint hfresh' hrest
    refine ⟨rows ++ rows', hrows.trans hrows', hpreorder.append hpreorder', fun row hrow ↦ ?_⟩
    rcases List.mem_append.mp hrow with hrow | hrow
    · exact ⟨p, List.mem_cons_self, hwithin row hrow⟩
    · obtain ⟨q, hq, hrow⟩ := hwithin' row hrow
      exact ⟨q, List.mem_cons_of_mem _ hq, hrow⟩

/-- Distinct rows with one parent have disjoint trees, whatever their anchors. -/
theorem pairwise_disjoint (hdistinct : HasDistinctIds sorted) (hacyclic : IsAcyclic sorted options)
    (parent : Option String) (anchor : σ → ν) :
    ((sorted.filter fun s ↦ presentParent sorted options s = parent).map
      fun s ↦ (s, anchor s)).Pairwise fun p q ↦
        ∀ x, IsWithin sorted options x p.1 → ¬ IsWithin sorted options x q.1 := by
  rw [List.pairwise_map]
  have hnodup : (sorted.filter fun s ↦ presentParent sorted options s = parent).Nodup :=
    (List.Nodup.of_map _ hdistinct).filter _
  refine hnodup.imp_of_mem fun {s t} hs ht hne x hxs ↦ ?_
  rw [List.mem_filter, decide_eq_true_eq] at hs ht
  exact disjoint_siblings hdistinct hacyclic hs.1 ht.1 hne (hs.2.trans ht.2.symm) hxs

/-- A row whose tree is not shown yet is appended with its tree in preorder. -/
theorem append_preorder (hdistinct : HasDistinctIds sorted) (hacyclic : IsAcyclic sorted options)
    {limit fuel : Nat} {w w' : Walk σ ν} {s : σ} {anchor : ν} (hs : s ∈ sorted)
    (h : append (children sorted options) options.collapsed limit fuel w s anchor = some w')
    (hfresh : ∀ x, IsWithin sorted options x s → storageId x ∉ w.seen) :
    ∃ rows, Shows w rows w' ∧ IsPreorder sorted options [(s, anchor)] rows ∧
      ∀ row ∈ rows, IsWithin sorted options row.1 s := by
  induction fuel generalizing w w' s with
  | zero => cases h
  | succ fuel ih =>
    rcases append_cases h with ⟨hseen, -⟩ | ⟨-, hcollapsed, withheld, -, rfl⟩ |
      ⟨-, hexpanded, hloop⟩
    · exact absurd hseen (hfresh s .refl)
    · refine ⟨[(s, anchor)], (shows_push w s anchor).withholding _, .collapsed hcollapsed .nil, ?_⟩
      intro row hrow
      rw [List.mem_singleton.mp hrow]
    · have hloop' : ((childrenOf (children sorted options) (storageId s)).map (·, anchor)).foldlM
          (fun w p ↦ append (children sorted options) options.collapsed limit fuel w p.1 p.2)
          (w.push s anchor) = some w' := by
        rw [List.foldlM_map]
        exact hloop
      have hchild : ∀ p ∈ (childrenOf (children sorted options) (storageId s)).map (·, anchor),
          IsChild sorted options p.1 s ∧ p = (p.1, anchor) := by
        intro p hp
        obtain ⟨child, hchild, rfl⟩ := List.mem_map.mp hp
        exact ⟨isChild_of_mem hs hchild, rfl⟩
      have hround : ∀ p ∈ (childrenOf (children sorted options) (storageId s)).map (·, anchor),
          ∀ v v', append (children sorted options) options.collapsed limit fuel v p.1 p.2 =
            some v' →
            (∀ x, IsWithin sorted options x p.1 → storageId x ∉ v.seen) →
              ∃ rows, Shows v rows v' ∧ IsPreorder sorted options [p] rows ∧
                ∀ row ∈ rows, IsWithin sorted options row.1 p.1 := by
        intro p hp v v' hv hp'
        rw [(hchild p hp).2] at hv ⊢
        exact ih (hchild p hp).1.1 hv hp'
      have hpushed : ∀ p ∈ (childrenOf (children sorted options) (storageId s)).map (·, anchor),
          ∀ x, IsWithin sorted options x p.1 → storageId x ∉ (w.push s anchor).seen := by
        intro p hp x hx
        show storageId x ∉ w.seen ++ [storageId s]
        rw [List.mem_append, List.mem_singleton]
        rintro (hin | heq)
        · exact hfresh x (hx.tail (hchild p hp).1) hin
        · obtain rfl := eq_of_storageId_eq hdistinct (hx.mem (hchild p hp).1.1) hs heq
          exact hacyclic _ (Relation.TransGen.tail' hx (hchild p hp).1)
      have hdisjoint := pairwise_disjoint hdistinct hacyclic (some (storageId s)) fun _ ↦ anchor
      rw [← childrenOf_children] at hdisjoint
      obtain ⟨rows, hrows, hpreorder, hwithin⟩ := foldlM_preorder hdistinct hround
        (fun p hp ↦ (hchild p hp).1.1) hdisjoint hpushed hloop'
      rw [childrenOf_children] at hpreorder
      refine ⟨(s, anchor) :: rows, (shows_push w s anchor).trans hrows, ?_, ?_⟩
      · rw [← List.append_nil rows]
        exact .expanded hexpanded hpreorder .nil
      · intro row hrow
        rcases List.mem_cons.mp hrow with rfl | hrow
        · exact .refl
        · obtain ⟨p, hp, hrow⟩ := hwithin row hrow
          exact hrow.tail (hchild p hp).1

/-- Once the roots are seen, every row is seen or withheld. -/
theorem seen_or_withheld (hacyclic : IsAcyclic sorted options) {w : Walk σ ν}
    (hextends : Extends sorted options Walk.start w)
    (hroots : ∀ root ∈ roots sorted options, storageId root ∈ w.seen) {s : σ} (hs : s ∈ sorted) :
    storageId s ∈ w.seen ∨ storageId s ∈ w.withheld := by
  have horder : IsStrictOrder σ fun t s ↦ IsUnder sorted options s t :=
    { irrefl := hacyclic
      trans := fun _ _ _ hab hbc ↦ Relation.TransGen.trans hbc hab }
  have hwell : {s | s ∈ sorted}.WellFoundedOn fun t s ↦ IsUnder sorted options s t :=
    (List.finite_toSet sorted).wellFoundedOn
  refine hwell.induction (P := fun s ↦ storageId s ∈ w.seen ∨ storageId s ∈ w.withheld) hs
    fun s hs ih ↦ ?_
  cases hparent : presentParent sorted options s with
  | none => exact .inl (hroots s (List.mem_filter.mpr ⟨hs, by rw [hparent]; rfl⟩))
  | some id =>
    obtain ⟨t, ht, rfl⟩ := exists_parent hs hparent
    rcases ih t ht.2.1 (.single ht) with hseen | hwithheld
    · exact hextends.closed _ hseen (fun h ↦ nomatch h) s ht.mem
    · exact .inr (hextends.withheld.closed _ hwithheld (fun h ↦ nomatch h) s ht.mem)

/-- The anchors of shown rows. -/
theorem getElem?_anchors {rows : List (σ × ν)} {anchorMs : ExtTreeMap String ν}
    (hnodup : (rows.map fun row ↦ storageId row.1).Nodup) {row : σ × ν} (hrow : row ∈ rows) :
    (rows.foldl (fun anchorMs row ↦ anchorMs.insert (storageId row.1) row.2)
      anchorMs)[storageId row.1]? = some row.2 := by
  induction rows using List.reverseRecOn with
  | nil => cases hrow
  | append_singleton rows last ih =>
    rw [List.map_append, List.nodup_append'] at hnodup
    rw [List.foldl_append, List.foldl_cons, List.foldl_nil, ExtTreeMap.getElem?_insert]
    rcases List.mem_append.mp hrow with hrow | hrow
    · have hne : storageId last.1 ≠ storageId row.1 := fun heq ↦
        hnodup.2.2 (List.mem_map_of_mem hrow) (by simp [heq])
      rw [if_neg fun heq ↦ hne (Std.compare_eq_iff_eq.mp heq)]
      exact ih hnodup.1 hrow
    · rw [List.mem_singleton.mp hrow, if_pos (Std.compare_eq_iff_eq.mpr rfl)]

/-! ### The two passes -/

/-- The pass over the roots. -/
def rootPass (fuel : Nat) (sorted : List σ) (options : OrderOptions σ) : Option (Walk σ ν) :=
  (roots sorted options).foldlM (fun w root ↦
    append (children sorted options) options.collapsed fuel fuel w root (startedMs root)) Walk.start

/-- The pass over the rows which no root reaches. -/
def sweepPass (fuel : Nat) (sorted : List σ) (options : OrderOptions σ) (w : Walk σ ν) :
    Option (Walk σ ν) :=
  sorted.foldlM (fun w session ↦
    if storageId session ∉ w.seen ∧ storageId session ∉ w.withheld then
      append (children sorted options) options.collapsed fuel fuel w session (startedMs session)
    else some w) w

theorem orderTree_eq (fuel : Nat) :
    (orderTree fuel sorted options : Option (Walk σ ν)) =
      (rootPass fuel sorted options).bind (sweepPass fuel sorted options) :=
  rfl

theorem mem_of_mem_roots {root : σ} (h : root ∈ roots sorted options) : root ∈ sorted :=
  (List.mem_filter.mp h).1

section Passes

variable {fuel : Nat} {w₁ w : Walk σ ν}

theorem rootPass_spec (h : rootPass fuel sorted options = some w₁) :
    Extends sorted options Walk.start w₁ ∧
      ∀ root ∈ roots sorted options, storageId root ∈ w₁.seen :=
  OptionFold.moves (Q := fun s w ↦ storageId s ∈ w.seen) Extends.refl Extends.trans
    (fun hQ hR ↦ hR.seen _ hQ) (fun _ _ _ _ hround ↦ append_extends hround) h

theorem rootPass_sound (h : rootPass fuel sorted options = some w₁) :
    IsSound sorted options w₁ :=
  OptionFold.invariant (fun _ hroot _ _ hbefore hround ↦
    hbefore.append (mem_of_mem_roots hroot) hround) h isSound_start

theorem sweepPass_sound (h : sweepPass fuel sorted options w₁ = some w)
    (hsound : IsSound sorted options w₁) : IsSound sorted options w := by
  refine OptionFold.invariant (fun s hs before after hbefore hround ↦ ?_) h hsound
  split at hround
  · exact hbefore.append hs hround
  · exact Option.some.inj hround ▸ hbefore

theorem sweepPass_covers (h : sweepPass fuel sorted options w₁ = some w) {s : σ}
    (hs : s ∈ sorted) : storageId s ∈ w.seen ∨ storageId s ∈ w.withheld := by
  refine (OptionFold.moves (R := Extends sorted options)
    (Q := fun s w ↦ storageId s ∈ w.seen ∨ storageId s ∈ w.withheld) Extends.refl Extends.trans
    (fun hQ hR ↦ hQ.imp (hR.seen _) (hR.withheld.kept _)) (fun s _ before after hround ↦ ?_) h).2
      s hs
  split at hround
  · obtain ⟨hextends, hseen⟩ := append_extends hround
    exact ⟨hextends, .inl hseen⟩
  · rename_i hskip
    obtain rfl := Option.some.inj hround
    refine ⟨.refl _, ?_⟩
    by_contra hnone
    exact hskip (not_or.mp hnone)

/-- The passes return once the fuel exceeds the number of rows. -/
theorem exists_passes (sorted : List σ) (options : OrderOptions σ)
    (hfuel : sorted.length < fuel) : ∃ w₁ w : Walk σ ν,
      rootPass fuel sorted options = some w₁ ∧ sweepPass fuel sorted options w₁ = some w := by
  have happend : ∀ s ∈ sorted, ∀ w : Walk σ ν, ∃ w', append (children sorted options)
      options.collapsed fuel fuel w s (startedMs s) = some w' ∧ True := by
    intro s hs w
    obtain ⟨w', hw'⟩ := append_completes options w (startedMs s) hs
      hfuel ((remaining_le_length _ _).trans_lt hfuel)
    exact ⟨w', hw', trivial⟩
  obtain ⟨w₁, hw₁, -⟩ : ∃ w₁, rootPass fuel sorted options = some w₁ ∧ True :=
    OptionFold.completes (P := fun _ : Walk σ ν ↦ True)
      (fun root hroot w _ ↦ happend root (mem_of_mem_roots hroot) w) trivial
  obtain ⟨w, hw, -⟩ : ∃ w, sweepPass fuel sorted options w₁ = some w ∧ True := by
    refine OptionFold.completes (P := fun _ : Walk σ ν ↦ True) (fun s hs w _ ↦ ?_) trivial
    by_cases hunseen : storageId s ∉ w.seen ∧ storageId s ∉ w.withheld
    · rw [if_pos hunseen]
      exact happend s hs w
    · rw [if_neg hunseen]
      exact ⟨w, rfl, trivial⟩
  exact ⟨w₁, w, hw₁, hw⟩

/-- More fuel gives the same walk. -/
theorem orderTree_mono {more : Nat} (hle : fuel ≤ more)
    (hpass : rootPass fuel sorted options = some w₁)
    (hsweep : sweepPass fuel sorted options w₁ = some w) :
    orderTree more sorted options = some w := by
  have hpass' : rootPass more sorted options = some w₁ :=
    OptionFold.mono (fun _ _ _ _ hround ↦ append_mono hle hle hround) hpass
  have hsweep' : sweepPass more sorted options w₁ = some w := by
    refine OptionFold.mono (fun s _ before after hround ↦ ?_) hsweep
    split at hround
    · rename_i hunseen
      rw [if_pos hunseen]
      exact append_mono hle hle hround
    · rename_i hskip
      rwa [if_neg hskip]
  rw [orderTree_eq, hpass', Option.bind_some, hsweep']

/-- A row which is not shown lies under a collapsed row which is. -/
theorem under_collapsed (hdistinct : HasDistinctIds sorted) (hsound : IsSound sorted options w)
    (hcovered : ∀ {s}, s ∈ sorted → storageId s ∈ w.seen ∨ storageId s ∈ w.withheld) {s : σ}
    (hs : s ∈ sorted) (hmissing : s ∉ w.list) :
    ∃ t ∈ sorted, t ≠ s ∧ storageId t ∈ options.collapsed ∧ IsUnder sorted options s t := by
  have hunseen : storageId s ∉ w.seen := by
    rw [hsound.seen_eq, List.mem_map]
    rintro ⟨t, ht, heq⟩
    exact hmissing (eq_of_storageId_eq hdistinct (hsound.mem_sorted ht) hs heq ▸ ht)
  obtain ⟨s', t, heq, hunder, ht, htseen⟩ := hsound.under _ ((hcovered hs).resolve_left hunseen)
  obtain ⟨u, hsu, -⟩ := Relation.TransGen.head'_iff.mp hunder
  obtain ⟨v, -, hvt⟩ := Relation.TransGen.tail'_iff.mp hunder
  obtain rfl := eq_of_storageId_eq hdistinct hsu.1 hs heq
  exact ⟨t, hvt.2.1, fun heq ↦ hunseen (heq ▸ htseen), ht, hunder⟩

/-- Without a cycle the sweep finds nothing. -/
theorem sweepPass_idle (hacyclic : IsAcyclic sorted options)
    (hpass : rootPass fuel sorted options = some w₁) :
    sweepPass fuel sorted options w₁ = some w₁ := by
  obtain ⟨hextends, hroots⟩ := rootPass_spec hpass
  refine OptionFold.idle fun s hs ↦ if_neg fun hunseen ↦ ?_
  rcases seen_or_withheld hacyclic hextends hroots hs with h | h
  · exact hunseen.1 h
  · exact hunseen.2 h

theorem roots_eq : roots sorted options =
    sorted.filter fun s ↦ presentParent sorted options s = none := by
  unfold roots
  congr 1
  funext s
  cases presentParent sorted options s <;> rfl

/-- Without a cycle the pass over the roots shows the preorder of their trees. -/
theorem rootPass_preorder (hdistinct : HasDistinctIds sorted) (hacyclic : IsAcyclic sorted options)
    (hpass : rootPass fuel sorted options = some w₁) :
    ∃ rows, IsPreorder sorted options
        ((roots sorted options).map fun root ↦ (root, startedMs root)) rows ∧
      w₁.list = rows.map Prod.fst ∧ ∀ row ∈ rows, w₁.anchorMs[storageId row.1]? = some row.2 := by
  have hpass' : ((roots sorted options).map fun root ↦ (root, startedMs root)).foldlM
      (fun w p ↦ append (children sorted options) options.collapsed fuel fuel w p.1 p.2)
      Walk.start = some w₁ := by
    rw [List.foldlM_map]
    exact hpass
  have hmem : ∀ p ∈ (roots sorted options).map fun root ↦ (root, startedMs root),
      p.1 ∈ sorted := by
    intro p hp
    obtain ⟨root, hroot, rfl⟩ := List.mem_map.mp hp
    exact mem_of_mem_roots hroot
  have hdisjoint := pairwise_disjoint hdistinct hacyclic none (startedMs : σ → ν)
  rw [← roots_eq] at hdisjoint
  obtain ⟨rows, hrows, hpreorder, -⟩ := foldlM_preorder hdistinct
    (fun p hp v v' hround hfresh ↦ append_preorder hdistinct hacyclic (hmem p hp) hround hfresh)
    hmem hdisjoint (fun _ _ _ _ ↦ List.not_mem_nil) hpass'
  have hnodup := (rootPass_sound hpass).nodup
  rw [hrows.seen] at hnodup
  refine ⟨rows, hpreorder, hrows.start_list, fun row hrow ↦ ?_⟩
  rw [hrows.anchorMs]
  exact getElem?_anchors hnodup hrow

end Passes

/-- The grid shows every row once, apart from rows under a collapsed one; without a cycle of
parents it shows the preorder of the forest, pruned below the collapsed rows, each row anchored to
the start of its root. -/
theorem orderSessionsForDisplay_forest (sorted : List σ) (parentOf : σ → Option String)
    (collapsed : List String) (hdistinct : HasDistinctIds sorted) :
    ∃ shown : DisplayOrder σ ν,
      (∀ fuel > sorted.length,
        orderSessionsForDisplay fuel sorted ⟨parentOf, collapsed, false⟩ = some shown) ∧
      (shown.list.map storageId).Nodup ∧ (∀ s ∈ shown.list, s ∈ sorted) ∧
      (∀ s ∈ sorted, s ∉ shown.list → ∃ t ∈ sorted, t ≠ s ∧ storageId t ∈ collapsed ∧
        IsUnder sorted ⟨parentOf, collapsed, false⟩ s t) ∧
      (IsAcyclic sorted ⟨parentOf, collapsed, false⟩ → ∃ rows : List (σ × ν),
        IsPreorder sorted ⟨parentOf, collapsed, false⟩
          ((roots sorted ⟨parentOf, collapsed, false⟩).map fun root ↦ (root, startedMs root)) rows ∧
        shown.list = rows.map Prod.fst ∧
        ∀ row ∈ rows, shown.anchorMs[storageId row.1]? = some row.2) := by
  obtain ⟨w₁, w, hpass, hsweep⟩ := exists_passes (ν := ν) sorted ⟨parentOf, collapsed, false⟩
    (Nat.lt_succ_self sorted.length)
  have hsound := sweepPass_sound hsweep (rootPass_sound hpass)
  refine ⟨⟨w.list, w.anchorMs⟩, fun fuel hfuel ↦ ?_, ?_, fun s ↦ hsound.mem_sorted, ?_, ?_⟩
  · rw [orderSessionsForDisplay, if_neg Bool.false_ne_true, orderTree_mono hfuel hpass hsweep]
    rfl
  · rw [← hsound.seen_eq]
    exact hsound.nodup
  · exact fun s hs ↦ under_collapsed hdistinct hsound (sweepPass_covers hsweep) hs
  · intro hacyclic
    obtain rfl := Option.some.inj ((sweepPass_idle hacyclic hpass).symm.trans hsweep)
    exact rootPass_preorder hdistinct hacyclic hpass

/-- A row as its id and its parent, started at its number. -/
instance : OrderableSession (String × Option String × Nat) Nat :=
  ⟨fun row ↦ row.1, fun row ↦ row.2.2⟩

/-- A collapsed row hides the one below it, and a cycle is shown from its first row. -/
theorem orderSessionsForDisplay_demo :
    ∃ shown : DisplayOrder (String × Option String × Nat) Nat,
      (∀ fuel > 4, orderSessionsForDisplay fuel [("a", none, 1), ("b", some "a", 2),
        ("c", some "d", 3), ("d", some "c", 4)] ⟨fun row ↦ row.2.1, ["a"], false⟩ = some shown) ∧
      shown.list.map Prod.fst = ["a", "c", "d"] := by
  obtain ⟨shown, hshown, -⟩ := orderSessionsForDisplay_forest
    [("a", none, 1), ("b", some "a", 2), ("c", some "d", 3), ("d", some "c", 4)]
    (fun row : String × Option String × Nat ↦ row.2.1) ["a"] (by decide)
  refine ⟨shown, hshown, ?_⟩
  have hlist : (orderSessionsForDisplay 5 [("a", none, 1), ("b", some "a", 2), ("c", some "d", 3),
      ("d", some "c", 4)] ⟨fun row : String × Option String × Nat ↦ row.2.1, ["a"], false⟩).map
        (fun shown ↦ shown.list.map Prod.fst) = some ["a", "c", "d"] := by
    decide +kernel
  rw [hshown 5 (Nat.lt_succ_self 4)] at hlist
  exact Option.some.inj hlist

end AgentOdometer.Projection
