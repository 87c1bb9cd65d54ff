import AgentOdometer.Base.Text
import AgentOdometer.Lib.RootCover
import AgentOdometer.Model.Provider

/-!
# Session sources

The roots under which the providers keep their sessions, and the set which assigns each path to at
most one of them (`provider.rs:157–300,571–584`, `paths.rs:15–36`). How a platform parts a path
into components is a parameter.
-/

namespace AgentOdometer

/-- `strip_verbatim_prefix`, `paths.rs:24–36`. -/
def stripVerbatimPrefix (path : String) : String :=
  match Text.stripPrefix path "\\\\?\\UNC\\" with
  | some stripped => "\\\\" ++ stripped
  | none =>
      match Text.stripPrefix path "\\\\?\\" with
      | some stripped => stripped
      | none => path

/-- Follows `provider.rs:157–161`. -/
inductive ProviderSourceKind where
  | live
  | archived
deriving Repr, DecidableEq

/-- `ProviderSourceKind::is_archived`, `provider.rs:164–166`. -/
def ProviderSourceKind.isArchived : ProviderSourceKind → Bool
  | live => false
  | archived => true

/-- A root of a provider. Follows `provider.rs:169–174`. -/
structure ProviderSource where
  providerId : ProviderId
  root : String
  kind : ProviderSourceKind
deriving Repr, DecidableEq

/-- The validated sources. Follows `provider.rs:199–205`. -/
structure ProviderSourceSet where
  sources : List ProviderSource
deriving Repr, DecidableEq

/-- `ProviderRegistry::adapter`, `provider.rs:564–568`. -/
def ProviderRegistry.adapter (providerId : ProviderId) : Option ProviderDescriptor :=
  descriptors.find? fun descriptor ↦ descriptor.id == providerId

/-- `same_owner`, `provider.rs:571–573`. -/
def sameOwner (left right : ProviderSource) : Bool :=
  left.providerId == right.providerId && left.kind == right.kind

/-- The owner whose sources absorb one another. -/
def ProviderSource.owner (source : ProviderSource) : ProviderId × ProviderSourceKind :=
  (source.providerId, source.kind)

section

variable {κ : Type} [DecidableEq κ] (components : String → List κ)

/-- `root_contains`, `provider.rs:581–584`. -/
def rootContains (parent child : String) : Bool :=
  (components (stripVerbatimPrefix parent)).isPrefixOf (components (stripVerbatimPrefix child))

/-- `roots_overlap`, `provider.rs:575–579`. -/
def rootsOverlap (left right : String) : Bool :=
  (components (stripVerbatimPrefix right)).isPrefixOf (components (stripVerbatimPrefix left)) ||
    (components (stripVerbatimPrefix left)).isPrefixOf (components (stripVerbatimPrefix right))

namespace ProviderSourceSet

/-- The error of two sources which claim one path. Follows `provider.rs:238–242,262–266`. -/
def ambiguousOwnership (left right : ProviderSource) : String :=
  "overlapping provider roots " ++ left.root.quote ++ " and " ++ right.root.quote ++
    " have ambiguous ownership"

/-- The checks of one source by itself. Follows `provider.rs:222–233`. -/
def checkSource (source : ProviderSource) : Except String Unit :=
  if source.root = "" then .error "provider source root must not be empty"
  else
    match ProviderRegistry.adapter source.providerId with
    | none => .error ("unknown provider id '" ++ source.providerId.value ++ "'")
    | some adapter =>
        if source.kind.isArchived && !adapter.capabilities.archivedSources then
          .error ("provider '" ++ source.providerId.value ++
            "' does not support archived sources")
        else .ok ()

/-- One round of the loop. Follows `provider.rs:221–255`. -/
def addSource (unique : List ProviderSource) (source : ProviderSource) :
    Except String (List ProviderSource) := do
  checkSource source
  match unique.find? fun existing ↦
      rootsOverlap components existing.root source.root && !sameOwner existing source with
  | some existing => .error (ambiguousOwnership existing source)
  | none =>
      .ok (if unique.any fun existing ↦
          sameOwner existing source && rootContains components existing.root source.root then
        unique
      else
        unique.filter (fun existing ↦
          !(sameOwner existing source && rootContains components source.root existing.root)) ++
            [source])

/-- The first two sources which claim one path. Follows `provider.rs:257–267`. -/
def findAmbiguous : List ProviderSource → Option (ProviderSource × ProviderSource)
  | [] => none
  | left :: rest =>
      match rest.find? fun right ↦
          rootsOverlap components left.root right.root && !sameOwner left right with
      | some right => some (left, right)
      | none => findAmbiguous rest

/-- `ProviderSourceSet::try_new`, `provider.rs:217–273`. -/
def tryNew (sources : List ProviderSource) : Except String ProviderSourceSet := do
  let unique ← sources.foldlM (addSource components) []
  match findAmbiguous components unique with
  | some (left, right) => .error (ambiguousOwnership left right)
  | none => .ok ⟨unique⟩

/-- The greater of the best so far and the next element, which wins a tie. -/
def keepGreatest {α : Type} (key : α → Nat) (best : Option α) (a : α) : Option α :=
  match best with
  | none => some a
  | some b => if key b ≤ key a then some a else some b

/-- `Iterator::max_by_key`: the last of the greatest. -/
def maxByKey {α : Type} (key : α → Nat) (l : List α) : Option α :=
  l.foldl (keepGreatest key) none

/-- `ProviderSourceSet::resolve`, `provider.rs:289–299`. -/
def resolve (set : ProviderSourceSet) (path : String) : Option ProviderSource :=
  maxByKey (fun source ↦ (components (stripVerbatimPrefix source.root)).length)
    (set.sources.filter fun source ↦ rootContains components source.root path)

/-- The owners of the accepted roots, each root as the components which are compared. -/
def owned (set : ProviderSourceSet) : List ((ProviderId × ProviderSourceKind) × List κ) :=
  set.sources.map fun source ↦ (source.owner, components (stripVerbatimPrefix source.root))

/-- A source which passes its own checks: a root, a known provider, and an archive only of a
provider which has archives. -/
def IsValid (source : ProviderSource) : Prop :=
  source.root ≠ "" ∧ ∃ adapter, ProviderRegistry.adapter source.providerId = some adapter ∧
    (source.kind = .archived → adapter.capabilities.archivedSources = true)

end ProviderSourceSet

end

namespace ProviderSourceSet

variable {κ : Type} [DecidableEq κ] {components : String → List κ}

/-- The containment of the roots of sources. -/
def contains (components : String → List κ) (parent child : ProviderSource) : Bool :=
  rootContains components parent.root child.root

theorem sameOwner_eq (left right : ProviderSource) :
    sameOwner left right = decide (left.owner = right.owner) := by
  rw [Bool.eq_iff_iff]
  simp [sameOwner, ProviderSource.owner]

theorem rootContains_iff {parent child : String} : rootContains components parent child = true ↔
    components (stripVerbatimPrefix parent) <+: components (stripVerbatimPrefix child) :=
  List.isPrefixOf_iff_prefix

theorem isForest_contains : RootCover.IsForest (contains components) where
  refl := fun _ ↦ rootContains_iff.mpr List.prefix_rfl
  trans := fun hab hbc ↦
    rootContains_iff.mpr ((rootContains_iff.mp hab).trans (rootContains_iff.mp hbc))
  chain := fun hac hbc ↦ by
    rcases List.prefix_or_prefix_of_prefix (rootContains_iff.mp hac) (rootContains_iff.mp hbc)
      with h | h
    · exact .inl (rootContains_iff.mpr h)
    · exact .inr (rootContains_iff.mpr h)

/-- The ambiguity check is a conflict of owners. -/
theorem conflicts_eq (left right : ProviderSource) :
    (rootsOverlap components left.root right.root && !sameOwner left right) =
      RootCover.conflicts (contains components) ProviderSource.owner left right := by
  unfold RootCover.conflicts RootCover.overlaps rootsOverlap contains rootContains
  rw [Bool.or_comm, sameOwner_eq]
  rfl

/-- The update of the kept sources is the one of a cover. -/
theorem absorb_eq (unique : List ProviderSource) (source : ProviderSource) :
    (if unique.any fun existing ↦
        sameOwner existing source && rootContains components existing.root source.root then
      unique
    else
      unique.filter (fun existing ↦
        !(sameOwner existing source && rootContains components source.root existing.root)) ++
          [source]) =
      RootCover.absorb (contains components) ProviderSource.owner unique source := by
  simp only [sameOwner_eq]
  rfl

theorem checkSource_eq_ok {source : ProviderSource} :
    checkSource source = .ok () ↔ IsValid source := by
  unfold checkSource IsValid
  split
  · rename_i hempty
    simp [hempty]
  · rename_i hroot
    cases hadapter : ProviderRegistry.adapter source.providerId with
    | none => simp
    | some adapter =>
      cases hkind : source.kind <;>
        cases harchived : adapter.capabilities.archivedSources <;>
          simp [hroot, ProviderSourceKind.isArchived, harchived]

/-- A source is added when it is valid and conflicts with none of the kept ones. -/
theorem addSource_eq_ok {unique added : List ProviderSource} {source : ProviderSource} :
    addSource components unique source = .ok added ↔ IsValid source ∧
      (∀ b ∈ unique,
        RootCover.conflicts (contains components) ProviderSource.owner b source = false) ∧
      added = RootCover.absorb (contains components) ProviderSource.owner unique source := by
  unfold addSource
  rw [← checkSource_eq_ok]
  cases hcheck : checkSource source with
  | error e => simp [bind, Except.bind]
  | ok _ =>
    simp only [conflicts_eq, absorb_eq, bind, Except.bind, true_and]
    cases hfind : unique.find?
        (RootCover.conflicts (contains components) ProviderSource.owner · source) with
    | some existing =>
      have hconflict := List.find?_some hfind
      have hmem := List.mem_of_find?_eq_some hfind
      constructor
      · intro h
        cases h
      · intro h
        rw [h.1 existing hmem] at hconflict
        cases hconflict
    | none =>
      have hclear : ∀ b ∈ unique,
          RootCover.conflicts (contains components) ProviderSource.owner b source = false := by
        simpa using hfind
      constructor
      · intro h
        cases h
        exact ⟨hclear, rfl⟩
      · intro h
        rw [h.2]

/-- The sources added so far are valid and unambiguous, and the kept ones cover them. -/
structure IsAccepted (components : String → List κ) (listed unique : List ProviderSource) :
    Prop where
  valid : ∀ s ∈ listed, IsValid s
  clear : RootCover.Unambiguous (contains components) ProviderSource.owner listed
  cover : RootCover.IsCover (contains components) ProviderSource.owner listed unique

theorem isAccepted_nil (components : String → List κ) : IsAccepted components [] [] :=
  ⟨(fun _ h ↦ nomatch h), (fun _ h ↦ nomatch h), RootCover.isCover_nil⟩

/-- A source conflicts with no source of its own owner. -/
theorem not_conflicts_self (s : ProviderSource) :
    RootCover.conflicts (contains components) ProviderSource.owner s s = false := by
  simp [RootCover.conflicts]

/-- A list is unambiguous with one more source if that source conflicts with none of it. -/
theorem unambiguous_concat {listed : List ProviderSource} {s : ProviderSource} :
    RootCover.Unambiguous (contains components) ProviderSource.owner (listed ++ [s]) ↔
      RootCover.Unambiguous (contains components) ProviderSource.owner listed ∧
        ∀ a ∈ listed, RootCover.conflicts (contains components) ProviderSource.owner a s =
          false := by
  constructor
  · intro h
    refine ⟨fun a ha b hb ↦ ?_, fun a ha ↦ ?_⟩
    · exact h a (List.mem_append_left _ ha) b (List.mem_append_left _ hb)
    · exact h a (List.mem_append_left _ ha) s (List.mem_append_right _ (List.mem_singleton_self s))
  · intro ⟨hlisted, hs⟩ a ha b hb
    rw [List.mem_append, List.mem_singleton] at ha hb
    rcases ha with ha | rfl <;> rcases hb with hb | rfl
    · exact hlisted a ha b hb
    · exact hs a ha
    · rw [RootCover.conflicts_comm]
      exact hs b hb
    · exact not_conflicts_self _

/-- One more source is added exactly when the longer list is acceptable. -/
theorem IsAccepted.addSource {listed unique : List ProviderSource}
    (h : IsAccepted components listed unique) (s : ProviderSource) :
    (∀ added, addSource components unique s = .ok added →
      IsAccepted components (listed ++ [s]) added) ∧
    ((IsValid s ∧
      RootCover.Unambiguous (contains components) ProviderSource.owner (listed ++ [s])) →
        ∃ added, ProviderSourceSet.addSource components unique s = .ok added) := by
  constructor
  · intro added hadded
    obtain ⟨hvalid, hclear, rfl⟩ := addSource_eq_ok.mp hadded
    rw [← h.cover.conflicts_iff isForest_contains] at hclear
    refine ⟨fun a ha ↦ ?_, unambiguous_concat.mpr ⟨h.clear, hclear⟩,
      h.cover.absorb isForest_contains s⟩
    rcases List.mem_append.mp ha with ha | ha
    · exact h.valid a ha
    · rwa [List.mem_singleton.mp ha]
  · intro ⟨hvalid, hclear⟩
    refine ⟨_, addSource_eq_ok.mpr ⟨hvalid, ?_, rfl⟩⟩
    exact (h.cover.conflicts_iff isForest_contains s).mp (unambiguous_concat.mp hclear).2

/-- The loop over the rest of a list. -/
theorem IsAccepted.foldlM {listed unique : List ProviderSource}
    (h : IsAccepted components listed unique) (rest : List ProviderSource) :
    (∀ added, rest.foldlM (ProviderSourceSet.addSource components) unique = .ok added →
      IsAccepted components (listed ++ rest) added) ∧
    ((∀ s ∈ rest, IsValid s) ∧
      RootCover.Unambiguous (contains components) ProviderSource.owner (listed ++ rest) →
        ∃ added, rest.foldlM (ProviderSourceSet.addSource components) unique = .ok added) := by
  induction rest generalizing listed unique with
  | nil =>
    rw [List.append_nil]
    refine ⟨fun added hadded ↦ ?_, fun _ ↦ ⟨unique, rfl⟩⟩
    cases hadded
    exact h
  | cons s rest ih =>
    have hlist : listed ++ s :: rest = (listed ++ [s]) ++ rest := by simp
    rw [hlist, List.foldlM_cons]
    obtain ⟨hsound, hcomplete⟩ := h.addSource s
    cases hadd : ProviderSourceSet.addSource components unique s with
    | error e =>
      refine ⟨fun added hadded ↦ (nomatch hadded), fun ⟨hvalid, hclear⟩ ↦ ?_⟩
      obtain ⟨added, hadded⟩ := hcomplete ⟨hvalid s List.mem_cons_self,
        fun a ha b hb ↦ hclear a (List.mem_append_left _ ha) b (List.mem_append_left _ hb)⟩
      rw [hadd] at hadded
      cases hadded
    | ok next =>
      obtain ⟨hsound', hcomplete'⟩ := ih (hsound next hadd)
      exact ⟨hsound', fun ⟨hvalid, hclear⟩ ↦
        hcomplete' ⟨fun a ha ↦ hvalid a (List.mem_cons_of_mem _ ha), hclear⟩⟩

/-- The last pass finds nothing in an unambiguous list. -/
theorem findAmbiguous_eq_none {unique : List ProviderSource}
    (hclear : RootCover.Unambiguous (contains components) ProviderSource.owner unique) :
    findAmbiguous components unique = none := by
  induction unique with
  | nil => rfl
  | cons left rest ih =>
    have hnone : rest.find? (fun right ↦
        rootsOverlap components left.root right.root && !sameOwner left right) = none := by
      rw [List.find?_eq_none]
      intro right hright
      rw [conflicts_eq, hclear left List.mem_cons_self right (List.mem_cons_of_mem _ hright)]
      exact Bool.false_ne_true
    rw [findAmbiguous, hnone]
    exact ih fun a ha b hb ↦
      hclear a (List.mem_cons_of_mem _ ha) b (List.mem_cons_of_mem _ hb)

/-- An accepted set covers an acceptable list, and every acceptable list is accepted. -/
theorem tryNew_eq_ok (components : String → List κ) (sources : List ProviderSource) :
    (∀ set, tryNew components sources = .ok set →
      IsAccepted components sources set.sources) ∧
    ((∀ s ∈ sources, IsValid s) ∧
      RootCover.Unambiguous (contains components) ProviderSource.owner sources →
        ∃ set, tryNew components sources = .ok set) := by
  obtain ⟨hsound, hcomplete⟩ := (isAccepted_nil components).foldlM sources
  rw [List.nil_append] at hsound hcomplete
  have hkept : ∀ unique, sources.foldlM (ProviderSourceSet.addSource components) [] = .ok unique →
      tryNew components sources = .ok ⟨unique⟩ := by
    intro unique hunique
    have haccepted := hsound unique hunique
    have hnone : findAmbiguous components unique = none := findAmbiguous_eq_none
      fun a ha b hb ↦ haccepted.clear a (haccepted.cover.mem_listed ha) b
        (haccepted.cover.mem_listed hb)
    rw [tryNew, hunique]
    simp only [bind, Except.bind, hnone]
  constructor
  · intro set hset
    cases hfold : sources.foldlM (ProviderSourceSet.addSource components) [] with
    | error e =>
      rw [tryNew, hfold] at hset
      cases hset
    | ok unique =>
      rw [hkept unique hfold] at hset
      cases hset
      exact hsound unique hfold
  · intro hacceptable
    obtain ⟨unique, hunique⟩ := hcomplete hacceptable
    exact ⟨_, hkept unique hunique⟩

/-! ### Resolving a path -/

/-- The next best is the best so far or the next element. -/
theorem keepGreatest_eq {α : Type} (key : α → Nat) (best : Option α) (a : α) :
    keepGreatest key best a = some a ∨ best.isSome ∧ keepGreatest key best a = best := by
  cases best with
  | none => exact .inl rfl
  | some b =>
    by_cases h : key b ≤ key a
    · exact .inl (if_pos h)
    · exact .inr ⟨rfl, if_neg h⟩

theorem foldl_keepGreatest {α : Type} (key : α → Nat) (l : List α) (best : Option α) :
    (∀ a, l.foldl (keepGreatest key) best = some a → a ∈ l ∨ best = some a) ∧
      ((l.foldl (keepGreatest key) best).isSome ↔ l ≠ [] ∨ best.isSome) := by
  induction l generalizing best with
  | nil => simp
  | cons a l ih =>
    obtain ⟨hmem, hsome⟩ := ih (keepGreatest key best a)
    rw [List.foldl_cons, hsome]
    refine ⟨fun b hb ↦ ?_, ?_⟩
    · rcases hmem b hb with hin | hbest
      · exact .inl (List.mem_cons_of_mem _ hin)
      rcases keepGreatest_eq key best a with h | ⟨-, h⟩
      · obtain rfl := Option.some.inj (h.symm.trans hbest)
        exact .inl List.mem_cons_self
      · exact .inr (h.symm.trans hbest)
    · rcases keepGreatest_eq key best a with h | ⟨hbest, h⟩
      · simp [h]
      · simp [h, hbest]

/-- The greatest element is one of the list, and a list which is not empty has one. -/
theorem maxByKey_spec {α : Type} (key : α → Nat) (l : List α) :
    (∀ a, maxByKey key l = some a → a ∈ l) ∧ ((maxByKey key l).isSome ↔ l ≠ []) := by
  obtain ⟨hmem, hsome⟩ := foldl_keepGreatest key l none
  refine ⟨fun a ha ↦ (hmem a ha).resolve_right (fun h ↦ nomatch h), ?_⟩
  rw [maxByKey, hsome]
  simp

/-- A resolved source is an accepted one which contains the path. -/
theorem resolve_eq_some {set : ProviderSourceSet} {path : String} {source : ProviderSource}
    (h : set.resolve components path = some source) :
    source ∈ set.sources ∧ rootContains components source.root path = true :=
  List.mem_filter.mp ((maxByKey_spec _ _).1 source h)

theorem isSome_resolve (set : ProviderSourceSet) (path : String) :
    (set.resolve components path).isSome ↔
      ∃ source ∈ set.sources, rootContains components source.root path = true := by
  rw [resolve, (maxByKey_spec _ _).2, Ne, List.filter_eq_nil_iff]
  simp

/-- Sources of an unambiguous list which contain one path have one owner. -/
theorem owner_eq_of_contains {listed : List ProviderSource}
    (hclear : RootCover.Unambiguous (contains components) ProviderSource.owner listed)
    {s t : ProviderSource} (hs : s ∈ listed) (ht : t ∈ listed) {path : String}
    (hspath : rootContains components s.root path = true)
    (htpath : rootContains components t.root path = true) : s.owner = t.owner := by
  have hnone := hclear s hs t ht
  simp only [RootCover.conflicts, RootCover.overlaps, Bool.and_eq_false_iff, bne_eq_false_iff_eq,
    Bool.or_eq_false_iff] at hnone
  refine hnone.resolve_left fun hdisjoint ↦ ?_
  obtain ⟨hst, hts⟩ := hdisjoint
  rcases List.prefix_or_prefix_of_prefix (rootContains_iff.mp hspath) (rootContains_iff.mp htpath)
    with h | h
  · rw [contains, rootContains_iff.mpr h] at hst
    cases hst
  · rw [contains, rootContains_iff.mpr h] at hts
    cases hts

/-- The roots of an accepted cover are owned by every other cover of the same sources. -/
theorem IsAccepted.owned_subset {sources other : List ProviderSource}
    {set set' : ProviderSourceSet} (h : IsAccepted components sources set.sources)
    (h' : IsAccepted components other set'.sources) (hsame : ∀ s, s ∈ sources ↔ s ∈ other)
    {key : (ProviderId × ProviderSourceKind) × List κ} (hkey : key ∈ set.owned components) :
    key ∈ set'.owned components := by
  obtain ⟨s, hs, rfl⟩ := List.mem_map.mp hkey
  obtain ⟨t, ht, howner, hts, hst⟩ := h.cover.subset isForest_contains h'.cover hsame hs
  refine List.mem_map.mpr ⟨t, ht, ?_⟩
  rw [howner,
    (rootContains_iff.mp hts).eq_of_length_le (rootContains_iff.mp hst).length_le]

/-- A set of sources is accepted exactly when each is valid and none lies in one of another owner;
then its roots do not depend on the order of the sources, none of them contains another, and a
path resolves to the one owner of all the sources which contain it. -/
theorem tryNew_unambiguous (components : String → List κ) (sources : List ProviderSource) :
    ((∃ set, tryNew components sources = .ok set) ↔ (∀ s ∈ sources, IsValid s) ∧
      ∀ s ∈ sources, ∀ t ∈ sources, rootContains components s.root t.root = true →
        sameOwner s t = true) ∧
    ∀ set, tryNew components sources = .ok set →
      (∀ other, (∀ s, s ∈ other ↔ s ∈ sources) → ∃ set', tryNew components other = .ok set' ∧
        ∀ key, key ∈ set'.owned components ↔ key ∈ set.owned components) ∧
      (set.sources.Pairwise fun s t ↦ rootContains components s.root t.root = false ∧
        rootContains components t.root s.root = false) ∧
      ∀ path, ((set.resolve components path).isSome ↔
          ∃ s ∈ sources, rootContains components s.root path = true) ∧
        ∀ source, set.resolve components path = some source → ∀ s ∈ sources,
          rootContains components s.root path = true →
            source.providerId = s.providerId ∧ source.kind = s.kind := by
  have hclear_iff : RootCover.Unambiguous (contains components) ProviderSource.owner sources ↔
      ∀ s ∈ sources, ∀ t ∈ sources, rootContains components s.root t.root = true →
        sameOwner s t = true := by
    simp only [RootCover.Unambiguous, RootCover.conflicts, RootCover.overlaps, sameOwner_eq,
      Bool.and_eq_false_iff, bne_eq_false_iff_eq, Bool.or_eq_false_iff, decide_eq_true_eq]
    constructor
    · intro h s hs t ht hst
      refine (h s hs t ht).resolve_left fun hnone ↦ ?_
      rw [contains, hst] at hnone
      cases hnone.1
    · intro h s hs t ht
      by_cases howner : s.owner = t.owner
      · exact .inr howner
      · refine .inl ⟨?_, ?_⟩
        · exact Bool.eq_false_iff.mpr fun hst ↦ howner (h s hs t ht hst)
        · exact Bool.eq_false_iff.mpr fun hts ↦ howner (h t ht s hs hts).symm
  rw [← hclear_iff]
  refine ⟨⟨fun haccepts ↦ ?_, (tryNew_eq_ok components sources).2⟩, fun set hset ↦ ?_⟩
  · obtain ⟨set, hset⟩ := haccepts
    have haccepted := (tryNew_eq_ok components sources).1 set hset
    exact ⟨haccepted.valid, haccepted.clear⟩
  have haccepted := (tryNew_eq_ok components sources).1 set hset
  refine ⟨fun other hsame ↦ ?_, haccepted.cover.pairwise_apart haccepted.clear, fun path ↦ ?_⟩
  · obtain ⟨set', hset'⟩ := (tryNew_eq_ok components other).2
      ⟨fun s hs ↦ haccepted.valid s ((hsame s).mp hs),
        fun a ha b hb ↦ haccepted.clear a ((hsame a).mp ha) b ((hsame b).mp hb)⟩
    have haccepted' := (tryNew_eq_ok components other).1 set' hset'
    exact ⟨set', hset', fun key ↦ ⟨haccepted'.owned_subset haccepted hsame,
      haccepted.owned_subset haccepted' fun s ↦ (hsame s).symm⟩⟩
  · rw [isSome_resolve]
    refine ⟨⟨?_, ?_⟩, ?_⟩
    · rintro ⟨s, hs, hpath⟩
      exact ⟨s, haccepted.cover.mem_listed hs, hpath⟩
    · rintro ⟨s, hs, hpath⟩
      obtain ⟨t, ht, -, hts⟩ := haccepted.cover.covered hs
      refine ⟨t, ht, ?_⟩
      exact rootContains_iff.mpr ((rootContains_iff.mp hts).trans (rootContains_iff.mp hpath))
    · intro source hsource s hs hpath
      obtain ⟨hmem, hin⟩ := resolve_eq_some hsource
      have howner := owner_eq_of_contains haccepted.clear (haccepted.cover.mem_listed hmem) hs
        hin hpath
      exact ⟨congrArg Prod.fst howner, congrArg Prod.snd howner⟩

end ProviderSourceSet

end AgentOdometer
