import AgentOdometer.Lib.GroupBy

/-!
# Order of the session grid

`orderSessionsForDisplay` of `sessionProjection.ts:516–604`. A recursive closure of the source is a
function with fuel here; it returns nothing when the fuel runs out.
-/

namespace AgentOdometer.Projection

open Std (ExtTreeMap)

/-- What a row needs to be ordered. Follows `sessionProjection.ts:516–519`. -/
class OrderableSession (σ : Type) (ν : outParam Type) where
  storageId : σ → String
  startedMs : σ → ν

open OrderableSession

/-- Follows `sessionProjection.ts:521–532`. -/
structure OrderOptions (σ : Type) where
  parentOf : σ → Option String
  collapsed : List String
  flat : Bool

/-- The rows in order, and the anchor of each. Follows `sessionProjection.ts:547`. -/
structure DisplayOrder (σ ν : Type) where
  list : List σ
  anchorMs : ExtTreeMap String ν

/-- The variables which the closures share. Follows `sessionProjection.ts:548,572–576`. -/
structure Walk (σ ν : Type) where
  list : List σ
  anchorMs : ExtTreeMap String ν
  seen : List String
  withheld : List String

variable {σ ν : Type} [OrderableSession σ ν]

/-- No rows yet. -/
def Walk.start : Walk σ ν :=
  ⟨[], ∅, [], []⟩

/-- Show a row. Follows `sessionProjection.ts:587–589`. -/
def Walk.push (w : Walk σ ν) (session : σ) (anchor : ν) : Walk σ ν :=
  { w with
    seen := w.seen ++ [storageId session]
    list := w.list ++ [session]
    anchorMs := w.anchorMs.insert (storageId session) anchor }

/-- The parent under which a row is nested: a text which is not empty and is the id of a row.
Follows `sessionProjection.ts:558–561`. -/
def presentParent (sorted : List σ) (options : OrderOptions σ) (session : σ) : Option String :=
  (options.parentOf session).filter fun parentId ↦
    parentId ≠ "" && (sorted.map storageId).contains parentId

/-- The rows nested under each parent. Follows `sessionProjection.ts:555,562–564`. -/
def children (sorted : List σ) (options : OrderOptions σ) : ExtTreeMap String (List σ) :=
  GroupBy.groupFold (presentParent sorted options) [] (fun arr session ↦ arr ++ [session]) ∅ sorted

/-- The rows at top level. Follows `sessionProjection.ts:556,566`. -/
def roots (sorted : List σ) (options : OrderOptions σ) : List σ :=
  sorted.filter fun session ↦ (presentParent sorted options session).isNone

/-- The rows under one id: `children.get(id) ?? []`. -/
def childrenOf (children : ExtTreeMap String (List σ)) (id : String) : List σ :=
  children[id]?.getD []

/-- `withhold`, `sessionProjection.ts:577–583`. -/
def withhold (children : ExtTreeMap String (List σ)) :
    Nat → List String → String → Option (List String)
  | 0, _, _ => none
  | fuel + 1, withheld, id =>
      (childrenOf children id).foldlM (fun withheld child ↦
        if storageId child ∈ withheld then some withheld
        else withhold children fuel (withheld ++ [storageId child]) (storageId child)) withheld

/-- `append`, `sessionProjection.ts:584–595`. A call of `withhold` has its own fuel. -/
def append (children : ExtTreeMap String (List σ)) (collapsed : List String) (limit : Nat) :
    Nat → Walk σ ν → σ → ν → Option (Walk σ ν)
  | 0, _, _, _ => none
  | fuel + 1, w, session, anchor =>
      if storageId session ∈ w.seen then some w
      else if storageId session ∈ collapsed then
        (withhold children limit (w.push session anchor).withheld (storageId session)).map
          fun withheld ↦ { w.push session anchor with withheld := withheld }
      else
        (childrenOf children (storageId session)).foldlM
          (fun w child ↦ append children collapsed limit fuel w child anchor)
          (w.push session anchor)

/-- The passes over the roots and over the rows which they do not reach.
Follows `sessionProjection.ts:596–603`. -/
def orderTree (fuel : Nat) (sorted : List σ) (options : OrderOptions σ) : Option (Walk σ ν) := do
  let append := append (children sorted options) options.collapsed fuel fuel
  let w ← (roots sorted options).foldlM (fun w root ↦ append w root (startedMs root)) Walk.start
  sorted.foldlM (fun w session ↦
    if storageId session ∉ w.seen ∧ storageId session ∉ w.withheld then
      append w session (startedMs session)
    else some w) w

/-- `orderSessionsForDisplay`, `sessionProjection.ts:544–604`. -/
def orderSessionsForDisplay (fuel : Nat) (sorted : List σ) (options : OrderOptions σ) :
    Option (DisplayOrder σ ν) :=
  if options.flat then
    some ⟨sorted, sorted.foldl (fun anchorMs session ↦
      anchorMs.insert (storageId session) (startedMs session)) ∅⟩
  else (orderTree fuel sorted options).map fun w ↦ ⟨w.list, w.anchorMs⟩

/-! ### The forest of the rows -/

/-- A row is nested directly under another. -/
def IsChild (sorted : List σ) (options : OrderOptions σ) (child parent : σ) : Prop :=
  child ∈ sorted ∧ parent ∈ sorted ∧
    presentParent sorted options child = some (storageId parent)

/-- The second row is a proper ancestor of the first. -/
def IsUnder (sorted : List σ) (options : OrderOptions σ) : σ → σ → Prop :=
  Relation.TransGen (IsChild sorted options)

/-- No row is its own ancestor. -/
def IsAcyclic (sorted : List σ) (options : OrderOptions σ) : Prop :=
  ∀ session, ¬ IsUnder sorted options session session

/-- The preorder of the trees of some rows, pruned below the collapsed ones. Each row carries the
anchor of the row at the top of its tree. -/
inductive IsPreorder (sorted : List σ) (options : OrderOptions σ) :
    List (σ × ν) → List (σ × ν) → Prop
  | nil : IsPreorder sorted options [] []
  | collapsed {session : σ} {anchor : ν} {rest rows : List (σ × ν)}
      (hcollapsed : storageId session ∈ options.collapsed)
      (hrest : IsPreorder sorted options rest rows) :
      IsPreorder sorted options ((session, anchor) :: rest) ((session, anchor) :: rows)
  | expanded {session : σ} {anchor : ν} {rest below rows : List (σ × ν)}
      (hexpanded : storageId session ∉ options.collapsed)
      (hbelow : IsPreorder sorted options
        ((sorted.filter fun child ↦
          presentParent sorted options child = some (storageId session)).map (·, anchor)) below)
      (hrest : IsPreorder sorted options rest rows) :
      IsPreorder sorted options ((session, anchor) :: rest) ((session, anchor) :: below ++ rows)

end AgentOdometer.Projection
