import AgentOdometer.Lib.Transition
import AgentOdometer.Quota.Consent

/-!
# Instances with one consent file

Any number of instances of the app run the operations of `quota_accounts.rs:335–562` against one
file. A section under the lock of an instance's runtime is one step, except that a save is a step
of its own: another instance can act between the reading which precedes it and its comparison.
-/

namespace AgentOdometer.Quota

/-- A request which an instance waits for: the generation and the account it started with (no
account when it identifies one), and the number of approvals and changes before it. -/
structure Request where
  generation : Nat
  account : Option String
  changes : Nat
deriving Repr, DecidableEq

/-- The operation whose save is about to happen. A change keeps whether it asks to pause or
revoke an account which the file named enabled. -/
inductive Saving where
  | approve (save : Save)
  | change (save : Save) (enabled revoke ofEnabled : Bool)
deriving Repr, DecidableEq

/-- An instance of the app. `changes` counts the approvals and changes which took effect,
`pending` says that a pause or revoke failed and no approval or enabling has succeeded since, and
`refused` that it was one of an account which the file named enabled. -/
structure Instance where
  runtime : Runtime
  saving : Option Saving
  requests : List Request
  changes : Nat
  pending : Bool
  refused : Bool
deriving DecidableEq

/-- An instance which starts. -/
def Instance.start (now : Instant) : Instance :=
  ⟨.default now, none, [], 0, false, false⟩

/-- The file and the instances. -/
structure System where
  shared : SharedFile
  instances : Nat → Instance

/-- The instances start. -/
def System.start (shared : SharedFile) (started : Nat → Instant) : System :=
  ⟨shared, fun i ↦ .start (started i)⟩

/-- A step of an instance, or a change of whether the file can be read. -/
inductive Action where
  | setReadError (error : Option String)
  | identify (i : Nat) (now : Instant)
  | identified (i : Nat) (now : Instant) (request : Request)
      (result : Except LiveQuotaError DiscoveredQuotaAccount)
  | approve (i : Nat) (now : Instant) (accountId label : String) (consentedAt : DateTime)
  | change (i : Nat) (now : Instant) (accountId : String) (enabled revoke : Bool)
  | save (i : Nat) (now : Instant) (locked written : Except String Unit)
  | poll (i : Nat) (now : Instant)
  | polled (i : Nat) (now : Instant) (request : Request)
      (result : Except LiveQuotaError LiveQuotaReading)
  | status (i : Nat) (now : Instant) (utc : DateTime)

namespace Instance

/-- Whether the file names an account enabled which is to be paused or revoked. -/
def isOfEnabled (shared : SharedFile) (accountId : String) (enabled revoke : Bool) : Bool :=
  !(enabled && !revoke) &&
    shared.content.enabledAccounts.any (·.accountId == accountId)

/-- A pause or revoke returned an error. -/
def fail (inst : Instance) (enabled revoke ofEnabled : Bool) : Instance :=
  { inst with
    pending := inst.pending || !(enabled && !revoke)
    refused := inst.refused || ofEnabled }

/-- An operation which is not finished holds the lock of the runtime. -/
def unlocked (inst : Instance) : Bool :=
  inst.saving.isNone

/-- `identify` starts. -/
def identify (inst : Instance) (shared : SharedFile) (now : Instant) : Instance :=
  match inst.runtime.identifyStart shared.read now with
  | (runtime, .error _) => { inst with runtime }
  | (runtime, .ok generation) =>
      { inst with runtime, requests := inst.requests ++ [⟨generation, none, inst.changes⟩] }

/-- `identify` ends. -/
def identified (inst : Instance) (shared : SharedFile) (now : Instant) (request : Request)
    (result : Except LiveQuotaError DiscoveredQuotaAccount) : Instance :=
  { inst with
    runtime := (inst.runtime.identifyFinish shared.read now request.generation result).1
    requests := inst.requests.erase request }

/-- `approve` up to its save. -/
def approve (inst : Instance) (shared : SharedFile) (now : Instant) (accountId label : String)
    (consentedAt : DateTime) : Instance :=
  match inst.runtime.approveStart shared.read now accountId label consentedAt with
  | (runtime, .error _) => { inst with runtime }
  | (runtime, .ok save) => { inst with runtime, saving := some (.approve save) }

/-- `change` up to its save. -/
def change (inst : Instance) (shared : SharedFile) (now : Instant) (accountId : String)
    (enabled revoke : Bool) : Instance :=
  let ofEnabled := isOfEnabled shared accountId enabled revoke
  match inst.runtime.changeStart shared.read now accountId enabled revoke with
  | (runtime, .error _) => fail { inst with runtime } enabled revoke ofEnabled
  | (runtime, .ok save) =>
      { inst with
        runtime
        saving := some (.change save enabled revoke ofEnabled)
        changes := inst.changes + 1 }

/-- `approve` after its save. -/
def approved (inst : Instance) (now : Instant) (save : Save) (saved : Except String SharedFile) :
    Instance :=
  let runtime := inst.runtime.approveFinish save.file saved now
  match saved with
  | .error _ => { inst with runtime, saving := none }
  | .ok _ =>
      { inst with
        runtime
        saving := none
        changes := inst.changes + 1
        pending := false
        refused := false }

/-- `change` after its save. -/
def changed (inst : Instance) (save : Save) (enabled revoke ofEnabled : Bool)
    (saved : Except String SharedFile) : Instance :=
  let runtime := inst.runtime.changeFinish save.file enabled revoke saved
  match saved with
  | .error _ => fail { inst with runtime, saving := none } enabled revoke ofEnabled
  | .ok _ =>
      { inst with
        runtime
        saving := none
        pending := inst.pending && !(enabled && !revoke)
        refused := inst.refused && !(enabled && !revoke) }

/-- `poll` starts. -/
def poll (inst : Instance) (shared : SharedFile) (now : Instant) : Instance :=
  match inst.runtime.pollStart shared.read now with
  | (runtime, .error _) => { inst with runtime }
  | (runtime, .ok (generation, accountId)) =>
      { inst with
        runtime
        requests := inst.requests ++ [⟨generation, some accountId, inst.changes⟩] }

/-- `poll` ends. -/
def polled (inst : Instance) (shared : SharedFile) (now : Instant) (request : Request)
    (result : Except LiveQuotaError LiveQuotaReading) : Instance :=
  { inst with
    runtime := inst.runtime.pollFinish shared.read now request.generation result
    requests := inst.requests.erase request }

end Instance

namespace System

/-- An instance takes its next state. -/
def set (s : System) (i : Nat) (inst : Instance) : System :=
  { s with instances := Function.update s.instances i inst }

/-- What the save of an instance answers. -/
def saveOf (s : System) (save : Save) (locked written : Except String Unit) :
    Except String SharedFile :=
  saveFile s.shared save.expected save.file locked written

/-- The save of an instance. -/
def finishSave (s : System) (i : Nat) (now : Instant) (locked written : Except String Unit) :
    Option System :=
  (s.instances i).saving.map fun saving ↦
    match saving with
    | .approve save =>
        let saved := s.saveOf save locked written
        { s with shared := saved.toOption.getD s.shared }.set i
          ((s.instances i).approved now save saved)
    | .change save enabled revoke ofEnabled =>
        let saved := s.saveOf save locked written
        { s with shared := saved.toOption.getD s.shared }.set i
          ((s.instances i).changed save enabled revoke ofEnabled saved)

/-- What `status` of an instance answers. -/
def statusOf (s : System) (i : Nat) (now : Instant) (utc : DateTime) :
    Option (Runtime × LiveQuotaStatus) :=
  (s.instances i).runtime.status s.shared.read now utc

/-- A step of an instance whose runtime is unlocked. -/
def act (s : System) (i : Nat) (next : Instance → Instance) : Option System :=
  if (s.instances i).unlocked then some (s.set i (next (s.instances i))) else none

/-- One step of the system. -/
def step (s : System) : Action → Option System
  | .setReadError readError => some { s with shared := { s.shared with readError } }
  | .identify i now => s.act i (·.identify s.shared now)
  | .identified i now request result =>
      if request ∈ (s.instances i).requests ∧ request.account = none then
        s.act i (·.identified s.shared now request result)
      else none
  | .approve i now accountId label consentedAt =>
      s.act i (·.approve s.shared now accountId label consentedAt)
  | .change i now accountId enabled revoke =>
      s.act i (·.change s.shared now accountId enabled revoke)
  | .save i now locked written => s.finishSave i now locked written
  | .poll i now => s.act i (·.poll s.shared now)
  | .polled i now request result =>
      if request ∈ (s.instances i).requests ∧ request.account.isSome then
        s.act i (·.polled s.shared now request result)
      else none
  | .status i now utc =>
      (s.statusOf i now utc).bind fun answer ↦
        s.act i ({ · with runtime := answer.1 })

end System

end AgentOdometer.Quota
