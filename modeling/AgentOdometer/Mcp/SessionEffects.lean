import AgentOdometer.Mcp.Session

/-!
# What a step of an MCP session does

The expected answer of a line, and the changes which a step of the session can make.
-/

namespace AgentOdometer.Mcp

open Std (ExtTreeMap)

variable {services : Services} {s t : Session} {line : BoundedLine}

/-! ### Expected answers -/

/-- The id of the answer to a request. A valid request without an id is a notification. -/
def requestId (request : Value) : Option Value :=
  if isValidRequest request then request.get "id"
  else some (if (request.get "id").all Value.isId then (request.get "id").getD .null else .null)

/-- The id of the answer to a line: none for a blank line and a valid notification, `null` for a
line without a usable id. -/
def expectedId (services : Services) : BoundedLine → Option Value
  | .error _ => some .null
  | .ok line =>
      if line.all isAsciiWhitespace then none
      else ((services.fromSlice line).map requestId).getD (some .null)

/-- The id of a valid `tools/call` request. -/
def callId (services : Services) : BoundedLine → Option Value
  | .error _ => none
  | .ok line =>
      if line.all isAsciiWhitespace then none
      else (services.fromSlice line).bind fun request ↦
        if isValidRequest request ∧ (request.get "method").bind Value.asStr = some "tools/call" then
          request.get "id"
        else none

/-- The id which the reader answers with, or hands to a worker. -/
def Reading.id : Reading → Option Value
  | .nothing | .cancel _ => none
  | .respond response => some response.id
  | .call id _ => some id

theorem id_toolResponse {id : Value} {result : Except ToolError String} :
    (toolResponse services id result).id = id := by
  cases result with
  | ok => rfl
  | error error => cases error <;> rfl

theorem id_queryResponse {id : Value} {result : Except ToolError String} :
    (queryResponse services id result).id = id := by
  unfold queryResponse
  simp only
  split <;> exact id_toolResponse

theorem id_readNotification {method : String} {params : Value} :
    (readNotification method params).id = none := by
  unfold readNotification
  split
  · split <;> rfl
  · rfl

theorem id_readMethod {id : Value} {method : String} {params : Value} :
    (readMethod services id method params).id = some id := by
  unfold readMethod
  split
  · rfl
  · rfl
  · rfl
  · split
    · exact congrArg some id_toolResponse
    · rfl
  · rfl

theorem id_readRequest {request : Value} :
    (readRequest services request).id = requestId request := by
  unfold readRequest requestId
  split
  · cases request.get "id" with
    | none => exact id_readNotification
    | some id => exact id_readMethod
  · rfl

/-- The reader answers a line with the expected id. -/
theorem id_readLine : (readLine services line).id = expectedId services line := by
  cases line with
  | error message => rfl
  | ok line =>
    unfold readLine expectedId
    simp only
    split
    · rfl
    · cases services.fromSlice line with
      | none => rfl
      | some request => exact id_readRequest

/-- Only a valid `tools/call` request becomes a query. -/
theorem callId_of_readLine {id : Value} {call : PreparedCall}
    (h : readLine services line = .call id call) :
    callId services line = some id ∧ id.isId = true := by
  cases line with
  | error message => cases h
  | ok line =>
    unfold readLine at h
    unfold callId
    simp only at h ⊢
    split at h
    · cases h
    · rename_i hblank
      rw [if_neg hblank]
      cases hparse : services.fromSlice line with
      | none =>
        simp only [hparse, reduceCtorEq] at h
      | some request =>
        simp only [hparse] at h
        simp only [Option.bind_some]
        unfold readRequest at h
        split at h
        · rename_i hvalid
          have hids : (request.get "id").all Value.isId = true :=
            (Bool.and_eq_true_iff.mp hvalid).2
          cases hid : request.get "id" with
          | none =>
            simp only [hid] at h
            have hnone := congrArg Reading.id h
            rw [id_readNotification] at hnone
            cases hnone
          | some value =>
            simp only [hid] at h
            have hsame := congrArg Reading.id h
            rw [id_readMethod] at hsame
            cases hsame
            have hmethod : (request.get "method").bind Value.asStr = some "tools/call" := by
              unfold readMethod at h
              split at h
              · cases h
              · cases h
              · cases h
              · rename_i hname
                cases hvalue : (request.get "method").bind Value.asStr with
                | none => rw [hvalue] at hname; exact absurd hname (by decide)
                | some method => rw [hvalue] at hname; exact congrArg some hname
              · cases h
            rw [hid] at hids
            rw [if_pos ⟨hvalid, hmethod⟩]
            exact ⟨rfl, hids⟩
        · cases h

/-! ### The changes of a step -/

/-- The response of a worker is written. -/
def Phase.isAnswered : Phase → Bool
  | .answered => true
  | _ => false

/-- The steps which a worker has ahead. -/
def Phase.remaining : Phase → Nat
  | .started => 4
  | .executing => 3
  | .responding _ => 2
  | .answered => 1

/-- The reader goes to the next line. -/
def advanceReader (s : Session) (rest : List BoundedLine) : Session :=
  { s with lines := rest, taken := s.taken + 1 }

/-- What a step can do. -/
inductive Effect (services : Services) (s : Session) : Session → Prop
  | quiet {line : BoundedLine} {rest : List BoundedLine} (hpending : s.pending = none)
      (hlines : s.lines = line :: rest) (hread : readLine services line = .nothing) :
      Effect services s (advanceReader s rest)
  | cancel {line : BoundedLine} {rest : List BoundedLine} {requestId : Value}
      (hpending : s.pending = none) (hlines : s.lines = line :: rest)
      (hread : readLine services line = .cancel requestId) :
      Effect services s
        (advanceReader { s with workers := cancelQuery services s requestId } rest)
  | reply {line : BoundedLine} {rest : List BoundedLine} {response : Response}
      (hpending : s.pending = none) (hlines : s.lines = line :: rest)
      (hread : readLine services line = .respond response) :
      Effect services s (advanceReader (reply s response) rest)
  | refuse {line : BoundedLine} {rest : List BoundedLine} {id : Value} {call : PreparedCall}
      {response : Response} (hpending : s.pending = none) (hlines : s.lines = line :: rest)
      (hread : readLine services line = .call id call)
      (hcause : (services.toText id ∈ s.active ∧ response = alreadyActive id) ∨
        (MAX_CONCURRENT_QUERIES ≤ s.active.size ∧ response = busy id)) :
      Effect services s (advanceReader (reply s response) rest)
  | spawn {line : BoundedLine} {rest : List BoundedLine} {id : Value} {call : PreparedCall}
      (hpending : s.pending = none) (hlines : s.lines = line :: rest)
      (hread : readLine services line = .call id call)
      (hkey : services.toText id ∉ s.active)
      (hsize : s.active.size < MAX_CONCURRENT_QUERIES) :
      Effect services s (advanceReader { s with
        active := s.active.insert (services.toText id) s.taken
        workers := s.workers ++ [⟨s.taken, id, services.toText id, call, false, .started⟩] } rest)
  | write {response : Nat × Response} (hpending : s.pending = some response) :
      Effect services s { s with pending := none, output := s.output ++ [response] }
  | advance {worker : Worker} {phase : Phase} (hworker : workerOf s worker.line = some worker)
      (hopen : worker.phase.isAnswered = false) (hphase : phase.isAnswered = false)
      (hremaining : phase.remaining < worker.phase.remaining)
      (hresponse : ∀ response, phase = .responding response →
        ∃ result, response = queryResponse services worker.id result) :
      Effect services s (setPhase s worker.line phase)
  | respond {worker : Worker} {response : Response}
      (hworker : workerOf s worker.line = some worker)
      (hphase : worker.phase = .responding response) :
      Effect services s { setPhase s worker.line .answered with
        output := s.output ++ [(worker.line, response)] }
  | remove {worker : Worker} (hworker : workerOf s worker.line = some worker)
      (hphase : worker.phase = .answered) :
      Effect services s { s with
        active := s.active.erase worker.key
        workers := s.workers.filter (·.line ≠ worker.line) }
  | finish (hpending : s.pending = none) (hlines : s.lines = []) (hworkers : s.workers = [])
      (hreturned : s.returned = false) :
      Effect services s { s with returned := true }

theorem line_of_workerOf {n : Nat} {worker : Worker} (h : workerOf s n = some worker) :
    worker.line = n :=
  beq_iff_eq.mp (@List.find?_some _ (fun other : Worker ↦ other.line == n) _ _ h)

theorem effect_takeLine (h : takeLine services s = some t) : Effect services s t := by
  unfold takeLine at h
  split at h
  · rename_i line rest hpending hlines
    cases h
    cases hread : readLine services line with
    | nothing => exact .quiet hpending hlines hread
    | respond response => exact .reply hpending hlines hread
    | cancel requestId => exact .cancel hpending hlines hread
    | call id call =>
      show Effect services s (advanceReader (acceptCall services s id call) rest)
      unfold acceptCall
      simp only
      by_cases hkey : services.toText id ∈ s.active
      · rw [if_pos (ExtTreeMap.contains_iff_mem.mpr hkey)]
        exact .refuse hpending hlines hread (.inl ⟨hkey, rfl⟩)
      · rw [if_neg (fun h ↦ hkey (ExtTreeMap.contains_iff_mem.mp h))]
        by_cases hsize : s.active.size ≥ MAX_CONCURRENT_QUERIES
        · rw [if_pos hsize]
          exact .refuse hpending hlines hread (.inr ⟨hsize, rfl⟩)
        · rw [if_neg hsize]
          exact .spawn hpending hlines hread hkey (Nat.lt_of_not_le hsize)
  · cases h

theorem effect_checkWorker {n : Nat} {expired : Bool}
    (h : checkWorker services s n expired = some t) : Effect services s t := by
  unfold checkWorker at h
  split at h
  · rename_i line id key call cancelled hfind
    obtain rfl : line = n := line_of_workerOf hfind
    have hworker : workerOf s (Worker.mk line id key call cancelled .started).line =
        some (.mk line id key call cancelled .started) := hfind
    split at h
    · cases h
      exact .advance hworker rfl rfl (Nat.lt_succ_self 3) (fun _ h ↦ nomatch h)
    · cases h
      refine .advance hworker rfl rfl (Nat.lt_add_of_pos_right Nat.two_pos) fun response h ↦ ?_
      cases h
      exact ⟨_, rfl⟩
  · cases h

theorem effect_executeWorker {n : Nat} {result : Except ToolError String} {expired : Bool}
    (h : executeWorker services s n result expired = some t) : Effect services s t := by
  unfold executeWorker at h
  split at h
  · rename_i line id key call cancelled hfind
    obtain rfl : line = n := line_of_workerOf hfind
    have hworker : workerOf s (Worker.mk line id key call cancelled .executing).line =
        some (.mk line id key call cancelled .executing) := hfind
    cases h
    refine .advance hworker rfl rfl (Nat.lt_succ_self 2) fun response h ↦ ?_
    cases h
    exact ⟨_, rfl⟩
  · cases h

theorem effect_respondWorker {n : Nat} (h : respondWorker s n = some t) :
    Effect services s t := by
  unfold respondWorker at h
  split at h
  · rename_i line id key call cancelled response hfind
    obtain rfl : line = n := line_of_workerOf hfind
    have hworker : workerOf s (Worker.mk line id key call cancelled (.responding response)).line =
        some (.mk line id key call cancelled (.responding response)) := hfind
    cases h
    exact .respond hworker rfl
  · cases h

theorem effect_removeWorker {n : Nat} (h : removeWorker s n = some t) : Effect services s t := by
  unfold removeWorker at h
  split at h
  · rename_i line id key call cancelled hfind
    obtain rfl : line = n := line_of_workerOf hfind
    have hworker : workerOf s (Worker.mk line id key call cancelled .answered).line =
        some (.mk line id key call cancelled .answered) := hfind
    cases h
    exact .remove hworker rfl
  · cases h

/-- Every step has one of the effects. -/
theorem effect_of_step {action : Action} (h : step services s action = some t) :
    Effect services s t := by
  cases action with
  | read => exact effect_takeLine h
  | write =>
    obtain ⟨response, hpending, rfl⟩ := Option.map_eq_some_iff.mp h
    exact .write hpending
  | check line expired => exact effect_checkWorker h
  | execute line result expired => exact effect_executeWorker h
  | respond line => exact effect_respondWorker h
  | remove line => exact effect_removeWorker h
  | finish =>
    have hfinish : finishSession s = some t := h
    unfold finishSession at hfinish
    split at hfinish
    · rename_i hend
      cases hfinish
      exact .finish (Option.isNone_iff_eq_none.mp hend.1) hend.2.1 hend.2.2.1 hend.2.2.2
    · cases hfinish

end AgentOdometer.Mcp
