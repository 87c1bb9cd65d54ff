import AgentOdometer.Base.Text
import AgentOdometer.Mcp.Answers
import Mathlib.Data.List.Perm.Subperm

/-!
# A client which waits for its answers

A client with at most one unanswered query beside the next one, and with a new id for that, is
refused only while an answered query is still active.
-/

namespace AgentOdometer.Mcp

open Std (ExtTreeMap)
open Transition

variable {services : Services} {L : List BoundedLine} {s t : Session}

/-! ### Refusals -/

/-- A response which refuses a query. -/
def isRefusal : Response → Bool
  | .success _ _ => false
  | .error _ code message =>
      code == SERVER_BUSY || (code == INVALID_REQUEST && message == "request id is already active")

theorem not_isRefusal_toolResponse {id : Value} {result : Except ToolError String} :
    isRefusal (toolResponse services id result) = false := by
  cases result with
  | ok => rfl
  | error error =>
    cases error with
    | failed => rfl
    | unknownTool => rfl
    | badArguments => rfl

theorem not_isRefusal_queryResponse {id : Value} {result : Except ToolError String} :
    isRefusal (queryResponse services id result) = false := by
  unfold queryResponse
  simp only
  split <;> exact not_isRefusal_toolResponse

theorem not_isRefusal_readRequest {request : Value} {response : Response}
    (h : readRequest services request = .respond response) : isRefusal response = false := by
  unfold readRequest at h
  split at h
  · simp only at h
    cases hid : request.get "id" with
    | none =>
      simp only [hid] at h
      have hnone := congrArg Reading.id h
      rw [id_readNotification] at hnone
      cases hnone
    | some id =>
      simp only [hid] at h
      unfold readMethod at h
      split at h
      · cases h
        rfl
      · cases h
        rfl
      · cases h
        rfl
      · split at h
        · cases h
          exact not_isRefusal_toolResponse
        · cases h
      · cases h
        rfl
  · cases h
    rfl

/-- The reader's own responses refuse nothing. -/
theorem not_isRefusal_readLine {line : BoundedLine} {response : Response}
    (hline : ∀ message, line = .error message → message = oversizedLine)
    (h : readLine services line = .respond response) : isRefusal response = false := by
  cases line with
  | error message =>
    cases h
    rw [hline message rfl]
    rfl
  | ok line =>
    unfold readLine at h
    simp only at h
    split at h
    · cases h
    · split at h
      · cases h
        rfl
      · exact not_isRefusal_readRequest h

/-- Nothing is refused: not in the output, and not by a response about to be written. -/
structure Unrefused (s : Session) : Prop where
  output : ∀ answer ∈ s.output, isRefusal answer.2 = false
  pending : ∀ answer ∈ s.pending, isRefusal answer.2 = false
  workers : ∀ worker ∈ s.workers, ∀ response, worker.phase = .responding response →
    isRefusal response = false

/-! ### Politeness -/

/-- The `tools/call` requests which were taken and have no response. -/
def unanswered (services : Services) (L : List BoundedLine) (s : Session) : List Nat :=
  (List.range s.taken).filter fun n ↦
    (callAt services L n).isSome && !s.output.any (·.1 == n)

/-- The id of the next line, when it is a `tools/call` request. -/
def nextCall (services : Services) (s : Session) : Option Value :=
  s.lines.head?.bind (callId services)

/-- The client has at most two unanswered queries, with the next one, and no two of one id. -/
def Polite (services : Services) (L : List BoundedLine) (s : Session) : Prop :=
  ∀ id ∈ nextCall services s, (unanswered services L s).length ≤ 1 ∧
    ∀ n ∈ unanswered services L s, callAt services L n ≠ some id

/-- When the reader takes a query, no answered query is active under its id, and none fills one
of two active places. -/
def Settled (services : Services) (s : Session) : Prop :=
  ∀ id ∈ nextCall services s, ∀ worker ∈ s.workers, worker.phase.isAnswered = true →
    worker.key ≠ services.toText id ∧ s.workers.length < MAX_CONCURRENT_QUERIES

/-- A worker which owes its response belongs to an unanswered request. -/
theorem mem_unanswered (hlisted : IsListed services s) (h : Accounted services L s)
    {worker : Worker} (hworker : worker ∈ s.workers) (hopen : worker.phase.isAnswered = false) :
    worker.line ∈ unanswered services L s := by
  have hlt : worker.line < s.taken := hlisted.line_lt worker.query (query_mem hworker)
  have hcall : callAt services L worker.line = some worker.id :=
    (h.queries worker.query (query_mem hworker)).2
  have howes : worker.owes worker.line = 1 := by
    simp [Worker.owes, hopen]
  have hsum : _ + worker.owes worker.line = (s.workers.map (Worker.owes worker.line)).sum :=
    sum_map_remove hlisted.nodup hworker
  have hcount := h.answers worker.line
  unfold answers at hcount
  have hzero : s.output.countP (·.1 == worker.line) = 0 := by
    split at hcount <;> omega
  rw [unanswered, List.mem_filter, List.mem_range, hcall, Option.isSome_some, Bool.true_and,
    Bool.not_eq_true', List.any_eq_false]
  exact ⟨hlt, fun answer hanswer ↦ List.countP_eq_zero.mp hzero answer hanswer⟩

/-- A settled session accepts the next query of a polite client. -/
theorem accepts_of_polite (hids : ∀ a b : Value, a.isId = true →
      services.toText a = services.toText b → a = b)
    (hlisted : IsListed services s) (h : Accounted services L s)
    (hpolite : Polite services L s) (hsettled : Settled services s) {id : Value}
    (hid : nextCall services s = some id) :
    services.toText id ∉ s.active ∧ s.active.size < MAX_CONCURRENT_QUERIES := by
  obtain ⟨hlength, hnew⟩ := hpolite id hid
  have hsettled := hsettled id hid
  constructor
  · intro hactive
    obtain ⟨query, hquery, hkey⟩ := hlisted.mem_active.mp hactive
    obtain ⟨worker, hworker, rfl⟩ := List.mem_map.mp hquery
    cases hanswered : worker.phase.isAnswered with
    | true => exact (hsettled worker hworker hanswered).1 hkey
    | false =>
      obtain ⟨hworkerKey, hworkerId⟩ := hlisted.keys worker.query hquery
      have hsame : worker.id = id := hids _ _ hworkerId (hworkerKey.symm.trans hkey)
      have hcall := (h.queries worker.query hquery).2
      exact hnew _ (mem_unanswered hlisted h hworker hanswered) (hcall.trans (congrArg some hsame))
  · rw [hlisted.size, queries, List.length_map]
    by_contra hfull
    have hopen : ∀ worker ∈ s.workers, worker.phase.isAnswered = false := by
      intro worker hworker
      cases hanswered : worker.phase.isAnswered with
      | false => rfl
      | true => exact absurd (hsettled worker hworker hanswered).2 hfull
    have hsubset : s.workers.map Worker.line ⊆ unanswered services L s := by
      intro n hn
      obtain ⟨worker, hworker, rfl⟩ := List.mem_map.mp hn
      exact mem_unanswered hlisted h hworker (hopen worker hworker)
    have hle := (List.Nodup.subperm hlisted.nodup hsubset).length_le
    rw [List.length_map] at hle
    unfold MAX_CONCURRENT_QUERIES at hfull
    omega

/-- The steps at which a settled session takes the lines of a polite client. -/
def PoliteStep (services : Services) (L : List BoundedLine) (s : Session) (action : Action) :
    Prop :=
  match action with
  | .read => Polite services L s
  | _ => True

/-- The condition under which a polite client is not refused. -/
def SettledStep (services : Services) (s : Session) (action : Action) : Prop :=
  match action with
  | .read => Settled services s
  | _ => True

theorem unrefused_start : Unrefused (.start L) :=
  ⟨fun _ h ↦ (nomatch h), fun _ h ↦ (nomatch h), fun _ h ↦ nomatch h⟩

/-- What the reader takes is refused only as a query which finds no place. -/
theorem unrefused_effect (hunrefused : Unrefused s)
    (hlines : ∀ message, .error message ∈ s.lines → message = oversizedLine)
    (haccepts : t.taken ≠ s.taken → ∀ id ∈ nextCall services s,
      services.toText id ∉ s.active ∧ s.active.size < MAX_CONCURRENT_QUERIES)
    (heffect : Effect services s t) : Unrefused t := by
  have hnextCall : ∀ {line : BoundedLine} {rest : List BoundedLine} {id : Value}
      {call : PreparedCall}, s.lines = line :: rest → readLine services line = .call id call →
        nextCall services s = some id := by
    intro line rest id call hnext hread
    rw [nextCall, hnext]
    exact (callId_of_readLine hread).1
  cases heffect with
  | quiet => exact ⟨hunrefused.output, hunrefused.pending, hunrefused.workers⟩
  | cancel =>
    refine ⟨hunrefused.output, hunrefused.pending, fun worker hworker response hphase ↦ ?_⟩
    obtain ⟨old, hold, -, hsame⟩ := exists_of_mem_cancelQuery hworker
    exact hunrefused.workers old hold response (hsame.symm.trans hphase)
  | @reply line rest response hpending hnext hread =>
    refine ⟨hunrefused.output, fun answer hanswer ↦ ?_, hunrefused.workers⟩
    cases hanswer
    apply not_isRefusal_readLine _ hread
    rintro message rfl
    apply hlines message
    rw [hnext]
    exact List.mem_cons_self
  | refuse hpending hnext hread hcause =>
    obtain ⟨hkey, hsize⟩ := haccepts (Nat.succ_ne_self _) _ (hnextCall hnext hread)
    rcases hcause with ⟨hactive, -⟩ | ⟨hfull, -⟩
    · exact absurd hactive hkey
    · omega
  | spawn =>
    refine ⟨hunrefused.output, hunrefused.pending, fun worker hworker response hphase ↦ ?_⟩
    rcases List.mem_append.mp hworker with hworker | hworker
    · exact hunrefused.workers worker hworker response hphase
    · cases List.mem_singleton.mp hworker
      cases hphase
  | @write answer hpending =>
    refine ⟨fun other hother ↦ ?_, fun _ h ↦ (nomatch h), hunrefused.workers⟩
    rcases List.mem_append.mp hother with hother | hother
    · exact hunrefused.output other hother
    · cases List.mem_singleton.mp hother
      exact hunrefused.pending answer hpending
  | advance hworker hopen hphase _ hresponse =>
    refine ⟨hunrefused.output, hunrefused.pending, fun other hother response hresponding ↦ ?_⟩
    obtain ⟨old, hold, -, hsame | ⟨-, hnew⟩⟩ := exists_of_mem_setPhase hother
    · exact hunrefused.workers old hold response (hsame.symm.trans hresponding)
    · obtain ⟨result, rfl⟩ := hresponse response (hnew.symm.trans hresponding)
      exact not_isRefusal_queryResponse
  | @respond worker response hworker hphase =>
    refine ⟨fun other hother ↦ ?_, hunrefused.pending, fun other hother other' hresponding ↦ ?_⟩
    · rcases List.mem_append.mp hother with hother | hother
      · exact hunrefused.output other hother
      · cases List.mem_singleton.mp hother
        exact hunrefused.workers worker (mem_of_workerOf hworker) response hphase
    · obtain ⟨old, hold, -, hsame | ⟨-, hnew⟩⟩ := exists_of_mem_setPhase hother
      · exact hunrefused.workers old hold other' (hsame.symm.trans hresponding)
      · cases hnew.symm.trans hresponding
  | remove =>
    exact ⟨hunrefused.output, hunrefused.pending,
      fun other hother ↦ hunrefused.workers other (List.mem_of_mem_filter hother)⟩
  | finish => exact ⟨hunrefused.output, hunrefused.pending, hunrefused.workers⟩

/-- Only the reader takes lines. -/
theorem taken_of_step {action : Action} (hread : action ≠ .read)
    (hstep : step services s action = some t) : t.taken = s.taken := by
  cases action with
  | read => exact absurd rfl hread
  | write =>
    obtain ⟨response, -, rfl⟩ := Option.map_eq_some_iff.mp hstep
    rfl
  | check line expired =>
    have hcheck : checkWorker services s line expired = some t := hstep
    unfold checkWorker at hcheck
    split at hcheck
    · split at hcheck <;> cases hcheck <;> rfl
    · cases hcheck
  | execute line result expired =>
    have hexecute : executeWorker services s line result expired = some t := hstep
    unfold executeWorker at hexecute
    split at hexecute <;> cases hexecute
    rfl
  | respond line =>
    have hrespond : respondWorker s line = some t := hstep
    unfold respondWorker at hrespond
    split at hrespond <;> cases hrespond
    rfl
  | remove line =>
    have hremove : removeWorker s line = some t := hstep
    unfold removeWorker at hremove
    split at hremove <;> cases hremove
    rfl
  | finish =>
    have hfinish : finishSession s = some t := hstep
    unfold finishSession at hfinish
    split at hfinish <;> cases hfinish
    rfl

/-! ### The promise of a session -/

theorem error_mem_streamLines {bytes : List UInt8} {message : String}
    (h : .error message ∈ streamLines bytes) : message = oversizedLine := by
  obtain ⟨line, -, hline⟩ := List.mem_map.mp h
  unfold boundLine at hline
  simp only at hline
  split at hline
  · cases hline
    rfl
  · cases hline

/-- What a session promises in every state of a run. -/
structure Promise (services : Services) (L : List BoundedLine) (s : Session) : Prop where
  once : ∀ n, (writtenIds s n).Sublist (expectedAt services L n).toList
  answered : s.returned = true → ∀ n, writtenIds s n = (expectedAt services L n).toList
  drained : s.returned = true → s.lines = [] ∧ s.pending = none ∧ s.workers = []
  concurrent : s.workers.length ≤ MAX_CONCURRENT_QUERIES
  cancels : ∀ (line : BoundedLine) (requestId : Value) (t : Session),
    s.lines.head? = some line → readLine services line = .cancel requestId →
      step services s .read = some t →
        t.active = s.active ∧ t.output = s.output ∧ t.pending = none ∧
          t.workers.Forall₂ (fun after before ↦ (before.id = requestId ∧
            after = { before with cancelled := true }) ∨
              (before.id ≠ requestId ∧ after = before)) s.workers
  progress : s.returned = false → ∃ action t, step services s action = some t
  bounded : ∀ action t, step services s action = some t → remaining t < remaining s

theorem forall₂_cancelQuery (hids : ∀ a b : Value, a.isId = true →
      services.toText a = services.toText b → a = b)
    (hlisted : IsListed services s) (requestId : Value) :
    (cancelQuery services s requestId).Forall₂ (fun after before ↦ (before.id = requestId ∧
      after = { before with cancelled := true }) ∨
        (before.id ≠ requestId ∧ after = before)) s.workers := by
  rw [workers_cancelQuery hids hlisted, List.forall₂_map_left_iff, List.forall₂_same]
  intro worker _
  by_cases hid : worker.id = requestId
  · rw [if_pos hid]
    exact .inl ⟨hid, rfl⟩
  · rw [if_neg hid]
    exact .inr ⟨hid, rfl⟩

theorem promise_of_invariants (hids : ∀ a b : Value, a.isId = true →
      services.toText a = services.toText b → a = b)
    (hlisted : IsListed services s) (h : Accounted services L s) : Promise services L s where
  once := writtenIds_sublist h
  answered := writtenIds_of_returned h
  drained := h.returned
  concurrent := by
    rw [← List.length_map]
    exact hlisted.capacity
  cancels := by
    intro line requestId t hnext hread hstep
    have htake : takeLine services s = some t := hstep
    unfold takeLine at htake
    split at htake
    · rename_i line' rest hpending hlines
      rw [hlines] at hnext
      cases hnext
      rw [hread] at htake
      cases htake
      exact ⟨rfl, rfl, hpending, forall₂_cancelQuery hids hlisted requestId⟩
    · cases htake
  progress := exists_step hlisted
  bounded := fun _ _ hstep ↦ remaining_lt hlisted (effect_of_step hstep)

/-- A polite client of a settled session is not refused in any state of a run. -/
theorem unrefused_of_reaches (hids : ∀ a b : Value, a.isId = true →
      services.toText a = services.toText b → a = b)
    (hL : ∀ message, .error message ∈ L → message = oversizedLine)
    (hrun : Reaches (step services) (fun s action ↦ PoliteStep services L s action ∧
      SettledStep services s action) (.start L) s) : Unrefused s := by
  have hall : IsListed services s ∧ Accounted services L s ∧ Unrefused s := by
    refine @Reaches.invariant _ _ _ _ _ _ (fun s ↦ IsListed services s ∧
      Accounted services L s ∧ Unrefused s) ?_ hrun ⟨isListed_start, accounted_start,
        unrefused_start⟩
    rintro s action t ⟨hlisted, h, hunrefused⟩ ⟨hpolite, hsettled⟩ hstep
    have heffect := effect_of_step hstep
    refine ⟨isListed_effect hlisted heffect, accounted_effect hlisted h heffect, ?_⟩
    have hlines : ∀ message, .error message ∈ s.lines → message = oversizedLine := by
      intro message hmem
      rw [h.lines] at hmem
      exact hL message (List.mem_of_mem_drop hmem)
    refine unrefused_effect hunrefused hlines (fun htaken id hid ↦ ?_) heffect
    by_cases hread : action = .read
    · subst hread
      exact accepts_of_polite hids hlisted h hpolite hsettled hid
    · exact absurd (taken_of_step hread hstep) htaken
  exact hall.2.2

/-- A session promises its answers in every run, for every split of its input, and refuses no
polite client whose queries are taken while it is settled. -/
theorem mcp_session_promise (services : Services)
    (hids : ∀ a b : Value, a.isId = true → services.toText a = services.toText b → a = b)
    (buffers : List (List UInt8)) (s : Session)
    (hrun : Reaches (step services) always
      (.start (readLines (buffers.flatten.length + 1) buffers)) s) :
    Promise services (streamLines buffers.flatten) s ∧
      (Reaches (step services)
        (fun s action ↦ PoliteStep services (streamLines buffers.flatten) s action ∧
          SettledStep services s action)
        (.start (readLines (buffers.flatten.length + 1) buffers)) s →
          ∀ answer ∈ s.output, isRefusal answer.2 = false) := by
  rw [readLines_eq_streamLines _ _ (Nat.lt_succ_self _)] at hrun ⊢
  have hinv := invariants_of_reaches hrun
  refine ⟨promise_of_invariants hids hinv.1 hinv.2, fun hpolite ↦ ?_⟩
  exact (unrefused_of_reaches hids (fun _ h ↦ error_mem_streamLines h) hpolite).output

/-! ### Two sessions -/

/-- A number from its text. -/
def demoNumber (digit : Fin 10) : Number :=
  ⟨String.ofList [Nat.digitChar digit], by revert digit; decide⟩

/-- The text of a query with a number as its id. -/
def demoText (digit : Fin 10) : String :=
  "\x7b\"jsonrpc\":\"2.0\",\"id\":" ++ (demoNumber digit).text ++
    ",\"method\":\"tools/call\",\"params\":\x7b\"name\":\"usage_report\"\x7d\x7d"

/-- The query of that text. -/
def demoCall (digit : Fin 10) : Value :=
  .object [("jsonrpc", .string "2.0"), ("id", .number (demoNumber digit)),
    ("method", .string "tools/call"), ("params", .object [("name", .string "usage_report")])]

/-- A printer of request ids. -/
def demoToText : Value → String
  | .null => "null"
  | .bool value => if value then "true" else "false"
  | .number value => value.text
  | .string value => "\"" ++ value ++ "\""
  | .array _ => "[]"
  | .object _ => "\x7b\x7d"

/-- Services which know these queries. -/
def demoServices : Services where
  fromSlice bytes := ((List.finRange 10).find? fun digit ↦ Text.utf8 (demoText digit) = bytes).map
    demoCall
  toText := demoToText
  responseText _ := ""
  prepareCall _ := .ok ⟨"usage_report"⟩
  initializeResult := .null
  toolDescriptors := []
  diagnostic message := message

/-- Only a number is printed with a digit or a minus sign first. -/
theorem number_of_numeric {value : Value}
    (h : (demoToText value).toList.head?.any (fun c ↦ c.isDigit || c == '-') = true) :
    ∃ number, value = .number number := by
  cases value with
  | number number => exact ⟨number, rfl⟩
  | string value =>
    rw [demoToText, String.toList_append, String.toList_append] at h
    exact absurd h (by simp)
  | bool value => cases value <;> exact absurd h (by decide)
  | null | array | object => exact absurd h (by simp [demoToText])

theorem demoToText_injective (a b : Value) (ha : a.isId = true)
    (h : demoToText a = demoToText b) : a = b := by
  have hnumber : ∀ (n : Number) (value : Value), demoToText (.number n) = demoToText value →
      Value.number n = value := by
    intro n value heq
    have hnumeric := n.numeric
    rw [show n.text = demoToText value from heq] at hnumeric
    obtain ⟨number, rfl⟩ := number_of_numeric hnumeric
    congr 1
    cases n
    cases number
    congr 1
  have hhead : (demoToText a).toList.head? = (demoToText b).toList.head? := by rw [h]
  cases a with
  | bool | array | object => cases ha
  | number n => exact hnumber n b h
  | null =>
    cases b with
    | null => rfl
    | number n => exact (hnumber n _ h.symm).symm
    | bool value => cases value <;> exact absurd hhead (by decide)
    | array | object => exact absurd hhead (by simp [demoToText])
    | string value =>
      rw [demoToText, demoToText, String.toList_append, String.toList_append] at hhead
      exact absurd hhead (by simp)
  | string value =>
    rw [demoToText, String.toList_append, String.toList_append] at hhead
    cases b with
    | number n => exact (hnumber n _ h.symm).symm
    | bool value => cases value <;> exact absurd hhead (by simp [demoToText])
    | null | array | object => exact absurd hhead (by simp [demoToText])
    | string other =>
      have hlist := congrArg String.toList h
      simp only [demoToText, String.toList_append] at hlist
      rw [String.toList_injective (List.append_cancel_left (List.append_cancel_right hlist))]

/-- The input of queries, in one buffer. -/
def demoInput (digits : List (Fin 10)) : List (List UInt8) :=
  [digits.flatMap fun digit ↦ Text.utf8 (demoText digit) ++ [newline]]

/-- A check of politeness by the texts of the ids. -/
def isPolite (services : Services) (L : List BoundedLine) (s : Session) : Bool :=
  (nextCall services s).all fun id ↦ decide ((unanswered services L s).length ≤ 1) &&
    (unanswered services L s).all fun n ↦
      (callAt services L n).map services.toText != some (services.toText id)

theorem polite_of_isPolite (h : isPolite services L s = true) : Polite services L s := by
  intro id hid
  rw [isPolite, Option.all_eq_true] at h
  have hboth := h id hid
  rw [Bool.and_eq_true, decide_eq_true_eq, List.all_eq_true] at hboth
  refine ⟨hboth.1, fun n hn heq ↦ ?_⟩
  have hne := hboth.2 n hn
  rw [heq] at hne
  simp at hne

/-- A check that the session is settled. -/
def isSettled (services : Services) (s : Session) : Bool :=
  (nextCall services s).all fun id ↦ s.workers.all fun worker ↦
    !worker.phase.isAnswered ||
      (worker.key != services.toText id && decide (s.workers.length < MAX_CONCURRENT_QUERIES))

theorem settled_of_isSettled (h : isSettled services s = true) : Settled services s := by
  intro id hid worker hworker hanswered
  rw [isSettled, Option.all_eq_true] at h
  have hworkers := List.all_eq_true.mp (h id hid) worker hworker
  simpa [hanswered] using hworkers

/-- A run which checks each state in which a line is taken. -/
def checkedRun (services : Services) (check : Session → Bool) :
    Session → List Action → Option Session
  | s, [] => some s
  | s, .read :: actions =>
      if check s then
        (step services s .read).bind fun t ↦ checkedRun services check t actions
      else none
  | s, action :: actions =>
      (step services s action).bind fun t ↦ checkedRun services check t actions

theorem reaches_of_checkedRun {check : Session → Bool} {ok : Session → Action → Prop}
    {actions : List Action} (hread : ∀ s, check s = true → ok s .read)
    (hother : ∀ s action, action ≠ .read → ok s action)
    (h : checkedRun services check s actions = some t) : Reaches (step services) ok s t := by
  induction actions generalizing s with
  | nil =>
    cases h
    exact .refl _
  | cons action actions ih =>
    have hnext : ok s action ∧
        ((step services s action).bind fun u ↦ checkedRun services check u actions) = some t := by
      cases action with
      | read =>
        rw [checkedRun] at h
        split at h
        · rename_i hcheck
          exact ⟨hread s hcheck, h⟩
        · cases h
      | _ => exact ⟨hother _ _ (by simp), h⟩
    obtain ⟨u, hstep, hrest⟩ := Option.bind_eq_some_iff.mp hnext.2
    exact .head hnext.1 hstep (ih hrest)

theorem politeStep_of_ne {action : Action} (h : action ≠ .read) :
    PoliteStep services L s action := by
  cases action with
  | read => exact absurd rfl h
  | _ => trivial

theorem settledStep_of_ne {action : Action} (h : action ≠ .read) :
    SettledStep services s action := by
  cases action with
  | read => exact absurd rfl h
  | _ => trivial

/-- Two queries are in flight, and a third reuses the id of the first once that was answered. -/
def demoActions : List Action :=
  [.read, .read, .check 0 false, .execute 0 (.ok "") false, .respond 0, .remove 0, .read,
    .check 1 false, .execute 1 (.ok "") false, .respond 1, .remove 1,
    .check 2 false, .execute 2 (.ok "") false, .respond 2, .remove 2, .finish]

/-- A polite client of three queries gets an answer for each and no refusal. -/
theorem three_queries_answered :
    ∃ s, s.returned = true ∧ s.output.length = 3 ∧
      Promise demoServices (streamLines (demoInput [1, 2, 1]).flatten) s ∧
        ∀ answer ∈ s.output, isRefusal answer.2 = false := by
  let buffers := demoInput [1, 2, 1]
  let L := streamLines buffers.flatten
  let check s := isPolite demoServices L s && isSettled demoServices s
  have hends : (checkedRun demoServices check
      (.start (readLines (buffers.flatten.length + 1) buffers)) demoActions).any
        (fun s ↦ s.returned && s.output.length == 3) = true := by
    decide +kernel
  cases hend : checkedRun demoServices check
      (.start (readLines (buffers.flatten.length + 1) buffers)) demoActions with
  | none =>
    rw [hend] at hends
    cases hends
  | some s =>
    rw [hend, Option.any_some, Bool.and_eq_true, beq_iff_eq] at hends
    have hreach : Reaches (step demoServices)
        (fun s action ↦ PoliteStep demoServices L s action ∧ SettledStep demoServices s action)
        (.start (readLines (buffers.flatten.length + 1) buffers)) s := by
      refine reaches_of_checkedRun (fun s hcheck ↦ ?_) (fun s action hne ↦ ?_) hend
      · obtain ⟨hpolite, hsettled⟩ := Bool.and_eq_true_iff.mp hcheck
        exact ⟨polite_of_isPolite hpolite, settled_of_isSettled hsettled⟩
      · exact ⟨politeStep_of_ne hne, settledStep_of_ne hne⟩
    obtain ⟨hpromise, hrefusals⟩ := mcp_session_promise demoServices demoToText_injective buffers s
      (hreach.mono fun _ _ _ ↦ trivial)
    exact ⟨s, hends.1, hends.2, hpromise, hrefusals hreach⟩

/-- A third query, sent after the first was answered, is refused while the first is active. -/
theorem polite_client_refused :
    ∃ s, Reaches (step demoServices)
        (PoliteStep demoServices (streamLines (demoInput [1, 2, 3]).flatten))
        (.start (streamLines (demoInput [1, 2, 3]).flatten)) s ∧
      ∃ answer ∈ s.output, isRefusal answer.2 = true := by
  let L := streamLines (demoInput [1, 2, 3]).flatten
  have hrun : (checkedRun demoServices (isPolite demoServices L) (.start L)
      [.read, .read, .check 0 false, .execute 0 (.ok "") false, .respond 0, .read, .write]).any
        (fun s ↦ s.output.any fun answer ↦ isRefusal answer.2) = true := by
    decide +kernel
  cases hend : checkedRun demoServices (isPolite demoServices L) (.start L)
      [.read, .read, .check 0 false, .execute 0 (.ok "") false, .respond 0, .read, .write] with
  | none =>
    rw [hend] at hrun
    cases hrun
  | some s =>
    rw [hend] at hrun
    exact ⟨s, reaches_of_checkedRun (fun _ ↦ polite_of_isPolite) (fun _ _ ↦ politeStep_of_ne) hend,
      List.any_eq_true.mp hrun⟩

end AgentOdometer.Mcp
