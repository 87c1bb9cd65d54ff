import AgentOdometer.Mcp.SessionEffects
import Mathlib.Algebra.Order.Ring.Nat
import Mathlib.Data.List.Nodup

/-!
# The invariants of an MCP session

The active queries are those of the workers which have not returned, and every line which the
reader has taken has one answer, written or owed, when it is expected to have one.
-/

namespace AgentOdometer.Mcp

open Std (ExtTreeMap)

variable {services : Services} {L : List BoundedLine} {s t : Session}

/-! ### Active queries -/

/-- The query of a worker. -/
structure Query where
  line : Nat
  id : Value
  key : String

/-- The query of a worker. -/
def Worker.query (worker : Worker) : Query :=
  ⟨worker.line, worker.id, worker.key⟩

/-- The queries of the workers. -/
def queries (workers : List Worker) : List Query :=
  workers.map Worker.query

/-- The active queries are those of the workers, each under the text of its id. -/
structure Listed (services : Services) (taken : Nat) (active : ExtTreeMap String Nat)
    (queries : List Query) : Prop where
  line_lt : ∀ query ∈ queries, query.line < taken
  distinct : (queries.map Query.line).Nodup
  keys : ∀ query ∈ queries, query.key = services.toText query.id ∧ query.id.isId = true
  lookup : ∀ (key : String) (n : Nat), active[key]? = some n ↔
    ∃ query ∈ queries, query.key = key ∧ query.line = n
  size : active.size = queries.length
  capacity : queries.length ≤ MAX_CONCURRENT_QUERIES

section Listed

variable {taken : Nat} {active : ExtTreeMap String Nat} {listed : List Query} {key : String}
  {id : Value}

theorem Listed.mem_active (h : Listed services taken active listed) :
    key ∈ active ↔ ∃ query ∈ listed, query.key = key := by
  rw [ExtTreeMap.mem_iff_isSome_getElem?, Option.isSome_iff_exists]
  constructor
  · rintro ⟨n, hn⟩
    obtain ⟨query, hmem, hkey, -⟩ := (h.lookup key n).mp hn
    exact ⟨query, hmem, hkey⟩
  · rintro ⟨query, hmem, hkey⟩
    exact ⟨query.line, (h.lookup key query.line).mpr ⟨query, hmem, hkey, rfl⟩⟩

/-- Two queries of one line, or of one key, are the same. -/
theorem Listed.eq_of_line (h : Listed services taken active listed) {a b : Query}
    (ha : a ∈ listed) (hb : b ∈ listed) (hline : a.line = b.line) : a = b :=
  List.inj_on_of_nodup_map h.distinct ha hb hline

theorem Listed.eq_of_key (h : Listed services taken active listed) {a b : Query}
    (ha : a ∈ listed) (hb : b ∈ listed) (hkey : a.key = b.key) : a = b := by
  have hactive : active[b.key]? = some a.line := (h.lookup _ _).mpr ⟨a, ha, hkey, rfl⟩
  have hactive' : active[b.key]? = some b.line := (h.lookup _ _).mpr ⟨b, hb, rfl, rfl⟩
  rw [hactive] at hactive'
  exact h.eq_of_line ha hb (Option.some.inj hactive')

theorem Listed.advance (h : Listed services taken active listed) :
    Listed services (taken + 1) active listed where
  line_lt query hmem := (h.line_lt query hmem).trans (Nat.lt_succ_self taken)
  distinct := h.distinct
  keys := h.keys
  lookup := h.lookup
  size := h.size
  capacity := h.capacity

theorem Listed.spawn (h : Listed services taken active listed) (hid : id.isId = true)
    (hkey : services.toText id ∉ active) (hsize : active.size < MAX_CONCURRENT_QUERIES) :
    Listed services (taken + 1) (active.insert (services.toText id) taken)
      (listed ++ [⟨taken, id, services.toText id⟩]) where
  line_lt := by
    intro query hmem
    rw [List.mem_append, List.mem_singleton] at hmem
    rcases hmem with hmem | rfl
    · exact (h.line_lt query hmem).trans (Nat.lt_succ_self taken)
    · exact Nat.lt_succ_self taken
  distinct := by
    rw [List.map_append, List.nodup_append]
    refine ⟨h.distinct, List.nodup_singleton _, ?_⟩
    intro n hn m hm heq
    obtain ⟨query, hmem, rfl⟩ := List.mem_map.mp hn
    have hlt := h.line_lt query hmem
    rw [List.map_singleton, List.mem_singleton] at hm
    have hm' : m = taken := hm
    omega
  keys := by
    intro query hmem
    rw [List.mem_append, List.mem_singleton] at hmem
    rcases hmem with hmem | rfl
    · exact h.keys query hmem
    · exact ⟨rfl, hid⟩
  lookup := by
    intro key n
    simp only [ExtTreeMap.getElem?_insert, Std.compare_eq_iff_eq]
    by_cases hsame : services.toText id = key
    · rw [if_pos hsame, Option.some.injEq]
      subst hsame
      constructor
      · rintro rfl
        exact ⟨_, List.mem_append_right _ List.mem_cons_self, rfl, rfl⟩
      · rintro ⟨query, hmem, hquery, rfl⟩
        rw [List.mem_append, List.mem_singleton] at hmem
        rcases hmem with hmem | rfl
        · exact absurd (h.mem_active.mpr ⟨query, hmem, hquery⟩) hkey
        · rfl
    · rw [if_neg hsame, h.lookup]
      constructor
      · rintro ⟨query, hmem, hquery⟩
        exact ⟨query, List.mem_append_left _ hmem, hquery⟩
      · rintro ⟨query, hmem, hquery⟩
        rw [List.mem_append, List.mem_singleton] at hmem
        rcases hmem with hmem | rfl
        · exact ⟨query, hmem, hquery⟩
        · exact absurd hquery.1 hsame
  size := by
    rw [ExtTreeMap.size_insert, if_neg (fun hmem ↦ hkey (ExtTreeMap.contains_iff_mem.mp hmem)),
      h.size, List.length_append, List.length_singleton]
  capacity := by
    rw [List.length_append, List.length_singleton, ← h.size]
    exact hsize

theorem Listed.remove (h : Listed services taken active listed) {query : Query}
    (hquery : query ∈ listed) :
    Listed services taken (active.erase query.key)
      (listed.filter fun other ↦ decide (other.line ≠ query.line)) where
  line_lt other hmem := h.line_lt other (List.mem_of_mem_filter hmem)
  distinct := h.distinct.sublist (List.filter_sublist.map Query.line)
  keys other hmem := h.keys other (List.mem_of_mem_filter hmem)
  lookup := by
    intro key n
    simp only [ExtTreeMap.getElem?_erase, Std.compare_eq_iff_eq]
    by_cases hsame : query.key = key
    · rw [if_pos hsame]
      constructor
      · exact fun hnone ↦ by cases hnone
      · rintro ⟨other, hmem, hkey, -⟩
        rw [List.mem_filter, decide_eq_true_eq] at hmem
        have heq : other = query := h.eq_of_key hmem.1 hquery (hkey.trans hsame.symm)
        exact absurd (congrArg Query.line heq) hmem.2
    · rw [if_neg hsame, h.lookup]
      constructor
      · rintro ⟨other, hmem, hkey, hline⟩
        refine ⟨other, List.mem_filter.mpr ⟨hmem, decide_eq_true ?_⟩, hkey, hline⟩
        intro heq
        exact hsame ((congrArg Query.key (h.eq_of_line hquery hmem heq.symm)).trans hkey)
      · rintro ⟨other, hmem, hother⟩
        exact ⟨other, List.mem_of_mem_filter hmem, hother⟩
  size := by
    have hcount : listed.countP (fun other ↦ other.line == query.line) = 1 := by
      have hone : (listed.map Query.line).count query.line = 1 :=
        List.count_eq_one_of_mem h.distinct (List.mem_map_of_mem hquery)
      rwa [List.count, List.countP_map] at hone
    have hsplit : listed.length = listed.countP (fun other ↦ other.line == query.line) +
        listed.countP fun other ↦ decide ¬(other.line == query.line) = true :=
      List.length_eq_countP_add_countP _
    have hmem : query.key ∈ active := h.mem_active.mpr ⟨query, hquery, rfl⟩
    have hfilter : (listed.filter fun other ↦ decide (other.line ≠ query.line)).length =
        listed.countP fun other ↦ decide ¬(other.line == query.line) = true := by
      rw [List.countP_eq_length_filter]
      simp only [beq_iff_eq, ne_eq]
    rw [ExtTreeMap.size_erase, if_pos (ExtTreeMap.contains_iff_mem.mpr hmem), h.size, hfilter]
    omega
  capacity := (List.length_filter_le _ _).trans h.capacity

end Listed

/-! ### Queries of the workers -/

theorem queries_cancelLine (workers : List Worker) (n : Nat) :
    queries (cancelLine workers n) = queries workers := by
  unfold queries cancelLine
  rw [List.map_map]
  apply List.map_congr_left
  intro worker _
  show Worker.query (if worker.line = n then { worker with cancelled := true } else worker) = _
  split <;> rfl

theorem queries_cancelQuery {requestId : Value} :
    queries (cancelQuery services s requestId) = queries s.workers := by
  unfold cancelQuery
  split
  · rfl
  · exact queries_cancelLine _ _

theorem queries_setPhase {n : Nat} {phase : Phase} :
    queries (setPhase s n phase).workers = queries s.workers := by
  unfold queries setPhase
  rw [List.map_map]
  apply List.map_congr_left
  intro worker _
  show Worker.query (if worker.line = n then { worker with phase } else worker) = _
  split <;> rfl

theorem queries_filter (workers : List Worker) (n : Nat) :
    queries (workers.filter (·.line ≠ n)) =
      (queries workers).filter fun query ↦ decide (query.line ≠ n) := by
  unfold queries
  rw [List.filter_map]
  rfl

theorem mem_of_workerOf {n : Nat} {worker : Worker} (h : workerOf s n = some worker) :
    worker ∈ s.workers :=
  List.mem_of_find?_eq_some h

theorem query_mem {worker : Worker} (h : worker ∈ s.workers) :
    worker.query ∈ queries s.workers :=
  List.mem_map_of_mem h

/-- What a session lists. -/
def IsListed (services : Services) (s : Session) : Prop :=
  Listed services s.taken s.active (queries s.workers)

theorem isListed_start : IsListed services (.start L) where
  line_lt := fun _ h ↦ nomatch h
  distinct := List.nodup_nil
  keys := fun _ h ↦ nomatch h
  lookup := by simp [Session.start, queries]
  size := rfl
  capacity := Nat.zero_le _

theorem isListed_effect (h : IsListed services s) (heffect : Effect services s t) :
    IsListed services t := by
  cases heffect with
  | quiet => exact h.advance
  | reply => exact h.advance
  | refuse => exact h.advance
  | cancel =>
    unfold IsListed advanceReader
    rw [queries_cancelQuery]
    exact h.advance
  | spawn hpending hlines hread hkey hsize =>
    have hid := (callId_of_readLine hread).2
    unfold IsListed advanceReader queries
    simp only [List.map_append]
    exact Listed.spawn h hid hkey hsize
  | write => exact h
  | advance =>
    unfold IsListed
    rw [queries_setPhase]
    exact h
  | respond =>
    unfold IsListed
    show Listed services s.taken s.active (queries (setPhase s _ _).workers)
    rw [queries_setPhase]
    exact h
  | remove hworker hphase =>
    unfold IsListed
    simp only [queries_filter]
    exact Listed.remove h (query_mem (mem_of_workerOf hworker))
  | finish => exact h

/-! ### One worker of several -/

section Update

variable {α : Type} {key : α → Nat} {g : α → α} {f : α → Nat} {l : List α} {a : α}

/-- A sum over a list in which one item is replaced. -/
theorem sum_map_update (hnodup : (l.map key).Nodup) (ha : a ∈ l) :
    ((l.map fun b ↦ if key b = key a then g b else b).map f).sum + f a =
      (l.map f).sum + f (g a) := by
  induction l with
  | nil => cases ha
  | cons b l ih =>
    rw [List.map_cons, List.nodup_cons] at hnodup
    simp only [List.map_cons, List.sum_cons]
    rcases List.mem_cons.mp ha with rfl | ha
    · have hrest : (l.map fun b ↦ if key b = key a then g b else b) = l := by
        have hself : ∀ b ∈ l, (if key b = key a then g b else b) = b :=
          fun b hb ↦ if_neg fun heq : key b = key a ↦
            hnodup.1 (heq ▸ List.mem_map_of_mem hb)
        rw [List.map_congr_left hself, List.map_id']
      rw [if_pos rfl, hrest]
      omega
    · have hne : key b ≠ key a := fun heq ↦ hnodup.1 (heq ▸ List.mem_map_of_mem ha)
      have hrest := ih hnodup.2 ha
      rw [if_neg hne]
      omega

/-- A sum over a list from which one item is removed. -/
theorem sum_map_remove (hnodup : (l.map key).Nodup) (ha : a ∈ l) :
    ((l.filter fun b ↦ decide (key b ≠ key a)).map f).sum + f a = (l.map f).sum := by
  induction l with
  | nil => cases ha
  | cons b l ih =>
    rw [List.map_cons, List.nodup_cons] at hnodup
    simp only [List.map_cons, List.sum_cons]
    rcases List.mem_cons.mp ha with rfl | ha
    · have hrest : (l.filter fun b ↦ decide (key b ≠ key a)) = l := by
        rw [List.filter_eq_self]
        intro b hb
        exact decide_eq_true fun heq ↦ hnodup.1 (heq ▸ List.mem_map_of_mem hb)
      rw [List.filter_cons_of_neg (by simp), hrest]
      omega
    · have hne : key b ≠ key a := fun heq ↦ hnodup.1 (heq ▸ List.mem_map_of_mem ha)
      have hrest := ih hnodup.2 ha
      have hfilter : ((b :: l).filter fun c ↦ decide (key c ≠ key a)) =
          b :: l.filter fun c ↦ decide (key c ≠ key a) :=
        List.filter_cons_of_pos (decide_eq_true hne)
      rw [hfilter, List.map_cons, List.sum_cons]
      omega

end Update

/-- The workers have different lines. -/
theorem IsListed.nodup (h : IsListed services s) : (s.workers.map Worker.line).Nodup := by
  have hdistinct := h.distinct
  rw [queries, List.map_map] at hdistinct
  exact hdistinct

/-- The response which a worker owes to a line. -/
def Worker.owes (n : Nat) (worker : Worker) : Nat :=
  if worker.line = n ∧ worker.phase.isAnswered = false then 1 else 0

theorem sum_owes_cancelQuery {requestId : Value} (n : Nat) :
    ((cancelQuery services s requestId).map (Worker.owes n)).sum =
      (s.workers.map (Worker.owes n)).sum := by
  unfold cancelQuery
  split
  · rfl
  · unfold cancelLine
    rw [List.map_map]
    congr 1
    apply List.map_congr_left
    intro worker _
    show Worker.owes n (if _ then _ else _) = _
    split <;> rfl

/-! ### Answers -/

/-- The id of the answer to the line of a number. -/
def expectedAt (services : Services) (L : List BoundedLine) (n : Nat) : Option Value :=
  L[n]?.bind (expectedId services)

/-- The id of the `tools/call` request on the line of a number. -/
def callAt (services : Services) (L : List BoundedLine) (n : Nat) : Option Value :=
  L[n]?.bind (callId services)

/-- The answers to a line, written or owed by the reader or by a worker. -/
def answers (s : Session) (n : Nat) : Nat :=
  s.output.countP (·.1 == n) + s.pending.toList.countP (·.1 == n) +
    (s.workers.map (Worker.owes n)).sum

/-- Every line which was taken has the answers it is expected to have. -/
structure Accounted (services : Services) (L : List BoundedLine) (s : Session) : Prop where
  lines : s.lines = L.drop s.taken
  answers : ∀ n, answers s n =
    if n < s.taken ∧ (expectedAt services L n).isSome then 1 else 0
  output : ∀ answer ∈ s.output, expectedAt services L answer.1 = some answer.2.id
  pending : ∀ answer ∈ s.pending, expectedAt services L answer.1 = some answer.2.id
  queries : ∀ query ∈ queries s.workers, expectedAt services L query.line = some query.id ∧
    callAt services L query.line = some query.id
  responses : ∀ worker ∈ s.workers, ∀ response, worker.phase = .responding response →
    response.id = worker.id
  returned : s.returned = true → s.lines = [] ∧ s.pending = none ∧ s.workers = []

/-- A cancellation leaves the queries and the phases of the workers as they are. -/
theorem exists_of_mem_cancelQuery {requestId : Value} {worker : Worker}
    (h : worker ∈ cancelQuery services s requestId) :
    ∃ old ∈ s.workers, worker.query = old.query ∧ worker.phase = old.phase := by
  unfold cancelQuery at h
  split at h
  · exact ⟨worker, h, rfl, rfl⟩
  · obtain ⟨old, hold, rfl⟩ := List.mem_map.mp h
    refine ⟨old, hold, ?_⟩
    split <;> exact ⟨rfl, rfl⟩

/-- A worker after a change of phase: the one which changed, or one as before. -/
theorem exists_of_mem_setPhase {n : Nat} {phase : Phase} {worker : Worker}
    (h : worker ∈ (setPhase s n phase).workers) :
    ∃ old ∈ s.workers, worker.query = old.query ∧
      (worker.phase = old.phase ∨ (old.line = n ∧ worker.phase = phase)) := by
  obtain ⟨old, hold, rfl⟩ := List.mem_map.mp h
  refine ⟨old, hold, ?_⟩
  by_cases hline : old.line = n
  · rw [if_pos hline]
    exact ⟨rfl, .inr ⟨hline, rfl⟩⟩
  · rw [if_neg hline]
    exact ⟨rfl, .inl rfl⟩

theorem responses_cancelQuery {requestId : Value}
    (h : ∀ worker ∈ s.workers, ∀ response, worker.phase = .responding response →
      response.id = worker.id) :
    ∀ worker ∈ cancelQuery services s requestId, ∀ response,
      worker.phase = .responding response → response.id = worker.id := by
  intro worker hworker response hphase
  obtain ⟨old, hold, hquery, hsame⟩ := exists_of_mem_cancelQuery hworker
  rw [h old hold response (hsame.symm.trans hphase)]
  exact (congrArg Query.id hquery).symm

theorem responses_setPhase (hlisted : IsListed services s) {worker : Worker}
    (hworker : worker ∈ s.workers) {phase : Phase}
    (hresponse : ∀ response, phase = .responding response → response.id = worker.id)
    (h : ∀ worker ∈ s.workers, ∀ response, worker.phase = .responding response →
      response.id = worker.id) :
    ∀ other ∈ (setPhase s worker.line phase).workers, ∀ response,
      other.phase = .responding response → response.id = other.id := by
  intro other hother response hphase
  obtain ⟨old, hold, hquery, hsame | ⟨hline, hnew⟩⟩ := exists_of_mem_setPhase hother
  · rw [h old hold response (hsame.symm.trans hphase)]
    exact (congrArg Query.id hquery).symm
  · rw [hresponse response (hnew.symm.trans hphase),
      ← List.inj_on_of_nodup_map hlisted.nodup hold hworker hline]
    exact (congrArg Query.id hquery).symm

/-- What the workers owe when one of them goes to another phase. -/
theorem sum_owes_setPhase (hlisted : IsListed services s) {worker : Worker}
    (hworker : worker ∈ s.workers) (phase : Phase) (n : Nat) :
    ((setPhase s worker.line phase).workers.map (Worker.owes n)).sum + worker.owes n =
      (s.workers.map (Worker.owes n)).sum + Worker.owes n { worker with phase } :=
  sum_map_update hlisted.nodup hworker

/-- The next line of the reader. -/
theorem Accounted.next (h : Accounted services L s) {line : BoundedLine}
    {rest : List BoundedLine} (hlines : s.lines = line :: rest) :
    L[s.taken]? = some line ∧ rest = L.drop (s.taken + 1) := by
  have hdrop : L.drop s.taken = line :: rest := h.lines.symm.trans hlines
  constructor
  · rw [← List.head?_drop, hdrop]
    rfl
  · rw [← List.tail_drop, hdrop]
    rfl

/-- The reader takes a line which has no answer yet. -/
theorem Accounted.advance (h : Accounted services L s) {line : BoundedLine}
    {rest : List BoundedLine} (hpending : s.pending = none) (hlines : s.lines = line :: rest)
    {pending : Option (Nat × Response)} {active : ExtTreeMap String Nat} {workers : List Worker}
    (hanswers : ∀ n, pending.toList.countP (·.1 == n) + (workers.map (Worker.owes n)).sum =
      (s.workers.map (Worker.owes n)).sum +
        if n = s.taken ∧ (expectedId services line).isSome then 1 else 0)
    (hpendingId : ∀ answer ∈ pending, expectedAt services L answer.1 = some answer.2.id)
    (hqueries : ∀ query ∈ Mcp.queries workers, expectedAt services L query.line = some query.id ∧
      callAt services L query.line = some query.id)
    (hresponses : ∀ worker ∈ workers, ∀ response, worker.phase = .responding response →
      response.id = worker.id) :
    Accounted services L ⟨rest, s.taken + 1, pending, active, workers, s.output, s.returned⟩ where
  lines := (h.next hlines).2
  answers := by
    intro n
    have hold := h.answers n
    have hnew := hanswers n
    have hat : expectedAt services L s.taken = expectedId services line := by
      rw [expectedAt, (h.next hlines).1, Option.bind_some]
    unfold Mcp.answers at hold ⊢
    rw [hpending] at hold
    simp only [Option.toList_none, List.countP_nil] at hold
    simp only
    by_cases hn : n = s.taken
    · subst hn
      rw [hat] at hold ⊢
      simp only [Nat.lt_irrefl, false_and, if_false] at hold
      simp only [Nat.lt_succ_self, true_and] at hnew ⊢
      omega
    · have hlt : n < s.taken + 1 ↔ n < s.taken := by omega
      simp only [hlt]
      simp only [hn, false_and, if_false] at hnew
      omega
  output := h.output
  pending := hpendingId
  queries := hqueries
  responses := hresponses
  returned := by
    intro hreturned
    rw [(h.returned hreturned).1] at hlines
    cases hlines

theorem Accounted.reply (h : Accounted services L s) {line : BoundedLine}
    {rest : List BoundedLine} (hpending : s.pending = none) (hlines : s.lines = line :: rest)
    {response : Response} (hexpected : expectedId services line = some response.id) :
    Accounted services L (advanceReader (Mcp.reply s response) rest) := by
  refine h.advance hpending hlines (fun n ↦ ?_) (fun answer hanswer ↦ ?_) h.queries h.responses
  · show (some (s.taken, response)).toList.countP _ + (s.workers.map _).sum = _
    rw [hexpected, Option.toList_some, List.countP_singleton, Nat.add_comm]
    simp only [beq_iff_eq, Option.isSome_some, and_true, @eq_comm _ s.taken n]
  · cases hanswer
    rw [expectedAt, (h.next hlines).1]
    exact hexpected

/-- A session with a worker has not returned. -/
theorem Accounted.not_returned (h : Accounted services L s) {worker : Worker}
    (hworker : worker ∈ s.workers) : s.returned ≠ true := by
  intro hreturned
  rw [(h.returned hreturned).2.2] at hworker
  cases hworker

theorem accounted_start : Accounted services L (.start L) where
  lines := rfl
  answers := by
    intro n
    simp [Mcp.answers, Session.start]
  output := fun _ h ↦ nomatch h
  pending := fun _ h ↦ nomatch h
  queries := fun _ h ↦ nomatch h
  responses := fun _ h ↦ nomatch h
  returned := fun h ↦ nomatch h

/-- A step keeps the accounts. -/
theorem accounted_effect (hlisted : IsListed services s) (h : Accounted services L s)
    (heffect : Effect services s t) : Accounted services L t := by
  have hnone : ∀ n : Nat, (none : Option (Nat × Response)).toList.countP (·.1 == n) = 0 :=
    fun _ ↦ rfl
  cases heffect with
  | quiet hpending hlines hread =>
    have hexpected : expectedId services _ = none :=
      id_readLine.symm.trans (congrArg Reading.id hread)
    unfold advanceReader
    rw [hpending]
    refine h.advance hpending hlines (fun n ↦ ?_) (fun _ h ↦ nomatch h) h.queries h.responses
    rw [hnone, hexpected]
    simp
  | cancel hpending hlines hread =>
    have hexpected : expectedId services _ = none :=
      id_readLine.symm.trans (congrArg Reading.id hread)
    unfold advanceReader
    rw [hpending]
    refine h.advance hpending hlines (fun n ↦ ?_) (fun _ h ↦ nomatch h) ?_ ?_
    · rw [hnone, hexpected, sum_owes_cancelQuery]
      simp
    · rw [queries_cancelQuery]
      exact h.queries
    · exact responses_cancelQuery h.responses
  | reply hpending hlines hread =>
    exact h.reply hpending hlines (id_readLine.symm.trans (congrArg Reading.id hread))
  | @refuse line rest id call response hpending hlines hread hcause =>
    have hid : response.id = id := by
      rcases hcause with ⟨-, rfl⟩ | ⟨-, rfl⟩ <;> rfl
    apply h.reply hpending hlines
    rw [hid]
    exact id_readLine.symm.trans (congrArg Reading.id hread)
  | @spawn line rest id call hpending hlines hread hkey hsize =>
    have hexpected : expectedId services line = some id :=
      id_readLine.symm.trans (congrArg Reading.id hread)
    unfold advanceReader
    simp only [hpending]
    refine h.advance hpending hlines (fun n ↦ ?_) (fun _ h ↦ nomatch h) ?_ ?_
    · have howes : Worker.owes n ⟨s.taken, id, services.toText id, call, false, .started⟩ =
          if n = s.taken then 1 else 0 := by
        simp only [Worker.owes, Phase.isAnswered, and_true, eq_comm]
      rw [hnone, hexpected, List.map_append, List.sum_append, List.map_singleton,
        List.sum_singleton, howes]
      simp
    · intro query hquery
      rw [queries, List.map_append, List.mem_append] at hquery
      rcases hquery with hquery | hquery
      · exact h.queries query hquery
      · cases List.mem_singleton.mp hquery
        show L[s.taken]?.bind _ = some id ∧ L[s.taken]?.bind _ = some id
        rw [(h.next hlines).1]
        exact ⟨hexpected, (callId_of_readLine hread).1⟩
    · intro worker hworker response hphase
      rcases List.mem_append.mp hworker with hworker | hworker
      · exact h.responses worker hworker response hphase
      · cases List.mem_singleton.mp hworker
        cases hphase
  | @write answer hpending =>
    refine ⟨h.lines, fun n ↦ ?_, fun other hother ↦ ?_, fun _ h ↦ (nomatch h), h.queries,
      h.responses, fun hreturned ↦ ?_⟩
    · rw [← h.answers n]
      unfold Mcp.answers
      rw [hpending, List.countP_append, hnone]
      rfl
    · rcases List.mem_append.mp hother with hother | hother
      · exact h.output other hother
      · cases List.mem_singleton.mp hother
        exact h.pending answer hpending
    · have hreturned' := h.returned hreturned
      rw [hpending] at hreturned'
      cases hreturned'.2.1
  | @advance worker phase hworker hopen hphase _ hresponse =>
    have hmem := mem_of_workerOf hworker
    have hid : ∀ response, phase = .responding response → response.id = worker.id := by
      intro response hresponding
      obtain ⟨result, rfl⟩ := hresponse response hresponding
      exact id_queryResponse
    refine ⟨h.lines, fun n ↦ ?_, h.output, h.pending, ?_,
      responses_setPhase hlisted hmem hid h.responses,
      fun hreturned ↦ absurd hreturned (h.not_returned hmem)⟩
    · have hsum := sum_owes_setPhase hlisted hmem phase n
      have hsame : Worker.owes n { worker with phase } = worker.owes n := by
        simp only [Worker.owes, hopen, hphase]
      refine Eq.trans ?_ (h.answers n)
      unfold Mcp.answers
      rw [Nat.add_right_cancel (hsum.trans (by rw [hsame]))]
      rfl
    · rw [queries_setPhase]
      exact h.queries
  | @respond worker response hworker hphase =>
    have hmem := mem_of_workerOf hworker
    have hnot : ∀ response, Phase.answered = .responding response → response.id = worker.id :=
      fun _ h ↦ nomatch h
    refine ⟨h.lines, fun n ↦ ?_, fun answer hanswer ↦ ?_, h.pending, ?_,
      responses_setPhase hlisted hmem hnot h.responses,
      fun hreturned ↦ absurd hreturned (h.not_returned hmem)⟩
    · have hsum := sum_owes_setPhase hlisted hmem .answered n
      have howed : worker.owes n = if worker.line = n then 1 else 0 := by
        simp only [Worker.owes, hphase, Phase.isAnswered, and_true]
      have hpaid : Worker.owes n { worker with phase := .answered } = 0 := by
        simp [Worker.owes, Phase.isAnswered]
      refine Eq.trans ?_ (h.answers n)
      unfold Mcp.answers
      simp only [List.countP_append, List.countP_singleton, beq_iff_eq]
      show _ + _ + s.pending.toList.countP _ + _ = _
      omega
    · rcases List.mem_append.mp hanswer with hanswer | hanswer
      · exact h.output answer hanswer
      · cases List.mem_singleton.mp hanswer
        rw [h.responses worker hmem response hphase]
        exact (h.queries worker.query (query_mem hmem)).1
    · show ∀ query ∈ Mcp.queries (setPhase s worker.line .answered).workers, _
      rw [queries_setPhase]
      exact h.queries
  | @remove worker hworker hphase =>
    have hmem := mem_of_workerOf hworker
    refine ⟨h.lines, fun n ↦ ?_, h.output, h.pending, fun query hquery ↦ ?_,
      fun other hother ↦ h.responses other (List.mem_of_mem_filter hother),
      fun hreturned ↦ absurd hreturned (h.not_returned hmem)⟩
    · have hsum : ((s.workers.filter (·.line ≠ worker.line)).map (Worker.owes n)).sum +
          worker.owes n = (s.workers.map (Worker.owes n)).sum :=
        sum_map_remove hlisted.nodup hmem
      have hpaid : worker.owes n = 0 := by
        simp [Worker.owes, hphase, Phase.isAnswered]
      refine Eq.trans ?_ (h.answers n)
      unfold Mcp.answers
      rw [← hsum, hpaid]
      rfl
    · rw [queries_filter] at hquery
      exact h.queries query (List.mem_of_mem_filter hquery)
  | finish hpending hlines hworkers hreturned =>
    exact ⟨h.lines, h.answers, h.output, h.pending, h.queries, h.responses,
      fun _ ↦ ⟨hlines, hpending, hworkers⟩⟩

end AgentOdometer.Mcp
