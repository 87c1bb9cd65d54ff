import AgentOdometer.Lib.Lines

/-!
# Lines of an MCP connection

The bounded line reader of `mcp_server.rs:249–284` over the buffers which a connection fills,
and the lines of a byte stream. The reader returns the lines of the stream, however the bytes
are split over the buffers.
-/

namespace AgentOdometer.Mcp

/-- `MAX_INPUT_BYTES`. -/
def MAX_INPUT_BYTES : Nat :=
  64 * 1024

/-- A line without its newline, or the reason why it was discarded. Follows
`mcp_server.rs:249`. -/
abbrev BoundedLine :=
  Except String (List UInt8)

/-- The newline byte. -/
def newline : UInt8 :=
  10

/-- The reason of an oversized line. -/
def oversizedLine : String :=
  "request exceeds 64 KiB line limit"

/-- The line collected so far, or that it was too long. -/
structure Partly where
  line : List UInt8
  oversized : Bool

/-- Collect the data of one buffer. Follows `mcp_server.rs:270–277`. -/
def Partly.extend (s : Partly) (data : List UInt8) : Partly :=
  if s.oversized then s
  else if s.line.length + data.length > MAX_INPUT_BYTES then ⟨[], true⟩
  else ⟨s.line ++ data, false⟩

/-- The line which ends here. Follows `mcp_server.rs:279–283`. -/
def Partly.finish (s : Partly) : BoundedLine :=
  if s.oversized then .error oversizedLine else .ok s.line

/-- The end of the input. Follows `mcp_server.rs:258–265`. -/
def Partly.atEnd (s : Partly) : Option BoundedLine :=
  if s.oversized then some (.error oversizedLine)
  else if s.line.isEmpty then none
  else some (.ok s.line)

/-- `read_bounded_line`, `mcp_server.rs:253–285`: the next line and the buffers after it. A
buffer is empty only at the end of the input. -/
def readBoundedLine (s : Partly) : List (List UInt8) → Option BoundedLine × List (List UInt8)
  | [] => (s.atEnd, [])
  | available :: buffers =>
      let data := available.takeWhile (· ≠ newline)
      let s := s.extend data
      match available.drop data.length with
      | [] => readBoundedLine s buffers
      | _ :: rest => (some s.finish, rest :: buffers)

/-- The lines read until the end of the input, with enough calls. -/
def readLines : Nat → List (List UInt8) → List BoundedLine
  | 0, _ => []
  | calls + 1, buffers =>
      match readBoundedLine ⟨[], false⟩ buffers with
      | (none, _) => []
      | (some line, rest) => line :: readLines calls rest

/-! ### The lines of a stream -/

/-- A line of a stream without its newline. -/
def boundLine (line : List UInt8) : BoundedLine :=
  let data := line.takeWhile (· ≠ newline)
  if data.length > MAX_INPUT_BYTES then .error oversizedLine else .ok data

/-- The lines of a stream: the complete ones, and what follows the last newline. -/
def streamLines (bytes : List UInt8) : List BoundedLine :=
  let (lines, tail) := Lines.splitLines newline bytes
  (lines ++ if tail.isEmpty then [] else [tail]).map boundLine

/-! ### Any split of the bytes -/

variable {buffers : List (List UInt8)} {content data body after : List UInt8}

/-- A line within the limit, or the reason why it was discarded. -/
def bounded (line : List UInt8) : BoundedLine :=
  if line.length > MAX_INPUT_BYTES then .error oversizedLine else .ok line

/-- What is kept of the bytes of a line read so far. -/
def Partly.of (content : List UInt8) : Partly :=
  if content.length > MAX_INPUT_BYTES then ⟨[], true⟩ else ⟨content, false⟩

theorem Partly.extend_of : (Partly.of content).extend data = .of (content ++ data) := by
  unfold Partly.of Partly.extend
  rw [List.length_append]
  by_cases hcontent : content.length > MAX_INPUT_BYTES
  · have hboth : content.length + data.length > MAX_INPUT_BYTES := by omega
    simp only [if_pos hcontent, if_pos hboth, if_true]
  · simp only [if_neg hcontent, Bool.false_eq_true, if_false]

theorem Partly.finish_of : (Partly.of content).finish = bounded content := by
  unfold Partly.of Partly.finish bounded
  split <;> rfl

theorem Partly.atEnd_of (hcontent : content ≠ []) :
    (Partly.of content).atEnd = some (bounded content) := by
  have hempty : content.isEmpty = false := by
    rw [Bool.eq_false_iff]
    exact fun h ↦ hcontent (List.isEmpty_iff.mp h)
  unfold Partly.of Partly.atEnd bounded
  split
  · rfl
  · simp [hempty]

theorem takeWhile_newline (h : newline ∉ body) :
    (body ++ newline :: after).takeWhile (· ≠ newline) = body := by
  have hall : ∀ b ∈ body, decide (b ≠ newline) = true :=
    fun b hb ↦ decide_eq_true (ne_of_mem_of_not_mem hb h)
  rw [List.takeWhile_append_of_pos hall, List.takeWhile_cons_of_neg (by simp), List.append_nil]

theorem takeWhile_of_notMem (h : newline ∉ data) : data.takeWhile (· ≠ newline) = data := by
  have hall : ∀ b ∈ data, decide (b ≠ newline) = true :=
    fun b hb ↦ decide_eq_true (ne_of_mem_of_not_mem hb h)
  have happend : (data ++ []).takeWhile (· ≠ newline) = data ++ [] :=
    List.takeWhile_append_of_pos hall
  rwa [List.append_nil] at happend

/-- Bytes with a newline, parted at the first one. -/
theorem exists_body {bytes : List UInt8} (h : newline ∈ bytes) :
    ∃ body after, bytes = body ++ newline :: after ∧ newline ∉ body := by
  obtain ⟨body, after, rfl, hbody⟩ := List.eq_append_cons_of_mem h
  exact ⟨body, after, rfl, hbody⟩

theorem readBoundedLine_cons_of_notMem {available : List UInt8} (h : newline ∉ available) :
    readBoundedLine (.of content) (available :: buffers) =
      readBoundedLine (.of (content ++ available)) buffers := by
  rw [readBoundedLine, takeWhile_of_notMem h, List.drop_length, Partly.extend_of]

/-- The reader finds the first newline of the bytes which follow. -/
theorem readBoundedLine_of_newline (hbody : newline ∉ body)
    (hbytes : buffers.flatten = body ++ newline :: after) :
    ∃ rest, rest.flatten = after ∧
      readBoundedLine (.of content) buffers = (some (bounded (content ++ body)), rest) := by
  induction buffers generalizing content body with
  | nil => exact absurd hbytes.symm (by simp)
  | cons available buffers ih =>
    rw [List.flatten_cons] at hbytes
    by_cases hmem : newline ∈ available
    · obtain ⟨first, tail, rfl, hfirst⟩ := exists_body hmem
      rw [List.append_assoc, List.cons_append] at hbytes
      have hsame : first = body := by
        rw [← takeWhile_newline hfirst, hbytes, takeWhile_newline hbody]
      subst hsame
      refine ⟨tail :: buffers, ?_, ?_⟩
      · exact (List.cons.inj (List.append_cancel_left hbytes)).2
      · rw [readBoundedLine, takeWhile_newline hfirst, List.drop_left, Partly.extend_of]
        simp only [Partly.finish_of]
    · obtain ⟨later, hlater⟩ : ∃ later, body = available ++ later := by
        rw [List.append_eq_append_iff] at hbytes
        obtain ⟨later, hbody', -⟩ | ⟨later, havailable, hrest⟩ := hbytes
        · exact ⟨later, hbody'⟩
        · cases later with
          | nil => exact ⟨[], by rw [havailable, List.append_nil, List.append_nil]⟩
          | cons b later =>
            cases (List.cons.inj hrest).1
            exact absurd (by rw [havailable]; simp) hmem
      subst hlater
      rw [List.append_assoc] at hbytes
      rw [readBoundedLine_cons_of_notMem hmem, ← List.append_assoc]
      exact ih (fun h ↦ hbody (List.mem_append_right _ h)) (List.append_cancel_left hbytes)

/-- Without a newline the reader takes everything. -/
theorem readBoundedLine_of_notMem (hbytes : newline ∉ buffers.flatten) :
    readBoundedLine (.of content) buffers =
      ((Partly.of (content ++ buffers.flatten)).atEnd, []) := by
  induction buffers generalizing content with
  | nil => rw [List.flatten_nil, List.append_nil, readBoundedLine]
  | cons available buffers ih =>
    rw [List.flatten_cons, List.mem_append, not_or] at hbytes
    rw [readBoundedLine_cons_of_notMem hbytes.1, ih hbytes.2, List.flatten_cons,
      List.append_assoc]

theorem boundLine_of_isLine {line : List UInt8} (h : Lines.IsLine newline line) :
    ∃ body, line = body ++ [newline] ∧ newline ∉ body ∧ boundLine line = bounded body := by
  obtain ⟨body, rfl, hbody⟩ := h
  refine ⟨body, rfl, hbody, ?_⟩
  rw [boundLine, takeWhile_newline hbody]
  rfl

/-- The reader returns the lines of the stream, for every split of it over buffers. -/
theorem readLines_eq_streamLines (calls : Nat) (buffers : List (List UInt8))
    (hcalls : buffers.flatten.length < calls) :
    readLines calls buffers = streamLines buffers.flatten := by
  obtain ⟨lines, tail, hbytes, hlines, htail⟩ := Lines.exists_lines newline buffers.flatten
  rw [streamLines, hbytes, Lines.splitLines_flatten_append hlines htail]
  induction lines generalizing calls buffers with
  | nil =>
    cases calls with
    | zero => omega
    | succ calls =>
      rw [List.flatten_nil, List.nil_append] at hbytes
      rw [readLines, show (⟨[], false⟩ : Partly) = .of [] from rfl,
        readBoundedLine_of_notMem (by rw [hbytes]; exact htail), hbytes, List.nil_append]
      cases htail' : tail with
      | nil => rfl
      | cons b rest =>
        rw [Partly.atEnd_of (List.cons_ne_nil b rest)]
        rw [htail'] at htail
        have hline : boundLine (b :: rest) = bounded (b :: rest) := by
          rw [boundLine, takeWhile_of_notMem htail]
          rfl
        have hnone : readLines calls [] = [] := by
          cases calls with
          | zero => rfl
          | succ => rfl
        simp [hnone, hline]
  | cons line lines ih =>
    cases calls with
    | zero => omega
    | succ calls =>
      rw [List.forall_mem_cons] at hlines
      obtain ⟨body, rfl, hbody, hline⟩ := boundLine_of_isLine hlines.1
      rw [List.flatten_cons, List.append_assoc, List.append_assoc, List.singleton_append] at hbytes
      obtain ⟨rest, hrest, hread⟩ : ∃ rest, rest.flatten = lines.flatten ++ tail ∧
          readBoundedLine (.of []) buffers = (some (bounded ([] ++ body)), rest) :=
        readBoundedLine_of_newline hbody hbytes
      have hlength : rest.flatten.length < calls := by
        rw [hrest]
        rw [hbytes, List.length_append, List.length_cons] at hcalls
        omega
      rw [readLines, show (⟨[], false⟩ : Partly) = .of [] from rfl, hread]
      simp only [List.nil_append, List.cons_append, List.map_cons, hline]
      rw [ih calls rest hlength hrest hlines.2]

end AgentOdometer.Mcp
