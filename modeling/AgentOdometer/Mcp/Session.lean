import AgentOdometer.Lib.Transition
import AgentOdometer.Mcp.Framing
import Std.Data.ExtTreeMap

/-!
# An MCP session

The reader of requests and the query workers of `serve_inner` (`mcp_server.rs:91–247`) as steps
over the active queries, the workers and the output. Each section under a lock is one step. The
output accepts every write; an executor returns any result; a deadline can pass at any time.
Every response is printed on one line.
-/

namespace AgentOdometer.Mcp

open Std (ExtTreeMap)

/-! ### Requests and responses -/

/-- A number, as the text which is printed for it. -/
structure Number where
  text : String
  numeric : text.toList.head?.any (fun c ↦ c.isDigit || c == '-') = true

/-- `serde_json::Value`. -/
inductive Value where
  | null
  | bool (value : Bool)
  | number (value : Number)
  | string (value : String)
  | array (items : List Value)
  | object (fields : List (String × Value))

namespace Value

/-- `Value::get` with a field name. -/
def get (value : Value) (field : String) : Option Value :=
  match value with
  | object fields => fields.lookup field
  | _ => none

/-- `Value::as_str`. -/
def asStr : Value → Option String
  | string value => some value
  | _ => none

/-- `Value::is_object`. -/
def isObject : Value → Bool
  | object _ => true
  | _ => false

/-- An object or an array. -/
def isContainer : Value → Bool
  | object _ | array _ => true
  | _ => false

/-- A usable request id. Follows `mcp_server.rs:145–147`. -/
def isId : Value → Bool
  | null | string _ | number _ => true
  | _ => false

end Value

/-- `ToolError`, `mcp_server.rs:51–56`. -/
inductive ToolError where
  | unknownTool (name : String)
  | badArguments (message : String)
  | failed (message : String)

/-- A validated call, by its tool. Follows `mcp_server.rs:43–49`. -/
structure PreparedCall where
  name : String

/-- A response. Follows `success` and `error_response`, `mcp_server.rs:549–555`. -/
inductive Response where
  | success (id result : Value)
  | error (id : Value) (code : Int) (message : String)

/-- The id which a response carries. -/
def Response.id : Response → Value
  | success id _ => id
  | error id _ _ => id

/-- `PARSE_ERROR`. -/
def PARSE_ERROR : Int :=
  -32700

/-- `INVALID_REQUEST`. -/
def INVALID_REQUEST : Int :=
  -32600

/-- `METHOD_NOT_FOUND`. -/
def METHOD_NOT_FOUND : Int :=
  -32601

/-- `INVALID_PARAMS`. -/
def INVALID_PARAMS : Int :=
  -32602

/-- `SERVER_BUSY`. -/
def SERVER_BUSY : Int :=
  -32001

/-- `MAX_OUTPUT_BYTES`, which is also the limit of a query's control. -/
def MAX_OUTPUT_BYTES : Nat :=
  8 * 1024 * 1024

/-- `MAX_CONCURRENT_QUERIES`. -/
def MAX_CONCURRENT_QUERIES : Nat :=
  2

/-- What the session uses: the JSON parser and printer, the validation of a call, and the
constant results. -/
structure Services where
  fromSlice : List UInt8 → Option Value
  toText : Value → String
  responseText : Response → String
  prepareCall : Value → Except ToolError PreparedCall
  initializeResult : Value
  toolDescriptors : List Value
  diagnostic : String → String

/-- The content of a tool result. -/
def toolContent (text : String) (isError : Bool) : Value :=
  .object [("content", .array [.object [("type", .string "text"), ("text", .string text)]]),
    ("isError", .bool isError)]

/-- `tool_response`, `mcp_server.rs:529–547`. -/
def toolResponse (services : Services) (id : Value) : Except ToolError String → Response
  | .ok text => .success id (toolContent text false)
  | .error (.unknownTool name) => .error id INVALID_PARAMS ("unknown tool '" ++ name ++ "'")
  | .error (.badArguments message) => .error id INVALID_PARAMS message
  | .error (.failed message) => .success id (toolContent (services.diagnostic message) true)

/-- The response to a query, unless it is too long. Follows `mcp_server.rs:211–217`. -/
def queryResponse (services : Services) (id : Value) (result : Except ToolError String) :
    Response :=
  let response := toolResponse services id result
  if (services.responseText response).utf8ByteSize > MAX_OUTPUT_BYTES then
    toolResponse services id (.error (.failed
      "query output exceeds the response limit; request a narrower range"))
  else response

/-! ### What a line asks for -/

/-- The validation of a request. Follows `mcp_server.rs:145–154`. -/
def isValidRequest (request : Value) : Bool :=
  request.isObject && (request.get "jsonrpc").bind Value.asStr == some "2.0" &&
    ((request.get "method").bind Value.asStr).isSome &&
      (request.get "params").all Value.isContainer && (request.get "id").all Value.isId

/-- What a line asks for. -/
inductive Reading where
  | nothing
  | respond (response : Response)
  | cancel (requestId : Value)
  | call (id : Value) (call : PreparedCall)

/-- A valid request without an id. Follows `mcp_server.rs:170–183`. -/
def readNotification (method : String) (params : Value) : Reading :=
  if method = "notifications/cancelled" then
    match params.get "requestId" with
    | some requestId => .cancel requestId
    | none => .nothing
  else .nothing

/-- A valid request with an id. Follows `mcp_server.rs:184–237`. -/
def readMethod (services : Services) (id : Value) (method : String) (params : Value) : Reading :=
  match method with
  | "initialize" => .respond (.success id services.initializeResult)
  | "ping" => .respond (.success id (.object []))
  | "tools/list" => .respond (.success id (.object [("tools", .array services.toolDescriptors)]))
  | "tools/call" =>
      match services.prepareCall params with
      | .error error => .respond (toolResponse services id (.error error))
      | .ok call => .call id call
  | _ => .respond (.error id METHOD_NOT_FOUND "unknown method")

/-- A parsed line. Follows `mcp_server.rs:145–237`. -/
def readRequest (services : Services) (request : Value) : Reading :=
  if isValidRequest request then
    let method := ((request.get "method").bind Value.asStr).getD ""
    let params := (request.get "params").getD (.object [])
    match request.get "id" with
    | none => readNotification method params
    | some id => readMethod services id method params
  else
    let id := if (request.get "id").all Value.isId then (request.get "id").getD .null else .null
    .respond (.error id INVALID_REQUEST "invalid JSON-RPC request")

/-- `u8::is_ascii_whitespace`. -/
def isAsciiWhitespace (byte : UInt8) : Bool :=
  byte == 32 || byte == 9 || byte == 10 || byte == 12 || byte == 13

/-- A line. Follows `mcp_server.rs:112–144`. -/
def readLine (services : Services) : BoundedLine → Reading
  | .error message => .respond (.error .null INVALID_REQUEST message)
  | .ok line =>
      if line.all isAsciiWhitespace then .nothing
      else
        match services.fromSlice line with
        | none => .respond (.error .null PARSE_ERROR "invalid JSON")
        | some request => readRequest services request

/-! ### The session -/

/-- How far a worker is: before its first check, in the executor, with a response, after the
write of the response. -/
inductive Phase where
  | started
  | executing
  | responding (response : Response)
  | answered

/-- A worker and the control of its query, named by the number of the line. -/
structure Worker where
  line : Nat
  id : Value
  key : String
  call : PreparedCall
  cancelled : Bool
  phase : Phase

/-- A session: the lines which the reader has not taken and the number of those it has, the
response which it is about to write, the active queries, the workers which still run, the
responses with the lines they belong to, and whether `serve_inner` has returned. -/
structure Session where
  lines : List BoundedLine
  taken : Nat
  pending : Option (Nat × Response)
  active : ExtTreeMap String Nat
  workers : List Worker
  output : List (Nat × Response)
  returned : Bool

/-- The start of a session. -/
def Session.start (lines : List BoundedLine) : Session :=
  ⟨lines, 0, none, ∅, [], [], false⟩

/-- A step of the reader or of a worker. -/
inductive Action where
  | read
  | write
  | check (line : Nat) (expired : Bool)
  | execute (line : Nat) (result : Except ToolError String) (expired : Bool)
  | respond (line : Nat)
  | remove (line : Nat)
  | finish

/-- `QueryControl::check`, `query_control.rs:45–53`. -/
def checkControl (cancelled expired : Bool) : Except ToolError Unit :=
  if cancelled then .error (.failed "query cancelled")
  else if expired then .error (.failed "query deadline exceeded")
  else .ok ()

/-- The reader is about to write a response to the line it takes. -/
def reply (s : Session) (response : Response) : Session :=
  { s with pending := some (s.taken, response) }

/-- The refusal of a query whose id is active. Follows `mcp_server.rs:195–200`. -/
def alreadyActive (id : Value) : Response :=
  .error id INVALID_REQUEST "request id is already active"

/-- The refusal of a query while two are active. Follows `mcp_server.rs:201–206`. -/
def busy (id : Value) : Response :=
  .error id SERVER_BUSY "query capacity reached; retry after an active query completes"

/-- A call of a tool. Follows `mcp_server.rs:192–232`. -/
def acceptCall (services : Services) (s : Session) (id : Value) (call : PreparedCall) : Session :=
  let key := services.toText id
  if s.active.contains key then reply s (alreadyActive id)
  else if s.active.size ≥ MAX_CONCURRENT_QUERIES then reply s (busy id)
  else
    { s with
      active := s.active.insert key s.taken
      workers := s.workers ++ [⟨s.taken, id, key, call, false, .started⟩] }

/-- The cancellation of the query with the given control. -/
def cancelLine (workers : List Worker) (line : Nat) : List Worker :=
  workers.map fun worker ↦
    if worker.line = line then { worker with cancelled := true } else worker

/-- A cancellation reaches the active query with its id. Follows `mcp_server.rs:171–180`. -/
def cancelQuery (services : Services) (s : Session) (requestId : Value) : List Worker :=
  match s.active[services.toText requestId]? with
  | none => s.workers
  | some line => cancelLine s.workers line

/-- What the reader does about a line. -/
def handle (services : Services) (s : Session) : Reading → Session
  | .nothing => s
  | .respond response => reply s response
  | .cancel requestId => { s with workers := cancelQuery services s requestId }
  | .call id call => acceptCall services s id call

/-- The reader takes a line. Follows `mcp_server.rs:102–239`. -/
def takeLine (services : Services) (s : Session) : Option Session :=
  match s.pending, s.lines with
  | none, line :: rest =>
      let s := handle services s (readLine services line)
      some { s with lines := rest, taken := s.taken + 1 }
  | _, _ => none

/-- The reader writes its response. Follows `mcp_server.rs:239–242`. -/
def writePending (s : Session) : Option Session :=
  s.pending.map fun response ↦ { s with pending := none, output := s.output ++ [response] }

/-- The worker of a line. -/
def workerOf (s : Session) (line : Nat) : Option Worker :=
  s.workers.find? (·.line == line)

/-- A worker goes to its next phase. -/
def setPhase (s : Session) (line : Nat) (phase : Phase) : Session :=
  { s with workers := s.workers.map fun worker ↦
      if worker.line = line then { worker with phase } else worker }

/-- The first check of a worker. Follows `mcp_server.rs:207`. -/
def checkWorker (services : Services) (s : Session) (line : Nat) (expired : Bool) :
    Option Session :=
  match workerOf s line with
  | some ⟨_, id, _, _, cancelled, .started⟩ =>
      match checkControl cancelled expired with
      | .ok () => some (setPhase s line .executing)
      | .error error =>
          some (setPhase s line (.responding (queryResponse services id (.error error))))
  | _ => none

/-- The executor returns, and the control is checked again. Follows `mcp_server.rs:208–217`. -/
def executeWorker (services : Services) (s : Session) (line : Nat)
    (result : Except ToolError String) (expired : Bool) : Option Session :=
  match workerOf s line with
  | some ⟨_, id, _, _, cancelled, .executing⟩ =>
      let result := do
        let text ← result
        checkControl cancelled expired
        return text
      some (setPhase s line (.responding (queryResponse services id result)))
  | _ => none

/-- A worker writes its response. Follows `mcp_server.rs:218`. -/
def respondWorker (s : Session) (line : Nat) : Option Session :=
  match workerOf s line with
  | some ⟨_, _, _, _, _, .responding response⟩ =>
      some { setPhase s line .answered with output := s.output ++ [(line, response)] }
  | _ => none

/-- A worker removes its query and returns. Follows `mcp_server.rs:223`. -/
def removeWorker (s : Session) (line : Nat) : Option Session :=
  match workerOf s line with
  | some ⟨_, _, key, _, _, .answered⟩ =>
      some { s with
        active := s.active.erase key
        workers := s.workers.filter (·.line ≠ line) }
  | _ => none

/-- The end of the input, after every worker has returned. Follows `mcp_server.rs:108–111` and
`244–246`. -/
def finishSession (s : Session) : Option Session :=
  if s.pending.isNone ∧ s.lines = [] ∧ s.workers = [] ∧ s.returned = false then
    some { s with returned := true }
  else none

/-- One step of a session. -/
def step (services : Services) (s : Session) : Action → Option Session
  | .read => takeLine services s
  | .write => writePending s
  | .check line expired => checkWorker services s line expired
  | .execute line result expired => executeWorker services s line result expired
  | .respond line => respondWorker s line
  | .remove line => removeWorker s line
  | .finish => finishSession s

end AgentOdometer.Mcp
