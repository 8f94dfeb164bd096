/-
  The dual-era server of the companion (`mcp.rs`): its state, what it does with a request, and the
  loop over the lines of the standard input.

  The legacy era has one provider session, made when the first tool is called; after it ended only a
  status may make the next one. The modern era has a table of contexts, each with a session of its
  own. A session remembers pointer clicks under names. What the server writes goes to a standard
  output that takes every line.
-/
import AgentSeat.Companion.Seat

namespace AgentSeat.Companion

open AgentSeat.Lib AgentSeat.Proto

def maxModernContexts : Nat := 8
def maxPointerSlots : Nat := 32
def maxPointerSlotNameBytes : Nat := 64
def maxMcpLineBytes : Nat := 1024 * 1024

/-! ## State -/

structure ProviderSession where
  seat : Seat
  pointerSlots : List (String × PointerClickRequest)

structure Contexts (α : Type) where
  limit : Nat
  next : Nat
  entries : List (Nat × α)

namespace Contexts

variable {α : Type}

def new (limit : Nat) : Contexts α := ⟨limit, 1, []⟩

def isFull (c : Contexts α) : Bool := c.limit ≤ c.entries.length

def insert (c : Contexts α) (value : α) : Except ProviderFailure (Nat × Contexts α) :=
  if c.isFull then
    .error ⟨"capacity", "reconnect", "context limit " ++ toString c.limit ++ " reached"⟩
  else
    match checkedSucc c.next with
    | none => .error ⟨"capacity", "reconnect", "context identity space is exhausted"⟩
    | some next => .ok (c.next, ⟨c.limit, next, Assoc.insert c.next value c.entries⟩)

def get (c : Contexts α) (context : Nat) : Option α := c.entries.lookup context

/-- Write through the reference that `get_mut` gives. -/
def set (c : Contexts α) (context : Nat) (value : α) : Contexts α :=
  { c with entries := Assoc.set context value c.entries }

def remove (c : Contexts α) (context : Nat) : Contexts α :=
  { c with entries := Assoc.erase context c.entries }

end Contexts

structure Server where
  socket : Option String
  inheritedSeat : Option Seat
  legacySession : Option ProviderSession
  legacyRecoveryRequired : Bool
  legacyNegotiated : Bool
  legacyInitialized : Bool
  modernContexts : Contexts ProviderSession
  /-- How often a stream was opened or tried; the next one gets this number. -/
  streams : Nat

def Server.new (socket : Option String) (seat : Option Seat) : Server where
  socket := socket
  inheritedSeat := seat
  legacySession := none
  legacyRecoveryRequired := false
  legacyNegotiated := false
  legacyInitialized := false
  modernContexts := .new maxModernContexts
  streams := if seat.isSome then 1 else 0

abbrev ServerM := CM Server

def ProviderSession.new {ε : Type} (seat : Seat) : ServerM ε ProviderSession := do
  Dialogue.write (.session seat.conn)
  pure ⟨seat, []⟩

/-! ## Failures -/

def providerFailure (error : SeatError) : ProviderFailure :=
  ⟨Schema.errorCodeName error.code, Schema.retryName error.retry, error.message⟩

def staleContext : ProviderFailure :=
  ⟨"stale_context", "reconnect", "Agent Seat context is unknown or expired"⟩

def endedModernProviderSession : ProviderFailure :=
  ⟨"stale_context", "reconnect", "provider session ended; this context and its client IDs are " ++
    "invalid. Call seat_status, reobserve, and decide whether to retry; the previous call's outcome may " ++
    "be unknown"⟩

def endedLegacyProviderSession : ProviderFailure :=
  ⟨"unavailable", "reconnect", "provider session ended; call seat_status and reobserve before deciding " ++
    "whether to retry; the previous call's outcome may be unknown"⟩

def legacyStatusRequired : ProviderFailure :=
  ⟨"unavailable", "reconnect", "the previous provider session ended; call seat_status and reobserve " ++
    "before using any client ID"⟩

def outcomeRequiresReconnect : Outcome → Bool
  | .error error => error.retry = .reconnect
  | .ok _ => false

/-! ## Pointer slots -/

structure PointerSlotSaveRequest where
  name : String
  action : PointerClickRequest

def PointerSlotSaveRequest.read (value : Json) : Option PointerSlotSaveRequest := do
  let look ← record ["name", "client", "generation", "x", "y", "button"] value
  let name ← (look "name").bind asStr
  let client ← (look "client").bind (Schema.clientId.decode .stream)
  let generation ← (look "generation").bind (Schema.u64.decode .stream)
  let x ← (look "x").bind (Schema.u32.decode .stream)
  let y ← (look "y").bind (Schema.u32.decode .stream)
  let button ← (look "button").bind (Schema.pointerButton.decode .stream)
  some ⟨name, ⟨⟨client, generation⟩, x, y, button⟩⟩

structure PointerSlotReplayRequest where
  name : String
  generation : Nat

def PointerSlotReplayRequest.read (value : Json) : Option PointerSlotReplayRequest := do
  let look ← record ["name", "generation"] value
  let name ← (look "name").bind asStr
  let generation ← (look "generation").bind (Schema.u64.decode .stream)
  some ⟨name, generation⟩

def isPointerSlotTool (name : String) : Bool :=
  name = "pointer_slot_save" || name = "pointer_slot_replay" || name = "pointer_slots_list"

def validPointerSlotName (name : String) : Bool :=
  name ≠ "" && name.utf8ByteSize ≤ maxPointerSlotNameBytes &&
    name.toList.all fun c => c.isAlphanum || c == '.' || c == '_' || c == '-'

/-- The click of a slot, aimed at the generation of a replay. -/
def aimed (action : PointerClickRequest) (generation : Nat) : PointerClickRequest :=
  { action with target := { action.target with generation := generation } }

def actionJson (action : PointerClickRequest) : Json :=
  toValue (Schema.pointerClickRequest.encode action)

section Server

variable (env : Outside) (reason : String → Json → String)

section Slots

variable {ε : Type}

/-- `call_seat`: the outcome of a call, and the session after it. -/
def callSeat (session : ProviderSession) (call : Call) :
    ServerM ε (Except ProviderFailure Outcome × ProviderSession) := do
  let answer ← Prog.total (session.seat.call env call)
  pure ((answer.1.map Response.outcome).mapError providerFailure, { session with seat := answer.2 })

def invalidArgument (message : String) : ToolResult := toolError "invalid_argument" "never" message

def pointerSlotSave (session : ProviderSession) (arguments : Json) : ToolResult × ProviderSession :=
  match PointerSlotSaveRequest.read arguments with
  | none => (invalidArgument (reason "pointer_slot_save" arguments), session)
  | some request =>
    if !validPointerSlotName request.name then
      (invalidArgument "slot name must be 1 to 64 bytes of ASCII letters, digits, '.', '_', or '-'",
        session)
    else
      match request.action.validate with
      | .error error => (invalidArgument error, session)
      | .ok _ =>
        if maxPointerSlots ≤ session.pointerSlots.length ∧
            (session.pointerSlots.lookup request.name).isNone then
          (toolError "capacity" "never" "pointer action slot limit 32 reached", session)
        else
          (toolResult (okBody "pointer_slot_saved" (object [("name", .str request.name),
              ("action", actionJson request.action),
              ("replaced", .bool (session.pointerSlots.lookup request.name).isSome)])) false,
            { session with
              pointerSlots := Assoc.insert request.name request.action session.pointerSlots })

def pointerSlotsList (session : ProviderSession) (arguments : Json) : ToolResult :=
  match Schema.empty.decode .stream arguments with
  | none => invalidArgument "pointer_slots_list accepts no arguments"
  | some _ =>
    toolResult (okBody "pointer_slots" (object [("limit", .num maxPointerSlots),
      ("slots", .arr (session.pointerSlots.map fun slot =>
        object [("name", .str slot.1), ("action", actionJson slot.2)]))])) false

def pointerSlotReplay (session : ProviderSession) (arguments : Json) :
    ServerM ε (Except ProviderFailure ToolResult × ProviderSession) :=
  match PointerSlotReplayRequest.read arguments with
  | none => pure (.ok (invalidArgument (reason "pointer_slot_replay" arguments)), session)
  | some request =>
    if !validPointerSlotName request.name then
      pure (.ok (invalidArgument "slot name is invalid"), session)
    else
      match session.pointerSlots.lookup request.name with
      | none =>
        pure (.ok (toolError "not_found" "refresh"
          "pointer action slot is unknown in this provider session"), session)
      | some action => do
        let answer ← callSeat env session (.pointerClick (aimed action request.generation))
        pure (answer.1.map toolOutcome, answer.2)

def pointerSlotCall (session : ProviderSession) (name : String) (arguments : Option Json) :
    ServerM ε (Except ProviderFailure ToolResult × ProviderSession) :=
  let arguments := arguments.getD (.obj [])
  match name with
  | "pointer_slot_save" =>
    pure (.ok (pointerSlotSave reason session arguments).1, (pointerSlotSave reason session arguments).2)
  | "pointer_slot_replay" => pointerSlotReplay env reason session arguments
  | "pointer_slots_list" => pure (.ok (pointerSlotsList session arguments), session)
  | _ => pure (.ok (invalidArgument "unknown local tool"), session)

end Slots

/-! ## Sessions of the two eras -/

def modify (f : Server → Server) {ε : Type} : ServerM ε Unit :=
  Prog.update fun w => ⟨f w.state, w.trace⟩

def server {ε : Type} : ServerM ε Server := Prog.read fun w => w.state

def connectSeat : ServerM ProviderFailure Seat := do
  let s ← server
  match s.inheritedSeat with
  | some seat => do
    modify fun s => { s with inheritedSeat := none }
    pure seat
  | none => do
    let resolved ← orFail id (Dialogue.ask env (.resolve s.socket))
    match (resolved : Option String) with
    | none =>
      Prog.fail ⟨"unavailable", "reconnect", "no live Agent Seat provider is advertised"⟩
    | some path => do
      let opened ← Prog.attempt (Seat.connect env s.streams path)
      modify fun s => { s with streams := s.streams + 1 }
      Prog.lift (opened.mapError providerFailure)

def createModernContext (call : Call) : ServerM ProviderFailure (Nat × Outcome) := do
  let s ← server
  if s.modernContexts.isFull then
    Prog.fail ⟨"capacity", "reconnect", "modern Agent Seat context limit 8 reached"⟩
  else do
    let seat ← connectSeat env
    let session ← ProviderSession.new seat
    let answer ← callSeat env session call
    let outcome ← Prog.lift answer.1
    let s ← server
    let inserted ← Prog.lift (s.modernContexts.insert answer.2)
    modify fun s => { s with modernContexts := inserted.2 }
    pure (inserted.1, outcome)

def dropContext (context : Nat) (s : Server) : Server :=
  { s with modernContexts := s.modernContexts.remove context }

/-- What a modern call does with its answer. -/
def concludeModern (context : Nat) :
    Except ProviderFailure Outcome → ServerM ProviderFailure Outcome
  | .ok outcome => do
    if outcomeRequiresReconnect outcome then modify (dropContext context)
    pure outcome
  | .error _ => do
    modify (dropContext context)
    Prog.fail endedModernProviderSession

def providerCallModern (context : Nat) (call : Call) : ServerM ProviderFailure Outcome := do
  let s ← server
  match s.modernContexts.get context with
  | none => Prog.fail staleContext
  | some session => do
    let answer ← callSeat env session call
    modify fun s => { s with modernContexts := s.modernContexts.set context answer.2 }
    concludeModern context answer.1

def dropLegacy (s : Server) : Server := { s with legacySession := none, legacyRecoveryRequired := true }

/-- The legacy session, made if there is none. -/
def legacySession : ServerM ProviderFailure ProviderSession := do
  let s ← server
  match s.legacySession with
  | some session => pure session
  | none => do
    let seat ← connectSeat env
    let session ← ProviderSession.new seat
    modify fun s => { s with legacySession := some session }
    pure session

def isStatus : Call → Bool
  | .seatStatus => true
  | _ => false

def isOk : Outcome → Bool
  | .ok _ => true
  | .error _ => false

/-- What a legacy call does with its answer. -/
def concludeLegacy (status : Bool) :
    Except ProviderFailure Outcome → ServerM ProviderFailure Outcome
  | .ok outcome => do
    if outcomeRequiresReconnect outcome then modify dropLegacy
    else if status && isOk outcome then
      modify fun s => { s with legacyRecoveryRequired := false }
    pure outcome
  | .error _ => do
    modify dropLegacy
    Prog.fail endedLegacyProviderSession

def providerCallLegacy (call : Call) : ServerM ProviderFailure Outcome := do
  let s ← server
  if s.legacyRecoveryRequired && !isStatus call then Prog.fail legacyStatusRequired
  else do
    let session ← legacySession env
    let answer ← callSeat env session call
    modify fun s => { s with legacySession := some answer.2 }
    concludeLegacy (isStatus call) answer.1

/-- What a modern slot tool does with its result. -/
def concludeModernSlot (context : Nat) :
    Except ProviderFailure ToolResult → ServerM ProviderFailure ToolResult
  | .ok result => do
    if result.requiresProviderReconnect then modify (dropContext context)
    pure result
  | .error _ => do
    modify (dropContext context)
    Prog.fail endedModernProviderSession

/-- What a legacy slot tool does with its result. -/
def concludeLegacySlot : Except ProviderFailure ToolResult → ServerM ProviderFailure ToolResult
  | .ok result => do
    if result.requiresProviderReconnect then modify dropLegacy
    pure result
  | .error _ => do
    modify dropLegacy
    Prog.fail endedLegacyProviderSession

def pointerSlotModern (context : Nat) (name : String) (arguments : Option Json) :
    ServerM ProviderFailure ToolResult := do
  let s ← server
  match s.modernContexts.get context with
  | none => Prog.fail staleContext
  | some session => do
    let answer ← pointerSlotCall env reason session name arguments
    modify fun s => { s with modernContexts := s.modernContexts.set context answer.2 }
    concludeModernSlot context answer.1

def pointerSlotLegacy (name : String) (arguments : Option Json) :
    ServerM ProviderFailure ToolResult := do
  let s ← server
  if s.legacyRecoveryRequired then Prog.fail legacyStatusRequired
  else do
    let session ← legacySession env
    let answer ← pointerSlotCall env reason session name arguments
    modify fun s => { s with legacySession := some answer.2 }
    concludeLegacySlot answer.1

/-! ## Methods -/

def writeLine (line : Json) : ServerM Empty Unit := Dialogue.write (.wrote line)

def writeResult (id result : Json) : ServerM Empty Unit := writeLine (resultLine id result)

def writeError (id : Json) (code : Int) (message : String) : ServerM Empty Unit :=
  writeLine (errorLine id code message)

def failureResult (error : ProviderFailure) : ToolResult :=
  toolError error.code error.retry error.message

def legacyInstructions : String :=
  "Use seat_status, then observe. Inspect every mutation result; never batch or discard " ++
    "it. Captures are target-owned and can show pixels behind dialogs, so they do not " ++
    "prove visibility, focus, or interactivity. After an action that may open a " ++
    "dialog/window, or when behavior is unexpected, take desktop_snapshot and handle " ++
    "active/new clients before more input. Prefer focused key commands, titles, and small " ++
    "regions. Use text_insert for exact multilingual or long text; it replaces clipboard " ++
    "ownership and reports delivery, not insertion. Never mutate XKB or bypass Agent Seat " ++
    "through a shell/browser clipboard. Save a pointer slot only after verifying its " ++
    "click; reobserve changed UI. On unavailable/reconnect, stale_context, stale, or " ++
    "timed_out, call seat_status and reobserve; never replay an old client ID or assume a " ++
    "failed mutation did not occur. The provider owns grants and policy."

def modernInstructions : String :=
  "Use seat_status, then observe. Inspect every mutation result; never batch or discard " ++
    "it. Captures are target-owned and can show pixels behind dialogs, so they do not " ++
    "prove visibility, focus, or interactivity. After an action that may open a " ++
    "dialog/window, or when behavior is unexpected, take desktop_snapshot and handle " ++
    "active/new clients before more input. Prefer focused key commands, titles, and small " ++
    "regions. Use text_insert for exact multilingual or long text; it replaces clipboard " ++
    "ownership and reports delivery, not insertion. Never mutate XKB or bypass Agent Seat " ++
    "through a shell/browser clipboard. Save a pointer slot only after verifying its " ++
    "click; reobserve changed UI. On unavailable/reconnect, stale_context, stale, or " ++
    "timed_out, call seat_status and reobserve; never replay an old client ID or assume a " ++
    "failed mutation did not occur. Report qualified work exactly."

def initializeLegacy (id params : Json) : ServerM Empty Unit := do
  let s ← server
  if s.legacyNegotiated then writeError id (-32600) "initialize was already completed"
  else
    match InitializeParams.read params with
    | none => writeError id (-32602) "invalid initialize parameters"
    | some params =>
      if !isObject params.capabilities || !validImplementation params.clientInfo then
        writeError id (-32602) "invalid initialize parameters"
      else do
        modify fun s => { s with legacyNegotiated := true }
        writeResult id (object [("protocolVersion", .str legacyMcpVersion),
          ("capabilities", object [("tools", object [("listChanged", .bool false)])]),
          ("serverInfo", serverInfo), ("instructions", .str legacyInstructions)])

def discover (id params : Json) : ServerM Empty Unit :=
  match discoverParamsRead params with
  | none => writeError id (-32602) "invalid server/discover parameters"
  | some _ => writeResult id (modernResult (object [("supportedVersions", strings supportedMcpVersions),
      ("capabilities", object [("tools", object [("listChanged", .bool false)])]),
      ("instructions", .str modernInstructions), ("ttlMs", .num staticResultTtlMs),
      ("cacheScope", .str "public")]))

/-- `modern_result_with` of the tool list. -/
def modernToolList : Json :=
  match toValue (toolList .modern) with
  | .obj members => modernResult (.obj (Assoc.insert "cacheScope" (.str "public")
      (Assoc.insert "ttlMs" (.num staticResultTtlMs) members)))
  | value => value

def listTools (id params : Json) (era : Era) : ServerM Empty Unit :=
  match listToolsParamsRead (if isNull params then .obj [] else params) with
  | some none => writeResult id (match era with
    | .legacy => toolList .legacy
    | .modern => modernToolList)
  | _ => writeError id (-32602) "invalid tools/list parameters"

def callToolLegacy (id params : Json) : ServerM Empty Unit :=
  match CallToolParams.read params with
  | none => writeError id (-32602) "invalid tools/call parameters"
  | some params =>
    if isPointerSlotTool params.name then do
      let result ← Prog.attempt (pointerSlotLegacy env reason params.name params.arguments)
      writeResult id (match (result : Except ProviderFailure ToolResult) with
        | .ok result => result.json
        | .error error => (failureResult error).json)
    else
      match translateCall reason params.name params.arguments with
      | .error .unknownTool => writeError id (-32602) "unknown tool"
      | .error (.arguments message) => writeResult id (invalidArgument message).json
      | .ok call => do
        let result ← Prog.attempt (providerCallLegacy env call)
        writeResult id (match (result : Except ProviderFailure Outcome) with
          | .ok outcome => (toolOutcome outcome).json
          | .error error => (failureResult error).json)

def writeModernCallError (id : Json) : CallError → ServerM Empty Unit
  | .unknownTool => writeError id (-32602) "unknown tool"
  | .arguments message => writeResult id (modernToolResult (invalidArgument message))

def seatRelease (id : Json) (context : Option Nat) (arguments : Option Json) : ServerM Empty Unit := do
  if (arguments.bind asObject).any fun members => !members.isEmpty then
    writeResult id (modernToolResult (invalidArgument "seat_release accepts only context"))
  else do
    let s ← server
    match context with
    | none => writeResult id (modernToolResult (invalidArgument "context is required"))
    | some context =>
      if (s.modernContexts.get context).isSome then do
        modify (dropContext context)
        writeResult id (modernToolResult (toolResult (okBody "context_released"
          (object [("context", .num context)])) false))
      else writeResult id (modernToolResult (failureResult staleContext))

def seatStatusModern (id : Json) (context : Option Nat) (arguments : Option Json) :
    ServerM Empty Unit :=
  if context.isSome then
    writeResult id (modernToolResult (invalidArgument "seat_status does not accept a context"))
  else
    match translateCall reason "seat_status" arguments with
    | .error error => writeModernCallError id error
    | .ok call => do
      let result ← Prog.attempt (createModernContext env call)
      writeResult id (modernToolResult (match (result : Except ProviderFailure (Nat × Outcome)) with
        | .ok (context, outcome) => (toolOutcome outcome).withContext context
        | .error error => failureResult error))

def callToolModern (id params : Json) : ServerM Empty Unit :=
  match CallToolParams.read params with
  | none => writeError id (-32602) "invalid tools/call parameters"
  | some params =>
    match takeContext params.arguments with
    | .error message => writeResult id (modernToolResult (invalidArgument message))
    | .ok (context, arguments) =>
      if params.name = "seat_release" then seatRelease id context arguments
      else if params.name = "seat_status" then seatStatusModern env reason id context arguments
      else if isPointerSlotTool params.name then
        match context with
        | none => writeResult id (modernToolResult (invalidArgument "context is required"))
        | some context => do
          let result ← Prog.attempt (pointerSlotModern env reason context params.name arguments)
          writeResult id (modernToolResult (match (result : Except ProviderFailure ToolResult) with
            | .ok result => result
            | .error error => failureResult error))
      else
        match translateCall reason params.name arguments with
        | .error error => writeModernCallError id error
        | .ok call =>
          match context with
          | none => writeResult id (modernToolResult (invalidArgument "context is required"))
          | some context => do
            let result ← Prog.attempt (providerCallModern env context call)
            writeResult id (modernToolResult (match (result : Except ProviderFailure Outcome) with
              | .ok outcome => toolOutcome outcome
              | .error error => failureResult error))

def handleModern (id : Json) (method : String) (params : Json) : ServerM Empty Unit :=
  match validateModernMetadata params with
  | .error .invalid => writeError id (-32602) "invalid modern request metadata"
  | .error (.unsupported requested) =>
    writeLine (errorLineWith id (-32022) "Unsupported protocol version" [("data",
      object [("supported", strings supportedMcpVersions), ("requested", .str requested)])])
  | .ok _ =>
    match method with
    | "server/discover" => discover id params
    | "tools/list" => listTools id params .modern
    | "tools/call" => callToolModern env reason id params
    | _ => writeError id (-32601) "method not found"

def handleLegacy (id : Json) (method : String) (params : Json) : ServerM Empty Unit := do
  let s ← server
  match method with
  | "ping" => writeResult id (.obj [])
  | "tools/list" =>
    if s.legacyInitialized then listTools id params .legacy
    else writeError id (-32002) "server is not initialized"
  | "tools/call" =>
    if s.legacyInitialized then callToolLegacy env reason id params
    else writeError id (-32002) "server is not initialized"
  | _ => writeError id (-32601) "method not found"

def handle (request : RpcRequest) : ServerM Empty Unit :=
  if request.method = "notifications/initialized" then
    modify fun s => if s.legacyNegotiated then { s with legacyInitialized := true } else s
  else if request.method = "notifications/cancelled" then pure ()
  else
    match request.id with
    | none => pure ()
    | some id =>
      if request.method = "initialize" then initializeLegacy id request.params
      else if hasModernVersion request.params || request.method = "server/discover" then
        handleModern env reason id request.method request.params
      else handleLegacy env reason id request.method request.params

/-! ## The lines of the standard input -/

/-- The checks on a request that was read. -/
def acceptable (request : RpcRequest) : Bool :=
  request.jsonrpc = "2.0" && request.method ≠ "" && request.method.utf8ByteSize ≤ maxMethodBytes &&
    validId request.id

/-- The line without the ends of line after it. -/
def chomp (line : String) : String :=
  String.ofList (line.toList.reverse.dropWhile fun c => c = '\n' || c = '\r').reverse

variable (parse : String → Option Json)

/-- What `serve` does with the text of a line, which `parse` reads as JSON. -/
def answerText (text : String) : ServerM Empty Unit :=
  if text = "" then writeError .null (-32600) "empty request"
  else
    match parse text with
    | none => writeError .null (-32700) "parse error"
    | some value =>
      if (get "id" value).any isNull then writeError .null (-32600) "invalid JSON-RPC request"
      else
        match RpcRequest.read value with
        | none => writeError .null (-32600) "invalid JSON-RPC request"
        | some request =>
          if acceptable request then handle env reason request
          else writeError .null (-32600) "invalid JSON-RPC request"

/-- The text of a line; `read_line` fails on anything but UTF-8. -/
def decodeLine (line : List UInt8) : Option String := String.fromUTF8? ⟨line.toArray⟩

/-- A round of the loop of `serve`, with the bytes `read_line` took. -/
def serveLine (line : List UInt8) : ServerM String Unit :=
  match decodeLine line with
  | none => Prog.fail "cannot read MCP stdio: stream did not contain valid UTF-8"
  | some text =>
    if line.length > maxMcpLineBytes then
      Prog.fail ("MCP message exceeds " ++ toString maxMcpLineBytes ++ " bytes")
    else Prog.total (answerText env reason parse (chomp text))

def newline : UInt8 := 10

/-- What `read_line` takes of at most so many bytes, and the rest: up to and with the first newline. -/
def takeLine : Nat → List UInt8 → List UInt8 × List UInt8
  | 0, input => ([], input)
  | _, [] => ([], [])
  | limit + 1, byte :: rest =>
    if byte = newline then ([byte], rest)
    else (byte :: (takeLine limit rest).1, (takeLine limit rest).2)

theorem takeLine_append (limit : Nat) (input : List UInt8) :
    (takeLine limit input).1 ++ (takeLine limit input).2 = input := by
  induction input generalizing limit with
  | nil => cases limit <;> rfl
  | cons byte rest ih =>
    cases limit with
    | zero => rfl
    | succ limit =>
      unfold takeLine
      split
      · rfl
      · rw [List.cons_append, ih]

/-- The loop of `serve` until the end of the input. -/
def serve (input : List UInt8) : ServerM String Unit :=
  if (takeLine (maxMcpLineBytes + 1) input).1 = [] then pure ()
  else do
    serveLine env reason parse (takeLine (maxMcpLineBytes + 1) input).1
    serve (takeLine (maxMcpLineBytes + 1) input).2
termination_by input.length
decreasing_by
  rename_i hline
  have hlength := congrArg List.length (takeLine_append (maxMcpLineBytes + 1) input)
  rw [List.length_append] at hlength
  have hpos := List.length_pos_iff.mpr hline
  omega

end Server

end AgentSeat.Companion
