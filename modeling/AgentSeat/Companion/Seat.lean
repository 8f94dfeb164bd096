/-
  The companion's side of a provider session (`seat.rs`): opening it, and one call with its answer.

  A stream to a provider is known by the order in which the streams were opened (`Conn`). What the
  companion does not decide is asked of the outside: the discovery of a socket, the streams with
  their timeouts, and every frame that is written or read. The text of a JSON reader is left out of
  the texts of framing errors.
-/
import AgentSeat.Companion.Tools
import AgentSeat.Lib.Dialogue
import AgentSeat.Proto.Frame

namespace AgentSeat.Companion

open AgentSeat.Lib AgentSeat.Proto

abbrev Conn := Nat

structure SeatError where
  code : ErrorCode
  retry : Retry
  message : String

/-- The error of a tool call that did not come to an outcome. -/
structure ProviderFailure where
  code : String
  retry : String
  message : String

inductive Question where
  | resolve (socket : Option String)
  | connect (path : String)
  | setReadTimeout (conn : Conn) (ms : Nat)
  | setWriteTimeout (conn : Conn) (ms : Nat)
  | writeFrame (conn : Conn) (message : ClientMessage)
  | readFrame (conn : Conn)

/-- `resolve` gives the path of a socket, if one is advertised. -/
def Question.Answer : Question → Type
  | .resolve _ => Except ProviderFailure (Option String)
  | .connect _ | .setReadTimeout .. | .setWriteTimeout .. => Except String Unit
  | .writeFrame .. => Except CodecError Unit
  | .readFrame _ => Except CodecError (ReadFrame ServerMessage)

/-- A line on the standard output, or a provider session that was made on a stream. -/
inductive Mark where
  | wrote (line : Json)
  | session (conn : Conn)

abbrev Step := Entry Question.Answer Mark
abbrev Outside := Env Question.Answer Mark
abbrev CM (σ ε : Type) := Prog (Dialogue Question.Answer Mark σ) ε

def ioTimeoutMs : Nat := 10000
def longInputTimeoutMs : Nat := 120000

/-! ## Errors -/

def unavailable (message : String) : SeatError := ⟨.unavailable, .reconnect, message⟩
def malformed (message : String) : SeatError := ⟨.malformed, .reconnect, message⟩
def internal (message : String) : SeatError := ⟨.internal, .never, message⟩

def codecText : CodecError → String
  | .io error => "stream I/O failed: " ++ error
  | .truncatedPrefix => "frame length prefix was truncated"
  | .truncatedPayload => "frame payload was truncated"
  | .empty => "frame payload is empty"
  | .tooLarge length limit =>
    "frame has " ++ toString length ++ " bytes; maximum is " ++ toString limit
  | .json => "frame JSON is invalid: "
  | .invalid reason => "frame message is invalid: " ++ reason

def codecError : CodecError → SeatError
  | .io error => unavailable ("provider I/O failed: " ++ error)
  | .tooLarge length limit => ⟨.tooLarge, .never, codecText (.tooLarge length limit)⟩
  | error => malformed (codecText error)

def goodbyeRetry : ErrorCode → Retry
  | .noSuchClient | .stale | .timedOut | .resyncRequired => .reobserve
  | .unavailable | .malformed | .internal | .revoked | .sessionClosed => .reconnect
  | .incompatibleRevision | .refused | .unsupported | .invalidArgument | .tooLarge => .never

def goodbyeError (context : String) (goodbye : Goodbye) : SeatError :=
  ⟨goodbye.code, goodbyeRetry goodbye.code, context ++ ": " ++ Schema.errorCodeName goodbye.code ++
    goodbye.message.elim "" fun message => ": " ++ message.asStr⟩

/-! ## Sessions -/

section Seat

variable {σ : Type} (env : Outside)

/-- Ask, and turn a refusal into a failure. -/
def orFail {ε ε' α : Type} (describe : ε → ε') (question : CM σ ε' (Except ε α)) : CM σ ε' α := do
  let answer ← question
  Prog.lift (answer.mapError describe)

/-- What the companion asks for when it opens a session. -/
def requestedCapabilities : List Capability :=
  [.observeStructure, .observeTitles, .observeEvents, .manageActivate, .manageClose, .manageWorkspace,
    .manageState, .manageGeometry, .launchList, .launchExecute, .inputPointer, .inputKeyboard,
    .textTransfer, .captureObscured]

def companionHello : Hello :=
  ⟨⟨protocolName, by decide⟩, protocolRevision,
    ⟨⟨"agent-seat-mcp", by decide⟩, ⟨"0.2.1", by decide⟩, ⟨"translate MCP desktop tools", by decide⟩⟩,
    ⟨requestedCapabilities, by decide⟩⟩

structure Seat where
  conn : Conn
  nextRequest : RequestId

def firstRequest : RequestId := ⟨1, Nat.one_ne_zero⟩

/-- What the first frame of a provider says about the session. -/
def openingOf : ReadFrame ServerMessage → Except SeatError Welcome
  | .message (.welcome welcome) => .ok welcome
  | .message (.goodbye goodbye) => .error (goodbyeError "provider refused the session" goodbye)
  | .message (.response _) => .error (malformed "provider responded before opening the session")
  | .cleanEof => .error (unavailable "provider closed during session opening")

def Seat.fromStream (conn : Conn) : CM σ SeatError Seat := do
  orFail (fun error => unavailable ("cannot bound provider I/O: " ++ error))
    (Dialogue.ask env (.setReadTimeout conn ioTimeoutMs))
  orFail (fun error => unavailable ("cannot bound provider I/O: " ++ error))
    (Dialogue.ask env (.setWriteTimeout conn ioTimeoutMs))
  orFail codecError (Dialogue.ask env (.writeFrame conn (.hello companionHello)))
  let frame ← orFail codecError (Dialogue.ask env (.readFrame conn))
  let welcome ← Prog.lift (openingOf frame)
  Prog.lift (welcome.validate.mapError malformed)
  pure ⟨conn, firstRequest⟩

def Seat.connect (conn : Conn) (path : String) : CM σ SeatError Seat := do
  orFail (fun error => unavailable ("cannot connect to " ++ path ++ ": " ++ error))
    (Dialogue.ask env (.connect path))
  Seat.fromStream env conn

/-! ## Calls -/

def isLongInput : Call → Bool
  | .keyboardWrite _ => true
  | _ => false

/-- `checked_add` on a request identity. -/
def RequestId.next (id : RequestId) : Option RequestId :=
  if id.get < u64Max then some ⟨id.get + 1, Nat.succ_ne_zero id.get⟩ else none

/-- What the frame after a request says about its answer. -/
def responseOf (id : RequestId) : ReadFrame ServerMessage → Except SeatError Response
  | .message (.response response) =>
    if response.id = id then .ok response
    else .error (malformed "provider response identity does not match the request")
  | .message (.goodbye goodbye) => .error (goodbyeError "provider closed the session" goodbye)
  | .message (.welcome _) => .error (malformed "provider repeated the opening response")
  | .cleanEof => .error (unavailable "provider closed before responding")

/-- A long input moves the deadline of the response. -/
def setDeadline (conn : Conn) (call : Call) (ms : Nat) (attempted : String) : CM σ SeatError Unit :=
  if isLongInput call then
    orFail (fun error => unavailable (attempted ++ error)) (Dialogue.ask env (.setReadTimeout conn ms))
  else pure ()

def exchange (conn : Conn) (request : Request) : CM σ SeatError Response := do
  orFail codecError (Dialogue.ask env (.writeFrame conn (.request request)))
  let frame ← orFail codecError (Dialogue.ask env (.readFrame conn))
  setDeadline env conn request.call ioTimeoutMs "cannot restore provider I/O bound: "
  Prog.lift (responseOf request.id frame)

/-- The call, and the session after it. -/
def Seat.call (seat : Seat) (call : Call) : CM σ Empty (Except SeatError Response × Seat) := do
  let extended ← Prog.attempt
    (setDeadline env seat.conn call longInputTimeoutMs "cannot extend provider I/O bound: ")
  match extended with
  | .error error => pure (.error error, seat)
  | .ok _ =>
    match RequestId.next seat.nextRequest with
    | none => pure (.error (internal "provider request identity space is exhausted"), seat)
    | some next => do
      let answer ← Prog.attempt (exchange env seat.conn ⟨seat.nextRequest, call⟩)
      pure (answer, ⟨seat.conn, next⟩)

end Seat

end AgentSeat.Companion
