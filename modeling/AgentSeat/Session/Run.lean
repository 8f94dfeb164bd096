/-
  A session from its first frame to its last (`run`, `handle` and `authorized` of `session.rs`).

  The peer, its socket, the operator's gate and the provider's stop flag are asked; what they
  answer may depend on everything said before. The provider behind a session is a parameter: any
  state, and for every call a program on it that ends in an outcome. Each invocation of it leaves a
  mark in the trace of the session.

  An idle companion session waits in a loop of its own. A run follows it for `patience` rounds; a
  run that is cut off there has not returned (`Halt.waiting`).
-/
import AgentSeat.Provider.Calls
import AgentSeat.Session.Policy

namespace AgentSeat.Session

open AgentSeat.Lib AgentSeat.Proto AgentSeat.Provider AgentSeat.Seat

/-- What `read_frame` returns. -/
inductive ReadFrame where
  | message (value : ClientMessage)
  | cleanEof

inductive Question where
  | boundIo
  | peerCredentials
  | readFrame
  | writeFrame (message : ServerMessage)
  | seatLoad
  | claimSlot
  | releaseSlot
  | stopping
  | pollStream

/-- What an answer looks like: the UID of the peer, a frame, the word of the gate, whether the slot
    was free, whether the provider stops, whether the peer sent something. -/
def Question.Answer : Question → Type
  | .boundIo | .writeFrame _ => Except String Unit
  | .peerCredentials => Except String Nat
  | .readFrame => Except String ReadFrame
  | .seatLoad => Nat
  | .claimSlot | .stopping => Bool
  | .releaseSlot => Unit
  | .pollStream => Except String Bool

/-- The provider is invoked for a call. -/
inductive Mark where
  | invoked (call : Proto.Call)

/-- A run that has not come to its end. -/
inductive Halt where
  | failed (text : String)
  | waiting

abbrev Step := Entry Question.Answer Mark
abbrev Peer := Env Question.Answer Mark

/-- The provider behind a session, over its own state `P`. -/
abbrev Provides (P : Type) := SessionContext → Proto.Call → Prog P Empty Outcome

abbrev SM (P : Type) := Prog (Dialogue Question.Answer Mark P) Halt

/-! ## Authorization -/

/-- The calls that need the structure grant beside their own. -/
def needsStructure : Proto.Call → Bool
  | .clientActivate _ | .clientClose _ | .workspaceSwitch _ | .clientWorkspace _ | .clientState _
  | .clientGeometry _ | .pointerMove _ | .pointerClick _ | .keyboardType _ | .keyboardWrite _
  | .keyboardKey _ | .textInsert _ | .captureObscured _ | .captureRegion _ => true
  | _ => false

def isApplicationLaunch : Proto.Call → Bool
  | .applicationLaunch _ => true
  | _ => false

def authorized (call : Proto.Call) (granted : List Capability) : Bool :=
  granted.contains call.requiredCapability &&
    (!needsStructure call || granted.contains .observeStructure) &&
    (!isApplicationLaunch call || granted.contains .launchList)

/-! ## Opening -/

def text {max : Nat} (value : String) : Except String (BoundedText max) :=
  (BoundedText.new value).mapError BoundError.display

def features (granted : List Capability) : List Feature :=
  [.ewmhObservation, .ewmhManagement, .desktopLaunch] ++
    (if granted.contains .captureObscured then [.obscuredCapture] else []) ++
    (if granted.any isInput then [.inputInjection] else []) ++
    (if granted.contains .textTransfer then [.textTransfer] else [])

def welcomeFor (session : SessionId) (granted : List Capability) : Except String Welcome := do
  let granted ← (BoundedList.new granted).mapError fun error =>
    "configured grant exceeded wire bounds: " ++ error.display
  let protocol ← text protocolName
  let name ← text "agent-seat-x11"
  let version ← text "0.2.1"
  let features ← (BoundedList.new (features granted.asSlice)).mapError fun error =>
    "provider feature list exceeded wire bounds: " ++ error.display
  pure ⟨protocol, protocolRevision, session, ⟨name, version⟩, .x11Ewmh, .tier0, features, granted,
    ⟨maxRequestFrameBytes, maxResponseFrameBytes, maxEvents, maxPollWaitMs⟩⟩

def contextFor (config : Config) (session : SessionId) (granted : List Capability)
    (permit : SeatPermit) : SessionContext :=
  ⟨session, granted, ⟨config.observation.clients, config.observation.titles⟩, permit⟩

/-! ## The session -/

section Session

variable {P : Type} (env : Peer) (provider : Provides P)

/-- A failure of the system, under what was attempted. -/
def orFail {α : Type} (attempted : String) (m : SM P (Except String α)) : SM P α := do
  let answer ← m
  Prog.lift (answer.mapError fun error => .failed (attempted ++ error))

/-- The word of the gate. -/
def seatLoad : SM P Nat := Dialogue.ask env .seatLoad

def writeFrame (attempted : String) (message : ServerMessage) : SM P Unit :=
  orFail attempted (Dialogue.ask env (.writeFrame message))

def goodbye (code : ErrorCode) (message : String) : ServerMessage :=
  .goodbye ⟨code, diagnostic message⟩

def close (code : ErrorCode) (message : String) : SM P Unit :=
  writeFrame env "cannot write terminal session message: " (goodbye code message)

def refusedOutcome : Outcome := protocolError .refused .never "capability was not granted"

def revokedOutcome : Outcome :=
  protocolError .revoked .reconnect "operator seat generation was revoked"

def invoke (context : SessionContext) (call : Proto.Call) : SM P Outcome := do
  Dialogue.write (.invoked call)
  Dialogue.within (Prog.total (provider context call))

def handle (context : SessionContext) (request : Request) : SM P Response :=
  if authorized request.call context.granted then do
    let outcome ← invoke provider context request.call
    pure ⟨request.id, outcome⟩
  else pure ⟨request.id, refusedOutcome⟩

/-- The stop flag once the waiting is over: whether to read on. -/
def goesOn : SM P Bool := do
  let stopping : Bool ← Dialogue.ask env .stopping
  pure !stopping

/-- The wait of a companion session for its next request, for at most `patience` rounds. -/
def waitRequest : Nat → SM P Bool
  | 0 => Prog.fail .waiting
  | patience + 1 => do
    let stopping : Bool ← Dialogue.ask env .stopping
    if stopping then goesOn env
    else do
      let ready ← orFail "cannot wait for private companion request: "
        (Dialogue.ask env .pollStream)
      if ready then goesOn env else waitRequest patience

def waitIfPersistent (patience : Nat) (persistent : Bool) : SM P Bool :=
  if persistent then waitRequest env patience else pure true

def readRequest : SM P ReadFrame :=
  orFail "cannot read session request: " (Dialogue.ask env .readFrame)

/-- A request of the loop, and the rounds after it. -/
def answer (context : SessionContext) (request : Request) (rest : SM P Unit) : SM P Unit := do
  let raw ← seatLoad env
  if Seat.accepts raw context.permit then do
    let response ← handle provider context request
    writeFrame env "cannot write session response: " (.response response)
    rest
  else
    writeFrame env "cannot write revoked session response: "
      (.response ⟨request.id, revokedOutcome⟩)

/-- The loop of `run`, with the requests that are left. -/
def serve (context : SessionContext) (patience : Nat) (persistent : Bool) : Nat → SM P Unit
  | 0 => close env .sessionClosed "session request bound reached"
  | left + 1 => do
    let on ← waitIfPersistent env patience persistent
    if on then do
      let frame ← readRequest env
      match frame with
      | .cleanEof => pure ()
      | .message (.goodbye _) => pure ()
      | .message (.hello _) => close env .malformed "hello cannot be repeated"
      | .message (.request request) =>
        answer env provider context request (serve context patience persistent left)
    else pure ()

variable (config : Config) (session : SessionId) (patience : Nat)

/-- `PersistentSessionGuard::claim`. -/
def claim (enabled : Bool) : SM P Bool :=
  if enabled then Dialogue.ask env .claimSlot else pure false

/-- The slot is free again when `run` returns. -/
def release (persistent : Bool) : Except Halt Unit → SM P Unit
  | .error .waiting => Prog.fail .waiting
  | result => do
    Prog.onlyIf persistent (Dialogue.ask env .releaseSlot)
    Prog.lift result

/-- From the welcome on. -/
def welcomed (permit : SeatPermit) (granted : List Capability) (persistent : Bool) :
    SM P Unit := do
  let welcome ← Prog.lift ((welcomeFor session granted).mapError .failed)
  writeFrame env "cannot write session welcome: " (.welcome welcome)
  serve env provider (contextFor config session welcome.granted.asSlice permit) patience persistent
    config.maxRequests

def admitted (permit : SeatPermit) (granted : List Capability) : SM P Unit := do
  let persistent ← claim env config.input.providerPrivateDevices
  let result ← Prog.attempt (welcomed env provider config session patience permit granted persistent)
  release env persistent result

/-- A peer with a UID has opened with a hello. -/
def opened (uid : Nat) (hello : Hello) : SM P Unit :=
  if !hello.isCompatible then
    close env .incompatibleRevision "exact Agent Seat revision 9 is required"
  else do
    let raw ← seatLoad env
    match permitOf raw with
    | none => close env .refused "operator seat is disabled"
    | some permit =>
      match config.granted uid hello.requested.asSlice with
      | none => close env .refused "verified peer UID has no configured grant"
      | some granted => do
        let raw ← seatLoad env
        if Seat.accepts raw permit then admitted env provider config session patience permit granted
        else close env .revoked "operator seat generation was revoked"

def boundIo : SM P Unit := orFail "cannot bound session I/O: " (Dialogue.ask env .boundIo)

def peerUid : SM P Nat :=
  orFail "cannot authenticate local peer credentials: " (Dialogue.ask env .peerCredentials)

def readHello : SM P ReadFrame :=
  orFail "cannot read session hello: " (Dialogue.ask env .readFrame)

def run : SM P Unit := do
  boundIo env
  let uid ← peerUid env
  let frame ← readHello env
  match frame with
  | .message (.hello hello) => opened env provider config session patience uid hello
  | .message _ => close env .malformed "hello must be first"
  | .cleanEof => pure ()

end Session

end AgentSeat.Session
