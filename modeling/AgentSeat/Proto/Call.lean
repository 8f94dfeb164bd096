/-
  The calls of a session, their replies, and the messages that carry both.

  `requiredCapability` is the capability atom a call asks for; what a session demands beside it is
  the business of the session. `PollRequest.validate` is the check a request passes before a
  session sees it.
-/
import AgentSeat.Proto.Message

namespace AgentSeat.Proto

/-! ## Requests -/

/-- A client handle and the descriptor generation last observed under it. -/
structure TargetRequest where
  client : ClientId
  generation : Nat
  deriving DecidableEq

structure SubscribeRequest where
  kinds : BoundedList EventKind 8
  deriving DecidableEq

structure PollRequest where
  after : Nat
  limit : Nat
  waitMs : Nat
  deriving DecidableEq

def PollRequest.validate (r : PollRequest) : Except String Unit :=
  if r.limit = 0 ∨ r.limit > maxEvents ∨ r.waitMs > maxPollWaitMs then
    .error "event poll limit or wait is outside revision bounds"
  else .ok ()

structure WorkspaceRequest where
  workspace : WorkspaceId
  sequence : Nat
  deriving DecidableEq

structure ClientWorkspaceRequest where
  target : TargetRequest
  workspace : WorkspaceId

structure ClientStateRequest where
  target : TargetRequest
  state : ClientState
  action : StateAction

structure ClientGeometryRequest where
  target : TargetRequest
  frame : Rect

structure ApplicationListRequest where
  cursor : Nat
  limit : Nat

structure ApplicationLaunchRequest where
  application : ApplicationId

structure PointerMoveRequest where
  target : TargetRequest
  x : Nat
  y : Nat

inductive PointerButton where
  | primary | middle | secondary
  deriving DecidableEq

structure PointerClickRequest where
  target : TargetRequest
  x : Nat
  y : Nat
  button : PointerButton

structure KeyboardTypeRequest where
  target : TargetRequest
  text : InputText

structure KeyboardWriteRequest where
  target : TargetRequest
  text : LongInputText

structure TextInsertRequest where
  target : TargetRequest
  text : TransferText

inductive KeyboardKey where
  | backspace | delete | enter | escape | tab | space | insert | home | end | pageUp | pageDown
  | arrowLeft | arrowRight | arrowUp | arrowDown
  | a | b | c | d | e | f | g | h | i | j | k | l | m | n | o | p | q | r | s | t | u | v | w | x
  | y | z
  | digit0 | digit1 | digit2 | digit3 | digit4 | digit5 | digit6 | digit7 | digit8 | digit9
  | f1 | f2 | f3 | f4 | f5 | f6 | f7 | f8 | f9 | f10 | f11 | f12
  deriving DecidableEq

inductive KeyboardModifier where
  | control | alt | shift | super
  deriving DecidableEq

structure KeyboardKeyRequest where
  target : TargetRequest
  key : KeyboardKey
  modifiers : BoundedList KeyboardModifier maxKeyboardModifiers

structure CaptureRegion where
  x : Nat
  y : Nat
  width : Nat
  height : Nat

structure CaptureRegionRequest where
  target : TargetRequest
  region : CaptureRegion

/-! ## Calls -/

inductive Call where
  | seatStatus
  | desktopSnapshot
  | eventsSubscribe (arguments : SubscribeRequest)
  | eventsPoll (arguments : PollRequest)
  | clientActivate (arguments : TargetRequest)
  | clientClose (arguments : TargetRequest)
  | workspaceSwitch (arguments : WorkspaceRequest)
  | clientWorkspace (arguments : ClientWorkspaceRequest)
  | clientState (arguments : ClientStateRequest)
  | clientGeometry (arguments : ClientGeometryRequest)
  | applicationsList (arguments : ApplicationListRequest)
  | applicationLaunch (arguments : ApplicationLaunchRequest)
  | pointerMove (arguments : PointerMoveRequest)
  | pointerClick (arguments : PointerClickRequest)
  | keyboardType (arguments : KeyboardTypeRequest)
  | keyboardWrite (arguments : KeyboardWriteRequest)
  | keyboardKey (arguments : KeyboardKeyRequest)
  | textInsert (arguments : TextInsertRequest)
  | captureObscured (arguments : TargetRequest)
  | captureRegion (arguments : CaptureRegionRequest)

def Call.requiredCapability : Call → Capability
  | .seatStatus | .desktopSnapshot => .observeStructure
  | .eventsSubscribe _ | .eventsPoll _ => .observeEvents
  | .clientActivate _ => .manageActivate
  | .clientClose _ => .manageClose
  | .workspaceSwitch _ | .clientWorkspace _ => .manageWorkspace
  | .clientState _ => .manageState
  | .clientGeometry _ => .manageGeometry
  | .applicationsList _ => .launchList
  | .applicationLaunch _ => .launchExecute
  | .pointerMove _ | .pointerClick _ => .inputPointer
  | .keyboardType _ | .keyboardWrite _ | .keyboardKey _ => .inputKeyboard
  | .textInsert _ => .textTransfer
  | .captureObscured _ | .captureRegion _ => .captureObscured

/-! ## Replies -/

inductive Backend where
  | x11Ewmh
  deriving DecidableEq

inductive Assurance where
  | tier0
  deriving DecidableEq

structure SeatStatus where
  session : SessionId
  sequence : Nat
  assurance : Assurance
  deriving DecidableEq

inductive Observation where
  | observed | timedOut | targetGone
  deriving DecidableEq

structure ManagementReply where
  observation : Observation
  sequence : Nat
  deriving DecidableEq

structure ApplicationDescriptor where
  id : ApplicationId
  name : Name
  userEntry : Bool

structure ApplicationPage where
  applications : BoundedList ApplicationDescriptor maxApplications
  nextCursor : Option Nat

structure LaunchReply where
  token : LaunchToken
  client : Option ClientId
  deriving DecidableEq

inductive InputTerminal where
  | queued | interrupted
  deriving DecidableEq

structure InputReply where
  completed : Nat
  requested : Nat
  terminal : InputTerminal
  deriving DecidableEq

inductive TextTransferTerminal where
  | delivered | offered | interrupted
  deriving DecidableEq

structure TextTransferReply where
  target : TargetRequest
  requestedBytes : Nat
  deliveredBytes : Nat
  terminal : TextTransferTerminal

def maxCapturePngBytes : Nat := 7 * 1024 * 1024
def maxCaptureDataBytes : Nat := (maxCapturePngBytes + 2) / 3 * 4

abbrev CaptureData := BoundedText maxCaptureDataBytes

inductive CaptureFormat where
  | png

structure CaptureReply where
  target : TargetRequest
  width : Nat
  height : Nat
  format : CaptureFormat
  data : CaptureData

structure CaptureRegionReply where
  target : TargetRequest
  region : CaptureRegion
  format : CaptureFormat
  data : CaptureData

inductive Reply where
  | seatStatus (value : SeatStatus)
  | desktopSnapshot (value : DesktopSnapshot)
  | subscribed (value : Subscription)
  | events (value : EventBatch)
  | management (value : ManagementReply)
  | applications (value : ApplicationPage)
  | launched (value : LaunchReply)
  | input (value : InputReply)
  | textTransfer (value : TextTransferReply)
  | capture (value : CaptureReply)
  | captureRegion (value : CaptureRegionReply)

/-! ## Messages -/

structure ProtocolError where
  code : ErrorCode
  retry : Retry
  field : Option Name
  message : Option Diagnostic
  currentGeneration : Option Nat
  currentSequence : Option Nat

inductive Outcome where
  | ok (reply : Reply)
  | error (error : ProtocolError)

structure Request where
  id : RequestId
  call : Call

structure Response where
  id : RequestId
  outcome : Outcome

structure PeerInfo where
  name : Name
  version : Version
  purpose : Purpose

def protocolName : String := "agent-seat"
def protocolRevision : Nat := 9

structure Hello where
  protocol : Name
  revision : Nat
  peer : PeerInfo
  requested : BoundedList Capability maxCapabilities

/-- The opening names this exact wire contract. -/
def Hello.isCompatible (h : Hello) : Bool :=
  h.protocol.asStr = protocolName ∧ h.revision = protocolRevision

structure ProviderInfo where
  name : Name
  version : Version

structure Limits where
  requestFrameBytes : Nat
  responseFrameBytes : Nat
  eventsPerPoll : Nat
  pollWaitMs : Nat

structure Welcome where
  protocol : Name
  revision : Nat
  session : SessionId
  provider : ProviderInfo
  backend : Backend
  assurance : Assurance
  features : BoundedList Feature maxFeatures
  granted : BoundedList Capability maxCapabilities
  limits : Limits

structure Goodbye where
  code : ErrorCode
  message : Option Diagnostic
  deriving DecidableEq

inductive ClientMessage where
  | hello (value : Hello)
  | request (value : Request)
  | goodbye (value : Goodbye)

inductive ServerMessage where
  | welcome (value : Welcome)
  | response (value : Response)
  | goodbye (value : Goodbye)

end AgentSeat.Proto
