/-
  The cross-field checks of `message.rs`: what a decoded message must satisfy before it is used and
  what an outgoing message must satisfy before it is written.

  Every check keeps the text of its refusal. Lists are checked in order, so the first failing item
  decides. The order of an enumeration is the order of its declaration.
-/
import AgentSeat.Proto.Call

namespace AgentSeat.Proto

def maxCaptureWidth : Nat := 2048
def maxCaptureHeight : Nat := 2048
def maxCapturePixels : Nat := 1920 * 1080
def maxCaptureRegionWidth : Nat := 1024
def maxCaptureRegionHeight : Nat := 1024
def maxCaptureRegionPixels : Nat := 512 * 512

/-- The largest `u16`. -/
def maxU16 : Nat := 2 ^ 16 - 1

/-! ## Checks -/

abbrev Check := Except String Unit

def ensure (good : Bool) (refusal : String) : Check := if good then .ok () else .error refusal

@[simp] theorem ensure_eq_ok {good : Bool} {refusal : String} {u : Unit} :
    ensure good refusal = .ok u ↔ good = true := by
  cases good <;> simp [ensure]

/-- The first refusal of two checks. -/
def Check.and (first second : Check) : Check := first.bind fun _ => second

@[simp] theorem Check.and_eq_ok {first second : Check} {u : Unit} :
    first.and second = .ok u ↔ first = .ok () ∧ second = .ok () := by
  cases first <;> simp [Check.and, Except.bind]

def validateAll {α : Type} (validate : α → Check) : List α → Check
  | [] => .ok ()
  | x :: xs => (validate x).and (validateAll validate xs)

@[simp] theorem validateAll_eq_ok {α : Type} {validate : α → Check} {xs : List α} {u : Unit} :
    validateAll validate xs = .ok u ↔ ∀ x ∈ xs, validate x = .ok () := by
  induction xs with
  | nil => simp [validateAll]
  | cons x xs ih =>
    have hrest : validateAll validate xs = .ok () ↔ ∀ x ∈ xs, validate x = .ok () := ih
    simp only [validateAll, Check.and_eq_ok, hrest, List.mem_cons, forall_eq_or_imp]

/-- Every two neighbours are in order. -/
def neighbours {α : Type} (lt : α → α → Bool) : List α → Bool
  | a :: b :: rest => lt a b && neighbours lt (b :: rest)
  | _ => true

def strictlyOrdered {α : Type} (rank : α → Nat) (values : List α) : Bool :=
  neighbours (fun a b => rank a < rank b) values

def uniqueBy {α κ : Type} [DecidableEq κ] (values : List α) (key : α → κ) : Bool :=
  values.zipIdx.all fun v => (values.take v.2).all fun prior => key prior ≠ key v.1

def BoundedText.isEmpty {max : Nat} (t : BoundedText max) : Bool := t.asStr = ""

/-- An optional text is left out or says something. -/
def saysSomething {max : Nat} (t : Option (BoundedText max)) : Bool :=
  t.all fun text => !text.isEmpty

def asBytes (s : String) : List UInt8 := s.toList.flatMap String.utf8EncodeChar

def endsWith (s ending : String) : Bool := ending.toList.isSuffixOf s.toList

/-! ## Opening -/

def PeerInfo.validate (p : PeerInfo) : Check :=
  (ensure (!p.name.isEmpty) "peer name is empty").and <|
  (ensure (!p.version.isEmpty) "peer version is empty").and
  (ensure (!p.purpose.isEmpty) "peer purpose is empty")

def Hello.validate (h : Hello) : Check :=
  h.peer.validate.and
  (ensure (strictlyOrdered Capability.ctorIdx h.requested.asSlice)
    "requested capabilities must be unique and canonically ordered")

def ProviderInfo.validate (p : ProviderInfo) : Check :=
  ensure (!p.name.isEmpty && !p.version.isEmpty) "provider name and version must be nonempty"

def Limits.validate (l : Limits) : Check :=
  ensure (!(l.requestFrameBytes = 0 ∨ l.requestFrameBytes > maxRequestFrameBytes ∨
      l.responseFrameBytes = 0 ∨ l.responseFrameBytes > maxResponseFrameBytes ∨
      l.eventsPerPoll = 0 ∨ l.eventsPerPoll > maxEvents ∨ l.pollWaitMs > maxPollWaitMs))
    "provider limits are outside revision bounds"

def Welcome.validate (w : Welcome) : Check :=
  (ensure (w.protocol.asStr = protocolName && w.revision = protocolRevision)
    "welcome protocol or revision is incompatible").and <|
  w.provider.validate.and <|
  w.limits.validate.and
  (ensure (strictlyOrdered Feature.ctorIdx w.features.asSlice &&
      strictlyOrdered Capability.ctorIdx w.granted.asSlice)
    "welcome features and grants must be canonically ordered")

def Goodbye.validate (g : Goodbye) : Check :=
  ensure (saysSomething g.message) "goodbye diagnostic is empty"

/-! ## Requests -/

def TargetRequest.validate (_ : TargetRequest) : Check := .ok ()

def SubscribeRequest.validate (r : SubscribeRequest) : Check :=
  ensure (strictlyOrdered EventKind.ctorIdx r.kinds.asSlice)
    "event kinds must be unique and canonically ordered"

def WorkspaceRequest.validate (_ : WorkspaceRequest) : Check := .ok ()

def ClientWorkspaceRequest.validate (r : ClientWorkspaceRequest) : Check := r.target.validate

def ClientStateRequest.validate (r : ClientStateRequest) : Check := r.target.validate

def Rect.validate (r : Rect) : Check :=
  ensure (!(r.width = 0 ∨ r.height = 0)) "rectangle extent must be nonzero"

def ClientGeometryRequest.validate (r : ClientGeometryRequest) : Check :=
  r.target.validate.and r.frame.validate

def ApplicationListRequest.validate (r : ApplicationListRequest) : Check :=
  ensure (!(r.limit = 0 ∨ r.limit > maxApplications))
    "application page limit is outside revision bounds"

def ApplicationLaunchRequest.validate (r : ApplicationLaunchRequest) : Check :=
  ensure (!r.application.isEmpty && endsWith r.application.asStr ".desktop" &&
      !r.application.asStr.toList.any fun c => c == '/' || c == '\x00')
    "application ID is not canonical"

def PointerMoveRequest.validate (r : PointerMoveRequest) : Check := r.target.validate

def PointerClickRequest.validate (r : PointerClickRequest) : Check := r.target.validate

/-- `char::is_control`. -/
def isControl (c : Char) : Bool := c.toNat < 32 || (127 ≤ c.toNat && c.toNat < 160)

structure TextValidationErrors where
  empty : String
  control : String
  bound : String

def TextValidationErrors.keyboard : TextValidationErrors where
  empty := "keyboard text is empty"
  control := "keyboard text contains an unsupported control character"
  bound := "keyboard text exceeds the action bound"

def TextValidationErrors.transfer : TextValidationErrors where
  empty := "transfer text is empty"
  control := "transfer text contains an unsupported control character"
  bound := "transfer text exceeds the scalar bound"

/-- The counter of the loop cannot overflow: a text has fewer scalars than a word can count. -/
def validateTextContent (text : String) (maximumScalars : Nat) (errors : TextValidationErrors) :
    Check :=
  (ensure (text ≠ "") errors.empty).and <|
  (ensure (text.toList.all fun c => !(isControl c && !(c == '\n' || c == '\t')))
    errors.control).and
  (ensure (text.toList.length ≤ maximumScalars) errors.bound)

def validateKeyboardText (text : String) (maximumActions : Nat) : Check :=
  validateTextContent text maximumActions .keyboard

def KeyboardTypeRequest.validate (r : KeyboardTypeRequest) : Check :=
  r.target.validate.and (validateKeyboardText r.text.asStr maxInputActions)

def KeyboardWriteRequest.validate (r : KeyboardWriteRequest) : Check :=
  r.target.validate.and (validateKeyboardText r.text.asStr maxLongInputActions)

def TextInsertRequest.validate (r : TextInsertRequest) : Check :=
  r.target.validate.and (validateTextContent r.text.asStr maxTextTransferScalars .transfer)

def KeyboardKeyRequest.validate (r : KeyboardKeyRequest) : Check :=
  r.target.validate.and
  (ensure (strictlyOrdered KeyboardModifier.ctorIdx r.modifiers.asSlice)
    "keyboard modifiers must be unique and canonically ordered")

/-- The sums are of 16-bit words and may overflow them; the product is of machine size. -/
def CaptureRegion.validate (r : CaptureRegion) : Check :=
  (ensure (r.width * r.height ≤ u64Max) "capture region dimensions overflow").and <|
  (ensure (r.x + r.width ≤ maxU16) "capture region horizontal extent overflowed").and <|
  (ensure (r.y + r.height ≤ maxU16) "capture region vertical extent overflowed").and
  (ensure (!(r.width = 0 ∨ r.height = 0 ∨ r.width > maxCaptureRegionWidth ∨
      r.height > maxCaptureRegionHeight ∨ r.width * r.height > maxCaptureRegionPixels ∨
      r.x + r.width > maxCaptureWidth ∨ r.y + r.height > maxCaptureHeight))
    "capture region is outside revision bounds")

def CaptureRegionRequest.validate (r : CaptureRegionRequest) : Check :=
  r.target.validate.and r.region.validate

def Call.validate : Call → Check
  | .seatStatus | .desktopSnapshot => .ok ()
  | .eventsSubscribe value => value.validate
  | .eventsPoll value => value.validate
  | .clientActivate value | .clientClose value => value.validate
  | .workspaceSwitch value => value.validate
  | .clientWorkspace value => value.validate
  | .clientState value => value.validate
  | .clientGeometry value => value.validate
  | .applicationsList value => value.validate
  | .applicationLaunch value => value.validate
  | .pointerMove value => value.validate
  | .pointerClick value => value.validate
  | .keyboardType value => value.validate
  | .keyboardWrite value => value.validate
  | .keyboardKey value => value.validate
  | .textInsert value => value.validate
  | .captureObscured value => value.validate
  | .captureRegion value => value.validate

def Request.validate (r : Request) : Check := r.call.validate

/-! ## Images -/

def base64Value (byte : UInt8) : Option Nat :=
  if 65 ≤ byte ∧ byte ≤ 90 then some (byte.toNat - 65)
  else if 97 ≤ byte ∧ byte ≤ 122 then some (byte.toNat - 97 + 26)
  else if 48 ≤ byte ∧ byte ≤ 57 then some (byte.toNat - 48 + 52)
  else if byte = 43 then some 62
  else if byte = 47 then some 63
  else none

def isAsciiAlphanumeric (byte : UInt8) : Bool :=
  (65 ≤ byte && byte ≤ 90) || (97 ≤ byte && byte ≤ 122) || (48 ≤ byte && byte ≤ 57)

/-- The bits that padding leaves over in the last symbol are zero. -/
def lastSymbol (body : List UInt8) (unused : Nat) : Bool :=
  (body.getLast?.bind base64Value).any fun value => value % unused = 0

def validPngBase64 (data : List UInt8) : Bool :=
  let padding := (data.reverse.takeWhile (· = 61)).length
  let body := data.take (data.length - padding)
  if data.length < 12 ∨ data.length % 4 ≠ 0 ∨ ¬ (asBytes "iVBORw0KGgo").isPrefixOf data then false
  else if padding > 2 then false
  else if !(body.all fun byte => isAsciiAlphanumeric byte || byte == 43 || byte == 47) ||
      !((data.drop (data.length - padding)).all fun byte => byte == 61) then false
  else if padding = 0 then true
  else if padding = 1 then lastSymbol body 4
  else lastSymbol body 16

/-! ## Replies -/

def CaptureRegionReply.validate (r : CaptureRegionReply) : Check :=
  r.target.validate.and <|
  r.region.validate.and
  (ensure (validPngBase64 (asBytes r.data.asStr)) "capture data is not a canonical base64 PNG")

def CaptureReply.validate (r : CaptureReply) : Check :=
  r.target.validate.and <|
  (ensure (r.width * r.height ≤ u64Max) "capture dimensions overflow").and <|
  (ensure (!(r.width = 0 ∨ r.height = 0 ∨ r.width > maxCaptureWidth ∨
      r.height > maxCaptureHeight ∨ r.width * r.height > maxCapturePixels))
    "capture dimensions are outside revision bounds").and
  (ensure (validPngBase64 (asBytes r.data.asStr)) "capture data is not a canonical base64 PNG")

/-- The counts that go with each ending. -/
def TextTransferReply.consistent (r : TextTransferReply) : Bool :=
  match r.terminal with
  | .delivered => r.deliveredBytes = r.requestedBytes
  | .offered | .interrupted => r.deliveredBytes = 0

def TextTransferReply.validate (r : TextTransferReply) : Check :=
  r.target.validate.and <|
  (ensure (!(r.requestedBytes = 0 ∨ r.requestedBytes > maxTextTransferBytes ∨
      r.deliveredBytes > r.requestedBytes)) "text-transfer byte counts are invalid").and
  (ensure r.consistent "text-transfer terminal state contradicts its byte counts")

def InputReply.validate (r : InputReply) : Check :=
  (ensure (!(r.requested = 0 ∨ r.completed > r.requested)) "input action counts are invalid").and
  (ensure (!(r.terminal = .queued ∧ r.completed ≠ r.requested))
    "queued input result is incomplete")

def SeatStatus.validate (_ : SeatStatus) : Check := .ok ()

def WorkspaceDescriptor.validate (w : WorkspaceDescriptor) : Check :=
  (ensure (saysSomething w.name) "workspace name is empty").and
  (validateAll Rect.validate w.workArea.toList)

def ClientDescriptor.validate (c : ClientDescriptor) : Check :=
  (ensure (saysSomething c.title) "client title is empty").and <|
  (validateAll Rect.validate c.frame.toList).and
  (ensure (strictlyOrdered ClientState.ctorIdx c.states.asSlice &&
      strictlyOrdered ClientAction.ctorIdx c.actions.asSlice)
    "client states and actions must be canonically ordered")

def DesktopSnapshot.validate (s : DesktopSnapshot) : Check :=
  (validateAll WorkspaceDescriptor.validate s.workspaces.asSlice).and <|
  (validateAll ClientDescriptor.validate s.clients.asSlice).and <|
  (ensure (uniqueBy s.workspaces.asSlice (·.id) && uniqueBy s.clients.asSlice (·.id))
    "snapshot identities are duplicated").and <|
  (ensure (s.workspaces.asSlice.any fun w => w.id = s.currentWorkspace)
    "current workspace is absent from snapshot").and
  (ensure (s.active.all fun active => s.clients.asSlice.any fun c => c.id = active)
    "active client is absent from snapshot")

def Subscription.validate (_ : Subscription) : Check := .ok ()

def Event.validate : Event → Check
  | .clientAdded client | .clientChanged client => client.validate
  | .clientRemoved _ | .activeChanged _ | .workspaceChanged _ | .applicationsChanged => .ok ()

def EventEnvelope.validate (e : EventEnvelope) : Check := e.event.validate

/-- The loop of `EventBatch::validate`, with the sequence before this event. -/
def validateEvents (cursor : Nat) : Option Nat → List EventEnvelope → Check
  | _, [] => .ok ()
  | prior, event :: rest =>
    event.validate.and <|
    (ensure (!(prior.any (event.sequence ≤ ·) || event.sequence > cursor))
      "event sequences are not strictly increasing within the cursor").and
    (validateEvents cursor (some event.sequence) rest)

def EventBatch.validate (b : EventBatch) : Check := validateEvents b.cursor none b.events.asSlice

def ManagementReply.validate (_ : ManagementReply) : Check := .ok ()

def ApplicationDescriptor.validate (a : ApplicationDescriptor) : Check :=
  ensure (!a.id.isEmpty && endsWith a.id.asStr ".desktop" && !a.name.isEmpty)
    "application descriptor is not canonical"

def ApplicationPage.validate (p : ApplicationPage) : Check :=
  (validateAll ApplicationDescriptor.validate p.applications.asSlice).and
  (ensure (neighbours (fun a b => a.id.asStr < b.id.asStr) p.applications.asSlice)
    "application IDs must be unique and canonically ordered")

def LaunchReply.validate (_ : LaunchReply) : Check := .ok ()

def Reply.validate : Reply → Check
  | .seatStatus value => value.validate
  | .desktopSnapshot value => value.validate
  | .subscribed value => value.validate
  | .events value => value.validate
  | .management value => value.validate
  | .applications value => value.validate
  | .launched value => value.validate
  | .input value => value.validate
  | .textTransfer value => value.validate
  | .capture value => value.validate
  | .captureRegion value => value.validate

def ProtocolError.validate (e : ProtocolError) : Check :=
  ensure (saysSomething e.field && saysSomething e.message) "error field or diagnostic is empty"

def Outcome.validate : Outcome → Check
  | .ok reply => reply.validate
  | .error failure => failure.validate

def Response.validate (r : Response) : Check := r.outcome.validate

/-! ## Messages -/

def ClientMessage.validate : ClientMessage → Check
  | .hello value => value.validate
  | .request value => value.validate
  | .goodbye value => value.validate

def ServerMessage.validate : ServerMessage → Check
  | .welcome value => value.validate
  | .response value => value.validate
  | .goodbye value => value.validate

end AgentSeat.Proto
