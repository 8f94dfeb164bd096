/-
  The calls of a session and the observer behind them (`provider_call` and `observer_for` of
  `session.rs`, `observer/capture.rs`).

  A session has no observer until a call needs one, and then keeps it. The launcher, the pixels of a
  capture and the PNG encoder are asked as questions; what surrounds them is the source's.
-/
import AgentSeat.Observer.Noninterference
import AgentSeat.Provider.Manager
import AgentSeat.Provider.Transfer

namespace AgentSeat.Provider

open AgentSeat.Lib AgentSeat.Proto AgentSeat.X11 AgentSeat.Seat

/-! ## Methods of the observer -/

section Methods

variable (env : Outside)

def snapshot : XM DesktopSnapshot := do
  let sample : Sample ← Dialogue.ask env .sample
  let snap ← Dialogue.within (X11.snapshot sample)
  let o ← this id
  markRefreshed o
  pure snap

def subscribe (request : SubscribeRequest) : XM Subscription := do
  let sample : Sample ← Dialogue.ask env .sample
  let subscription ← Dialogue.within (X11.subscribe request.kinds.asSlice sample)
  let o ← this id
  markRefreshed o
  pure subscription

def poll (request : PollRequest) : XM EventBatch := do
  let samples : Sample × List Sample ← Dialogue.ask env .samples
  Dialogue.within (X11.poll request.after request.limit samples.1 samples.2)

def readTargetPixels (request : TargetRequest) (region : Option CaptureRegion) :
    XM RawCapture := do
  let target ← freshTarget env request
  let held ← this (·.redirectedClients)
  Prog.lift (refuseIf (target.xid ∉ held)
    (Failure.unavailable "capture target is not held in provider-owned off-screen storage"))
  let viewable ← reply "cannot inspect capture target" "cannot inspect capture target"
    (Dialogue.ask env (.getWindowAttributes target.xid))
  Prog.lift (refuseIf (viewable = false) (Failure.unavailable "capture target is not viewable"))
  let raw : Except Failure RawCapture ← Dialogue.ask env (.readPixels target.xid region)
  Prog.lift raw

def encoded (raw : RawCapture) : XM CaptureData := do
  let data : Except Failure CaptureData ← Dialogue.ask env (.encodeCapture raw)
  Prog.lift data

def captureObscured (request : TargetRequest) : XM CaptureReply := do
  let raw ← underServerGrab env (readTargetPixels env request none)
  let data ← encoded env raw
  pure ⟨request, raw.width, raw.height, .png, data⟩

def captureRegion (request : CaptureRegionRequest) : XM CaptureRegionReply := do
  let raw ← underServerGrab env (readTargetPixels env request.target (some request.region))
  let data ← encoded env raw
  pure ⟨request.target, request.region, .png, data⟩

def maxStartupIdBytes : Nat := 256

def clientStartupIdMatches (d : Desktop) (xid : Window) (atoms : Atoms) (expected : List UInt8) :
    Bool :=
  ([some xid, optionalWindow d xid atoms.clientLeader].filterMap id).any fun window =>
    readable (propertyBytes d window atoms.startupId atoms.utf8 maxStartupIdBytes) == some expected

def launchBaseline : XM (List Window) := do
  refresh env
  this fun o => (o.model.map fun model => model.clients.map ClientRecord.xid).getD []

/-- One sample of the correlation: a client that is new and carries the startup id. -/
def sampleLaunch (baseline : List Window) (startupId : List UInt8) : XM (Option ClientId) := do
  refresh env
  let d : Desktop ← Dialogue.ask env .desktop
  let o ← this id
  pure ((o.model.bind fun model => model.clients.find? fun client =>
    !baseline.contains client.xid && clientStartupIdMatches d client.xid o.atoms startupId).map
      (·.descriptor.id))

def correlateRounds (baseline : List Window) (startupId : List UInt8) :
    Nat → XM (Option ClientId)
  | 0 => sampleLaunch env baseline startupId
  | rounds + 1 => do
    let client ← sampleLaunch env baseline startupId
    match client with
    | some id => pure (some id)
    | none => correlateRounds baseline startupId rounds

def correlateLaunch (baseline : List Window) (startupId : List UInt8) : XM (Option ClientId) := do
  let rounds : Nat ← Dialogue.ask env .rounds
  correlateRounds env baseline startupId rounds

end Methods

/-! ## A session's observer -/

/-- A session's side of the dialogue: the observer, once there is one. -/
abbrev Host := Dialogue Question.Answer Mark (Option State)

structure SessionContext where
  session : SessionId
  granted : List Capability
  exposure : Exposure
  permit : SeatPermit

section Host

variable (env : Outside) (context : SessionContext)

/-- The state of a fresh observer. -/
def freshObserver (root : Window) (atoms : Atoms) (exposure : Exposure)
    (granted : List Capability) : State :=
  ((X11.observerFor root atoms exposure granted).run []).state

def connectObserver : Prog Host Failure Unit := do
  let answer : Except Failure (Window × Atoms) ← Dialogue.ask env .connect
  let server ← Prog.lift answer
  Prog.update fun h : Host =>
    ⟨some (freshObserver server.1 server.2 context.exposure context.granted), h.trace⟩

def observerFor : Prog Host Failure Unit := do
  let present ← Prog.read fun h : Host => h.state.isSome
  if present then pure () else connectObserver env context

/-- Run a method on the observer there is. -/
def method {α : Type} (m : XM α) : Prog Host Failure α := fun h =>
  match h.state with
  | none => (.error (Failure.internal "observer initialization failed"), h)
  | some s => ((m ⟨s, h.trace⟩).1, ⟨some (m ⟨s, h.trace⟩).2.state, (m ⟨s, h.trace⟩).2.trace⟩)

/-- `observer_for(..).and_then(..)`. -/
def onObserver {α : Type} (m : XM α) : Prog Host Failure α := do
  observerFor env context
  method m

/-- The windows there were before a launch, if the grant shows structure. -/
def baselineFor : Prog Host LaunchFailure (Option (List Window)) :=
  if context.exposure.clientScope ≠ .none ∧ context.granted.contains .observeStructure then do
    let baseline ← Prog.attempt (onObserver env context (launchBaseline env))
    pure baseline.toOption
  else pure none

/-- The client of a started application, if it can be told. -/
def launchedClient (startupId : List UInt8) : Option (List Window) →
    Prog Host LaunchFailure (Option ClientId)
  | none => pure none
  | some baseline => do
    let client ← Prog.attempt (method (correlateLaunch env baseline startupId))
    pure (client.toOption.join)

def launchApplication (application : ApplicationId) : Prog Host LaunchFailure LaunchReply := do
  let baseline ← baselineFor env context
  let answer : Except LaunchFailure Started ← Dialogue.ask env (.launch application)
  let started ← Prog.lift answer
  let client ← launchedClient env started.startupId.toUTF8.toList baseline
  pure ⟨started.token, client⟩

def listApplications (request : ApplicationListRequest) :
    Prog Host LaunchFailure ApplicationPage := do
  let answer : Except LaunchFailure ApplicationPage ← Dialogue.ask env (.listApplications request)
  Prog.lift answer

/-! ## Outcomes -/

/-- The diagnostic of an error. Every text of the provider fits its bound; the source panics if one
    did not. -/
def diagnostic (value : String) : Option Diagnostic := (BoundedText.new value).toOption

def observationError (error : Failure) : Outcome :=
  .error ⟨error.code, error.retry, none, diagnostic error.message, error.currentGeneration,
    error.currentSequence⟩

def launchError (error : LaunchFailure) : Outcome :=
  .error ⟨error.code, error.retry, none, diagnostic error.message, none, none⟩

def protocolError (code : ErrorCode) (retry : Retry) (message : String) : Outcome :=
  .error ⟨code, retry, none, diagnostic message, none, none⟩

/-- A method's result as the outcome of the call. -/
def observing {α : Type} (wrap : α → Proto.Reply) (m : XM α) : Prog Host Empty Outcome := do
  let result ← Prog.attempt (onObserver env context m)
  match result with
  | .ok value => pure (.ok (wrap value))
  | .error error => pure (observationError error)

/-- A launcher's result as the outcome of the call. -/
def launching {α : Type} (wrap : α → Proto.Reply) (m : Prog Host LaunchFailure α) :
    Prog Host Empty Outcome := do
  let result ← Prog.attempt m
  match result with
  | .ok value => pure (.ok (wrap value))
  | .error error => pure (launchError error)

def seatStatus : Prog Host Empty Outcome :=
  Prog.read fun h => .ok (.seatStatus
    ⟨context.session, (h.state.map fun s => s.observer.sequence).getD 0, .tier0⟩)

def providerCall : Proto.Call → Prog Host Empty Outcome
  | .seatStatus => seatStatus context
  | .desktopSnapshot => observing env context .desktopSnapshot (snapshot env)
  | .eventsSubscribe arguments => observing env context .subscribed (subscribe env arguments)
  | .eventsPoll arguments => observing env context .events (poll env arguments)
  | .clientActivate arguments =>
    observing env context .management (manage env (.activate arguments))
  | .clientClose arguments => observing env context .management (manage env (.close arguments))
  | .workspaceSwitch arguments =>
    observing env context .management (manage env (.workspaceSwitch arguments))
  | .clientWorkspace arguments =>
    observing env context .management (manage env (.clientWorkspace arguments))
  | .clientState arguments => observing env context .management (manage env (.state arguments))
  | .clientGeometry arguments =>
    observing env context .management (manage env (.geometry arguments))
  | .applicationsList arguments =>
    launching .applications (listApplications env arguments)
  | .applicationLaunch arguments =>
    launching .launched (launchApplication env context arguments.application)
  | .pointerMove arguments =>
    observing env context .input (pointerMove env arguments context.permit)
  | .pointerClick arguments =>
    observing env context .input (pointerClick env arguments context.permit)
  | .keyboardType arguments =>
    observing env context .input (keyboardType env arguments context.permit)
  | .keyboardWrite arguments =>
    observing env context .input (keyboardWrite env arguments context.permit)
  | .keyboardKey arguments =>
    observing env context .input (keyboardKey env arguments context.permit)
  | .textInsert arguments =>
    observing env context .textTransfer (textInsert env arguments context.permit)
  | .captureObscured arguments => observing env context .capture (captureObscured env arguments)
  | .captureRegion arguments => observing env context .captureRegion (captureRegion env arguments)

/-- A call between the marks that say when it began and how it was answered. -/
def markedCall (call : Proto.Call) : Prog Host Empty Outcome := do
  Dialogue.write (.began call)
  let outcome ← providerCall env context call
  Dialogue.write (.answered outcome)
  pure outcome

end Host

end AgentSeat.Provider
