/-
  Freshness-checked EWMH management (`observer/manager.rs`).

  `prepare` decides from the refreshed model and the properties it reads which client message to
  send and what to wait for. Each of its property reads is asked once, so they are one question, the
  family of their replies. `manage` refreshes, prepares and sends under one grab, then samples until
  the effect is seen, the target is gone or the rounds before the deadline are used up.
-/
import AgentSeat.Provider.Evidence

namespace AgentSeat.Provider

open AgentSeat.Lib AgentSeat.Proto AgentSeat.X11

def pagerSource : Nat := 2
def staticGravity : Nat := 10

inductive Operation where
  | activate (request : TargetRequest)
  | close (request : TargetRequest)
  | workspaceSwitch (request : WorkspaceRequest)
  | clientWorkspace (request : ClientWorkspaceRequest)
  | state (request : ClientStateRequest)
  | geometry (request : ClientGeometryRequest)

inductive Desired where
  | active (id : ClientId)
  | closed (id : ClientId)
  | workspace (workspace : WorkspaceId)
  | clientWorkspace (id : ClientId) (workspace : WorkspaceId)
  | state (id : ClientId) (state : ClientState) (present : Bool)
  | geometry (id : ClientId) (frame : Rect)

structure Prepared where
  event : ClientMessageEvent
  desired : Desired

namespace Desired

def target : Desired → Option ClientId
  | .active id | .closed id | .clientWorkspace id _ | .state id _ _ | .geometry id _ => some id
  | .workspace _ => none

def observed (desired : Desired) (o : Observer) : Bool :=
  match desired with
  | .active id => (o.model.map fun model => decide (model.active = some id)).getD false
  | .closed id => (o.record id).isNone
  | .workspace number =>
    (o.model.map fun model => decide (model.currentWorkspace = number)).getD false
  | .clientWorkspace id number =>
    ((o.record id).map fun record => decide (record.descriptor.workspace = some number)).getD
      false
  | .state id wanted present =>
    ((o.record id).map fun record =>
      decide (record.descriptor.states.asSlice.contains wanted = present)).getD false
  | .geometry id frame =>
    ((o.record id).map fun record => decide (record.descriptor.frame = some frame)).getD false

end Desired

/-! ## Checks -/

def requireAction (target : Target) (action : ClientAction) : Except Failure Unit :=
  refuseIf (action ∉ target.actions)
    (Failure.unsupported "the target does not advertise the requested operation")

def requireSupported (supported : List Atom) (atom : Atom) : Except Failure Unit :=
  refuseIf (atom ∉ supported)
    (Failure.unsupported "the window manager does not advertise the requested operation")

def staleSequence (sequence : Nat) : Failure :=
  ⟨.stale, .reobserve, "the desktop sequence changed before send", none, some sequence⟩

def invalidGeometry : Failure :=
  Failure.invalid "frame geometry cannot contain the target's decoration extents"

/-- `model()`. -/
def currentModel (o : Observer) : Except Failure Model :=
  match o.model with
  | some model => .ok model
  | none => .error (Failure.internal "observer has no current model")

def requireWorkspace (o : Observer) (workspace : WorkspaceId) : Except Failure Unit := do
  let model ← currentModel o
  refuseIf (∀ candidate ∈ model.workspaces, candidate.id ≠ workspace)
    ⟨.invalidArgument, .never, "the workspace is outside the advertised range", none,
      some o.sequence⟩

def allowedActions (d : Desktop) (atoms : Atoms) (xid : Window) : Except Failure (List Atom) := do
  let allowed ← property32 d xid atoms.wmAllowedActions atomType maxClientAtoms
  pure (allowed.getD [])

/-! ## Preparation -/

/-- The state atom of a request and the action the client must allow for it. -/
def stateAtoms (atoms : Atoms) : ClientState → Except Failure (Atom × Option Atom)
  | .above => .ok (atoms.stateAbove, some atoms.actionAbove)
  | .below => .ok (atoms.stateBelow, some atoms.actionBelow)
  | .fullscreen => .ok (atoms.stateFullscreen, some atoms.actionFullscreen)
  | .hidden =>
    .error (Failure.unsupported "EWMH defines hidden as window-manager state, not a client request")
  | .maximizedHorizontal => .ok (atoms.stateMaximizedHorz, some atoms.actionMaximizeHorz)
  | .maximizedVertical => .ok (atoms.stateMaximizedVert, some atoms.actionMaximizeVert)
  | .demandsAttention => .ok (atoms.stateDemandsAttention, none)
  | .sticky => .ok (atoms.stateSticky, some atoms.actionStick)
  | .shaded => .ok (atoms.stateShaded, some atoms.actionShade)

def requireStateAction (d : Desktop) (atoms : Atoms) (xid : Window) :
    Option Atom → Except Failure Unit
  | none => .ok ()
  | some action => do
    let allowed ← allowedActions d atoms xid
    refuseIf (action ∉ allowed)
      (Failure.unsupported "the target does not advertise the requested state action")

def prepareState (d : Desktop) (o : Observer) (request : ClientStateRequest)
    (supported : List Atom) : Except Failure Prepared := do
  let target ← o.target request.target
  let (stateAtom, actionAtom) ← stateAtoms o.atoms request.state
  requireSupported supported o.atoms.wmState
  requireSupported supported stateAtom
  requireStateAction d o.atoms target.xid actionAtom
  let present := target.states.contains request.state
  let desiredPresent := match request.action with
    | .add => true
    | .remove => false
    | .toggle => !present
  let action := match request.action with
    | .remove => 0
    | .add => 1
    | .toggle => 2
  pure {
    event := ⟨target.xid, o.atoms.wmState, [action, stateAtom, 0, pagerSource, 0]⟩
    desired := .state target.id request.state desiredPresent }

/-- `ok_or_else(invalid_geometry)`. -/
def geometryValue {α : Type} : Option α → Except Failure α
  | some a => .ok a
  | none => .error invalidGeometry

/-- The bytes of an `i32` read as a `u32`. -/
def u32OfI32 (n : Int) : Nat := (n % 2 ^ 32).toNat

/-- `checked_sub` with a nonzero result. -/
def remaining (extent taken : Nat) : Option Nat :=
  if taken < extent then some (extent - taken) else none

def flagBit (set : Bool) (bit : Nat) : Nat := if set then 1 <<< bit else 0

def prepareGeometry (d : Desktop) (o : Observer) (request : ClientGeometryRequest)
    (supported : List Atom) : Except Failure Prepared := do
  let target ← o.target request.target
  requireSupported supported o.atoms.moveresizeWindow
  let current ← match target.frame with
    | some frame => .ok frame
    | none => .error (Failure.unsupported "the target has no observable frame geometry")
  let moveX := decide (request.frame.x ≠ current.x)
  let moveY := decide (request.frame.y ≠ current.y)
  let resizeWidth := decide (request.frame.width ≠ current.width)
  let resizeHeight := decide (request.frame.height ≠ current.height)
  let allowed ← allowedActions d o.atoms target.xid
  refuseIf ((moveX || moveY) = true ∧ o.atoms.actionMove ∉ allowed)
    (Failure.unsupported "the target does not advertise movement")
  refuseIf ((resizeWidth || resizeHeight) = true ∧ o.atoms.actionResize ∉ allowed)
    (Failure.unsupported "the target does not advertise resizing")
  refuseIf ((moveX || moveY || resizeWidth || resizeHeight) = false ∧
      ClientAction.changeGeometry ∉ target.actions)
    (Failure.unsupported "the target does not advertise geometry changes")
  let (left, right, top, bottom) := clientFrameExtents d target.xid o.atoms
  let clientX ← geometryValue ((i32OfU32 left).bind fun l => checkedI32 (request.frame.x + l))
  let clientY ← geometryValue ((i32OfU32 top).bind fun t => checkedI32 (request.frame.y + t))
  let horizontal ← geometryValue (checkedU32 (left + right))
  let vertical ← geometryValue (checkedU32 (top + bottom))
  let clientWidth ← geometryValue (remaining request.frame.width horizontal)
  let clientHeight ← geometryValue (remaining request.frame.height vertical)
  let flags := staticGravity ||| (pagerSource <<< 12) ||| flagBit moveX 8 ||| flagBit moveY 9 |||
    flagBit resizeWidth 10 ||| flagBit resizeHeight 11
  pure {
    event := ⟨target.xid, o.atoms.moveresizeWindow,
      [flags, u32OfI32 clientX, u32OfI32 clientY, clientWidth, clientHeight]⟩
    desired := .geometry target.id request.frame }

def prepareActivate (o : Observer) (request : TargetRequest) (supported : List Atom) :
    Except Failure Prepared := do
  let target ← o.target request
  requireAction target .activate
  requireSupported supported o.atoms.activeWindow
  let model ← currentModel o
  let active := ((model.active.bind o.record).map ClientRecord.xid).getD 0
  pure ⟨⟨target.xid, o.atoms.activeWindow, [pagerSource, 0, active, 0, 0]⟩, .active target.id⟩

def prepareClose (o : Observer) (request : TargetRequest) (supported : List Atom) :
    Except Failure Prepared := do
  let target ← o.target request
  requireAction target .close
  requireSupported supported o.atoms.closeWindow
  pure ⟨⟨target.xid, o.atoms.closeWindow, [0, pagerSource, 0, 0, 0]⟩, .closed target.id⟩

def prepareWorkspaceSwitch (o : Observer) (request : WorkspaceRequest) (supported : List Atom) :
    Except Failure Prepared := do
  refuseIf (request.sequence ≠ o.sequence) (staleSequence o.sequence)
  requireWorkspace o request.workspace
  requireSupported supported o.atoms.currentDesktop
  pure ⟨⟨o.root, o.atoms.currentDesktop, [request.workspace, 0, 0, 0, 0]⟩,
    .workspace request.workspace⟩

def prepareClientWorkspace (o : Observer) (request : ClientWorkspaceRequest)
    (supported : List Atom) : Except Failure Prepared := do
  let target ← o.target request.target
  requireWorkspace o request.workspace
  requireAction target .changeWorkspace
  requireSupported supported o.atoms.wmDesktop
  pure ⟨⟨target.xid, o.atoms.wmDesktop, [request.workspace, pagerSource, 0, 0, 0]⟩,
    .clientWorkspace target.id request.workspace⟩

def prepare (d : Desktop) (o : Observer) (operation : Operation) : Except Failure Prepared := do
  let supported ← property32 d o.root o.atoms.supported atomType maxRootAtoms
  match operation with
  | .activate request => prepareActivate o request (supported.getD [])
  | .close request => prepareClose o request (supported.getD [])
  | .workspaceSwitch request => prepareWorkspaceSwitch o request (supported.getD [])
  | .clientWorkspace request => prepareClientWorkspace o request (supported.getD [])
  | .state request => prepareState d o request (supported.getD [])
  | .geometry request => prepareGeometry d o request (supported.getD [])

/-! ## Management -/

/-- What the waiting loop reports about a refreshed model, if it is done. -/
def Desired.terminal (desired : Desired) (o : Observer) : Option Observation :=
  if desired.observed o then some .observed
  else
    match desired.target with
    | none => none
    | some id =>
      if (o.record id).isSome then none
      else
        match desired with
        | .closed _ => some .observed
        | _ => some .targetGone

section Manager

variable (env : Outside)

/-- One sample: what it says about the effect, and the sequence it has. -/
def sampleTerminal (desired : Desired) : XM (Option Observation × Nat) := do
  let refreshed ← Prog.attempt (refresh env)
  let o ← this id
  pure (refreshed.toOption.bind fun _ => desired.terminal o, o.sequence)

/-- The sampling loop for the rounds left before the deadline. -/
def observeRounds (desired : Desired) : Nat → XM ManagementReply
  | 0 => do
    let (seen, sequence) ← sampleTerminal env desired
    pure ⟨seen.getD .timedOut, sequence⟩
  | rounds + 1 => do
    let (seen, sequence) ← sampleTerminal env desired
    match seen with
    | some observation => pure ⟨observation, sequence⟩
    | none => observeRounds desired rounds

def observeTerminal (desired : Desired) : XM ManagementReply := do
  let rounds : Nat ← Dialogue.ask env .rounds
  observeRounds env desired rounds

/-- What happens under the grab: refresh, prepare, send. -/
def sendPrepared (operation : Operation) : XM Desired := do
  refresh env
  let d : Desktop ← Dialogue.ask env .desktop
  let o ← this id
  let prepared ← Prog.lift (prepare d o operation)
  reply "cannot send an EWMH request" "the X server refused an EWMH request"
    (Dialogue.ask env (.sendMessage o.root prepared.event))
  pure prepared.desired

def manage (operation : Operation) : XM ManagementReply := do
  reply "cannot request an X11 server grab" "cannot acquire an X11 server grab"
    (Dialogue.ask env .grabServer)
  let sent ← Prog.attempt (sendPrepared env operation)
  let ungrab : Except XFault Unit ← Dialogue.ask env .ungrabServer
  let flush : Except XFault Unit ← Dialogue.ask env .flush
  let desired ← Prog.lift sent
  Prog.lift (checked "cannot request an X11 server ungrab" "cannot release the X11 server grab"
    ungrab)
  Prog.lift (checked "cannot flush an EWMH request" "cannot flush an EWMH request" flush)
  observeTerminal env desired

end Manager

end AgentSeat.Provider
