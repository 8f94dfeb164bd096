/-
  The observer's state and the way a refresh moves it (`observer.rs`, `observer/capture.rs`).

  `refresh` scans, reconciles the redirected windows when capture is granted, takes the model out
  and puts the next one in. `diffModel` compares by XID and pushes one event per visible change;
  `pushEvent` numbers every change, also those nobody subscribed to, and queues it if it is wanted.

  Notes. Beside the observer, a run keeps the list of what happened to it: every event that got a
  number, with the length of the queue it met, every model that a refresh put in, with the sequence
  it had, and every counter that ran out. No function of the model reads the notes; the theorems
  about whole runs are stated over them.
-/
import AgentSeat.Lib.Prog
import AgentSeat.X11.Scan

namespace AgentSeat.X11

open AgentSeat.Lib AgentSeat.Proto

/-! ## Data -/

structure ClientRecord where
  xid : Window
  descriptor : ClientDescriptor
  deriving DecidableEq

structure Model where
  currentWorkspace : WorkspaceId
  workspaces : List WorkspaceDescriptor
  clients : List ClientRecord
  active : Option ClientId
  deriving DecidableEq

/-- `struct Observer`, without the connection itself. -/
structure Observer where
  root : Window
  atoms : Atoms
  scope : ClientScope
  showTitles : Bool
  model : Option Model
  nextClient : Nat
  sequence : Nat
  subscribed : Bool
  subscribedKinds : List EventKind
  events : List EventEnvelope
  retainedAfter : Nat
  resyncRequired : Bool
  captureEnabled : Bool
  captureExtensionChecked : Bool
  redirectedClients : List Window

/-- The observer `connect` builds once the connection, the root and the atoms are there. -/
def connected (root : Window) (atoms : Atoms) (scope : ClientScope)
    (showTitles captureEnabled : Bool) : Observer where
  root := root
  atoms := atoms
  scope := scope
  showTitles := showTitles
  model := none
  nextClient := 1
  sequence := 0
  subscribed := false
  subscribedKinds := []
  events := []
  retainedAfter := 0
  resyncRequired := false
  captureEnabled := captureEnabled
  captureExtensionChecked := false
  redirectedClients := []

/-- An event that got its number, and how many events were retained when it came. -/
structure Arrival where
  envelope : EventEnvelope
  retained : Nat
  deriving DecidableEq

inductive Note where
  | pushed (arrival : Arrival)
  | refreshed (sequence : Nat) (model : Model)
  | exhausted
  deriving DecidableEq

/-- An observer and the notes of its run, oldest first. -/
structure State where
  observer : Observer
  notes : List Note

abbrev ObserverM := Prog State Failure

/-- Write a note. -/
def note (n : Note) : ObserverM Unit := Prog.update fun s => { s with notes := s.notes ++ [n] }

/-- Change the observer. -/
def modify (f : Observer → Observer) : ObserverM Unit :=
  Prog.update fun s => { s with observer := f s.observer }

/-- Read the observer. -/
def self {α : Type} (f : Observer → α) : ObserverM α := Prog.read fun s => f s.observer

/-- The failure of a counter that cannot be moved on. -/
def exhaust {α : Type} (message : String) : ObserverM α := do
  note .exhausted
  Prog.fail (Failure.internal message)

/-! ## Events -/

def eventKind : Event → EventKind
  | .clientAdded _ => .clientAdded
  | .clientChanged _ => .clientChanged
  | .clientRemoved _ => .clientRemoved
  | .activeChanged _ => .activeChanged
  | .workspaceChanged _ => .workspaceChanged
  | .applicationsChanged => .applicationsChanged

/-- The kinds a subscription asks for; the empty list means all of them. -/
def wanted (kinds : List EventKind) (event : Event) : Bool :=
  kinds.isEmpty || kinds.contains (eventKind event)

/-- The part of `push_event` after the sequence moved: drop, overflow or queue. -/
def enqueue (o : Observer) (event : Event) : Observer :=
  if !o.subscribed || o.resyncRequired || !wanted o.subscribedKinds event then o
  else if o.events.length = maxEvents then { o with events := [], resyncRequired := true }
  else { o with events := o.events ++ [⟨o.sequence, event⟩] }

def pushEvent (event : Event) : ObserverM Unit := do
  let prior ← self (·.sequence)
  match checkedSucc prior with
  | none => exhaust "observation sequence space is exhausted"
  | some sequence => do
    let retained ← self (·.events.length)
    modify fun o => enqueue { o with sequence := sequence } event
    note (.pushed ⟨⟨sequence, event⟩, retained⟩)

/-- Push an event when something visible changed. -/
def pushIf (changed : Bool) (event : Event) : ObserverM Unit :=
  Prog.onlyIf changed (pushEvent event)

/-! ## Models -/

def allocateClient : ObserverM ClientId := do
  let next ← self (·.nextClient)
  if h : next ≠ 0 then
    match checkedSucc next with
    | none => exhaust "client identity space is exhausted"
    | some following => do
      modify fun o => { o with nextClient := following }
      pure ⟨next, h⟩
  else exhaust "client identity space is exhausted"

def descriptor (client : RawClient) (id : ClientId) (generation : Nat) :
    Except Failure ClientDescriptor :=
  match BoundedList.new client.states with
  | .error _ => .error (Failure.internal "client state list exceeded its public bound")
  | .ok states =>
    match BoundedList.new client.actions with
    | .error _ => .error (Failure.internal "client action list exceeded its public bound")
    | .ok actions =>
      .ok ⟨id, generation, client.title, client.workspace, client.frame, states, actions⟩

/-- The id of the active window's record. -/
def activeId (active : Option Window) (clients : List ClientRecord) : Option ClientId :=
  (active.bind fun xid => clients.find? fun client => client.xid = xid).map (·.descriptor.id)

def initialClients : List RawClient → ObserverM (List ClientRecord)
  | [] => pure []
  | client :: rest => do
    let id ← allocateClient
    let descriptor ← Prog.lift (descriptor client id 0)
    let records ← initialClients rest
    pure (⟨client.xid, descriptor⟩ :: records)

def initialModel (raw : RawDesktop) : ObserverM Model := do
  let clients ← initialClients raw.clients
  pure ⟨raw.currentWorkspace, raw.workspaces, clients, activeId raw.active clients⟩

/-- Lookup in the map the source collects from the records: a later record of an XID would
    replace an earlier one. -/
def byXid (clients : List ClientRecord) (xid : Window) : Option ClientRecord :=
  clients.reverse.find? fun client => client.xid = xid

def pushRemoved (current : List Window) : List ClientRecord → ObserverM Unit
  | [] => pure ()
  | client :: rest => do
    pushIf (client.xid ∉ current) (.clientRemoved client.descriptor.id)
    pushRemoved current rest

/-- A client that was in the previous model: the same descriptor, or the next generation. -/
def diffKnown (prior : ClientRecord) (client : RawClient) : ObserverM ClientRecord := do
  let unchanged ←
    Prog.lift (descriptor client prior.descriptor.id prior.descriptor.generation)
  if unchanged = prior.descriptor then pure ⟨client.xid, unchanged⟩
  else
    match checkedSucc prior.descriptor.generation with
    | none => exhaust "client generation space is exhausted"
    | some generation => do
      let changed ← Prog.lift (descriptor client prior.descriptor.id generation)
      pushEvent (.clientChanged changed)
      pure ⟨client.xid, changed⟩

/-- A client that was not in the previous model. -/
def diffNew (client : RawClient) : ObserverM ClientRecord := do
  let id ← allocateClient
  let added ← Prog.lift (descriptor client id 0)
  pushEvent (.clientAdded added)
  pure ⟨client.xid, added⟩

def diffClient (previous : List ClientRecord) (client : RawClient) : ObserverM ClientRecord :=
  match byXid previous client.xid with
  | some prior => diffKnown prior client
  | none => diffNew client

def diffClients (previous : List ClientRecord) : List RawClient → ObserverM (List ClientRecord)
  | [] => pure []
  | client :: rest => do
    let record ← diffClient previous client
    let records ← diffClients previous rest
    pure (record :: records)

def diffModel (previous : Model) (raw : RawDesktop) : ObserverM Model := do
  pushRemoved (raw.clients.map RawClient.xid) previous.clients
  let clients ← diffClients previous.clients raw.clients
  pushIf (previous.currentWorkspace ≠ raw.currentWorkspace ∨ previous.workspaces ≠ raw.workspaces)
    (.workspaceChanged raw.currentWorkspace)
  let active := activeId raw.active clients
  pushIf (previous.active ≠ active) (.activeChanged active)
  pure ⟨raw.currentWorkspace, raw.workspaces, clients, active⟩

/-! ## Capture targets -/

inductive AttributesFault where
  | send | badWindow | other
  deriving DecidableEq

/-- What one refresh reads from the Composite extension. The order in which the source walks its
    hash sets is not specified: `order` is any rearrangement. -/
structure Composite where
  queryVersion : Except XFault (Nat × Nat)
  windowAttributes : Window → Except AttributesFault Unit
  unredirect : Window → Except XFault Unit
  redirect : Window → Except XFault Unit
  order : List Window → List Window
  order_perm : ∀ windows, (order windows).Perm windows

/-- All replies one refresh may ask for. -/
structure Sample where
  desktop : Desktop
  composite : Composite

def compositeMajor : Nat := 0
def requiredCompositeMinor : Nat := 2

def requireCompositeCapture (c : Composite) : ObserverM Unit := do
  let known ← self (·.captureExtensionChecked)
  if known then pure ()
  else do
    let version ← Prog.lift (match c.queryVersion with
      | .ok version => .ok version
      | .error .send => .error (Failure.unsupported "X Composite cannot be queried")
      | .error .reply => .error (Failure.unsupported "X Composite is unavailable"))
    Prog.lift (refuseIf (version.1 ≠ compositeMajor ∨ version.2 < requiredCompositeMinor)
      (Failure.unsupported "X Composite 0.2 or newer is required for obscured capture"))
    modify fun o => { o with captureExtensionChecked := true }

def unredirectDeparting (c : Composite) : List Window → ObserverM Unit
  | [] => pure ()
  | window :: rest => do
    Prog.lift (match c.windowAttributes window with
      | .ok _ => checked "cannot request target unredirection"
          "cannot unredirect a departing target" (c.unredirect window)
      | .error .send => .error (Failure.unavailable "cannot inspect a departing capture target")
      | .error .badWindow => .ok ()
      | .error .other =>
        .error (Failure.unavailable "cannot classify a departing capture target"))
    modify fun o => { o with redirectedClients := o.redirectedClients.erase window }
    unredirectDeparting c rest

def redirectArriving (c : Composite) : List Window → ObserverM Unit
  | [] => pure ()
  | window :: rest => do
    Prog.lift (checked "cannot request target redirection"
      "cannot redirect a scoped capture target" (c.redirect window))
    modify fun o => { o with redirectedClients := o.redirectedClients ++ [window] }
    redirectArriving c rest

def reconcileCaptureTargets (c : Composite) (clients : List Window) : ObserverM Unit := do
  requireCompositeCapture c
  let held ← self (·.redirectedClients)
  unredirectDeparting c (c.order (held.filter fun window => window ∉ clients))
  let held ← self (·.redirectedClients)
  redirectArriving c (c.order (clients.dedup.filter fun window => window ∉ held))

/-! ## Refresh -/

/-- The model a refresh puts in, noted with the sequence it has. -/
def install (model : Model) : ObserverM Unit := do
  modify fun o => { o with model := some model }
  let sequence ← self (·.sequence)
  note (.refreshed sequence model)

def nextModel (previous : Option Model) (raw : RawDesktop) : ObserverM Model :=
  match previous with
  | none => initialModel raw
  | some previous => diffModel previous raw

/-- The second half of `refresh`: take the model out and put the next one in. A failure on the
    way leaves no model. -/
def absorb (raw : RawDesktop) : ObserverM Unit := do
  let previous ← self (·.model)
  modify fun o => { o with model := none }
  let model ← nextModel previous raw
  install model

def refresh (sample : Sample) : ObserverM Unit := do
  let o ← self id
  let raw ← Prog.lift (scan sample.desktop o.root o.atoms o.scope o.showTitles)
  Prog.onlyIf o.captureEnabled
    (reconcileCaptureTargets sample.composite (raw.clients.map RawClient.xid))
  absorb raw

end AgentSeat.X11
