/-
  The observing calls: `snapshot`, `subscribe`, `poll`, and runs of an observer.

  Time. `poll` samples until an event past the cursor is queued or the clock has passed its
  deadline. The clock is given by the samples: `poll` gets the first one and the list of those it
  may still take, and the deadline has passed when the list is used up. The length of the list is
  all that `wait_ms` and the clock decide.

  A run is a list of calls. Every other call of the provider reaches the observer through
  `refresh` only, so it appears in a run as the refreshes it makes.
-/
import AgentSeat.Observer.Model

namespace AgentSeat.X11

open AgentSeat.Lib AgentSeat.Proto

/-! ## Snapshot and subscription -/

def snapshotOf (sequence : Nat) (model : Model) : Except Failure DesktopSnapshot :=
  match BoundedList.new model.workspaces with
  | .error _ => .error (Failure.internal "workspace model exceeded its public bound")
  | .ok workspaces =>
    match BoundedList.new (model.clients.map ClientRecord.descriptor) with
    | .error _ => .error (Failure.internal "client model exceeded its public bound")
    | .ok clients => .ok ⟨sequence, model.currentWorkspace, workspaces, clients, model.active⟩

def currentSnapshot : ObserverM DesktopSnapshot := do
  let o ← self id
  match o.model with
  | none => Prog.fail (Failure.internal "observer has no current model")
  | some model => Prog.lift (snapshotOf o.sequence model)

/-- A pending resynchronization ends: nothing before this point will be asked for again. -/
def settle (o : Observer) : Observer :=
  if o.resyncRequired then
    { o with events := [], retainedAfter := o.sequence, resyncRequired := false }
  else o

def snapshot (sample : Sample) : ObserverM DesktopSnapshot := do
  refresh sample
  modify settle
  currentSnapshot

/-- The subscription replaces the one before it and its queue. -/
def resubscribe (kinds : List EventKind) (o : Observer) : Observer :=
  { o with
    subscribed := true
    subscribedKinds := kinds
    events := []
    retainedAfter := o.sequence
    resyncRequired := false }

def subscribe (kinds : List EventKind) (sample : Sample) : ObserverM Subscription := do
  refresh sample
  modify (resubscribe kinds)
  let sequence ← self (·.sequence)
  pure ⟨sequence⟩

/-! ## Polling -/

/-- Drop the acknowledged events from the front of the queue. -/
def acknowledge (after : Nat) : List EventEnvelope → Nat → List EventEnvelope × Nat
  | [], retainedAfter => ([], retainedAfter)
  | event :: rest, retainedAfter =>
    if event.sequence ≤ after then acknowledge after rest event.sequence
    else (event :: rest, retainedAfter)

def drain (after : Nat) (o : Observer) : Observer :=
  { o with
    events := (acknowledge after o.events o.retainedAfter).1
    retainedAfter := (acknowledge after o.events o.retainedAfter).2 }

/-- The front of the queue is past the cursor. -/
def ready (after : Nat) (events : List EventEnvelope) : Bool :=
  match events with
  | [] => false
  | event :: _ => after < event.sequence

/-- The sampling loop; `rest` are the samples left before the deadline. -/
def pollWait (after : Nat) : Sample → List Sample → ObserverM Unit
  | sample, rest => do
    refresh sample
    let o ← self id
    Prog.lift (refuseIf (o.resyncRequired = true) (Failure.resync o.sequence))
    match rest with
    | [] => pure ()
    | next :: rest' => if ready after o.events then pure () else pollWait after next rest'

/-- The page after the cursor and the cursor it stands for. -/
def page (after : Nat) (limit : Nat) (o : Observer) : Except Failure EventBatch :=
  let events := (o.events.filter fun event => after < event.sequence).take limit
  let cursor := events.getLast?.elim o.sequence EventEnvelope.sequence
  match BoundedList.new events with
  | .error _ => .error (Failure.internal "event page exceeded its public bound")
  | .ok events => .ok ⟨events, cursor⟩

def poll (after : Nat) (limit : Nat) (sample : Sample) (rest : List Sample) :
    ObserverM EventBatch := do
  let o ← self id
  Prog.lift (refuseIf (o.subscribed = false)
    (Failure.invalid "events.subscribe is required before polling"))
  Prog.lift (refuseIf (after < o.retainedAfter ∨ after > o.sequence) (Failure.resync o.sequence))
  modify (drain after)
  pollWait after sample rest
  let o ← self id
  Prog.lift (page after limit o)

/-! ## Runs -/

inductive Op where
  | snapshot (sample : Sample)
  | subscribe (kinds : List EventKind) (sample : Sample)
  | poll (after : Nat) (limit : Nat) (sample : Sample) (rest : List Sample)
  | refresh (sample : Sample)

inductive OpReply where
  | snapshot (result : Except Failure DesktopSnapshot)
  | subscribed (result : Except Failure Subscription)
  | events (result : Except Failure EventBatch)
  | refreshed (result : Except Failure Unit)

def Op.exec : Op → State → OpReply × State
  | .snapshot sample, s => (.snapshot (X11.snapshot sample s).1, (X11.snapshot sample s).2)
  | .subscribe kinds sample, s =>
    (.subscribed (X11.subscribe kinds sample s).1, (X11.subscribe kinds sample s).2)
  | .poll after limit sample rest, s =>
    (.events (X11.poll after limit sample rest s).1, (X11.poll after limit sample rest s).2)
  | .refresh sample, s => (.refreshed (X11.refresh sample s).1, (X11.refresh sample s).2)

/-- A run so far: the state, the replies given, and how many notes there were when the latest
    successful `subscribe`, and the latest successful `snapshot` or `subscribe`, returned. -/
structure Run where
  state : State
  replies : List OpReply
  subscribedAt : Nat
  settledAt : Nat

def Run.start (o : Observer) : Run := ⟨⟨o, []⟩, [], 0, 0⟩

def Run.step (r : Run) (op : Op) : Run :=
  { state := (op.exec r.state).2
    replies := r.replies ++ [(op.exec r.state).1]
    subscribedAt := match (op.exec r.state).1 with
      | .subscribed (.ok _) => (op.exec r.state).2.notes.length
      | _ => r.subscribedAt
    settledAt := match (op.exec r.state).1 with
      | .subscribed (.ok _) | .snapshot (.ok _) => (op.exec r.state).2.notes.length
      | _ => r.settledAt }

def Run.after (r : Run) (ops : List Op) : Run := ops.foldl Run.step r

/-- The observer of a fresh connection. -/
structure Connection where
  root : Window
  atoms : Atoms
  scope : ClientScope
  showTitles : Bool
  captureEnabled : Bool

/-- The run of `ops` on a fresh observer. -/
def Connection.run (c : Connection) (ops : List Op) : Run :=
  (Run.start (connected c.root c.atoms c.scope c.showTitles c.captureEnabled)).after ops

theorem Run.after_append (r : Run) (ops ops' : List Op) :
    r.after (ops ++ ops') = (r.after ops).after ops' :=
  List.foldl_append

theorem Connection.run_snoc (c : Connection) (ops : List Op) (op : Op) :
    c.run (ops ++ [op]) = (c.run ops).step op := by
  unfold Connection.run
  rw [Run.after_append]
  rfl

/-- What a run has and every call keeps, the run still has after more calls. -/
theorem Run.after_induction {P : Run → Prop} (step : ∀ r op, P r → P (r.step op)) {r : Run}
    (start : P r) (ops : List Op) : P (r.after ops) := by
  induction ops generalizing r with
  | nil => exact start
  | cons op ops ih => exact ih (step r op start)

end AgentSeat.X11
