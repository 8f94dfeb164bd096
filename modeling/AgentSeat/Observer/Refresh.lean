/-
  What one refresh can do to an observer.

  Two accounts, used by all results about runs.
  * `refresh_ticks`: every run of `refresh`, also one that fails in its middle, is a sequence of
    `Tick`s: an event gets its number, a field that is not part of the queue changes, or a note is
    written. What every tick keeps, every refresh keeps.
  * `refresh_spec`: a refresh fails before it touches the model, or runs out of a counter, or puts
    in a first model (`FirstModel`), or puts in the successor of the model it found and has pushed
    exactly the events of `ModelDiff`.
-/
import AgentSeat.Observer.Calls

namespace AgentSeat.X11

open AgentSeat.Lib AgentSeat.Proto Relation

/-! ## Ticks -/

/-- What an observer was connected with. -/
structure Settings where
  root : Window
  atoms : Atoms
  scope : ClientScope
  showTitles : Bool
  captureEnabled : Bool

def Observer.settings (o : Observer) : Settings :=
  ⟨o.root, o.atoms, o.scope, o.showTitles, o.captureEnabled⟩

/-- The settings and the fields the event queue is made of are the same. -/
structure SameQueue (o o' : Observer) : Prop where
  settings : o'.settings = o.settings
  sequence : o'.sequence = o.sequence
  subscribed : o'.subscribed = o.subscribed
  subscribedKinds : o'.subscribedKinds = o.subscribedKinds
  events : o'.events = o.events
  retainedAfter : o'.retainedAfter = o.retainedAfter
  resyncRequired : o'.resyncRequired = o.resyncRequired

/-- The state after `event` got the next number. -/
def numberedPush (s : State) (event : Event) : State where
  observer := enqueue { s.observer with sequence := s.observer.sequence + 1 } event
  notes := s.notes ++
    [.pushed ⟨⟨s.observer.sequence + 1, event⟩, s.observer.events.length⟩]

inductive Tick : State → State → Prop
  | push (s : State) (event : Event) (room : s.observer.sequence < u64Max) :
      Tick s (numberedPush s event)
  | frame (s : State) (o : Observer) (same : SameQueue s.observer o) : Tick s ⟨o, s.notes⟩
  | note (s : State) (n : Note) (silent : ∀ a, n ≠ .pushed a) :
      Tick s ⟨s.observer, s.notes ++ [n]⟩

abbrev Ticks := ReflTransGen Tick

section Walk

variable {α β : Type}

theorem ticks_bind {m : ObserverM α} {f : α → ObserverM β} (hm : Prog.Keeps Ticks m)
    (hf : ∀ a, Prog.Keeps Ticks (f a)) : Prog.Keeps Ticks (m >>= f) :=
  Prog.Keeps.bind (fun _ _ _ h h' => h.trans h') hm hf

theorem ticks_pure (a : α) : Prog.Keeps Ticks (pure a : ObserverM α) :=
  Prog.Keeps.pure (fun _ => .refl) a

theorem ticks_fail (e : Failure) : Prog.Keeps Ticks (Prog.fail e : ObserverM α) :=
  Prog.Keeps.fail (fun _ => .refl) e

theorem ticks_lift (r : Except Failure α) : Prog.Keeps Ticks (Prog.lift r : ObserverM α) :=
  Prog.Keeps.lift (fun _ => .refl) r

theorem ticks_self (f : Observer → α) : Prog.Keeps Ticks (self f) :=
  Prog.Keeps.read (fun _ => .refl) _

theorem ticks_note {n : Note} (silent : ∀ a, n ≠ .pushed a) : Prog.Keeps Ticks (note n) :=
  fun s => .single (Tick.note s n silent)

theorem ticks_modify {f : Observer → Observer} (h : ∀ o, SameQueue o (f o)) :
    Prog.Keeps Ticks (modify f) :=
  fun s => .single (Tick.frame s _ (h s.observer))

theorem ticks_onlyIf {m : ObserverM Unit} (hm : Prog.Keeps Ticks m) (c : Bool) :
    Prog.Keeps Ticks (Prog.onlyIf c m) :=
  Prog.Keeps.onlyIf (fun _ => .refl) hm c

theorem ticks_exhaust (message : String) : Prog.Keeps Ticks (exhaust message : ObserverM α) :=
  ticks_bind (ticks_note (by simp)) fun _ => ticks_fail _

end Walk

theorem pushEvent_room {s : State} (event : Event) (room : s.observer.sequence < u64Max) :
    pushEvent event s = (.ok (), numberedPush s event) := by
  have h : checkedSucc s.observer.sequence = some (s.observer.sequence + 1) :=
    checkedSucc_eq_some.mpr ⟨room, rfl⟩
  simp only [pushEvent, Prog.bind_run, self, Prog.read, h]
  rfl

theorem pushEvent_full {s : State} (event : Event) (full : ¬ s.observer.sequence < u64Max) :
    pushEvent event s =
      (.error (Failure.internal "observation sequence space is exhausted"),
        ⟨s.observer, s.notes ++ [.exhausted]⟩) := by
  have h : checkedSucc s.observer.sequence = none := by simp [checkedSucc, full]
  simp only [pushEvent, Prog.bind_run, self, Prog.read, h]
  rfl

theorem ticks_pushEvent (event : Event) : Prog.Keeps Ticks (pushEvent event) := by
  intro s
  by_cases room : s.observer.sequence < u64Max
  · rw [pushEvent_room event room]
    exact .single (Tick.push s event room)
  · rw [pushEvent_full event room]
    exact .single (Tick.note s _ (by simp))

theorem ticks_pushIf (changed : Bool) (event : Event) : Prog.Keeps Ticks (pushIf changed event) :=
  ticks_onlyIf (ticks_pushEvent event) changed

theorem ticks_allocateClient : Prog.Keeps Ticks allocateClient := by
  refine ticks_bind (ticks_self _) fun next => ?_
  by_cases h : next ≠ 0
  · rw [dif_pos h]
    cases checkedSucc next with
    | none => exact ticks_exhaust _
    | some following =>
      exact ticks_bind (ticks_modify fun o => ⟨rfl, rfl, rfl, rfl, rfl, rfl, rfl⟩) fun _ => ticks_pure _
  · rw [dif_neg h]
    exact ticks_exhaust _

theorem ticks_initialClients (clients : List RawClient) :
    Prog.Keeps Ticks (initialClients clients) := by
  induction clients with
  | nil => exact ticks_pure _
  | cons client rest ih =>
    exact ticks_bind ticks_allocateClient fun id => ticks_bind (ticks_lift _) fun _ =>
      ticks_bind ih fun _ => ticks_pure _

theorem ticks_pushRemoved (current : List Window) (clients : List ClientRecord) :
    Prog.Keeps Ticks (pushRemoved current clients) := by
  induction clients with
  | nil => exact ticks_pure _
  | cons client rest ih => exact ticks_bind (ticks_pushIf _ _) fun _ => ih

theorem ticks_diffKnown (prior : ClientRecord) (client : RawClient) :
    Prog.Keeps Ticks (diffKnown prior client) := by
  refine ticks_bind (ticks_lift _) fun unchanged => ?_
  split
  · exact ticks_pure _
  · cases checkedSucc prior.descriptor.generation with
    | none => exact ticks_exhaust _
    | some generation =>
      exact ticks_bind (ticks_lift _) fun _ => ticks_bind (ticks_pushEvent _) fun _ => ticks_pure _

theorem ticks_diffNew (client : RawClient) : Prog.Keeps Ticks (diffNew client) :=
  ticks_bind ticks_allocateClient fun _ => ticks_bind (ticks_lift _) fun _ =>
    ticks_bind (ticks_pushEvent _) fun _ => ticks_pure _

theorem ticks_diffClient (previous : List ClientRecord) (client : RawClient) :
    Prog.Keeps Ticks (diffClient previous client) := by
  unfold diffClient
  split
  · exact ticks_diffKnown _ _
  · exact ticks_diffNew _

theorem ticks_diffClients (previous : List ClientRecord) (clients : List RawClient) :
    Prog.Keeps Ticks (diffClients previous clients) := by
  induction clients with
  | nil => exact ticks_pure _
  | cons client rest ih =>
    exact ticks_bind (ticks_diffClient _ _) fun _ => ticks_bind ih fun _ => ticks_pure _

theorem ticks_nextModel (previous : Option Model) (raw : RawDesktop) :
    Prog.Keeps Ticks (nextModel previous raw) := by
  cases previous with
  | none => exact ticks_bind (ticks_initialClients _) fun _ => ticks_pure _
  | some previous =>
    exact ticks_bind (ticks_pushRemoved _ _) fun _ => ticks_bind (ticks_diffClients _ _) fun _ =>
      ticks_bind (ticks_pushIf _ _) fun _ => ticks_bind (ticks_pushIf _ _) fun _ => ticks_pure _

theorem ticks_absorb (raw : RawDesktop) : Prog.Keeps Ticks (absorb raw) :=
  ticks_bind (ticks_self _) fun _ =>
    ticks_bind (ticks_modify fun _ => ⟨rfl, rfl, rfl, rfl, rfl, rfl, rfl⟩) fun _ =>
      ticks_bind (ticks_nextModel _ _) fun _ =>
        ticks_bind (ticks_modify fun _ => ⟨rfl, rfl, rfl, rfl, rfl, rfl, rfl⟩) fun _ =>
          ticks_bind (ticks_self _) fun _ => ticks_note (by simp)

theorem ticks_unredirectDeparting (c : Composite) (windows : List Window) :
    Prog.Keeps Ticks (unredirectDeparting c windows) := by
  induction windows with
  | nil => exact ticks_pure _
  | cons window rest ih =>
    exact ticks_bind (ticks_lift _) fun _ =>
      ticks_bind (ticks_modify fun _ => ⟨rfl, rfl, rfl, rfl, rfl, rfl, rfl⟩) fun _ => ih

theorem ticks_redirectArriving (c : Composite) (windows : List Window) :
    Prog.Keeps Ticks (redirectArriving c windows) := by
  induction windows with
  | nil => exact ticks_pure _
  | cons window rest ih =>
    exact ticks_bind (ticks_lift _) fun _ =>
      ticks_bind (ticks_modify fun _ => ⟨rfl, rfl, rfl, rfl, rfl, rfl, rfl⟩) fun _ => ih

theorem ticks_requireCompositeCapture (c : Composite) :
    Prog.Keeps Ticks (requireCompositeCapture c) := by
  refine ticks_bind (ticks_self _) fun known => ?_
  split
  · exact ticks_pure _
  · exact ticks_bind (ticks_lift _) fun _ => ticks_bind (ticks_lift _) fun _ =>
      ticks_modify fun _ => ⟨rfl, rfl, rfl, rfl, rfl, rfl, rfl⟩

theorem ticks_reconcileCaptureTargets (c : Composite) (clients : List Window) :
    Prog.Keeps Ticks (reconcileCaptureTargets c clients) :=
  ticks_bind (ticks_requireCompositeCapture c) fun _ => ticks_bind (ticks_self _) fun _ =>
    ticks_bind (ticks_unredirectDeparting _ _) fun _ => ticks_bind (ticks_self _) fun _ =>
      ticks_redirectArriving _ _

theorem refresh_ticks (sample : Sample) : Prog.Keeps Ticks (refresh sample) :=
  ticks_bind (ticks_self _) fun _ => ticks_bind (ticks_lift _) fun _ =>
    ticks_bind (ticks_onlyIf (ticks_reconcileCaptureTargets _ _) _) fun _ => ticks_absorb _

end AgentSeat.X11
