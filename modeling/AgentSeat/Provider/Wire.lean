/-
  The provider as a program that talks to everything outside it: the X server with its other
  clients and the window manager, the operator's gate, the clock and the launcher.

  Every request of the source is a `Question`, and the trace keeps it with its answer. A refresh is
  one question, the family of replies its scan reads (`Sample`), and leaves a mark with the model it
  put in; a poll asks for all the samples it may take at once. Time appears as the number of rounds
  a waiting loop has before its deadline, and as whether the settling time has passed.

  `hold` is what the provider knows of its server grab: the entries since the last successful grab,
  or none after an ungrab or a failed grab.
-/
import AgentSeat.Lib.Dialogue
import AgentSeat.Observer.Identity
import AgentSeat.Observer.Target
import AgentSeat.Seat.Gate
import AgentSeat.X11.Keyboard

namespace AgentSeat.Provider

open AgentSeat.Lib AgentSeat.Proto AgentSeat.X11 AgentSeat.Seat Relation

/-! ## Requests and replies -/

inductive XTestKind where
  | motionNotify | buttonPress | buttonRelease | keyPress | keyRelease
  deriving DecidableEq

/-- The arguments of `xtest_fake_input` that vary. -/
structure XTestEvent where
  kind : XTestKind
  detail : Nat
  rootX : Int
  rootY : Int
  deriving DecidableEq

/-- A 32-bit EWMH client message. -/
structure ClientMessageEvent where
  window : Window
  type : Atom
  data : List Nat
  deriving DecidableEq

structure Tree where
  parent : Window
  children : List Window

structure Rectangle where
  x : Int
  y : Int
  width : Nat
  height : Nat

structure SelectionRequestEvent where
  time : Nat
  owner : Window
  requestor : Window
  selection : Atom
  target : Atom
  property : Atom

structure SelectionNotifyEvent where
  time : Nat
  requestor : Window
  selection : Atom
  target : Atom
  property : Atom

inductive XEvent where
  | selectionClear (owner : Window) (selection : Atom)
  | selectionRequest (event : SelectionRequestEvent)
  | other

inductive PropertyData where
  | words (values : List Nat)
  | bytes (values : List UInt8)

/-- One value of an X-Resource `QueryClientIds` reply. -/
structure ClientIdValue where
  client : Nat
  mask : Nat
  value : List Nat

/-- The pixels of a capture target as the server returned them. -/
structure RawCapture where
  width : Nat
  height : Nat
  data : List UInt8

structure LaunchFailure where
  code : ErrorCode
  retry : Retry
  message : String

/-- What `launch` returns for a started application. -/
structure Started where
  token : LaunchToken
  startupId : String

inductive Question where
  | sample
  | samples
  | desktop
  | rounds
  | transferRounds
  | settled
  | seatLoad
  | grabServer
  | ungrabServer
  | flush
  | sync
  | sendMessage (destination : Window) (event : ClientMessageEvent)
  | getInputFocus
  | queryTree (window : Window)
  | getWindowAttributes (window : Window)
  | getGeometry (window : Window)
  | translateCoordinates (source destination : Window) (x y : Int)
  | shapeGetRectangles (window : Window)
  | xkbUseExtension
  | xkbGetState
  | xkbGetMap
  | fakeInput (event : XTestEvent)
  | generateId
  | createWindow (window : Window)
  | destroyWindow (window : Window)
  | setSelectionOwner (owner : Window)
  | getSelectionOwner
  | changeProperty (window : Window) (property type : Atom) (data : PropertyData)
  | notifySelection (event : SelectionNotifyEvent)
  | resQueryVersion
  | resQueryClientIds (window : Window)
  | pollForEvent
  | pollStream
  | readPixels (window : Window) (region : Option CaptureRegion)
  | encodeCapture (raw : RawCapture)
  | connect
  | listApplications (arguments : ApplicationListRequest)
  | launch (application : ApplicationId)

/-- What an answer looks like. Map states count as viewable or not; a request without a reply is
    answered by whether it could be sent and was accepted. -/
def Question.Answer : Question → Type
  | .sample => Sample
  | .samples => Sample × List Sample
  | .desktop => Desktop
  | .rounds => Nat
  | .transferRounds => Option Nat
  | .settled => Bool
  | .seatLoad => Nat
  | .grabServer | .ungrabServer | .flush | .sync | .sendMessage .. | .fakeInput _ => Except XFault Unit
  | .createWindow _ | .destroyWindow _ | .setSelectionOwner _ => Except XFault Unit
  | .changeProperty .. | .notifySelection _ | .pollStream => Except XFault Unit
  | .getInputFocus | .generateId | .getSelectionOwner => Except XFault Window
  | .queryTree _ => Except XFault Tree
  | .getWindowAttributes _ | .xkbUseExtension => Except XFault Bool
  | .getGeometry _ => Except XFault Geometry
  | .translateCoordinates .. => Except XFault (Int × Int)
  | .shapeGetRectangles _ => Except XFault (List Rectangle)
  | .xkbGetState => Except XFault XkbState
  | .xkbGetMap => Except XFault XkbMapReply
  | .resQueryVersion => Except XFault (Nat × Nat)
  | .resQueryClientIds _ => Except XFault (List ClientIdValue)
  | .pollForEvent => Except XFault (Option XEvent)
  | .readPixels .. => Except Failure RawCapture
  | .encodeCapture _ => Except Failure CaptureData
  | .connect => Except Failure (Window × Atoms)
  | .listApplications _ => Except LaunchFailure ApplicationPage
  | .launch _ => Except LaunchFailure Started

/-- What the provider writes down about itself: the call it works on, the models its refreshes put
    in, and how a call was answered. -/
inductive Mark where
  | began (call : Proto.Call)
  | refreshed (sequence : Nat) (model : Model)
  | answered (outcome : Outcome)

abbrev Step := Entry Question.Answer Mark
abbrev Outside := Env Question.Answer Mark
abbrev World := Dialogue Question.Answer Mark State
abbrev XM := Prog World Failure

/-- Read the observer. -/
def this {α : Type} (f : Observer → α) : XM α := Prog.read fun w => f w.state.observer

/-- Send a request and wait for its reply or its check. -/
def reply {α : Type} (onSend onReply : String) (request : XM (Except XFault α)) : XM α := do
  let answer ← request
  Prog.lift (checked onSend onReply answer)

/-! ## Refresh, target, gate and grab -/

section Provider

variable (env : Outside)

def markRefreshed (o : Observer) : XM Unit :=
  match o.model with
  | some model => Dialogue.write (.refreshed o.sequence model)
  | none => pure ()

def refresh : XM Unit := do
  let sample ← Dialogue.ask env .sample
  Dialogue.within (X11.refresh sample)
  let o ← this id
  markRefreshed o

def target (request : TargetRequest) : XM Target := do
  let o ← this id
  Prog.lift (o.target request)

/-- `seat.accepts(seat_permit)`. -/
def accepts (permit : SeatPermit) : XM Bool := do
  let raw ← Dialogue.ask env .seatLoad
  pure (Seat.accepts raw permit)

/-- The result of what was done under a grab, once the grab is released. -/
def conclude {α : Type} (result : Except Failure α) (released : Except Failure Unit) :
    Except Failure α :=
  match result, released with
  | .ok value, .ok () => .ok value
  | .error error, _ => .error error
  | .ok _, .error error => .error error

def underServerGrab {α : Type} (action : XM α) : XM α := do
  reply "cannot request an X11 server grab" "cannot acquire an X11 server grab"
    (Dialogue.ask env .grabServer)
  let result ← Prog.attempt action
  let released ← Dialogue.ask env .ungrabServer
  Prog.lift (conclude result
    (checked "cannot request an X11 server ungrab" "cannot release the X11 server grab" released))

end Provider

/-! ## Successful runs -/

section Runs

variable {env : Outside} {w w' : World}

/-- A reply that came is the answer the server gave. -/
theorem reply_ok {α : Type} {onSend onReply : String} {request : XM (Except XFault α)} {a : α}
    (h : reply onSend onReply request w = (.ok a, w')) : request w = (.ok (.ok a), w') := by
  obtain ⟨answer, w₁, hrequest, hchecked⟩ := Prog.of_bind_ok h
  have hanswer := (Prod.mk.inj hchecked).1
  obtain rfl : w₁ = w' := (Prod.mk.inj hchecked).2
  rw [hrequest]
  cases answer with
  | ok b => rw [Except.ok.inj hanswer]
  | error fault => cases fault <;> exact absurd hanswer nofun

/-- A question and its answer go to the end of the trace. -/
theorem ask_ok {q : Question} {a : q.Answer}
    (h : (Dialogue.ask env q : XM q.Answer) w = (.ok a, w')) :
    env w.trace q = a ∧ w' = ⟨w.state, w.trace ++ [.said q a]⟩ := by
  obtain ⟨ha, hw⟩ := Prod.mk.inj h
  obtain rfl := Except.ok.inj ha
  exact ⟨rfl, hw.symm⟩

theorem lift_refuseIf_ok {p : Prop} [Decidable p] {f : Failure} {u : Unit}
    (h : (Prog.lift (refuseIf p f) : XM Unit) w = (.ok u, w')) : ¬ p ∧ w' = w := by
  obtain ⟨hr, hw⟩ := Prod.mk.inj h
  exact ⟨refuseIf_ok hr, hw.symm⟩

end Runs

/-! ## How a call moves the observer -/

/-- Every method of the observer moves it by refreshes and by what `snapshot`, `subscribe` and
    `poll` do to the queue. -/
inductive ObserverStep : State → State → Prop
  | refresh (sample : Sample) (s : State) : ObserverStep s (X11.refresh sample s).2
  | settle (s : State) : ObserverStep s ⟨settle s.observer, s.notes⟩
  | resubscribe (kinds : List EventKind) (s : State) :
      ObserverStep s ⟨resubscribe kinds s.observer, s.notes⟩
  | drain (after : Nat) (s : State) : ObserverStep s ⟨drain after s.observer, s.notes⟩

abbrev Moves := ReflTransGen ObserverStep

instance : IsPreorder State Moves where
  refl _ := .refl
  trans _ _ _ := ReflTransGen.trans

/-- No call moves the root or the atoms of the observer. -/
theorem Moves.settings {s s' : State} (h : Moves s s') :
    s'.observer.settings = s.observer.settings := by
  induction h with
  | refl => rfl
  | tail _ step ih =>
    refine Eq.trans ?_ ih
    cases step with
    | refresh sample => exact (ticks_forward (refresh_ticks sample _)).2.settings
    | settle =>
      dsimp only
      unfold settle
      split <;> rfl
    | resubscribe kinds => rfl
    | drain after => rfl

/-! ## Grabs in a trace -/

/-- How an entry moves the grab: a successful grab opens it, an ungrab or a failed grab ends it. -/
def holdStep (held : Option (List Step)) : Step → Option (List Step)
  | .said .grabServer (.ok _) => some []
  | .said .grabServer (.error _) => none
  | .said .ungrabServer _ => none
  | entry => held.map (· ++ [entry])

/-- The entries since the grab that is still held. -/
def hold (trace : List Step) : Option (List Step) := trace.foldl holdStep none

/-- The call the provider is working on, and what was said since it began. -/
def currentStep (current : Option (Proto.Call × List Step)) : Step →
    Option (Proto.Call × List Step)
  | .mark (.began call) => some (call, [])
  | entry => current.map fun c => (c.1, c.2 ++ [entry])

def current (trace : List Step) : Option (Proto.Call × List Step) :=
  trace.foldl currentStep none

/-- Neither a grab nor an ungrab, no input and no message, no begin and no end of a call. -/
def Quiet : Step → Prop
  | .said .grabServer _ | .said .ungrabServer _ | .said (.fakeInput _) _
  | .said (.sendMessage ..) _ | .mark (.began _) | .mark (.answered _) => False
  | _ => True

/-- Neither a grab nor an ungrab. -/
def Ungrabbing : Step → Prop
  | .said .grabServer _ | .said .ungrabServer _ => False
  | _ => True

/-- Not the begin of a call. -/
def Within : Step → Prop
  | .mark (.began _) => False
  | _ => True

theorem holdStep_some {held : Option (List Step)} {entry : Step} (h : Ungrabbing entry) :
    holdStep held entry = held.map (· ++ [entry]) := by
  cases entry with
  | mark m => rfl
  | said q a => cases q <;> first | rfl | exact absurd h id

theorem hold_append (trace added : List Step) :
    hold (trace ++ added) = added.foldl holdStep (hold trace) := List.foldl_append

theorem foldl_holdStep {added : List Step} (h : ∀ e ∈ added, Ungrabbing e)
    (held : Option (List Step)) : added.foldl holdStep held = held.map (· ++ added) := by
  induction added generalizing held with
  | nil => cases held <;> simp
  | cons e rest ih =>
    rw [List.foldl_cons, holdStep_some (h e (List.mem_cons_self ..)),
      ih fun e' he' => h e' (List.mem_cons_of_mem _ he')]
    cases held <;> simp

theorem currentStep_some {c : Option (Proto.Call × List Step)} {entry : Step}
    (h : Within entry) : currentStep c entry = c.map fun c => (c.1, c.2 ++ [entry]) := by
  cases entry with
  | said q a => rfl
  | mark m => cases m <;> first | rfl | exact absurd h id

theorem foldl_currentStep {added : List Step} (h : ∀ e ∈ added, Within e)
    (c : Option (Proto.Call × List Step)) :
    added.foldl currentStep c = c.map fun c => (c.1, c.2 ++ added) := by
  induction added generalizing c with
  | nil => cases c <;> simp
  | cons e rest ih =>
    rw [List.foldl_cons, currentStep_some (h e (List.mem_cons_self ..)),
      ih fun e' he' => h e' (List.mem_cons_of_mem _ he')]
    cases c <;> simp

/-! ## What a successful check has seen -/

/-- A quiet program and what holds of the entries it appended, and of the state, if it
    succeeds. -/
def Learns {α : Type} (P : State → Prop) (m : XM α) (F : α → List Step → State → Prop) : Prop :=
  Tells Moves Quiet P m fun r added s => ∀ a, r = .ok a → F a added s

section Learns

variable {α β : Type} {P : State → Prop}

theorem Learns.of_tells {m : XM α} {F : Except Failure α → List Step → State → Prop}
    {G : α → List Step → State → Prop} (h : Tells Moves Quiet P m F)
    (hG : ∀ a added s, F (.ok a) added s → G a added s) : Learns P m G :=
  h.post fun _ added s hF a ha => hG a added s (ha ▸ hF)

theorem Learns.weaken {m : XM α} {F G : α → List Step → State → Prop} (h : Learns P m F)
    (hG : ∀ a added s, F a added s → G a added s) : Learns P m G :=
  Learns.of_tells h fun a added s hF => hG a added s (hF a rfl)

theorem Learns.utters {m : XM α} {F : α → List Step → State → Prop}
    (h : Learns (fun _ => True) m F) : Utters Moves Quiet m :=
  Utters.of_tells h fun _ => trivial

theorem Learns.of_utters {m : XM α} (h : Utters Moves Quiet m) :
    Learns (fun _ => True) m fun _ _ _ => True :=
  Tells.post h fun _ _ _ _ _ _ => trivial

theorem Learns.bind {m : XM α} {f : α → XM β} {F : α → List Step → State → Prop}
    {G : β → List Step → State → Prop} (hm : Learns P m F)
    (hf : ∀ a added, Learns (F a added) (f a) fun b more s => G b (added ++ more) s) :
    Learns P (m >>= f) G := by
  refine Tells.bind hm (fun a added => ?_) fun e added s _ a h => by simp at h
  exact Tells.weaken (hf a added) (fun _ => id) (fun s h => h a rfl) fun _ _ _ h => h

/-- The value of a pure step. -/
theorem Learns.lift {r : Except Failure α} :
    Learns P (Prog.lift r : XM α) fun a added s => r = .ok a ∧ added = [] ∧ P s :=
  Tells.lift fun _ hs _ ha => ⟨ha, rfl, hs⟩

theorem Learns.pure {a : α} :
    Learns P (Pure.pure a : XM α) fun b added s => b = a ∧ added = [] ∧ P s :=
  Tells.pure fun _ hs _ hb => ⟨(Except.ok.inj hb).symm, rfl, hs⟩

theorem Learns.this {f : Observer → α} :
    Learns P (this f) fun a added s => a = f s.observer ∧ added = [] ∧ P s :=
  Tells.read (f := fun s : State => f s.observer) fun _ hs _ ha =>
    ⟨(Except.ok.inj ha).symm, rfl, hs⟩

theorem Learns.fail {e : Failure} {F : α → List Step → State → Prop} :
    Learns P (Prog.fail e : XM α) F :=
  Tells.fail fun _ _ a h => by simp at h

/-- A request is one entry: its question, and the answer it went on with. -/
theorem Learns.reply (said : Except XFault α → Step) {request : XM (Except XFault α)}
    (h : Tells Moves Quiet P request fun r added s =>
      ∃ a, r = .ok a ∧ added = [said a] ∧ P s) (onSend onReply : String) :
    Learns P (reply onSend onReply request) fun a added s => added = [said (.ok a)] ∧ P s := by
  refine Tells.bind h (fun answer added => ?_) fun e added s hF a ha => by simp at ha
  refine Tells.lift fun s hF a ha => ?_
  obtain ⟨a', ha', rfl, hs⟩ := hF
  rw [Except.ok.injEq] at ha'
  subst ha'
  cases answer with
  | error fault => cases fault <;> simp [checked] at ha
  | ok b =>
    simp only [checked, Except.ok.injEq] at ha
    exact ⟨by rw [ha, List.append_nil], hs⟩

end Learns

theorem markRefreshed_learns (m : Model) :
    Learns (fun s => s.observer.model = some m)
      (do let o ← this id; markRefreshed o) fun _ added s =>
        s.observer.model = some m ∧ added = [.mark (.refreshed s.observer.sequence m)] := by
  intro w hw
  have hrun : (do let o ← this id; markRefreshed o : XM Unit) w =
      (.ok (), ⟨w.state, w.trace ++ [.mark (.refreshed w.state.observer.sequence m)]⟩) := by
    unfold this markRefreshed
    rw [Prog.read_bind, id, hw]
    rfl
  rw [hrun]
  exact ⟨_, rfl, by simp [Quiet], .refl, fun _ _ => ⟨hw, rfl⟩⟩

/-- The spec of `refresh`: it leaves a mark with the model it put in and the sequence of that
    model. -/
theorem refresh_learns (env : Outside) :
    Learns (fun _ => True) (refresh env) fun _ added s =>
      ∃ m, s.observer.model = some m ∧ .mark (.refreshed s.observer.sequence m) ∈ added := by
  unfold refresh
  refine Learns.bind (F := fun _ added _ => True)
    (Tells.ask (fun _ => trivial) fun _ _ _ _ _ => trivial) fun sample added => ?_
  refine Learns.bind (F := fun _ _ s => ∃ m, s.observer.model = some m) ?_ fun _ _ => ?_
  · refine Tells.within (fun s => .single (.refresh sample s)) fun s _ a ha => ?_
    have hspec := refresh_spec sample s
    rw [ha] at hspec
    obtain ⟨m, hm, -⟩ := hspec.model_ok
    exact ⟨m, hm⟩
  · rintro w ⟨m, hm⟩
    obtain ⟨more, htrace, hquiet, hmoves, hmark⟩ := markRefreshed_learns m w hm
    refine ⟨more, htrace, hquiet, hmoves, fun a ha => ?_⟩
    obtain ⟨hm', rfl⟩ := hmark a ha
    exact ⟨m, hm', by simp⟩

end AgentSeat.Provider
