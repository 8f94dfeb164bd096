/-
  The eligibility guard (`agent-seat-eligibility-guard.rs`) among what it watches.

  A guard opens its monitor, looks at the input class, takes its one consumer, subscribes to logind
  and asks it one property after the other; then it writes one frame and goes round its loop. Between
  any two of its steps logind and the machine may change. What is assumed of them is that they say so:
  a change of logind is followed by one of the signals, a change of the input class by a message of
  the kernel, or by one that the kernel could not deliver whole.

  The answers of logind are read one at a time and the class is looked at earlier still, so what the
  guard asserts is nothing it has seen at one time. It is true at one time all the same
  (`guard_vouches`): as long as no evidence waits, the session is eligible now.
-/
import AgentSeat.Broker.Inspect
import AgentSeat.Broker.Status
import AgentSeat.Broker.Uevent
import AgentSeat.Lib.Runs

namespace AgentSeat.Broker

open AgentSeat.Lib AgentSeat.Lib.Paths

/-! ## What logind says -/

structure SessionProperties where
  user : Nat
  seat : String × String
  active : Bool
  remote : Bool
  type : String
  cls : String
  state : String
  lockedHint : Bool

/-- The objects of logind, by ID and by path. -/
structure Logind where
  getSession : String → Option String
  session : String → Option SessionProperties
  activeSession : String → Option (String × String)
  preparingForSleep : Option Bool
  preparingForShutdown : Option Bool

/-- What a guard is started with. -/
structure Enrolled where
  session : String
  uid : Nat
  seat : String
  peerUid : Nat
  inputs : List InputClassMapping

inductive Query where
  | getSession
  | user
  | seat
  | activeSession
  | active
  | remote
  | type
  | cls
  | state
  | lockedHint
  | preparingForSleep
  | preparingForShutdown

/-- The answers as far as they are there. -/
structure Answers where
  sessionPath : String
  user : Nat
  seat : String × String
  activeSession : String × String
  active : Bool
  remote : Bool
  type : String
  cls : String
  state : String
  lockedHint : Bool
  preparingForSleep : Bool
  preparingForShutdown : Bool

def Answers.none : Answers :=
  ⟨"", 0, ("", ""), ("", ""), false, true, "", "", "", true, true, true⟩

def Query.ask (l : Logind) (e : Enrolled) (a : Answers) : Query → Option Answers
  | .getSession => (l.getSession e.session).map fun path => { a with sessionPath := path }
  | .user => (l.session a.sessionPath).map fun s => { a with user := s.user }
  | .seat => (l.session a.sessionPath).map fun s => { a with seat := s.seat }
  | .activeSession => (l.activeSession a.seat.2).map fun s => { a with activeSession := s }
  | .active => (l.session a.sessionPath).map fun s => { a with active := s.active }
  | .remote => (l.session a.sessionPath).map fun s => { a with remote := s.remote }
  | .type => (l.session a.sessionPath).map fun s => { a with type := s.type }
  | .cls => (l.session a.sessionPath).map fun s => { a with cls := s.cls }
  | .state => (l.session a.sessionPath).map fun s => { a with state := s.state }
  | .lockedHint => (l.session a.sessionPath).map fun s => { a with lockedHint := s.lockedHint }
  | .preparingForSleep => l.preparingForSleep.map fun b => { a with preparingForSleep := b }
  | .preparingForShutdown => l.preparingForShutdown.map fun b => { a with preparingForShutdown := b }

/-- The calls of `current_eligibility`, in their order. -/
def queries : List Query :=
  [.getSession, .user, .seat, .activeSession, .active, .remote, .type, .cls, .state, .lockedHint,
    .preparingForSleep, .preparingForShutdown]

structure EligibilityFacts where
  ownerMatches : Bool
  seatMatches : Bool
  foregroundSessionMatches : Bool
  sessionActive : Bool
  sessionLocal : Bool
  sessionX11 : Bool
  sessionUserClass : Bool
  sessionStateActive : Bool
  sessionUnlocked : Bool
  systemAwake : Bool
  systemNotShuttingDown : Bool

def EligibilityFacts.state (f : EligibilityFacts) : EligibilityState :=
  if f.ownerMatches && f.seatMatches && f.foregroundSessionMatches && f.sessionActive &&
      f.sessionLocal && f.sessionX11 && f.sessionUserClass && f.sessionStateActive &&
      f.sessionUnlocked && f.systemAwake && f.systemNotShuttingDown then .eligible
  else .ineligible

def Answers.facts (e : Enrolled) (a : Answers) : EligibilityFacts where
  ownerMatches := a.user = e.uid
  seatMatches := a.seat.1 = e.seat
  foregroundSessionMatches := a.activeSession.1 = e.session && a.activeSession.2 = a.sessionPath
  sessionActive := a.active
  sessionLocal := !a.remote
  sessionX11 := a.type = "x11"
  sessionUserClass := a.cls = "user"
  sessionStateActive := a.state = "active"
  sessionUnlocked := !a.lockedHint
  systemAwake := !a.preparingForSleep
  systemNotShuttingDown := !a.preparingForShutdown

/-- The enrolled session is the unlocked foreground session of its seat, and the system stays up. -/
structure Logind.Eligible (l : Logind) (e : Enrolled) : Prop where
  session : ∃ path s, l.getSession e.session = some path ∧ l.session path = some s ∧
    s.user = e.uid ∧ s.seat.1 = e.seat ∧ l.activeSession s.seat.2 = some (e.session, path) ∧
    s.active = true ∧ s.remote = false ∧ s.type = "x11" ∧ s.cls = "user" ∧ s.state = "active" ∧
    s.lockedHint = false
  awake : l.preparingForSleep = some false
  staysUp : l.preparingForShutdown = some false

/-! ## Stops -/

inductive Signal where
  | propertiesChanged
  | prepareForSleep
  | prepareForShutdown
  | nameOwnerChanged (name : String)

inductive Stop where
  | none
  | changed
  | lost
  deriving DecidableEq

def loginService : String := "org.freedesktop.login1"

/-- The rule that lets a signal through, in the order in which they are added. -/
def Signal.rule : Signal → Nat
  | .propertiesChanged => 0
  | .prepareForSleep => 1
  | .prepareForShutdown => 2
  | .nameOwnerChanged _ => 3

/-- What the callback of that rule records. -/
def Signal.stop : Signal → Stop
  | .propertiesChanged => .changed
  | .prepareForSleep => .changed
  | .prepareForShutdown => .changed
  | .nameOwnerChanged name => if name = loginService then .lost else .none

def Stop.encode : Stop → Nat
  | .none => 0
  | .changed => 1
  | .lost => 2

def Stop.load : Nat → Stop
  | 0 => .none
  | 1 => .changed
  | _ => .lost

def Stop.record (s : Stop) (value : Nat) : Nat := max value s.encode

/-! ## The guard -/

inductive GuardError where
  | unavailable
  | uevent (e : UeventError)
  | write
  | lost

inductive GuardPhase where
  | opening
  | inspecting
  | accepting (same : Bool)
  | subscribing (same : Bool) (rules : Nat)
  | asking (same : Bool) (rest : List Query) (answers : Answers)
  | syncing (same : Bool) (eligibility : EligibilityState)
  | settling (same : Bool) (eligibility : EligibilityState)
  | starting (same : Bool) (eligibility : EligibilityState)
  | processing
  | draining
  | deciding
  | finished (result : Except GuardError Unit)

/-- The guard with logind and the machine: what waits at its monitor and at its connection, its stop
    cell, and what it has written to its consumer. -/
structure Guard where
  logind : Logind
  machine : Machine
  uevents : List Arrival
  signals : List Signal
  stop : Nat
  phase : GuardPhase
  written : List UInt8

namespace Guard

def monitoring (w : Guard) : Bool :=
  match w.phase with
  | .opening => false
  | _ => true

/-- How many rules are in place. -/
def rules (w : Guard) : Nat :=
  match w.phase with
  | .opening => 0
  | .inspecting => 0
  | .accepting _ => 0
  | .subscribing _ rules => rules
  | _ => 4

def finish (w : Guard) (result : Except GuardError Unit) : Guard := { w with phase := .finished result }

/-- `connection.process`: the callback of the first message that waits. -/
def process (w : Guard) : Guard :=
  match w.signals with
  | [] => w
  | signal :: rest => { w with signals := rest, stop := signal.stop.record w.stop }

/-- `uevents.drain`, and what is recorded of it. -/
def settle (w : Guard) (failure : Stop) (next : GuardPhase) : Guard :=
  match drain w.uevents with
  | .error error => { w with stop := failure.record w.stop, uevents := [],
                             phase := .finished (.error (.uevent error)) }
  | .ok changed => { w with stop := if changed then Stop.changed.record w.stop else w.stop,
                            uevents := [], phase := next }

/-- `write_eligibility`, of which `count` bytes go out where it fails. -/
def write (w : Guard) (state : EligibilityState) (ok : Bool) (count : Nat) (next : GuardPhase) :
    Guard :=
  if ok then { w with written := w.written ++ eligibilityFrame state, phase := next }
  else { w with written := w.written ++ (eligibilityFrame state).take count,
                phase := .finished (.error .write) }

/-- `current_input_set == expected_input_set`. -/
def sameInputs : List InputClassMapping → List InputClassMapping → Bool
  | [], [] => true
  | a :: as, b :: bs =>
    a.eventNumber = b.eventNumber && SamePath a.sysfsPath b.sysfsPath && sameInputs as bs
  | _, _ => false

/-- `inspect_input_class` of the machine as it is. -/
def inputs (m : Machine) : Option (List InputClassMapping) := m.classNames.bind (inspectInputClass m)

/-- One step of `run`. Whether the call it makes succeeds is `ok`; `value` is the user of a peer, or
    what a failed write puts out. -/
def advance (e : Enrolled) (ok : Bool) (value : Nat) (w : Guard) : Option Guard :=
  match w.phase with
  | .opening => if ok then some { w with phase := .inspecting } else some (w.finish (.error .unavailable))
  | .inspecting =>
    match if ok then inputs w.machine else none with
    | none => some (w.finish (.error .unavailable))
    | some found => some { w with phase := .accepting (sameInputs found e.inputs) }
  | .accepting same =>
    if !ok then some (w.finish (.error .unavailable))
    else if value = e.peerUid then some { w with phase := .subscribing same 0 }
    else some w
  | .subscribing same rules =>
    if !ok then some (w.finish (.error .unavailable))
    else if rules < 3 then some { w with phase := .subscribing same (rules + 1) }
    else some { w with phase := .asking same queries .none }
  | .asking same [] answers => some { w with phase := .syncing same (answers.facts e).state }
  | .asking same (query :: rest) answers =>
    match if ok then query.ask w.logind e answers else none with
    | none => some (w.finish (.error .unavailable))
    | some answers => some { w with phase := .asking same rest answers }
  | .syncing same eligibility =>
    if !ok then some (w.finish (.error .unavailable))
    else if w.signals.isEmpty then some { w with phase := .settling same eligibility }
    else some w.process
  | .settling same eligibility => some (w.settle .none (.starting same eligibility))
  | .starting same eligibility =>
    if same && Stop.load w.stop = .none && eligibility = .eligible then
      some (w.write .eligible ok value .processing)
    else some (w.write .ineligible ok value (.finished (.ok ())))
  | .processing =>
    if !ok then some (w.finish (.error .lost)) else some { w.process with phase := .draining }
  | .draining => some (w.settle .lost .deciding)
  | .deciding =>
    match Stop.load w.stop with
    | .none => some { w with phase := .processing }
    | .changed => some (w.write .ineligible ok value (.finished (.ok ())))
    | .lost => some (w.finish (.error .lost))
  | .finished _ => none

end Guard

inductive GuardMove where
  | logind (next : Logind) (signal : Signal)
  | device (next : Machine) (arrival : Arrival)
  | dispatch
  | guard (ok : Bool) (value : Nat)

namespace Guard

def step (e : Enrolled) (w : Guard) : GuardMove → Option Guard
  | .logind next signal =>
    some { w with logind := next,
                  signals := if signal.rule < w.rules then w.signals ++ [signal] else w.signals }
  | .device next arrival =>
    some { w with machine := next,
                  uevents := if w.monitoring then w.uevents ++ [arrival] else w.uevents }
  | .dispatch => some w.process
  | .guard ok value => w.advance e ok value

/-- Nothing changes without being announced. -/
def Announced (w : Guard) : GuardMove → Prop
  | .logind next signal => next = w.logind ∨ signal.stop ≠ .none
  | .device next arrival => next = w.machine ∨ AboutInput arrival ∨ ¬ WellFormed arrival
  | .dispatch => True
  | .guard _ _ => True

def Starting (w : Guard) : Prop :=
  w.uevents = [] ∧ w.signals = [] ∧ w.stop = 0 ∧ w.phase = .opening ∧ w.written = []

abbrev Runs (e : Enrolled) : List (Guard × GuardMove) → Guard → Prop :=
  Run Starting (step e) Announced

end Guard

/-! ## What the answers say -/

/-- The session that is asked about, from what is found under its ID. -/
theorem foldlM_queries {l : Logind} {e : Enrolled} {a : Answers}
    (h : queries.foldlM (Query.ask l e) .none = some a) :
    ∃ path s, l.getSession e.session = some path ∧ l.session path = some s ∧
      l.activeSession s.seat.2 = some a.activeSession ∧
      l.preparingForSleep = some a.preparingForSleep ∧
      l.preparingForShutdown = some a.preparingForShutdown ∧
      a = ⟨path, s.user, s.seat, a.activeSession, s.active, s.remote, s.type, s.cls, s.state,
        s.lockedHint, a.preparingForSleep, a.preparingForShutdown⟩ := by
  simp only [queries, List.foldlM_cons, List.foldlM_nil, Query.ask, Option.bind_eq_bind,
    Option.bind_eq_some_iff, Option.map_eq_some_iff] at h
  obtain ⟨_, ⟨path, hpath, rfl⟩, _, ⟨s, hs, rfl⟩, h⟩ := h
  simp only [hs, Option.some.injEq, exists_eq_left'] at h
  obtain ⟨_, ⟨active, hactive, rfl⟩, h⟩ := h
  simp only [hs, Option.some.injEq, exists_eq_left'] at h
  obtain ⟨_, ⟨sleep, hsleep, rfl⟩, _, ⟨shutdown, hshutdown, rfl⟩, h⟩ := h
  obtain rfl := Option.some.inj h
  exact ⟨path, s, hpath, hs, hactive, hsleep, hshutdown, rfl⟩

theorem EligibilityFacts.state_iff (f : EligibilityFacts) :
    f.state = .eligible ↔ f.ownerMatches = true ∧ f.seatMatches = true ∧
      f.foregroundSessionMatches = true ∧ f.sessionActive = true ∧ f.sessionLocal = true ∧
      f.sessionX11 = true ∧ f.sessionUserClass = true ∧ f.sessionStateActive = true ∧
      f.sessionUnlocked = true ∧ f.systemAwake = true ∧ f.systemNotShuttingDown = true := by
  unfold EligibilityFacts.state
  split_ifs with hall
  · simpa [and_assoc] using hall
  · simpa [and_assoc] using hall

/-- Asked without a change in between, logind says whether the session is eligible. -/
theorem eligible_iff {l : Logind} {e : Enrolled} {a : Answers}
    (h : queries.foldlM (Query.ask l e) .none = some a) :
    (a.facts e).state = .eligible ↔ l.Eligible e := by
  obtain ⟨path, s, hpath, hs, hactive, hsleep, hshutdown, ha⟩ := foldlM_queries h
  rw [EligibilityFacts.state_iff, ha]
  simp only [Answers.facts, decide_eq_true_eq, Bool.and_eq_true, Bool.not_eq_true']
  constructor
  · rintro ⟨huid, hseat, ⟨hid, hforeground⟩, hlive, hlocal, htype, hcls, hstate, hlock, hawake, hup⟩
    have hsame : a.activeSession = (e.session, path) := Prod.ext hid hforeground
    rw [hsame] at hactive
    exact ⟨⟨path, s, hpath, hs, huid, hseat, hactive, hlive, hlocal, htype, hcls, hstate, hlock⟩,
      hawake ▸ hsleep, hup ▸ hshutdown⟩
  · intro heligible
    obtain ⟨path', s', hpath', hs', huid, hseat, hforeground, hrest⟩ := heligible.session
    obtain rfl := Option.some.inj (hpath.symm.trans hpath')
    obtain rfl := Option.some.inj (hs.symm.trans hs')
    have hsame := Option.some.inj (hactive.symm.trans hforeground)
    have hawake := Option.some.inj (hsleep.symm.trans heligible.awake)
    have hup := Option.some.inj (hshutdown.symm.trans heligible.staysUp)
    rw [hsame]
    exact ⟨huid, hseat, ⟨rfl, rfl⟩, hrest.1, hrest.2.1, hrest.2.2.1, hrest.2.2.2.1, hrest.2.2.2.2.1,
      hrest.2.2.2.2.2, hawake, hup⟩

/-! ## What the guard knows -/

theorem Signal.stop_none_iff (signal : Signal) (stop : Nat) :
    signal.stop.record stop = 0 ↔ stop = 0 ∧ signal.stop = .none := by
  cases signal with
  | nameOwnerChanged name =>
    by_cases hname : name = loginService <;>
      simp [Signal.stop, hname, Stop.record, Stop.encode]
  | _ => simp [Signal.stop, Stop.record, Stop.encode]

namespace Guard

theorem sameInputs_iff {inputs others : List InputClassMapping} :
    sameInputs inputs others = true ↔ List.Forall₂ InputClassMapping.Same inputs others := by
  induction inputs generalizing others with
  | nil => cases others <;> simp [sameInputs]
  | cons a as ih =>
    cases others with
    | nil => simp [sameInputs]
    | cons b bs => simp [sameInputs, ih, InputClassMapping.Same]

/-- The input class is the enrolled one. -/
def SameInputs (e : Enrolled) (m : Machine) : Prop :=
  ∃ found, inputs m = some found ∧ List.Forall₂ InputClassMapping.Same found e.inputs

/-- Nothing that waits is evidence of a change. -/
structure Calm (w : Guard) : Prop where
  stop : w.stop = 0
  signals : ∀ signal ∈ w.signals, signal.stop = .none
  uevents : ∀ arrival ∈ w.uevents, WellFormed arrival ∧ ¬ AboutInput arrival

/-- What the place a guard has come to says of logind and the machine as they are now. -/
def Knows (e : Enrolled) (l : Logind) (m : Machine) : GuardPhase → Prop
  | .opening => True
  | .inspecting => True
  | .accepting same => same = true ↔ SameInputs e m
  | .subscribing same _ => same = true ↔ SameInputs e m
  | .asking same rest answers => (same = true ↔ SameInputs e m) ∧
      ∃ done, queries = done ++ rest ∧ done.foldlM (Query.ask l e) .none = some answers
  | .syncing same eligibility => (same = true ↔ SameInputs e m) ∧
      (eligibility = .eligible ↔ l.Eligible e)
  | .settling same eligibility => (same = true ↔ SameInputs e m) ∧
      (eligibility = .eligible ↔ l.Eligible e)
  | .starting same eligibility => (same = true ↔ SameInputs e m) ∧
      (eligibility = .eligible ↔ l.Eligible e)
  | .processing => l.Eligible e ∧ SameInputs e m
  | .draining => l.Eligible e ∧ SameInputs e m
  | .deciding => l.Eligible e ∧ SameInputs e m
  | .finished _ => True

/-- What it has written by then. -/
def Wrote (written : List UInt8) : GuardPhase → Prop
  | .processing => written = eligibilityFrame .eligible
  | .draining => written = eligibilityFrame .eligible
  | .deciding => written = eligibilityFrame .eligible
  | .finished _ => written <+: eligibilityFrame .ineligible ∨
      written <+: eligibilityFrame .eligible ++ eligibilityFrame .ineligible
  | _ => written = []

structure Vouches (e : Enrolled) (w : Guard) : Prop where
  knows : w.Calm → Knows e w.logind w.machine w.phase
  wrote : Wrote w.written w.phase

theorem Vouches.finish {e : Enrolled} {w : Guard} (h : w.Vouches e)
    (result : Except GuardError Unit) : (w.finish result).Vouches e := by
  refine ⟨fun _ => trivial, ?_⟩
  have hwrote := h.wrote
  have heligible : eligibilityFrame .eligible <+:
      eligibilityFrame .eligible ++ eligibilityFrame .ineligible := List.prefix_append ..
  show w.written <+: _ ∨ w.written <+: _
  cases hphase : w.phase with
  | processing =>
    rw [hphase] at hwrote
    exact Or.inr (hwrote ▸ heligible)
  | draining =>
    rw [hphase] at hwrote
    exact Or.inr (hwrote ▸ heligible)
  | deciding =>
    rw [hphase] at hwrote
    exact Or.inr (hwrote ▸ heligible)
  | finished result' =>
    rw [hphase] at hwrote
    exact hwrote
  | _ =>
    rw [hphase] at hwrote
    have hwrote : w.written = [] := hwrote
    exact Or.inl (hwrote ▸ List.nil_prefix)

theorem Calm.of_process {w : Guard} (h : w.process.Calm) : w.Calm := by
  unfold process at h
  split at h
  · exact h
  · next signal rest hsignals =>
    obtain ⟨hstop, hsignal⟩ := (signal.stop_none_iff w.stop).mp h.stop
    refine ⟨hstop, ?_, h.uevents⟩
    rw [hsignals]
    exact List.forall_mem_cons.mpr ⟨hsignal, h.signals⟩

theorem process_eq (w : Guard) :
    w.process = { w with signals := w.process.signals, stop := w.process.stop } := by
  unfold process
  split <;> rfl

/-- A queue that has been read ends the guard, or is as calm as what is found of it. -/
theorem settle_cases (w : Guard) (failure : Stop) (next : GuardPhase) :
    (∃ error, (w.settle failure next).phase = .finished (.error (.uevent error)) ∧
      (w.settle failure next).written = w.written) ∨
    ((w.settle failure next).Calm → w.Calm) ∧
      w.settle failure next = { w with stop := (w.settle failure next).stop, uevents := [],
                                       phase := next } := by
  unfold settle
  cases hdrain : drain w.uevents with
  | error error => exact Or.inl ⟨error, rfl, rfl⟩
  | ok changed =>
    refine Or.inr ⟨fun hcalm => ?_, rfl⟩
    obtain ⟨hwell, hinput⟩ := drainFrom_ok_iff.mp hdrain
    have hstop : (if changed then Stop.changed.record w.stop else w.stop) = 0 := hcalm.stop
    have hsame : changed = false := by
      cases changed with
      | false => rfl
      | true => simp [Stop.record, Stop.encode] at hstop
    rw [hsame] at hstop hinput
    refine ⟨hstop, hcalm.signals, fun arrival harrival => ⟨hwell arrival harrival, fun habout => ?_⟩⟩
    exact absurd (hinput.mpr (Or.inr ⟨arrival, harrival, habout⟩)) (by simp)

theorem Vouches.settle {e : Enrolled} {w : Guard} (h : w.Vouches e) {next : GuardPhase}
    (failure : Stop) (hknows : Knows e w.logind w.machine w.phase → Knows e w.logind w.machine next)
    (hwrote : Wrote w.written w.phase → Wrote w.written next) :
    (w.settle failure next).Vouches e := by
  rcases w.settle_cases failure next with ⟨error, hphase, hwritten⟩ | ⟨hcalm, heq⟩
  · have hfinish := (h.finish (.error (.uevent error))).wrote
    refine ⟨fun _ => by rw [hphase]; trivial, ?_⟩
    rw [hphase, hwritten]
    exact hfinish
  · have hphase : (w.settle failure next).phase = next := by rw [heq]
    have hlogind : (w.settle failure next).logind = w.logind := by rw [heq]
    have hmachine : (w.settle failure next).machine = w.machine := by rw [heq]
    have hwritten : (w.settle failure next).written = w.written := by rw [heq]
    refine ⟨fun hafter => ?_, ?_⟩
    · rw [hphase, hlogind, hmachine]
      exact hknows (h.knows (hcalm hafter))
    · rw [hphase, hwritten]
      exact hwrote h.wrote

/-- A frame after what is written already; where it goes out whole, what it says is known. -/
theorem Vouches.write {e : Enrolled} {w : Guard} {state : EligibilityState} {next : GuardPhase}
    (ok : Bool) (count : Nat) (hknows : w.Calm → Knows e w.logind w.machine next)
    (hwhole : Wrote (w.written ++ eligibilityFrame state) next)
    (hpart : w.written ++ eligibilityFrame state <+: eligibilityFrame .ineligible ∨
      w.written ++ eligibilityFrame state <+:
        eligibilityFrame .eligible ++ eligibilityFrame .ineligible) :
    (w.write state ok count next).Vouches e := by
  unfold Guard.write
  cases ok with
  | true => exact ⟨fun hcalm => hknows ⟨hcalm.stop, hcalm.signals, hcalm.uevents⟩, hwhole⟩
  | false =>
    have htake : w.written ++ (eligibilityFrame state).take count <+:
        w.written ++ eligibilityFrame state :=
      (List.prefix_append_right_inj _).mpr (List.take_prefix _ _)
    refine ⟨fun _ => trivial, ?_⟩
    rcases hpart with hpart | hpart
    · exact Or.inl (htake.trans hpart)
    · exact Or.inr (htake.trans hpart)

theorem Vouches.process {e : Enrolled} {w : Guard} (h : w.Vouches e) {next : GuardPhase}
    (hknows : Knows e w.logind w.machine w.phase → Knows e w.logind w.machine next)
    (hwrote : Wrote w.written w.phase → Wrote w.written next) :
    { w.process with phase := next }.Vouches e := by
  have heq := w.process_eq
  have hlogind : w.process.logind = w.logind := by rw [heq]
  have hmachine : w.process.machine = w.machine := by rw [heq]
  have hwritten : w.process.written = w.written := by rw [heq]
  refine ⟨fun hcalm => ?_, ?_⟩
  · show Knows e w.process.logind w.process.machine next
    rw [hlogind, hmachine]
    exact hknows (h.knows (Calm.of_process ⟨hcalm.stop, hcalm.signals, hcalm.uevents⟩))
  · show Wrote w.process.written next
    rw [hwritten]
    exact hwrote h.wrote

theorem process_phase (w : Guard) : { w.process with phase := w.phase } = w.process := by
  have hphase : w.process.phase = w.phase := by rw [w.process_eq]
  rw [← hphase]

theorem Vouches.advance {e : Enrolled} {w w' : Guard} {ok : Bool} {value : Nat} (h : w.Vouches e)
    (hstep : w.advance e ok value = some w') : w'.Vouches e := by
  have hknows := h.knows
  have hwrote := h.wrote
  -- a step that leaves the queues as they are, and goes on with what it has learnt
  have hnext (next : GuardPhase) (hlearnt : w.Calm → Knows e w.logind w.machine next)
      (hkept : Wrote w.written next) : { w with phase := next }.Vouches e :=
    ⟨fun hcalm => hlearnt ⟨hcalm.stop, hcalm.signals, hcalm.uevents⟩, hkept⟩
  cases hphase : w.phase with
  | opening =>
    simp only [Guard.advance, hphase] at hstep
    rw [hphase] at hwrote
    split_ifs at hstep with hok
    · obtain rfl := Option.some.inj hstep
      exact hnext _ (fun _ => trivial) hwrote
    · obtain rfl := Option.some.inj hstep
      exact h.finish _
  | inspecting =>
    simp only [Guard.advance, hphase] at hstep
    rw [hphase] at hwrote
    split at hstep
    · obtain rfl := Option.some.inj hstep
      exact h.finish _
    · next found hfound =>
      obtain rfl := Option.some.inj hstep
      have hfound : Guard.inputs w.machine = some found := by
        split_ifs at hfound
        exact hfound
      refine hnext _ (fun _ => ?_) hwrote
      show sameInputs found e.inputs = true ↔ SameInputs e w.machine
      unfold SameInputs
      rw [sameInputs_iff, hfound]
      simp
  | accepting same =>
    simp only [Guard.advance, hphase] at hstep
    rw [hphase] at hwrote hknows
    split_ifs at hstep with hok hpeer
    · obtain rfl := Option.some.inj hstep
      exact h.finish _
    · obtain rfl := Option.some.inj hstep
      exact hnext _ hknows hwrote
    · obtain rfl := Option.some.inj hstep
      exact h
  | subscribing same rules =>
    simp only [Guard.advance, hphase] at hstep
    rw [hphase] at hwrote hknows
    split_ifs at hstep with hok hrules
    · obtain rfl := Option.some.inj hstep
      exact h.finish _
    · obtain rfl := Option.some.inj hstep
      exact hnext _ hknows hwrote
    · obtain rfl := Option.some.inj hstep
      exact hnext _ (fun hcalm => ⟨hknows hcalm, [], rfl, rfl⟩) hwrote
  | asking same rest answers =>
    rw [hphase] at hwrote hknows
    cases rest with
    | nil =>
      simp only [Guard.advance, hphase] at hstep
      obtain rfl := Option.some.inj hstep
      refine hnext _ (fun hcalm => ?_) hwrote
      obtain ⟨hsame, done, hdone, hanswers⟩ := hknows hcalm
      rw [List.append_nil] at hdone
      exact ⟨hsame, eligible_iff (hdone ▸ hanswers)⟩
    | cons query rest =>
      simp only [Guard.advance, hphase] at hstep
      split at hstep
      · obtain rfl := Option.some.inj hstep
        exact h.finish _
      · next answers' hasked =>
        obtain rfl := Option.some.inj hstep
        have hasked : query.ask w.logind e answers = some answers' := by
          split_ifs at hasked
          exact hasked
        refine hnext _ (fun hcalm => ?_) hwrote
        obtain ⟨hsame, done, hdone, hanswers⟩ := hknows hcalm
        refine ⟨hsame, done ++ [query], by rw [hdone, List.append_assoc]; rfl, ?_⟩
        rw [List.foldlM_append, hanswers]
        show [query].foldlM (Query.ask w.logind e) answers = some answers'
        rw [List.foldlM_cons, hasked]
        rfl
  | syncing same eligibility =>
    simp only [Guard.advance, hphase] at hstep
    rw [hphase] at hwrote hknows
    split_ifs at hstep with hok hempty
    · obtain rfl := Option.some.inj hstep
      exact h.finish _
    · obtain rfl := Option.some.inj hstep
      exact hnext _ hknows hwrote
    · obtain rfl := Option.some.inj hstep
      rw [← w.process_phase]
      exact h.process id id
  | settling same eligibility =>
    simp only [Guard.advance, hphase] at hstep
    obtain rfl := Option.some.inj hstep
    exact h.settle _ (by rw [hphase]; exact id) (by rw [hphase]; exact id)
  | starting same eligibility =>
    simp only [Guard.advance, hphase] at hstep
    rw [hphase] at hwrote hknows
    have hwrote : w.written = [] := hwrote
    split_ifs at hstep with hgo
    · obtain rfl := Option.some.inj hstep
      simp only [Bool.and_eq_true, decide_eq_true_eq] at hgo
      refine Vouches.write ok value (fun hcalm => ?_) ?_ (Or.inr ?_)
      · exact ⟨(hknows hcalm).2.mp hgo.2, (hknows hcalm).1.mp hgo.1.1⟩
      · show w.written ++ _ = _
        rw [hwrote, List.nil_append]
      · rw [hwrote]
        exact List.prefix_append ..
    · obtain rfl := Option.some.inj hstep
      have hwhole : w.written ++ eligibilityFrame .ineligible <+: eligibilityFrame .ineligible :=
        hwrote.symm ▸ List.prefix_rfl
      exact Vouches.write ok value (fun _ => trivial) (Or.inl hwhole) (Or.inl hwhole)
  | processing =>
    simp only [Guard.advance, hphase] at hstep
    split_ifs at hstep with hok
    · obtain rfl := Option.some.inj hstep
      exact h.finish _
    · obtain rfl := Option.some.inj hstep
      exact h.process (by rw [hphase]; exact id) (by rw [hphase]; exact id)
  | draining =>
    simp only [Guard.advance, hphase] at hstep
    obtain rfl := Option.some.inj hstep
    exact h.settle _ (by rw [hphase]; exact id) (by rw [hphase]; exact id)
  | deciding =>
    simp only [Guard.advance, hphase] at hstep
    rw [hphase] at hwrote hknows
    have hwrote : w.written = eligibilityFrame .eligible := hwrote
    split at hstep
    · obtain rfl := Option.some.inj hstep
      exact hnext _ hknows hwrote
    · obtain rfl := Option.some.inj hstep
      have hwhole : w.written ++ eligibilityFrame .ineligible <+:
          eligibilityFrame .eligible ++ eligibilityFrame .ineligible :=
        hwrote.symm ▸ List.prefix_rfl
      exact Vouches.write ok value (fun _ => trivial) (Or.inr hwhole) (Or.inr hwhole)
    · obtain rfl := Option.some.inj hstep
      exact h.finish _
  | finished result =>
    simp only [Guard.advance, hphase] at hstep
    cases hstep

theorem Vouches.step {e : Enrolled} {w w' : Guard} {move : GuardMove} (h : w.Vouches e)
    (hannounced : w.Announced move) (hstep : w.step e move = some w') : w'.Vouches e := by
  cases move with
  | logind next signal =>
    obtain rfl := Option.some.inj hstep
    refine ⟨fun hcalm => ?_, h.wrote⟩
    show Knows e next w.machine w.phase
    by_cases hrule : signal.rule < w.rules
    · -- the signal waits, so it is none that goes with a change
      have hsignals := hcalm.signals
      simp only [hrule, if_true] at hsignals
      obtain ⟨hwaiting, hsignal⟩ := List.forall_mem_append.mp hsignals
      have hsame : next = w.logind :=
        hannounced.resolve_right (not_not.mpr (hsignal signal List.mem_cons_self))
      rw [hsame]
      exact h.knows ⟨hcalm.stop, hwaiting, hcalm.uevents⟩
    · -- without all of its rules the guard knows nothing of logind
      have hsignals := hcalm.signals
      simp only [hrule, if_false] at hsignals
      have hknows := h.knows ⟨hcalm.stop, hsignals, hcalm.uevents⟩
      have hfour : signal.rule < 4 := by cases signal <;> simp [Signal.rule]
      cases hphase : w.phase with
      | opening => trivial
      | inspecting => trivial
      | accepting same =>
        rw [hphase] at hknows
        exact hknows
      | subscribing same rules =>
        rw [hphase] at hknows
        exact hknows
      | finished result => trivial
      | _ => exact absurd (by simpa only [Guard.rules, hphase] using hfour) hrule
  | device next arrival =>
    obtain rfl := Option.some.inj hstep
    refine ⟨fun hcalm => ?_, h.wrote⟩
    show Knows e w.logind next w.phase
    cases hphase : w.phase with
    | opening => trivial
    | _ =>
      -- what says so waits at the monitor
      have hmonitoring : w.monitoring = true := by simp only [Guard.monitoring, hphase]
      have huevents := hcalm.uevents
      simp only [hmonitoring, if_true] at huevents
      obtain ⟨hwaiting, harrival⟩ := List.forall_mem_append.mp huevents
      obtain ⟨hwell, habout⟩ := harrival arrival List.mem_cons_self
      have hsame : next = w.machine :=
        hannounced.resolve_right fun hor => hor.elim habout fun hnot => hnot hwell
      rw [hsame, ← hphase]
      exact h.knows ⟨hcalm.stop, hcalm.signals, hwaiting⟩
  | dispatch =>
    obtain rfl := Option.some.inj hstep
    rw [← w.process_phase]
    exact h.process id id
  | guard ok value => exact h.advance hstep

theorem Runs.vouches {e : Enrolled} {past : List (Guard × GuardMove)} {w : Guard}
    (run : Runs e past w) : w.Vouches e := by
  refine Run.invariant run (fun w hstart => ?_) fun w move w' => Vouches.step
  obtain ⟨-, -, -, hphase, hwritten⟩ := hstart
  refine ⟨fun _ => ?_, ?_⟩
  · rw [hphase]
    trivial
  · rw [hphase]
    exact hwritten

theorem process_written (w : Guard) : w.process.written = w.written := by rw [w.process_eq]

theorem settle_written (w : Guard) (failure : Stop) (next : GuardPhase) :
    (w.settle failure next).written = w.written := by
  rcases w.settle_cases failure next with ⟨error, -, hwritten⟩ | ⟨-, heq⟩
  · exact hwritten
  · rw [heq]

theorem written_write (w : Guard) (state : EligibilityState) (ok : Bool) (count : Nat)
    (next : GuardPhase) : w.written <+: (w.write state ok count next).written := by
  cases ok <;> exact List.prefix_append ..

/-- What is written stays written. -/
theorem written_advance {e : Enrolled} {w w' : Guard} {ok : Bool} {value : Nat}
    (h : w.advance e ok value = some w') : w.written <+: w'.written := by
  unfold Guard.advance at h
  split at h
  case h_1 | h_2 | h_6 => split at h <;> exact Option.some.inj h ▸ List.prefix_rfl
  case h_3 | h_4 => split_ifs at h <;> exact Option.some.inj h ▸ List.prefix_rfl
  case h_5 => exact Option.some.inj h ▸ List.prefix_rfl
  case h_7 =>
    split_ifs at h
    · exact Option.some.inj h ▸ List.prefix_rfl
    · exact Option.some.inj h ▸ List.prefix_rfl
    · exact Option.some.inj h ▸ w.process_written ▸ List.prefix_rfl
  case h_8 | h_11 => exact Option.some.inj h ▸ (w.settle_written ..) ▸ List.prefix_rfl
  case h_9 => split_ifs at h <;> exact Option.some.inj h ▸ w.written_write ..
  case h_10 =>
    split_ifs at h
    · exact Option.some.inj h ▸ List.prefix_rfl
    · obtain rfl := Option.some.inj h
      show w.written <+: w.process.written
      exact w.process_written ▸ List.prefix_rfl
  case h_12 =>
    split at h
    · exact Option.some.inj h ▸ List.prefix_rfl
    · exact Option.some.inj h ▸ w.written_write ..
    · exact Option.some.inj h ▸ List.prefix_rfl
  case h_13 => cases h

theorem written_step {e : Enrolled} {w w' : Guard} {move : GuardMove}
    (h : w.step e move = some w') : w.written <+: w'.written := by
  cases move with
  | guard ok value => exact written_advance h
  | dispatch =>
    obtain rfl := Option.some.inj h
    exact w.process_written ▸ List.prefix_rfl
  | _ =>
    obtain rfl := Option.some.inj h
    exact List.prefix_rfl

/-- It has asserted eligibility and goes round its loop. -/
def Standing (w : Guard) : Prop :=
  w.phase = .processing ∨ w.phase = .draining ∨ w.phase = .deciding

theorem Vouches.standing {e : Enrolled} {w : Guard} (h : w.Vouches e)
    (hwritten : eligibilityFrame .eligible <+: w.written) :
    (∃ result, w.phase = .finished result) ∨ w.Standing := by
  have hwrote := h.wrote
  cases hphase : w.phase with
  | processing => exact Or.inr (Or.inl hphase)
  | draining => exact Or.inr (Or.inr (Or.inl hphase))
  | deciding => exact Or.inr (Or.inr (Or.inr hphase))
  | finished result => exact Or.inl ⟨result, rfl⟩
  | _ =>
    rw [hphase] at hwrote
    have hwrote : w.written = [] := hwrote
    rw [hwrote, List.prefix_nil] at hwritten
    exact absurd hwritten (by decide)

theorem Vouches.eligible {e : Enrolled} {w : Guard} (h : w.Vouches e) (hstanding : w.Standing)
    (hcalm : w.Calm) : w.logind.Eligible e ∧ SameInputs e w.machine := by
  have hknows := h.knows hcalm
  rcases hstanding with hphase | hphase | hphase
  · rw [hphase] at hknows
    exact hknows
  · rw [hphase] at hknows
    exact hknows
  · rw [hphase] at hknows
    exact hknows

end Guard

/-- In every run of a guard, whatever changes between its steps: it writes `Ineligible`, or `Eligible`
    and at most once `Ineligible` after it, or breaks off. When it has its answers and nothing that
    waits is evidence, it goes on to assert eligibility exactly if the session is eligible and the
    input class the enrolled one, now and at once; and as long as it has asserted it and still runs,
    this is so, or evidence waits. -/
theorem guard_vouches {e : Enrolled} {past : List (Guard × GuardMove)} {w : Guard}
    (run : Guard.Runs e past w) :
    (w.written <+: eligibilityFrame .ineligible ∨
      w.written <+: eligibilityFrame .eligible ++ eligibilityFrame .ineligible) ∧
    (∀ same eligibility, w.phase = .starting same eligibility → w.Calm →
      (same = true ∧ eligibility = .eligible ↔
        w.logind.Eligible e ∧ Guard.SameInputs e w.machine)) ∧
    (eligibilityFrame .eligible <+: w.written → (∀ result, w.phase ≠ .finished result) → w.Calm →
      w.logind.Eligible e ∧ Guard.SameInputs e w.machine) := by
  have hvouches := Guard.Runs.vouches run
  refine ⟨(hvouches.finish (.ok ())).wrote, fun same eligibility hphase hcalm => ?_,
    fun hwritten hrunning hcalm => ?_⟩
  · have hknows := hvouches.knows hcalm
    rw [hphase] at hknows
    have hknows : (same = true ↔ _) ∧ (eligibility = .eligible ↔ _) := hknows
    rw [hknows.1, hknows.2]
    exact And.comm
  · rcases hvouches.standing hwritten with ⟨result, hfinished⟩ | hstanding
    · exact absurd hfinished (hrunning result)
    · exact hvouches.eligible hstanding hcalm

/-! ## Evidence is acted on -/

namespace Guard

/-- The calls that are left of a round of the loop. -/
def turn : GuardPhase → Option Nat
  | .processing => some 3
  | .draining => some 2
  | .deciding => some 1
  | _ => none

/-- There is evidence, and it takes no more than `n` calls to come to an end of it. -/
inductive Due (w : Guard) (n : Nat) : Prop
  | finished {result : Except GuardError Unit} (h : w.phase = .finished result)
  | stop {t : Nat} (h : turn w.phase = some t) (hstop : w.stop ≠ 0) (hn : t ≤ n)
  | uevent {t : Nat} (h : turn w.phase = some t)
      (huevents : ¬ ∀ arrival ∈ w.uevents, WellFormed arrival ∧ ¬ AboutInput arrival)
      (hn : (if t = 1 then 4 else t) ≤ n)
  | signal {t p : Nat} {signal : Signal} (h : turn w.phase = some t)
      (hwaits : w.signals[p]? = some signal) (hsignal : signal.stop ≠ .none)
      (hn : (if t = 3 then 3 * p + 3 else t + 3 * p + 3) ≤ n)

theorem turn_le {phase : GuardPhase} {t : Nat} (h : turn phase = some t) : t ≤ 3 := by
  cases phase <;> simp [turn] at h <;> omega

theorem Due.of_not_calm {w : Guard} (hstanding : w.Standing) (hcalm : ¬ w.Calm) :
    w.Due (3 * w.signals.length + 4) := by
  obtain ⟨t, ht⟩ : ∃ t, turn w.phase = some t := by
    rcases hstanding with h | h | h <;> rw [h] <;> exact ⟨_, rfl⟩
  have hle := turn_le ht
  by_cases hstop : w.stop = 0
  · by_cases huevents : ∀ arrival ∈ w.uevents, WellFormed arrival ∧ ¬ AboutInput arrival
    · have hsignals : ¬ ∀ signal ∈ w.signals, signal.stop = .none := fun hall =>
        hcalm ⟨hstop, hall, huevents⟩
      simp only [not_forall] at hsignals
      obtain ⟨signal, hmem, hsignal⟩ := hsignals
      obtain ⟨p, hp⟩ := List.mem_iff_getElem?.mp hmem
      obtain ⟨hlt, -⟩ := List.getElem?_eq_some_iff.mp hp
      refine .signal ht hp hsignal ?_
      split_ifs <;> omega
    · refine .uevent ht huevents ?_
      split_ifs <;> omega
  · exact .stop ht hstop (by omega)

theorem record_ne_zero {s : Stop} {value : Nat} (h : value ≠ 0 ∨ s ≠ .none) :
    s.record value ≠ 0 := by
  cases s <;> simp [Stop.record, Stop.encode] at h ⊢
  exact h

theorem process_stop_ne_zero {w : Guard} (h : w.stop ≠ 0) : w.process.stop ≠ 0 := by
  unfold process
  split
  · exact h
  · exact record_ne_zero (Or.inl h)

/-- The message that is handled comes off the queue, and what it says is recorded. -/
theorem process_signal {w : Guard} {p : Nat} {signal : Signal} (h : w.signals[p]? = some signal)
    (hsignal : signal.stop ≠ .none) :
    w.process.stop ≠ 0 ∨ ∃ q, p = q + 1 ∧ w.process.signals[q]? = some signal := by
  unfold process
  split
  · next hnone =>
    rw [hnone] at h
    cases h
  · next first rest hsignals =>
    rw [hsignals] at h
    cases p with
    | zero =>
      obtain rfl := Option.some.inj h
      exact Or.inl (record_ne_zero (Or.inr hsignal))
    | succ q => exact Or.inr ⟨q, rfl, h⟩

theorem process_uevents (w : Guard) : w.process.uevents = w.uevents := by rw [w.process_eq]

theorem Due.advance {e : Enrolled} {w w' : Guard} {n value : Nat} {ok : Bool} (h : w.Due (n + 1))
    (hstep : w.advance e ok value = some w') : w'.Due n := by
  cases hphase : w.phase with
  | processing =>
    simp only [Guard.advance, hphase] at hstep
    split_ifs at hstep with hok
    · exact Option.some.inj hstep ▸ .finished rfl
    · obtain rfl := Option.some.inj hstep
      cases h with
      | finished hfinished => exact absurd (hphase.symm.trans hfinished) (by simp)
      | stop ht hstop hn =>
        rw [hphase] at ht
        obtain rfl := Option.some.inj ht
        exact .stop rfl (process_stop_ne_zero hstop) (by omega)
      | uevent ht huevents hn =>
        rw [hphase] at ht
        obtain rfl := Option.some.inj ht
        refine .uevent rfl (w.process_uevents.symm ▸ huevents) ?_
        simp only [show ¬ 3 = 1 by omega, show ¬ 2 = 1 by omega, if_false] at hn ⊢
        omega
      | signal ht hwaits hsignal hn =>
        rw [hphase] at ht
        obtain rfl := Option.some.inj ht
        simp only [if_true] at hn
        rcases process_signal hwaits hsignal with hstop | ⟨q, rfl, hq⟩
        · exact .stop rfl hstop (by omega)
        · refine .signal rfl hq hsignal ?_
          simp only [show ¬ 2 = 3 by omega, if_false]
          omega
  | draining =>
    simp only [Guard.advance, hphase] at hstep
    obtain rfl := Option.some.inj hstep
    unfold settle
    cases hdrain : drain w.uevents with
    | error error => exact .finished rfl
    | ok changed =>
      have hkept (hstop : w.stop ≠ 0) :
          (if changed then Stop.changed.record w.stop else w.stop) ≠ 0 := by
        split_ifs
        · exact record_ne_zero (Or.inl hstop)
        · exact hstop
      cases h with
      | finished hfinished => exact absurd (hphase.symm.trans hfinished) (by simp)
      | stop ht hstop hn =>
        rw [hphase] at ht
        obtain rfl := Option.some.inj ht
        exact .stop rfl (hkept hstop) (by omega)
      | uevent ht huevents hn =>
        rw [hphase] at ht
        obtain rfl := Option.some.inj ht
        simp only [show ¬ 2 = 1 by omega, if_false] at hn
        -- all that waited was well-formed, so it was about an input device
        obtain ⟨hwell, hinput⟩ := drainFrom_ok_iff.mp hdrain
        have hchanged : changed = true := by
          refine hinput.mpr (Or.inr ?_)
          by_contra hnone
          exact huevents fun arrival harrival =>
            ⟨hwell arrival harrival, fun habout => hnone ⟨arrival, harrival, habout⟩⟩
        refine .stop rfl ?_ (by omega)
        rw [hchanged]
        exact record_ne_zero (Or.inr (by decide))
      | signal ht hwaits hsignal hn =>
        rw [hphase] at ht
        obtain rfl := Option.some.inj ht
        simp only [show ¬ 2 = 3 by omega, if_false] at hn
        refine .signal rfl hwaits hsignal ?_
        simp only [show ¬ 1 = 3 by omega, if_false]
        omega
  | deciding =>
    simp only [Guard.advance, hphase] at hstep
    split at hstep
    · next hload =>
      obtain rfl := Option.some.inj hstep
      have hstop : w.stop = 0 := by
        unfold Stop.load at hload
        split at hload
        · assumption
        · cases hload
        · cases hload
      cases h with
      | finished hfinished => exact absurd (hphase.symm.trans hfinished) (by simp)
      | stop ht hnot hn => exact absurd hstop hnot
      | uevent ht huevents hn =>
        rw [hphase] at ht
        obtain rfl := Option.some.inj ht
        simp only [if_true] at hn
        refine .uevent rfl huevents ?_
        simp only [show ¬ 3 = 1 by omega, if_false]
        omega
      | signal ht hwaits hsignal hn =>
        rw [hphase] at ht
        obtain rfl := Option.some.inj ht
        simp only [show ¬ 1 = 3 by omega, if_false] at hn
        refine .signal rfl hwaits hsignal ?_
        simp only [if_true]
        omega
    · obtain rfl := Option.some.inj hstep
      cases ok <;> exact .finished rfl
    · exact Option.some.inj hstep ▸ .finished rfl
  | finished result =>
    simp only [Guard.advance, hphase] at hstep
    cases hstep
  | _ =>
    -- before its loop there is nothing that is due
    cases h with
    | finished hfinished => exact absurd (hphase.symm.trans hfinished) (by simp)
    | stop ht => simp [hphase, turn] at ht
    | uevent ht => simp [hphase, turn] at ht
    | signal ht => simp [hphase, turn] at ht

/-- What else happens only adds to what waits. -/
theorem Due.world {e : Enrolled} {w w' : Guard} {n : Nat} {move : GuardMove} (h : w.Due n)
    (hother : ∀ ok value, move ≠ .guard ok value) (hstep : w.step e move = some w') : w'.Due n := by
  cases move with
  | guard ok value => exact absurd rfl (hother ok value)
  | logind next signal =>
    obtain rfl := Option.some.inj hstep
    cases h with
    | finished hfinished => exact .finished hfinished
    | stop ht hstop hn => exact .stop ht hstop hn
    | uevent ht huevents hn => exact .uevent ht huevents hn
    | signal ht hwaits hsignal hn =>
      refine .signal ht ?_ hsignal hn
      show (if _ then w.signals ++ _ else w.signals)[_]? = _
      split_ifs
      · rw [List.getElem?_append_left (List.getElem?_eq_some_iff.mp hwaits).1]
        exact hwaits
      · exact hwaits
  | device next arrival =>
    obtain rfl := Option.some.inj hstep
    cases h with
    | finished hfinished => exact .finished hfinished
    | stop ht hstop hn => exact .stop ht hstop hn
    | uevent ht huevents hn =>
      refine .uevent ht (fun hall => huevents fun a ha => hall a ?_) hn
      show a ∈ if _ then w.uevents ++ _ else w.uevents
      split_ifs
      · exact List.mem_append_left _ ha
      · exact ha
    | signal ht hwaits hsignal hn => exact .signal ht hwaits hsignal hn
  | dispatch =>
    obtain rfl := Option.some.inj hstep
    have hphase : w.process.phase = w.phase := by rw [w.process_eq]
    cases h with
    | finished hfinished => exact .finished (hphase.trans hfinished)
    | stop ht hstop hn => exact .stop (hphase ▸ ht) (process_stop_ne_zero hstop) hn
    | uevent ht huevents hn => exact .uevent (hphase ▸ ht) (w.process_uevents.symm ▸ huevents) hn
    | signal ht hwaits hsignal hn =>
      have hle := turn_le ht
      rcases process_signal hwaits hsignal with hstop | ⟨q, rfl, hq⟩
      · refine .stop (hphase ▸ ht) hstop ?_
        split_ifs at hn <;> omega
      · refine .signal (hphase ▸ ht) hq hsignal ?_
        split_ifs at hn ⊢ <;> omega

theorem Due.zero {w : Guard} (h : w.Due 0) : ∃ result, w.phase = .finished result := by
  have hpositive {t : Nat} (ht : turn w.phase = some t) : 0 < t := by
    cases hphase : w.phase <;> simp [hphase, turn] at ht <;> omega
  cases h with
  | finished hfinished => exact ⟨_, hfinished⟩
  | stop ht hstop hn =>
    have := hpositive ht
    omega
  | uevent ht huevents hn =>
    have := hpositive ht
    split_ifs at hn <;> omega
  | signal ht hwaits hsignal hn => split_ifs at hn <;> omega

theorem advance_isSome {w : Guard} (e : Enrolled) (ok : Bool) (value : Nat)
    (h : ¬ ∃ result, w.phase = .finished result) : (w.advance e ok value).isSome = true := by
  unfold Guard.advance
  split
  case h_13 result hfinished => exact absurd ⟨result, hfinished⟩ h
  case h_5 | h_8 | h_11 => rfl
  case h_3 | h_4 | h_7 | h_9 | h_10 => split_ifs <;> rfl
  all_goals split <;> rfl

/-- How often the guard itself has made a call. -/
def calls : List (Guard × GuardMove) → Nat
  | [] => 0
  | (_, .guard _ _) :: past => calls past + 1
  | _ :: past => calls past

end Guard

/-- However it goes on, a guard that stands while evidence waits comes to its end, after three calls
    at most for each message that waits and those of the round it is in. -/
theorem guard_acts {e : Enrolled} {w₀ w : Guard} {past : List (Guard × GuardMove)}
    (hstanding : w₀.Standing) (hevidence : ¬ w₀.Calm)
    (run : Run (fun w => w = w₀) (Guard.step e) Guard.Announced past w) :
    Guard.calls past ≤ 3 * w₀.signals.length + 4 ∧
      ((∃ result, w.phase = .finished result) ∨
        Guard.calls past < 3 * w₀.signals.length + 4 ∧
          ∀ ok value, (w.advance e ok value).isSome = true) := by
  obtain ⟨n, hcalls, hdue⟩ : ∃ n, Guard.calls past + n = 3 * w₀.signals.length + 4 ∧ w.Due n := by
    refine run.history (I := fun past w => ∃ n, Guard.calls past + n = 3 * w₀.signals.length + 4 ∧
      Guard.Due w n) ?_ ?_
    · rintro w rfl
      exact ⟨_, Nat.zero_add _, Guard.Due.of_not_calm hstanding hevidence⟩
    · rintro past w move w' ⟨n, hcalls, hdue⟩ - hstep
      cases move with
      | guard ok value =>
        cases n with
        | zero =>
          obtain ⟨result, hfinished⟩ := hdue.zero
          simp only [Guard.step, Guard.advance, hfinished] at hstep
          cases hstep
        | succ n => exact ⟨n, by rw [Guard.calls]; omega, hdue.advance hstep⟩
      | _ => exact ⟨n, hcalls, hdue.world (fun _ _ h => by cases h) hstep⟩
  refine ⟨by omega, ?_⟩
  by_cases hend : ∃ result, w.phase = .finished result
  · exact Or.inl hend
  · have hleft : n ≠ 0 := by
      rintro rfl
      exact hend hdue.zero
    exact Or.inr ⟨by omega, fun ok value => Guard.advance_isSome e ok value hend⟩

/-! ## A session at rest -/

def restPath : Bytes := Json.ascii "/sys/devices/a/event2"

theorem restPath_valid : validSysfsPath 2 restPath = true := by decide +kernel

theorem restNumber_lt : 2 < 2 ^ 32 := by decide

def restMapping : InputClassMapping := ⟨2, restNumber_lt, restPath, restPath_valid⟩

def restMachine : Machine where
  classNames := some [eventName 2]
  isSymlink := fun _ => true
  canonicalize := fun _ => some restMapping.sysfsPath
  deviceNode := fun _ => none
  udevProperties := fun _ => none
  udevPath := fun _ => none
  sysfsAttribute := fun _ _ => none

def restLogind : Logind where
  getSession := fun _ => some "/s"
  session := fun _ => some ⟨1000, ("seat0", "/seat0"), true, false, "x11", "user", "active", false⟩
  activeSession := fun _ => some ("2", "/s")
  preparingForSleep := some false
  preparingForShutdown := some false

def restEnrolled : Enrolled := ⟨"2", 1000, "seat0", 0, [restMapping]⟩

theorem inputs_rest : Guard.inputs restMachine = some [restMapping] := by
  decide +kernel

def restGuard (phase : GuardPhase) (written : List UInt8) : Guard :=
  ⟨restLogind, restMachine, [], [], 0, phase, written⟩

/-- A guard that gets its answers comes to the end of them. -/
theorem Guard.Runs.asks {e : Enrolled} {same : Bool} {rest : List Query} {a answers : Answers}
    {past : List (Guard × GuardMove)} {w : Guard}
    (run : Guard.Runs e past { w with phase := .asking same rest a })
    (h : rest.foldlM (Query.ask w.logind e) a = some answers) :
    ∃ past', Guard.Runs e past' { w with phase := .asking same [] answers } := by
  induction rest generalizing a past with
  | nil =>
    obtain rfl := Option.some.inj h
    exact ⟨past, run⟩
  | cons query rest ih =>
    obtain ⟨next, hnext, hrest⟩ := Option.bind_eq_some_iff.mp h
    refine ih (run.step (.guard true 0) trivial ?_) hrest
    show (match query.ask w.logind e a with
      | none => some (Guard.finish _ _)
      | some answers => some { w with phase := .asking same rest answers }) = _
    rw [hnext]

def restAnswers : Answers :=
  ⟨"/s", 1000, ("seat0", "/seat0"), ("2", "/s"), true, false, "x11", "user", "active", false, false,
    false⟩

theorem restGuard_run : ∃ past, Guard.Runs restEnrolled past
    (restGuard .processing (eligibilityFrame .eligible)) := by
  have hinspect : (restGuard .inspecting []).advance restEnrolled true 0 =
      some (restGuard (.accepting true) []) := by
    have hsame : Guard.sameInputs [restMapping] restEnrolled.inputs = true := by decide +kernel
    simp only [Guard.advance, restGuard, if_true, inputs_rest, hsame]
  have hstart : Guard.Runs restEnrolled [] (restGuard .opening []) :=
    Run.start ⟨rfl, rfl, rfl, rfl, rfl⟩
  have hopen : Guard.Runs restEnrolled _ (restGuard .inspecting []) :=
    hstart.step (.guard true 0) trivial rfl
  have hlooked : Guard.Runs restEnrolled _ (restGuard (.accepting true) []) :=
    hopen.step (.guard true 0) trivial hinspect
  have hpeer : Guard.Runs restEnrolled _ (restGuard (.subscribing true 0) []) :=
    hlooked.step (.guard true 0) trivial rfl
  have hone : Guard.Runs restEnrolled _ (restGuard (.subscribing true 1) []) :=
    hpeer.step (.guard true 0) trivial rfl
  have htwo : Guard.Runs restEnrolled _ (restGuard (.subscribing true 2) []) :=
    hone.step (.guard true 0) trivial rfl
  have hthree : Guard.Runs restEnrolled _ (restGuard (.subscribing true 3) []) :=
    htwo.step (.guard true 0) trivial rfl
  have hfour : Guard.Runs restEnrolled _ (restGuard (.asking true queries .none) []) :=
    hthree.step (.guard true 0) trivial rfl
  obtain ⟨past, hasked⟩ := @Guard.Runs.asks _ _ _ _ restAnswers _ (restGuard .opening []) hfour rfl
  have hstate : (restAnswers.facts restEnrolled).state = .eligible := by decide
  have hanswered : Guard.Runs restEnrolled _ (restGuard (.syncing true .eligible) []) :=
    hasked.step (.guard true 0) trivial
      (congrArg (fun state => some (restGuard (.syncing true state) [])) hstate)
  have hsynced : Guard.Runs restEnrolled _ (restGuard (.settling true .eligible) []) :=
    hanswered.step (.guard true 0) trivial rfl
  have hsettled : Guard.Runs restEnrolled _ (restGuard (.starting true .eligible) []) :=
    hsynced.step (.guard true 0) trivial rfl
  exact ⟨_, hsettled.step (.guard true 0) trivial rfl⟩

theorem guard_vouches_rest :
    restLogind.Eligible restEnrolled ∧ Guard.SameInputs restEnrolled restMachine := by
  obtain ⟨past, run⟩ := restGuard_run
  refine (guard_vouches run).2.2 List.prefix_rfl (fun result hfinished => by cases hfinished) ?_
  exact ⟨rfl, by simp [restGuard], by simp [restGuard]⟩

/-- A signal waits, and the guard stops at it. -/
theorem guard_acts_rest : ∃ past w, Guard.calls past = 3 ∧
    ((∃ result, Guard.phase w = .finished result) ∨ Guard.calls past < 7) := by
  let changed (phase : GuardPhase) (signals : List Signal) (stop : Nat) (written : List UInt8) : Guard :=
    ⟨restLogind, restMachine, [], signals, stop, phase, written⟩
  let waiting := changed .processing [.propertiesChanged] 0 (eligibilityFrame .eligible)
  have hstart : Run (fun w => w = waiting) (Guard.step restEnrolled) Guard.Announced [] waiting :=
    Run.start rfl
  have hhandled : Run (fun w => w = waiting) (Guard.step restEnrolled) Guard.Announced _
      (changed .draining [] 1 (eligibilityFrame .eligible)) :=
    hstart.step (.guard true 0) trivial rfl
  have hdrained : Run (fun w => w = waiting) (Guard.step restEnrolled) Guard.Announced _
      (changed .deciding [] 1 (eligibilityFrame .eligible)) :=
    hhandled.step (.guard true 0) trivial rfl
  have hstopped : Run (fun w => w = waiting) (Guard.step restEnrolled) Guard.Announced _
      (changed (.finished (.ok ())) [] 1
        (eligibilityFrame .eligible ++ eligibilityFrame .ineligible)) :=
    hdrained.step (.guard true 0) trivial rfl
  have hevidence : ¬ waiting.Calm := fun hcalm =>
    absurd (hcalm.signals .propertiesChanged List.mem_cons_self) (by decide)
  have hends := (guard_acts (Or.inl rfl) hevidence hstopped).2
  exact ⟨_, _, rfl, hends.imp id fun hleft => hleft.1⟩

end AgentSeat.Broker
