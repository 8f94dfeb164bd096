/-
  The run loop of the activity broker (`main.rs` of `agent-seat-activity-broker`).

  A broker starts from one eligibility assertion and one look at its devices, and then goes from round
  to round of its loop. What a round finds (what `poll` reports, what can be read, the clock) is a
  `Round`; a loop that returns an error ends. Nothing is assumed of the rounds.

  What an answer to a provider is worth is said of the whole past of the broker: it is `Arming` or
  `Ready` exactly if nothing since the start, the round of the answer included, was evidence
  (`broker_latch`), so two answers are the same ready gate exactly if there was none up to the later
  one (`same_ready_iff`).
-/
import AgentSeat.Broker.Status
import AgentSeat.Lib.Runs

namespace AgentSeat.Broker

open AgentSeat.Lib

/-! ## Evidence -/

/-- What `poll` reports of a descriptor: that it is lost, or that it can be read. -/
structure Revents where
  lost : Bool
  readable : Bool

/-- An evdev event; of the events of kind 0 two are told apart. -/
structure InputEvent where
  kind : Nat
  code : Nat
  value : Int

def synReport : Nat := 0
def synDropped : Nat := 3

abbrev Update := BrokerState × StopReason

def classifyInputEvent (event : InputEvent) : Option Update :=
  if event.kind = 0 ∧ event.code = synReport then none
  else if event.kind = 0 ∧ event.code = synDropped then some (.unavailable, .eventLoss)
  else some (.stopped, .activity)

def classifyEligibilityTransition : Except ProtocolError EligibilityState → Update
  | .ok .ineligible => (.stopped, .eligibilityChanged)
  | .ok .eligible => (.unavailable, .evidenceLost)
  | .error _ => (.unavailable, .evidenceLost)

/-- `u64::saturating_add(1)`. -/
def saturatingSucc (n : UInt64) : UInt64 := if n = UInt64.ofNat (2 ^ 64 - 1) then n else n + 1

def terminal (status : BrokerStatus) (update : Update) : BrokerStatus :=
  { status with epoch := saturatingSucc status.epoch, state := update.1, reason := update.2 }

/-- A device in a round; `fetched` is what `fetch_events` gives when it is called. -/
structure DeviceRound where
  revents : Revents
  fetched : Option (List InputEvent)

def deviceUpdate (device : DeviceRound) : Option Update :=
  if device.revents.lost then some (.unavailable, .evidenceLost)
  else if device.revents.readable then
    match device.fetched with
    | none => some (.unavailable, .evidenceLost)
    | some events => events.findSome? classifyInputEvent
  else none

/-! ## Rounds -/

/-- What one round of the loop finds. `accepted` is whether a connection was the provider's, `wrote`
    whether its answer could be written. -/
structure Round where
  polled : Except String Unit
  eligibility : Revents
  assertion : List UInt8
  device : Nat → DeviceRound
  now : Nat
  listener : Revents
  accepted : Except String Bool
  provider : Revents
  request : List UInt8
  wrote : Bool

def eligibilityUpdate (r : Round) : Option Update :=
  if r.eligibility.lost then some (.unavailable, .evidenceLost)
  else if r.eligibility.readable then
    some (classifyEligibilityTransition (readEligibility r.assertion))
  else none

/-- The broker between two rounds: `watching` is whether it has its eligibility source, `provider`
    whether one is connected. Times are in milliseconds. -/
structure Gate where
  status : BrokerStatus
  watching : Bool
  devices : List Nat
  armDeadline : Option Nat
  provider : Bool

def armQuietInterval : Nat := 250

namespace Gate

def update (g : Gate) (r : Round) : Option Update :=
  (if g.watching then eligibilityUpdate r else none).or
    (g.devices.findSome? fun i => deviceUpdate (r.device i))

/-- The part of a round that is about evidence and time. -/
def observe (g : Gate) (r : Round) : Gate :=
  match g.update r with
  | some found =>
    { g with status := terminal g.status found, devices := [], watching := false, armDeadline := none }
  | none =>
    if g.armDeadline.any fun deadline => deadline ≤ r.now then
      { g with status := { g.status with state := .ready }, armDeadline := none }
    else g

/-- The provider that was there when the round began has asked. -/
def asked (g : Gate) (r : Round) : Bool :=
  g.provider && !r.provider.lost && r.provider.readable && (readStatusRequest r.request).toBool

/-- The answer that is written to it. -/
def answer (g : Gate) (r : Round) : Option (List UInt8) :=
  if g.asked r then some (g.observe r).status.encode else none

def round (g : Gate) (r : Round) : Option Gate :=
  if r.polled.toBool = false then none
  else if g.provider then
    some { g.observe r with
      provider := !r.provider.lost && (!r.provider.readable || (g.asked r && r.wrote)) }
  else if r.listener.lost then none
  else if r.listener.readable then
    r.accepted.toOption.map fun accepted => { g.observe r with provider := accepted }
  else some (g.observe r)

end Gate

/-! ## The start -/

/-- What `poll` reports of the eligibility source while its first frame is waited for. -/
structure InitialRevents where
  broken : Bool
  hup : Bool
  readable : Bool

/-- One turn of the wait: what `read` gives and, where it would block, the time that is left and what
    `poll` gives. -/
inductive Attempt where
  | bytes (read : List UInt8)
  | interrupted
  | failed (error : String)
  | wouldBlock (remaining : Nat) (polled : Except String InitialRevents)

def ProtocolError.debug : ProtocolError → String
  | .unavailable => "Unavailable"
  | .incompatible => "Incompatible"
  | .malformed => "Malformed"

def finishInitialEligibility (frame : List UInt8) : Except String EligibilityState :=
  match readEligibility frame with
  | .ok state => .ok state
  | .error error => .error s!"cannot decode initial eligibility evidence: {error.debug}"

/-- `read_initial_eligibility` with `frame` read so far; it still waits where there is no result. -/
def readInitialEligibility (frame : List UInt8) :
    List Attempt → Option (Except String EligibilityState)
  | [] => if frame.length < eligibilityFrameBytes then none else some (finishInitialEligibility frame)
  | attempt :: rest =>
    if frame.length < eligibilityFrameBytes then
      match attempt with
      | .bytes read =>
        if read = [] then some (.error "eligibility channel closed during initial frame")
        else
          readInitialEligibility (frame ++ read.take (eligibilityFrameBytes - frame.length)) rest
      | .interrupted => readInitialEligibility frame rest
      | .failed error => some (.error s!"cannot read initial eligibility evidence: {error}")
      | .wouldBlock remaining polled =>
        if remaining = 0 then some (.error "timed out waiting for initial eligibility evidence")
        else
          match polled with
          | .error error => some (.error s!"initial eligibility poll failed: {error}")
          | .ok events =>
            if events.broken then some (.error "initial eligibility evidence was lost")
            else if !events.hup && !events.readable then
              some (.error "timed out waiting for initial eligibility evidence")
            else if events.hup && !events.readable then
              some (.error "eligibility channel closed during initial frame")
            else readInitialEligibility frame rest
    else some (finishInitialEligibility frame)

/-- A device at the start: whether a key is held, if it has keys, and what can be fetched. -/
structure InitialDevice where
  held : Option (Except String Bool)
  revents : Revents
  fetched : Except String (List InputEvent)

def keyHeld : List InitialDevice → Except String Bool
  | [] => .ok false
  | device :: rest =>
    match device.held with
    | none => keyHeld rest
    | some (.ok true) => .ok true
    | some (.ok false) => keyHeld rest
    | some (.error error) => .error s!"cannot inspect initial key/button state: {error}"

/-- The events of one device; a loss ends the search. -/
def scanEvents (activity : Bool) : List InputEvent → Except Update Bool
  | [] => .ok activity
  | event :: rest =>
    match classifyInputEvent event with
    | some (.unavailable, reason) => .error (.unavailable, reason)
    | some (.stopped, .activity) => scanEvents true rest
    | _ => scanEvents activity rest

def scanDevices (activity : Bool) : List InitialDevice → Except String (Option Update)
  | [] => .ok (if activity then some (.stopped, .activity) else none)
  | device :: rest =>
    if device.revents.lost then .ok (some (.unavailable, .evidenceLost))
    else if device.revents.readable = false then scanDevices activity rest
    else
      match device.fetched with
      | .error error => .error s!"cannot inspect initial event queue: {error}"
      | .ok events =>
        match scanEvents activity events with
        | .error found => .ok (some found)
        | .ok activity => scanDevices activity rest

def initialDeviceUpdate (polled : Except String Unit) (devices : List InitialDevice) :
    Except String (Option Update) := do
  if ← keyHeld devices then return some (.stopped, .activity)
  match polled with
  | .error error => .error s!"initial device poll failed: {error}"
  | .ok () => scanDevices false devices

/-- What a broker finds before its loop begins. -/
structure Setting where
  attempts : List Attempt
  polled : Except String Unit
  devices : List InitialDevice
  inst : UInt64
  now : Nat

/-- What the broker has found, if anything, that it does not arm. -/
def initialUpdate (eligibility : EligibilityState) (found : Option Update) : Option Update :=
  if eligibility = .ineligible then some (.stopped, .eligibilityChanged) else found

/-- `run` up to its loop; there is no broker where it still waits or returns an error. -/
def Gate.start (setting : Setting) : Option Gate := do
  let eligibility ← (← readInitialEligibility [] setting.attempts).toOption
  let found ← (initialDeviceUpdate setting.polled setting.devices).toOption
  if setting.inst = 0 then none
  else
    match initialUpdate eligibility found with
    | some found => return ⟨⟨setting.inst, 1, found.1, found.2⟩, false, [], none, false⟩
    | none =>
      return ⟨⟨setting.inst, 1, .arming, .none⟩, true, List.range setting.devices.length,
        some (setting.now + armQuietInterval), false⟩

/-! ## What counts as evidence -/

def InputEvent.IsReport (event : InputEvent) : Prop := event.kind = 0 ∧ event.code = synReport

/-- The device is lost, or what it has cannot be fetched or is not only reports. -/
def DeviceRound.Evidence (device : DeviceRound) : Prop :=
  device.revents.lost = true ∨ device.revents.readable = true ∧
    ∀ events, device.fetched = some events → ∃ event ∈ events, ¬ event.IsReport

/-- Anything at all from the eligibility source, or evidence from one of the devices. -/
def Round.Evidence (count : Nat) (r : Round) : Prop :=
  r.eligibility.lost = true ∨ r.eligibility.readable = true ∨ ∃ i < count, (r.device i).Evidence

def InitialDevice.Evidence (device : InitialDevice) : Prop :=
  device.held = some (.ok true) ∨ device.revents.lost = true ∨ device.revents.readable = true ∧
    ∃ events, device.fetched = .ok events ∧ ∃ event ∈ events, ¬ event.IsReport

/-- The broker starts with an eligible session and devices that are at rest. -/
def Setting.Quiet (setting : Setting) : Prop :=
  readInitialEligibility [] setting.attempts = some (.ok .eligible) ∧
    ∀ device ∈ setting.devices, ¬ device.Evidence

/-- The updates a broker may end with. -/
def Update.Ends (update : Update) : Prop :=
  validState update.1 update.2 = true ∧ update.1 ≠ .arming ∧ update.1 ≠ .ready

theorem classifyInputEvent_eq_none {event : InputEvent} :
    classifyInputEvent event = none ↔ event.IsReport := by
  unfold classifyInputEvent InputEvent.IsReport
  split_ifs with hreport hdropped <;> simp_all

theorem classifyInputEvent_ends {event : InputEvent} {found : Update}
    (h : classifyInputEvent event = some found) :
    found = (.unavailable, .eventLoss) ∨ found = (.stopped, .activity) := by
  unfold classifyInputEvent at h
  split_ifs at h with hreport hdropped
  · exact Or.inl (Option.some.inj h).symm
  · exact Or.inr (Option.some.inj h).symm

theorem deviceUpdate_eq_none {device : DeviceRound} :
    deviceUpdate device = none ↔ ¬ device.Evidence := by
  unfold deviceUpdate DeviceRound.Evidence
  split_ifs with hlost hreadable
  · simp [hlost]
  · cases hfetched : device.fetched with
    | none => simp [hreadable]
    | some events =>
      simp only [List.findSome?_eq_none_iff, classifyInputEvent_eq_none]
      simp [hlost, hreadable]
  · simp [hlost, hreadable]

theorem deviceUpdate_ends {device : DeviceRound} {found : Update}
    (h : deviceUpdate device = some found) : found.Ends := by
  unfold deviceUpdate at h
  split_ifs at h with hlost hreadable
  · obtain rfl := Option.some.inj h
    exact ⟨rfl, by decide, by decide⟩
  · cases hfetched : device.fetched with
    | none =>
      rw [hfetched] at h
      obtain rfl := Option.some.inj h
      exact ⟨rfl, by decide, by decide⟩
    | some events =>
      rw [hfetched] at h
      obtain ⟨event, -, hevent⟩ := List.exists_of_findSome?_eq_some h
      rcases classifyInputEvent_ends hevent with rfl | rfl <;>
        exact ⟨rfl, by decide, by decide⟩

theorem eligibilityUpdate_eq_none {r : Round} :
    eligibilityUpdate r = none ↔ r.eligibility.lost = false ∧ r.eligibility.readable = false := by
  unfold eligibilityUpdate
  split_ifs with hlost hreadable <;> simp_all

theorem eligibilityUpdate_ends {r : Round} {found : Update}
    (h : eligibilityUpdate r = some found) : found.Ends := by
  unfold eligibilityUpdate at h
  split_ifs at h with hlost hreadable
  · obtain rfl := Option.some.inj h
    exact ⟨rfl, by decide, by decide⟩
  · obtain rfl := Option.some.inj h
    unfold classifyEligibilityTransition
    split <;> exact ⟨rfl, by decide, by decide⟩

theorem scanEvents_ok {activity a : Bool} {events : List InputEvent}
    (h : scanEvents activity events = .ok a) :
    a = false ↔ activity = false ∧ ∀ event ∈ events, event.IsReport := by
  induction events generalizing activity with
  | nil =>
    obtain rfl := Except.ok.inj h
    simp
  | cons event rest ih =>
    unfold scanEvents at h
    cases hevent : classifyInputEvent event with
    | none =>
      rw [hevent] at h
      rw [ih h, List.forall_mem_cons, iff_true_intro (classifyInputEvent_eq_none.mp hevent),
        true_and]
    | some found =>
      have hnot : ¬ event.IsReport := by
        rw [← classifyInputEvent_eq_none, hevent]
        exact Option.some_ne_none _
      rw [hevent] at h
      rcases classifyInputEvent_ends hevent with rfl | rfl
      · cases h
      · have := ih h
        simp [hnot, this]

theorem scanEvents_error {activity : Bool} {found : Update} {events : List InputEvent}
    (h : scanEvents activity events = .error found) :
    found = (.unavailable, .eventLoss) ∧ ∃ event ∈ events, ¬ event.IsReport := by
  induction events generalizing activity with
  | nil => cases h
  | cons event rest ih =>
    unfold scanEvents at h
    rw [List.exists_mem_cons_iff]
    cases hevent : classifyInputEvent event with
    | none =>
      rw [hevent] at h
      exact ⟨(ih h).1, Or.inr (ih h).2⟩
    | some update =>
      have hnot : ¬ event.IsReport := by
        rw [← classifyInputEvent_eq_none, hevent]
        exact Option.some_ne_none _
      rw [hevent] at h
      rcases classifyInputEvent_ends hevent with rfl | rfl
      · exact ⟨(Except.error.inj h).symm, Or.inl hnot⟩
      · exact ⟨(ih h).1, Or.inl hnot⟩

/-- The evidence that a device has waiting. -/
def InitialDevice.Waiting (device : InitialDevice) : Prop :=
  device.revents.lost = true ∨ device.revents.readable = true ∧
    ∃ events, device.fetched = .ok events ∧ ∃ event ∈ events, ¬ event.IsReport

theorem scanDevices_ok {activity : Bool} {devices : List InitialDevice} {found : Option Update}
    (h : scanDevices activity devices = .ok found) :
    (found = none ↔ activity = false ∧ ∀ device ∈ devices, ¬ device.Waiting) ∧
      ∀ update, found = some update → update.Ends := by
  induction devices generalizing activity with
  | nil =>
    obtain rfl := Except.ok.inj h
    cases activity with
    | false => simp
    | true => exact ⟨by simp, fun update hupdate => Option.some.inj hupdate ▸ ⟨rfl, by decide, by decide⟩⟩
  | cons device rest ih =>
    unfold scanDevices at h
    rw [List.forall_mem_cons]
    split_ifs at h with hlost hreadable
    · obtain rfl := Except.ok.inj h
      have hwaiting : device.Waiting := Or.inl hlost
      refine ⟨by simp [hwaiting], fun update hupdate => ?_⟩
      exact Option.some.inj hupdate ▸ ⟨rfl, by decide, by decide⟩
    · have hwaiting : ¬ device.Waiting := by simp [InitialDevice.Waiting, hlost, hreadable]
      rw [iff_true_intro hwaiting, true_and]
      exact ih h
    · cases hfetched : device.fetched with
      | error error =>
        rw [hfetched] at h
        cases h
      | ok events =>
        have hwaiting : device.Waiting ↔ ∃ event ∈ events, ¬ event.IsReport := by
          simp [InitialDevice.Waiting, hlost, hreadable, hfetched]
        rw [hwaiting]
        cases hscan : scanEvents activity events with
        | error update =>
          obtain ⟨rfl, hevent⟩ := scanEvents_error hscan
          simp only [hfetched, hscan] at h
          obtain rfl := Except.ok.inj h
          refine ⟨by simp [hevent], fun update hupdate => ?_⟩
          exact Option.some.inj hupdate ▸ ⟨rfl, by decide, by decide⟩
        | ok a =>
          simp only [hfetched, hscan] at h
          obtain ⟨hnone, hends⟩ := ih h
          have hevents : ¬ (∃ event ∈ events, ¬ event.IsReport) ↔
              ∀ event ∈ events, event.IsReport := by simp
          rw [hnone, scanEvents_ok hscan, hevents, and_assoc]
          exact ⟨Iff.rfl, hends⟩

theorem keyHeld_ok {devices : List InitialDevice} {held : Bool} (h : keyHeld devices = .ok held) :
    held = true ↔ ∃ device ∈ devices, device.held = some (.ok true) := by
  induction devices with
  | nil =>
    obtain rfl := Except.ok.inj h
    simp
  | cons device rest ih =>
    rw [List.exists_mem_cons_iff]
    unfold keyHeld at h
    split at h
    · next hdevice => simpa [hdevice] using ih h
    · next hdevice =>
      obtain rfl := Except.ok.inj h
      simp [hdevice]
    · next hdevice => simpa [hdevice] using ih h
    · cases h

theorem initialDeviceUpdate_ok {polled : Except String Unit} {devices : List InitialDevice}
    {found : Option Update} (h : initialDeviceUpdate polled devices = .ok found) :
    (found = none ↔ ∀ device ∈ devices, ¬ device.Evidence) ∧
      ∀ update, found = some update → update.Ends := by
  obtain ⟨held, hheld, h⟩ := except_bind_ok h
  have hevidence : (∀ device ∈ devices, ¬ device.Evidence) ↔
      (¬ ∃ device ∈ devices, device.held = some (.ok true)) ∧
        ∀ device ∈ devices, ¬ device.Waiting := by
    simp only [InitialDevice.Evidence, InitialDevice.Waiting, not_or, not_exists, not_and]
    exact ⟨fun hall => ⟨fun d hd => (hall d hd).1, fun d hd => (hall d hd).2⟩,
      fun hall d hd => ⟨hall.1 d hd, hall.2 d hd⟩⟩
  rw [hevidence, ← keyHeld_ok hheld]
  cases held with
  | true =>
    obtain rfl := Except.ok.inj h
    refine ⟨by simp, fun update hupdate => ?_⟩
    exact Option.some.inj hupdate ▸ ⟨rfl, by decide, by decide⟩
  | false =>
    cases hpolled : polled with
    | error error =>
      rw [hpolled] at h
      cases h
    | ok u =>
      rw [hpolled] at h
      have hscan : scanDevices false devices = .ok found := h
      obtain ⟨hnone, hends⟩ := scanDevices_ok hscan
      rw [hnone]
      exact ⟨by simp, hends⟩

/-! ## What is so after a past -/

/-- No round of the past was evidence. -/
def QuietPast (count : Nat) (past : List (Gate × Round)) : Prop :=
  ∀ p ∈ past, ¬ p.2.Evidence count

/-- Some round of the past came after the quiet interval. -/
def Elapsed (setting : Setting) (past : List (Gate × Round)) : Prop :=
  ∃ p ∈ past, setting.now + armQuietInterval ≤ p.2.now

namespace Gate

/-- The gate still stands. -/
structure Open (setting : Setting) (past : List (Gate × Round)) (g : Gate) : Prop where
  watching : g.watching = true
  devices : g.devices = List.range setting.devices.length
  inst : g.status.inst = setting.inst
  epoch : g.status.epoch = 1
  reason : g.status.reason = .none
  state : g.status.state = .arming ∧ g.armDeadline = some (setting.now + armQuietInterval) ∧
      ¬ Elapsed setting past ∨
    g.status.state = .ready ∧ g.armDeadline = none ∧ Elapsed setting past

/-- The gate is closed and has nothing left to look at. -/
structure Closed (setting : Setting) (g : Gate) : Prop where
  watching : g.watching = false
  devices : g.devices = []
  deadline : g.armDeadline = none
  inst : g.status.inst = setting.inst
  epoch : g.status.epoch ≠ 0
  ends : Update.Ends (g.status.state, g.status.reason)

/-- It stands exactly as long as everything was quiet. -/
structure Follows (setting : Setting) (past : List (Gate × Round)) (g : Gate) : Prop where
  inst : setting.inst ≠ 0
  quiet : setting.Quiet ∧ QuietPast setting.devices.length past → g.Open setting past
  loud : ¬ (setting.Quiet ∧ QuietPast setting.devices.length past) → g.Closed setting

theorem Open.update_eq_none {setting : Setting} {past : List (Gate × Round)} {g : Gate}
    (h : g.Open setting past) (r : Round) :
    g.update r = none ↔ ¬ r.Evidence setting.devices.length := by
  unfold update Round.Evidence
  rw [if_pos h.watching, h.devices, Option.or_eq_none_iff, eligibilityUpdate_eq_none,
    List.findSome?_eq_none_iff]
  simp only [List.mem_range, deviceUpdate_eq_none]
  simp [and_assoc]

theorem update_ends {g : Gate} {r : Round} {found : Update} (h : g.update r = some found) :
    found.Ends := by
  rcases Option.or_eq_some_iff.mp h with hfirst | ⟨-, hdevice⟩
  · split_ifs at hfirst with hwatching
    exact eligibilityUpdate_ends hfirst
  · obtain ⟨i, -, hi⟩ := List.exists_of_findSome?_eq_some hdevice
    exact deviceUpdate_ends hi

theorem Closed.observe {setting : Setting} {g : Gate} (h : g.Closed setting) (r : Round) :
    g.observe r = g := by
  have hupdate : g.update r = none := by
    unfold update
    rw [h.watching, h.devices]
    rfl
  unfold Gate.observe
  rw [hupdate, h.deadline]
  rfl

theorem ok_of_toOption {α : Type} {x : Except String α} {a : α} (h : x.toOption = some a) :
    x = .ok a := by
  cases x with
  | error error => cases h
  | ok b => exact congrArg Except.ok (Option.some.inj h)

theorem Follows.start {setting : Setting} {g : Gate} (h : Gate.start setting = some g) :
    g.Follows setting [] := by
  obtain ⟨eligibility?, hattempts, h⟩ := Option.bind_eq_some_iff.mp h
  obtain ⟨eligibility, heligibility, h⟩ := Option.bind_eq_some_iff.mp h
  obtain ⟨found, hfound, h⟩ := Option.bind_eq_some_iff.mp h
  have hread : readInitialEligibility [] setting.attempts = some (.ok eligibility) := by
    rw [hattempts, ok_of_toOption heligibility]
  have hdevices := initialDeviceUpdate_ok (ok_of_toOption hfound)
  have hquiet : setting.Quiet ↔ eligibility = .eligible ∧ found = none := by
    unfold Setting.Quiet
    rw [hread, hdevices.1]
    simp
  have hpast : QuietPast setting.devices.length [] := by simp [QuietPast]
  split_ifs at h with hinst
  refine ⟨hinst, fun hall => ?_, fun hnot => ?_⟩
  · obtain ⟨rfl, rfl⟩ := hquiet.mp hall.1
    obtain rfl := Option.some.inj h
    exact ⟨rfl, rfl, rfl, rfl, rfl, Or.inl ⟨rfl, rfl, by simp [Elapsed]⟩⟩
  · have hupdate : ∃ update, initialUpdate eligibility found = some update ∧ Update.Ends update := by
      unfold initialUpdate
      split_ifs with hineligible
      · exact ⟨_, rfl, rfl, by decide, by decide⟩
      · cases hsome : found with
        | none =>
          refine absurd ⟨hquiet.mpr ⟨?_, hsome⟩, hpast⟩ hnot
          cases eligibility with
          | eligible => rfl
          | ineligible => exact absurd rfl hineligible
        | some update => exact ⟨update, rfl, hdevices.2 update hsome⟩
    obtain ⟨update, hsome, hends⟩ := hupdate
    rw [hsome] at h
    obtain rfl := Option.some.inj h
    exact ⟨rfl, rfl, rfl, rfl, (by decide : (1 : UInt64) ≠ 0), hends⟩

theorem saturatingSucc_ne_zero (n : UInt64) : saturatingSucc n ≠ 0 := by
  unfold saturatingSucc
  split_ifs with h
  · rw [h]
    decide
  · intro hzero
    apply h
    rw [← UInt64.toNat_inj] at hzero ⊢
    have hlt := n.toNat_lt
    rw [UInt64.toNat_add] at hzero
    simp at hzero ⊢
    omega

/-- What one round makes of a gate, its provider aside. -/
theorem Follows.observe {setting : Setting} {past : List (Gate × Round)} {g : Gate}
    (h : g.Follows setting past) (r : Round) :
    (g.observe r).Follows setting ((g, r) :: past) := by
  have hpast : QuietPast setting.devices.length ((g, r) :: past) ↔
      ¬ r.Evidence setting.devices.length ∧ QuietPast setting.devices.length past :=
    List.forall_mem_cons
  have helapsed : Elapsed setting ((g, r) :: past) ↔
      setting.now + armQuietInterval ≤ r.now ∨ Elapsed setting past := List.exists_mem_cons_iff ..
  by_cases hquiet : setting.Quiet ∧ QuietPast setting.devices.length past
  · have hopen := h.quiet hquiet
    by_cases hevidence : r.Evidence setting.devices.length
    · -- the first evidence closes the gate
      refine ⟨h.inst, fun hall => absurd hevidence (hpast.mp hall.2).1, fun _ => ?_⟩
      obtain ⟨found, hfound⟩ := Option.ne_none_iff_exists'.mp
        (fun hnone => (hopen.update_eq_none r).mp hnone hevidence)
      unfold Gate.observe
      rw [hfound]
      exact ⟨rfl, rfl, rfl, hopen.inst, saturatingSucc_ne_zero _, update_ends hfound⟩
    · refine ⟨h.inst, fun _ => ?_, fun hnot => absurd ⟨hquiet.1, hpast.mpr ⟨hevidence, hquiet.2⟩⟩ hnot⟩
      have hnone := (hopen.update_eq_none r).mpr hevidence
      unfold Gate.observe
      rw [hnone]
      rcases hopen.state with ⟨hstate, hdeadline, hbefore⟩ | ⟨hstate, hdeadline, hafter⟩
      · -- still arming, or ready from this round on
        by_cases hnow : setting.now + armQuietInterval ≤ r.now
        · simp only [hdeadline, Option.any_some, decide_eq_true hnow, if_true]
          exact ⟨hopen.watching, hopen.devices, hopen.inst, hopen.epoch, hopen.reason,
            Or.inr ⟨rfl, rfl, helapsed.mpr (Or.inl hnow)⟩⟩
        · simp only [hdeadline, Option.any_some, decide_eq_false hnow, Bool.false_eq_true, if_false]
          have hstill : ¬ Elapsed setting ((g, r) :: past) := by
            rw [helapsed]
            exact not_or.mpr ⟨hnow, hbefore⟩
          exact ⟨hopen.watching, hopen.devices, hopen.inst, hopen.epoch, hopen.reason,
            Or.inl ⟨hstate, hdeadline, hstill⟩⟩
      · simp only [hdeadline, Option.any_none, Bool.false_eq_true, if_false]
        exact ⟨hopen.watching, hopen.devices, hopen.inst, hopen.epoch, hopen.reason,
          Or.inr ⟨hstate, hdeadline, helapsed.mpr (Or.inr hafter)⟩⟩
  · -- closed already, and a closed gate does not change
    have hclosed := h.loud hquiet
    rw [hclosed.observe r]
    exact ⟨h.inst, fun hall => absurd ⟨hall.1, (hpast.mp hall.2).2⟩ hquiet, fun _ => hclosed⟩

/-- Of all of this a round changes nothing but whether a provider is connected. -/
theorem round_eq {g g' : Gate} {r : Round} (h : g.round r = some g') :
    g' = { g.observe r with provider := g'.provider } := by
  unfold round at h
  split_ifs at h with hpolled hprovider hlost hreadable
  · obtain rfl := Option.some.inj h
    rfl
  · obtain ⟨accepted, -, rfl⟩ := Option.map_eq_some_iff.mp h
    rfl
  · obtain rfl := Option.some.inj h
    rfl

theorem Follows.round {setting : Setting} {past : List (Gate × Round)} {g g' : Gate} {r : Round}
    (h : g.Follows setting past) (hround : g.round r = some g') :
    g'.Follows setting ((g, r) :: past) := by
  have hobserve := h.observe r
  rw [round_eq hround]
  exact ⟨hobserve.inst,
    fun hall => ⟨(hobserve.quiet hall).1, (hobserve.quiet hall).2, (hobserve.quiet hall).3,
      (hobserve.quiet hall).4, (hobserve.quiet hall).5, (hobserve.quiet hall).6⟩,
    fun hnot => ⟨(hobserve.loud hnot).1, (hobserve.loud hnot).2, (hobserve.loud hnot).3,
      (hobserve.loud hnot).4, (hobserve.loud hnot).5, (hobserve.loud hnot).6⟩⟩

/-- The runs of one broker from what it finds. -/
abbrev Runs (setting : Setting) : List (Gate × Round) → Gate → Prop :=
  Run (fun g => Gate.start setting = some g) Gate.round fun _ _ => True

theorem Runs.follows {setting : Setting} {past : List (Gate × Round)} {g : Gate}
    (run : Runs setting past g) : g.Follows setting past :=
  run.history (fun _ => Follows.start) fun _ _ _ _ hfollows _ => hfollows.round

theorem Follows.inst_eq {setting : Setting} {past : List (Gate × Round)} {g : Gate}
    (h : g.Follows setting past) : g.status.inst = setting.inst := by
  by_cases hquiet : setting.Quiet ∧ QuietPast setting.devices.length past
  · exact (h.quiet hquiet).inst
  · exact (h.loud hquiet).inst

theorem Follows.valid {setting : Setting} {past : List (Gate × Round)} {g : Gate}
    (h : g.Follows setting past) : g.status.Valid := by
  by_cases hquiet : setting.Quiet ∧ QuietPast setting.devices.length past
  · have hopen := h.quiet hquiet
    refine ⟨?_, hopen.inst ▸ h.inst, hopen.epoch ▸ (by decide : (1 : UInt64) ≠ 0)⟩
    rcases hopen.state with ⟨hstate, -⟩ | ⟨hstate, -⟩ <;> rw [hstate, hopen.reason] <;> rfl
  · have hclosed := h.loud hquiet
    exact ⟨hclosed.ends.1, hclosed.inst ▸ h.inst, hclosed.epoch⟩

theorem Follows.ready_iff {setting : Setting} {past : List (Gate × Round)} {g : Gate}
    (h : g.Follows setting past) :
    g.status.state = .ready ↔
      (setting.Quiet ∧ QuietPast setting.devices.length past) ∧ Elapsed setting past := by
  by_cases hquiet : setting.Quiet ∧ QuietPast setting.devices.length past
  · rcases (h.quiet hquiet).state with ⟨hstate, -, hbefore⟩ | ⟨hstate, -, hafter⟩
    · simp [hstate, hbefore]
    · exact iff_of_true hstate ⟨hquiet, hafter⟩
  · exact iff_of_false (h.loud hquiet).ends.2.2 fun hall => hquiet hall.1

theorem Follows.arming_iff {setting : Setting} {past : List (Gate × Round)} {g : Gate}
    (h : g.Follows setting past) :
    g.status.state = .arming ↔
      (setting.Quiet ∧ QuietPast setting.devices.length past) ∧ ¬ Elapsed setting past := by
  by_cases hquiet : setting.Quiet ∧ QuietPast setting.devices.length past
  · rcases (h.quiet hquiet).state with ⟨hstate, -, hbefore⟩ | ⟨hstate, -, hafter⟩
    · exact iff_of_true hstate ⟨hquiet, hbefore⟩
    · simp [hstate, hafter]
  · exact iff_of_false (h.loud hquiet).ends.2.1 fun hall => hquiet hall.1

theorem Follows.answer {setting : Setting} {past : List (Gate × Round)} {g : Gate} {r : Round}
    (h : g.Follows setting past) {frame : List UInt8} (hanswer : g.answer r = some frame) :
    readStatusResponse frame = .ok (g.observe r).status := by
  unfold Gate.answer at hanswer
  split_ifs at hanswer with hasked
  obtain rfl := Option.some.inj hanswer
  have hlength : (g.observe r).status.encode.length = statusResponseBytes := by
    simp [BrokerStatus.encode, magic, revisionBytes, statusResponseBytes, Words.toLittleEndian_length]
  rw [readStatusResponse, if_neg (by omega), ← hlength, List.take_length]
  exact (BrokerStatus.decode_iff hlength _).mpr ⟨(h.observe r).valid, rfl⟩

end Gate

/-- What a provider reads in any round of any run: a valid status of this broker's instance, `Arming`
    or `Ready` exactly if the start was quiet and no round so far, that one included, was evidence,
    and of these `Ready` exactly once the quiet interval has gone by. -/
theorem broker_latch {setting : Setting} {past earlier later : List (Gate × Round)} {g g₀ : Gate}
    {r : Round} (run : Gate.Runs setting past g) (hround : past = later ++ (g₀, r) :: earlier)
    {frame : List UInt8} (hanswer : g₀.answer r = some frame) :
    ∃ status, readStatusResponse frame = .ok status ∧ status.Valid ∧
      status.inst = setting.inst ∧
      (status.state = .arming ∨ status.state = .ready ↔
        setting.Quiet ∧ ∀ p ∈ (g₀, r) :: earlier, ¬ p.2.Evidence setting.devices.length) ∧
      (status.state = .arming → ∀ p ∈ (g₀, r) :: earlier, p.2.now < setting.now + armQuietInterval) ∧
      (status.state = .ready → ∃ p ∈ (g₀, r) :: earlier, setting.now + armQuietInterval ≤ p.2.now) := by
  have hbefore := Gate.Runs.follows (run.before hround)
  have hfollows := hbefore.observe r
  refine ⟨_, hbefore.answer hanswer, hfollows.valid, hfollows.inst_eq, ?_, ?_, ?_⟩
  · rw [hfollows.arming_iff, hfollows.ready_iff]
    tauto
  · intro harming
    have := (hfollows.arming_iff.mp harming).2
    intro p hp
    by_contra hnot
    exact this ⟨p, hp, by omega⟩
  · intro hready
    exact (hfollows.ready_iff.mp hready).2

/-- A start at which all is quiet, and rounds in which it stays so. -/
def restSetting : Setting :=
  ⟨[.bytes (eligibilityFrame .eligible)], .ok (), [⟨some (.ok false), ⟨false, false⟩, .ok []⟩], 7, 0⟩

def restRound (now : Nat) (asks : Bool) : Round where
  polled := .ok ()
  eligibility := ⟨false, false⟩
  assertion := []
  device := fun _ => ⟨⟨false, false⟩, some []⟩
  now := now
  listener := ⟨false, !asks⟩
  accepted := .ok true
  provider := ⟨false, asks⟩
  request := statusRequest
  wrote := true

def restGate (state : BrokerState) (deadline : Option Nat) (provider : Bool) : Gate :=
  ⟨⟨7, 1, state, .none⟩, true, [0], deadline, provider⟩

/-- A provider comes while the gate is arming, and asks when it is ready and once more. -/
theorem restRun : Gate.Runs restSetting
    [(restGate .ready none true, restRound 600 true),
      (restGate .arming (some 250) true, restRound 300 true),
      (restGate .arming (some 250) false, restRound 100 false)]
    (restGate .ready none true) := by
  have hstart : Gate.Runs restSetting [] (restGate .arming (some 250) false) := Run.start rfl
  have haccepted : Gate.Runs restSetting _ (restGate .arming (some 250) true) :=
    hstart.step (restRound 100 false) trivial rfl
  have hready : Gate.Runs restSetting _ (restGate .ready none true) :=
    haccepted.step (restRound 300 true) trivial rfl
  exact hready.step (restRound 600 true) trivial rfl

theorem broker_latch_rest : ∃ status,
    readStatusResponse (restGate .ready none true).status.encode = .ok status ∧
      status.inst = 7 ∧ (status.state = .arming ∨ status.state = .ready) := by
  obtain ⟨status, hread, -, hinst, hstate, -⟩ := @broker_latch _ _ _ [] _ _ _ restRun rfl _ rfl
  refine ⟨status, hread, hinst, hstate.mpr ⟨⟨rfl, ?_⟩, ?_⟩⟩
  · simp [restSetting, InitialDevice.Evidence]
  · simp [restRound, Round.Evidence, DeviceRound.Evidence]

/-- Two answers of one broker are the same ready gate exactly if the earlier one is ready and no round
    after it, up to the later one, was evidence. -/
theorem same_ready_iff {setting : Setting} {past earlier between later : List (Gate × Round)}
    {g g₁ g₂ : Gate} {r₁ r₂ : Round} (run : Gate.Runs setting past g)
    (hrounds : past = later ++ (g₂, r₂) :: (between ++ (g₁, r₁) :: earlier))
    {frame₁ frame₂ : List UInt8} (hanswer₁ : g₁.answer r₁ = some frame₁)
    (hanswer₂ : g₂.answer r₂ = some frame₂) :
    ∃ status₁ status₂, readStatusResponse frame₁ = .ok status₁ ∧
      readStatusResponse frame₂ = .ok status₂ ∧
      (status₁.isSameReady status₂ = true ↔ status₁.state = .ready ∧
        ∀ p ∈ (g₂, r₂) :: between, ¬ p.2.Evidence setting.devices.length) := by
  have hrun₂ := run.before hrounds
  have hbefore₁ := Gate.Runs.follows (hrun₂.before rfl)
  have hbefore₂ := Gate.Runs.follows hrun₂
  have hfollows₁ := hbefore₁.observe r₁
  have hfollows₂ := hbefore₂.observe r₂
  have hquiet : QuietPast setting.devices.length ((g₂, r₂) :: (between ++ (g₁, r₁) :: earlier)) ↔
      (∀ p ∈ (g₂, r₂) :: between, ¬ p.2.Evidence setting.devices.length) ∧
        QuietPast setting.devices.length ((g₁, r₁) :: earlier) := by
    unfold QuietPast
    rw [← List.cons_append, List.forall_mem_append]
  refine ⟨_, _, hbefore₁.answer hanswer₁, hbefore₂.answer hanswer₂, ?_⟩
  unfold BrokerStatus.isSameReady
  rw [decide_eq_true_iff]
  constructor
  · rintro ⟨hready₁, hready₂, -, -⟩
    exact ⟨hready₁, (hquiet.mp (hfollows₂.ready_iff.mp hready₂).1.2).1⟩
  · rintro ⟨hready₁, hbetween⟩
    obtain ⟨⟨hstart, hpast₁⟩, p, hp, hnow⟩ := hfollows₁.ready_iff.mp hready₁
    have hpast₂ := hquiet.mpr ⟨hbetween, hpast₁⟩
    have helapsed : Elapsed setting ((g₂, r₂) :: (between ++ (g₁, r₁) :: earlier)) :=
      ⟨p, List.mem_cons_of_mem _ (List.mem_append_right _ hp), hnow⟩
    refine ⟨hready₁, hfollows₂.ready_iff.mpr ⟨⟨hstart, hpast₂⟩, helapsed⟩, ?_, ?_⟩
    · rw [hfollows₁.inst_eq, hfollows₂.inst_eq]
    · rw [(hfollows₁.quiet ⟨hstart, hpast₁⟩).epoch, (hfollows₂.quiet ⟨hstart, hpast₂⟩).epoch]

theorem same_ready_rest : ∃ status₁ status₂ : BrokerStatus, status₁.isSameReady status₂ = true ∧
    readStatusResponse (restGate .ready none true).status.encode = .ok status₁ ∧
    readStatusResponse (restGate .ready none true).status.encode = .ok status₂ := by
  obtain ⟨status₁, status₂, hread₁, hread₂, hsame⟩ :=
    @same_ready_iff _ _ _ [] [] _ _ _ _ _ restRun rfl _ _ rfl rfl
  refine ⟨status₁, status₂, hsame.mpr ⟨?_, ?_⟩, hread₁, hread₂⟩
  · have hready : readStatusResponse (restGate .ready none true).status.encode =
        .ok (restGate .ready none true).status := by decide
    obtain rfl := Except.ok.inj (hread₁.symm.trans hready)
    rfl
  · simp [restRound, Round.Evidence, DeviceRound.Evidence]

end AgentSeat.Broker
