/-
  The operator's control socket (`seat.rs`) and the loop that serves it beside the sessions
  (`lib.rs`).

  `handlePending` answers one connection; whatever its peer does is part of the connection it is
  given: what arrives before the peer closes or stays silent for the timeout, and how the write of
  the answer ends. The gate's word is only written here, so a transition is made without others
  between its atomic steps (`setEnabled_run`); sessions load the word and nothing else.
-/
import AgentSeat.Seat.Gate
import AgentSeat.Lib.Words

namespace AgentSeat.Seat

open AgentSeat.Proto AgentSeat.Lib.Words

/-! ## The messages -/

def controlMagic : List UInt8 := [65, 83, 71, 49]

def requestBytes : Nat := controlMagic.length + 1
def responseBytes : Nat := controlMagic.length + 1 + 8

inductive ControlCommand where
  | status
  | enable
  | disable
  deriving DecidableEq

def ControlCommand.code : ControlCommand → UInt8
  | .status => 0
  | .enable => 1
  | .disable => 2

def ControlCommand.ofCode (code : UInt8) : Option ControlCommand :=
  if code = 0 then some .status
  else if code = 1 then some .enable
  else if code = 2 then some .disable
  else none

/-- What a client writes. -/
def encodeRequest (command : ControlCommand) : List UInt8 := controlMagic ++ [command.code]

/-- `read_exact` of a request and the checks on it. -/
def readRequest (sent : List UInt8) : Option ControlCommand :=
  if sent.length < requestBytes ∨ sent.take controlMagic.length ≠ controlMagic then none
  else sent[controlMagic.length]?.bind ControlCommand.ofCode

def encodeStatus (status : SeatStatus) : List UInt8 :=
  controlMagic ++ (if status.enabled then 1 else 0) :: toLittleEndian 8 status.generation

def decodeStatus (response : List UInt8) : Except String SeatStatus :=
  if response.take controlMagic.length ≠ controlMagic then
    .error "provider returned an invalid seat-control response"
  else
    match response.drop controlMagic.length with
    | 0 :: generation => .ok ⟨false, littleEndian generation⟩
    | 1 :: generation => .ok ⟨true, littleEndian generation⟩
    | _ => .error "provider returned an invalid seat-control state"

/-! ## The gate -/

/-- `set_enabled` with no other writer: the word after it and what it returns. -/
def setEnabled (enabled : Bool) (raw : Nat) : Nat × Except String SeatStatus :=
  if (SeatStatus.fromRaw raw).enabled = enabled then (raw, .ok (SeatStatus.fromRaw raw))
  else
    match checkedSucc raw with
    | none =>
      (disabledTerminal, if enabled then .error exhausted
        else .ok (SeatStatus.fromRaw disabledTerminal))
    | some next =>
      if next = disabledTerminal then (disabledTerminal, .error exhausted)
      else (next, .ok (SeatStatus.fromRaw next))

def perform (raw : Nat) : ControlCommand → Nat × Except String SeatStatus
  | .status => (raw, .ok (SeatStatus.fromRaw raw))
  | .enable => setEnabled true raw
  | .disable => setEnabled false raw

/-! ## One connection -/

/-- A connection, and what the system calls on it give. A write fails when the peer has closed. -/
structure Connection where
  peer : Except String Nat
  timeouts : Except String Unit
  sent : List UInt8
  write : Except String Unit

inductive Accepted where
  | wouldBlock
  | failed (error : String)
  | connected (connection : Connection)

/-- One call of `handle_pending`: the word before and after it, what was written to the peer, and
    what it returned. -/
structure Handled where
  accepted : Accepted
  before : Nat
  after : Nat
  answer : List UInt8
  result : Except String Unit

/-- From an authenticated peer whose timeouts are set. -/
def answerRequest (raw : Nat) (connection : Connection) : Nat × List UInt8 × Except String Unit :=
  match readRequest connection.sent with
  | none => (raw, [], .ok ())
  | some command =>
    match (perform raw command).2, connection.write with
    | .error error, _ => ((perform raw command).1, [], .error error)
    | .ok status, .ok () => ((perform raw command).1, encodeStatus status, .ok ())
    | .ok _, .error error =>
      ((perform raw command).1, [], .error s!"cannot acknowledge seat-control request: {error}")

def handleConnection (euid raw : Nat) (connection : Connection) :
    Nat × List UInt8 × Except String Unit :=
  match connection.peer with
  | .error error => (raw, [], .error s!"cannot authenticate seat-control peer: {error}")
  | .ok uid =>
    if uid ≠ euid then (raw, [], .ok ())
    else
      match connection.timeouts with
      | .error error => (raw, [], .error s!"cannot bound seat-control I/O: {error}")
      | .ok () => answerRequest raw connection

def handlePending (euid raw : Nat) (accepted : Accepted) : Handled :=
  match accepted with
  | .wouldBlock => ⟨accepted, raw, raw, [], .ok ()⟩
  | .failed error => ⟨accepted, raw, raw, [], .error s!"seat-control accept failed: {error}"⟩
  | .connected connection =>
    let (after, answer, result) := handleConnection euid raw connection
    ⟨accepted, raw, after, answer, result⟩

/-- A client that asks for a command, and what its system calls give; `arrived` is what it reads
    before the connection ends or its timeout passes. -/
structure Client where
  command : ControlCommand
  connect : Except String Unit
  timeouts : Except String Unit
  write : Except String Unit
  arrived : List UInt8
  readError : String

/-- What it writes; its peer may see any beginning of it. -/
def Client.sends (client : Client) : List UInt8 := encodeRequest client.command

def Client.request (client : Client) : Except String SeatStatus :=
  match client.connect, client.timeouts, client.write with
  | .error error, _, _ =>
    .error s!"cannot connect to running provider seat control: {error}"
  | .ok (), .error error, _ => .error s!"cannot bound seat-control I/O: {error}"
  | .ok (), .ok (), .error error => .error s!"cannot send seat-control request: {error}"
  | .ok (), .ok (), .ok () =>
    if client.arrived.length < responseBytes then
      .error s!"cannot read seat-control response: {client.readError}"
    else decodeStatus (client.arrived.take responseBytes)

/-! ## The serve loop -/

/-- What the listener of the sessions gives. -/
inductive Incoming where
  | wouldBlock
  | failed (error : String)
  | connected (spawned : Except String Unit)

/-- What the calls of one round of the loop give. -/
structure Round where
  stopping : Bool
  control : Accepted
  finished : Nat → Bool
  lost : Except String Bool
  incoming : Incoming
  withdrawn : Except String Unit

/-- The word of the gate, the numbers of the sessions, in no order, and the next number. -/
structure Serving where
  raw : Nat
  sessions : List Nat
  nextSession : Nat

/-- A connection for a session; a number that is gone is not used again. -/
def Serving.accept (maxSessions : Nat) (s : Serving) (spawned : Except String Unit) :
    Serving × Option (Except String Unit) :=
  if s.sessions.length ≥ maxSessions then (s, none)
  else
    match if s.nextSession = 0 then none else checkedSucc s.nextSession with
    | none => (s, some (.error "session identity space is exhausted"))
    | some next =>
      match spawned with
      | .error error =>
        ({ s with nextSession := next },
          some (.error s!"cannot start bounded session worker: {error}"))
      | .ok () => ({ s with sessions := s.sessions ++ [s.nextSession], nextSession := next }, none)

/-- A round after its control connection, and how it ends the loop if it does. -/
def Serving.afterControl (maxSessions : Nat) (s : Serving) (r : Round) :
    Serving × Option (Except String Unit) :=
  let reaped := { s with sessions := s.sessions.filter fun number => !r.finished number }
  match r.lost with
  | .error error => (reaped, some (.error error))
  | .ok true => (reaped, some (.error "Agent Seat selection ownership was lost"))
  | .ok false =>
    match r.incoming with
    | .wouldBlock => (reaped, none)
    | .failed error => (reaped, some (.error s!"provider listener failed: {error}"))
    | .connected spawned => reaped.accept maxSessions spawned

/-- Where the loop stands, the calls of `handle_pending` it made, and its result if it has ended. -/
structure Served where
  state : Serving
  calls : List Handled
  ended : Option (Except String Unit)

def Serving.round (euid maxSessions : Nat) (s : Serving) (r : Round) : Served :=
  if r.stopping then ⟨s, [], some r.withdrawn⟩
  else
    let handled := handlePending euid s.raw r.control
    match handled.result with
    | .error error => ⟨{ s with raw := handled.after }, [handled], some (.error error)⟩
    | .ok () =>
      let (s', ended) := { s with raw := handled.after }.afterControl maxSessions r
      ⟨s', [handled], ended⟩

/-- The loop over the rounds there are, until one ends it. -/
def serve (euid maxSessions : Nat) : Serving → List Round → Served
  | s, [] => ⟨s, [], none⟩
  | s, r :: rest =>
    let first := s.round euid maxSessions r
    match first.ended with
    | some result => ⟨first.state, first.calls, some result⟩
    | none =>
      let later := serve euid maxSessions first.state rest
      ⟨later.state, first.calls ++ later.calls, later.ended⟩

/-! ## Messages across the socket -/

theorem encodeStatus_length (status : SeatStatus) :
    (encodeStatus status).length = responseBytes := by
  rw [encodeStatus, List.length_append, List.length_cons, toLittleEndian_length]
  rfl

theorem decode_encode_status {status : SeatStatus} (h : status.generation < 2 ^ 64) :
    decodeStatus (encodeStatus status) = .ok status := by
  have hread : littleEndian (toLittleEndian 8 status.generation) = status.generation :=
    littleEndian_toLittleEndian h
  obtain ⟨enabled, generation⟩ := status
  unfold decodeStatus encodeStatus
  rw [List.take_left, List.drop_left, if_neg (fun h => h rfl)]
  cases enabled
  · exact congrArg (fun n => Except.ok (SeatStatus.mk false n)) hread
  · exact congrArg (fun n => Except.ok (SeatStatus.mk true n)) hread

/-- A request that was read is at the beginning of what was sent. -/
theorem encodeRequest_of_read {sent : List UInt8} {command : ControlCommand}
    (h : readRequest sent = some command) : encodeRequest command <+: sent := by
  unfold readRequest at h
  split_ifs at h with hshort
  simp only [not_or, Nat.not_lt, not_not] at hshort
  obtain ⟨code, hcode, hcommand⟩ := Option.bind_eq_some_iff.mp h
  have hname : code = command.code := by
    unfold ControlCommand.ofCode at hcommand
    split_ifs at hcommand with hstatus henable hdisable <;>
      (obtain rfl := Option.some.inj hcommand; assumption)
  have htaken : sent.take (controlMagic.length + 1) = encodeRequest command := by
    rw [List.take_add_one, hshort.2, hcode, hname]
    rfl
  rw [← htaken]
  exact List.take_prefix _ _

/-- A peer that saw a beginning of a client's request and read a command has seen all of it. -/
theorem read_of_prefix {sent : List UInt8} {command read : ControlCommand}
    (hsent : sent <+: encodeRequest command) (hread : readRequest sent = some read) :
    sent = encodeRequest command ∧ read = command := by
  have hread := encodeRequest_of_read hread
  have hlong : (encodeRequest command).length ≤ sent.length := hread.length_le
  have hall : sent = encodeRequest command := hsent.eq_of_length_le hlong
  refine ⟨hall, ?_⟩
  have hsame : encodeRequest read = encodeRequest command := by
    rw [hall] at hread
    exact hread.eq_of_length rfl
  have hcode : read.code = command.code := by
    have := List.append_cancel_left hsame
    exact (List.cons.inj this).1
  cases read <;> cases command <;> first | rfl | exact absurd hcode (by decide)

/-! ## What a command does to the gate -/

section Commands

variable {raw : Nat}

/-- With nobody else between its steps, what threads may interleave with is `setEnabled`. -/
theorem setEnabled_run {ι : Type} [DecidableEq ι] (thread : ι) (enabled : Bool) (raw : Nat) :
    ((System.atRest raw).run [.invoke thread (.setEnabled enabled), .act thread, .act thread]).1.raw =
      (setEnabled enabled raw).1 ∧
    ∃ e ∈ ((System.atRest raw).run
        [.invoke thread (.setEnabled enabled), .act thread, .act thread]).2,
      e.reply = some (.setEnabled enabled (setEnabled enabled raw).2) := by
  unfold setEnabled
  by_cases same : (SeatStatus.fromRaw raw).enabled = enabled
  · have hattempt : attempt enabled raw =
        (.idle, some (.setEnabled enabled (.ok (SeatStatus.fromRaw raw)))) := by
      rw [attempt, if_pos same]
    simp [System.run, System.step, System.atRest, System.set, operate, hattempt, same]
  · cases hnext : checkedSucc raw with
    | none =>
      have hattempt : attempt enabled raw = (.store enabled (if enabled then .error exhausted
          else .ok (SeatStatus.fromRaw disabledTerminal)), none) := by
        rw [attempt, if_neg same, hnext]
      simp [System.run, System.step, System.atRest, System.set, operate, hattempt, same]
    | some next =>
      by_cases hterm : next = disabledTerminal
      · have hattempt : attempt enabled raw = (.store enabled (.error exhausted), none) := by
          rw [attempt, if_neg same, hnext]
          exact if_pos hterm
        simp [System.run, System.step, System.atRest, System.set, operate, hattempt, same, hterm]
      · have hattempt : attempt enabled raw = (.exchange enabled raw next, none) := by
          rw [attempt, if_neg same, hnext]
          exact if_neg hterm
        simp [System.run, System.step, System.atRest, System.set, operate, hattempt, same, hterm]

theorem setEnabled_ok (room : raw + 1 < disabledTerminal) (enabled : Bool) :
    (setEnabled enabled raw).2 = .ok (SeatStatus.fromRaw (setEnabled enabled raw).1) ∧
      ((setEnabled enabled raw).1 = raw ∨ (setEnabled enabled raw).1 = raw + 1) := by
  have hnext : checkedSucc raw = some (raw + 1) :=
    checkedSucc_eq_some.mpr ⟨by unfold disabledTerminal at room; omega, rfl⟩
  unfold setEnabled
  by_cases same : (SeatStatus.fromRaw raw).enabled = enabled
  · rw [if_pos same]
    exact ⟨rfl, Or.inl rfl⟩
  · rw [if_neg same, hnext]
    dsimp only
    rw [if_neg (by omega)]
    exact ⟨rfl, Or.inr rfl⟩

theorem perform_ok (room : raw + 1 < disabledTerminal) (command : ControlCommand) :
    (perform raw command).2 = .ok (SeatStatus.fromRaw (perform raw command).1) ∧
      ((perform raw command).1 = raw ∨
        command ≠ .status ∧ (perform raw command).1 = raw + 1) := by
  cases command with
  | status => exact ⟨rfl, Or.inl rfl⟩
  | enable =>
    obtain ⟨hok, hafter⟩ := setEnabled_ok room true
    exact ⟨hok, hafter.imp_right fun h => ⟨by decide, h⟩⟩
  | disable =>
    obtain ⟨hok, hafter⟩ := setEnabled_ok room false
    exact ⟨hok, hafter.imp_right fun h => ⟨by decide, h⟩⟩

/-- A status fits the eight bytes it is sent in. -/
theorem fromRaw_generation_lt (h : raw ≤ u64Max) : (SeatStatus.fromRaw raw).generation < 2 ^ 64 := by
  show raw / 2 < 2 ^ 64
  unfold u64Max at h
  omega

end Commands

/-! ## One connection -/

/-- The accept, the credentials and the timeouts succeed. -/
def Accepted.Healthy : Accepted → Prop
  | .wouldBlock => True
  | .failed _ => False
  | .connected connection => (∃ uid, connection.peer = .ok uid) ∧ connection.timeouts = .ok ()

/-- A peer of the provider's own user that sent a whole request is still there for the answer. -/
def Accepted.Answerable (euid : Nat) : Accepted → Prop
  | .connected connection => connection.peer = .ok euid →
      (readRequest connection.sent).isSome = true → connection.write = .ok ()
  | _ => True

/-- The gate changed at most once, and only for a peer of the provider's own user that sent a whole
    request to enable or to disable it. -/
def Handled.OneChange (euid : Nat) (call : Handled) : Prop :=
  call.after = call.before ∨ call.after = call.before + 1 ∧
    ∃ connection command, call.accepted = .connected connection ∧ connection.peer = .ok euid ∧
      encodeRequest command <+: connection.sent ∧ command ≠ .status

/-- A client that is told a status through this connection had its command applied, and the status
    is the one right after it. -/
def Handled.ToldTruly (euid : Nat) (call : Handled) : Prop :=
  ∀ connection (client : Client) status, call.accepted = .connected connection →
    connection.sent <+: client.sends → client.arrived <+: call.answer →
    client.request = .ok status →
      connection.peer = .ok euid ∧ connection.sent = client.sends ∧
        perform call.before client.command = (call.after, .ok status) ∧
        status = SeatStatus.fromRaw call.after

section Connections

variable {euid raw : Nat}

@[simp]
theorem handlePending_before (accepted : Accepted) :
    (handlePending euid raw accepted).before = raw := by
  cases accepted <;> rfl

@[simp]
theorem handlePending_accepted (accepted : Accepted) :
    (handlePending euid raw accepted).accepted = accepted := by
  cases accepted <;> rfl

/-- What a connection comes to when the system calls on it succeed. -/
theorem handleConnection_eq {connection : Connection} (h : (Accepted.connected connection).Healthy) :
    handleConnection euid raw connection =
      if connection.peer = .ok euid then answerRequest raw connection else (raw, [], .ok ()) := by
  obtain ⟨⟨uid, hpeer⟩, htimeouts⟩ := h
  unfold handleConnection
  rw [hpeer, htimeouts]
  by_cases huid : uid = euid
  · simp [huid]
  · simp [huid]

theorem handlePending_ok_iff {accepted : Accepted} (healthy : accepted.Healthy)
    (room : raw + 1 < disabledTerminal) :
    (handlePending euid raw accepted).result = .ok () ↔ accepted.Answerable euid := by
  cases accepted with
  | wouldBlock => exact ⟨fun _ => trivial, fun _ => rfl⟩
  | failed error => exact healthy.elim
  | connected connection =>
    show (handleConnection euid raw connection).2.2 = .ok () ↔ _
    rw [handleConnection_eq healthy]
    unfold Accepted.Answerable
    by_cases hpeer : connection.peer = .ok euid
    · rw [if_pos hpeer, answerRequest]
      cases hread : readRequest connection.sent with
      | none => simp [hread]
      | some command =>
        have hok := (perform_ok room command).1
        cases hwrite : connection.write <;> simp [hok, hpeer, hread, hwrite]
    · simp [hpeer]

/-- What is done for a peer that is not answered, and what for one that is. -/
theorem handlePending_cases {accepted : Accepted} (healthy : accepted.Healthy)
    (room : raw + 1 < disabledTerminal) :
    ((handlePending euid raw accepted).after = raw ∧ (handlePending euid raw accepted).answer = []) ∨
      ∃ connection command, accepted = .connected connection ∧ connection.peer = .ok euid ∧
        readRequest connection.sent = some command ∧
        (handlePending euid raw accepted).after = (perform raw command).1 ∧
        ((handlePending euid raw accepted).answer = [] ∨ (handlePending euid raw accepted).answer =
          encodeStatus (SeatStatus.fromRaw (perform raw command).1)) := by
  cases accepted with
  | wouldBlock => exact Or.inl ⟨rfl, rfl⟩
  | failed error => exact healthy.elim
  | connected connection =>
    show (handleConnection euid raw connection).1 = raw ∧
        (handleConnection euid raw connection).2.1 = [] ∨ _
    by_cases hpeer : connection.peer = .ok euid
    · cases hread : readRequest connection.sent with
      | none =>
        rw [handleConnection_eq healthy, if_pos hpeer, answerRequest, hread]
        exact Or.inl ⟨rfl, rfl⟩
      | some command =>
        have hok := (perform_ok room command).1
        refine Or.inr ⟨connection, command, rfl, hpeer, hread, ?_⟩
        show (handleConnection euid raw connection).1 = _ ∧
          ((handleConnection euid raw connection).2.1 = [] ∨
            (handleConnection euid raw connection).2.1 = _)
        rw [handleConnection_eq healthy, if_pos hpeer, answerRequest, hread]
        cases hwrite : connection.write <;> simp [hok]
    · rw [handleConnection_eq healthy, if_neg hpeer]
      exact Or.inl ⟨rfl, rfl⟩

theorem handlePending_oneChange {accepted : Accepted} (healthy : accepted.Healthy)
    (room : raw + 1 < disabledTerminal) : (handlePending euid raw accepted).OneChange euid := by
  unfold Handled.OneChange
  rw [handlePending_before, handlePending_accepted]
  rcases @handlePending_cases euid raw accepted healthy room with
    ⟨hafter, -⟩ | ⟨connection, command, hconnected, hpeer, hread, hafter, -⟩
  · exact Or.inl hafter
  · rw [hafter]
    rcases (perform_ok room command).2 with hsame | ⟨hcommand, hnext⟩
    · exact Or.inl hsame
    · exact Or.inr ⟨hnext, connection, command, hconnected, hpeer, encodeRequest_of_read hread,
        hcommand⟩

/-- A client reads a whole answer, or returns an error. -/
theorem Client.request_ok {client : Client} {status : SeatStatus} (h : client.request = .ok status) :
    responseBytes ≤ client.arrived.length ∧
      decodeStatus (client.arrived.take responseBytes) = .ok status := by
  unfold Client.request at h
  split at h
  · cases h
  · cases h
  · cases h
  · split_ifs at h with hshort
    exact ⟨by omega, h⟩

theorem handlePending_toldTruly {accepted : Accepted} (healthy : accepted.Healthy)
    (room : raw + 1 < disabledTerminal) : (handlePending euid raw accepted).ToldTruly euid := by
  intro connection client status haccepted hsent harrived hrequest
  obtain ⟨hlong, hdecode⟩ := client.request_ok hrequest
  rw [handlePending_accepted] at haccepted
  have hunanswered : (handlePending euid raw accepted).answer ≠ [] := by
    intro hnil
    rw [hnil, List.prefix_nil] at harrived
    rw [harrived] at hlong
    exact absurd hlong (by decide)
  rcases @handlePending_cases euid raw accepted healthy room with
    ⟨-, hnil⟩ | ⟨other, command, hconnected, hpeer, hread, hafter, hnil | hanswer⟩
  · exact absurd hnil hunanswered
  · exact absurd hnil hunanswered
  · obtain rfl := Accepted.connected.inj (haccepted.symm.trans hconnected)
    obtain ⟨hall, rfl⟩ := read_of_prefix hsent hread
    obtain ⟨hok, hstep⟩ := perform_ok room client.command
    have hbound : (perform raw client.command).1 ≤ u64Max := by
      unfold disabledTerminal at room
      omega
    have hwhole : client.arrived = encodeStatus (SeatStatus.fromRaw (perform raw client.command).1) := by
      rw [hanswer] at harrived
      refine harrived.eq_of_length_le ?_
      rw [encodeStatus_length]
      exact hlong
    rw [hwhole, ← encodeStatus_length, List.take_length,
      decode_encode_status (fromRaw_generation_lt hbound)] at hdecode
    obtain rfl := Except.ok.inj hdecode
    refine ⟨hpeer, hall, ?_, by rw [hafter]⟩
    rw [handlePending_before, hafter, ← hok]

end Connections

/-! ## The loop -/

/-- The same but for the gate. -/
def Serving.Alike (s t : Serving) : Prop :=
  s.sessions = t.sessions ∧ s.nextSession = t.nextSession

/-- The round with nobody at the control socket. -/
def Round.unasked (r : Round) : Round := { r with control := .wouldBlock }

section Loop

variable {euid maxSessions : Nat}

theorem Serving.accept_alike {s t : Serving} (h : s.Alike t) (spawned : Except String Unit) :
    (s.accept maxSessions spawned).2 = (t.accept maxSessions spawned).2 ∧
      (s.accept maxSessions spawned).1.Alike (t.accept maxSessions spawned).1 := by
  obtain ⟨hsessions, hnext⟩ := h
  unfold Serving.accept
  rw [hsessions, hnext]
  split
  · exact ⟨rfl, hsessions, hnext⟩
  · split
    · exact ⟨rfl, hsessions, hnext⟩
    · split
      · exact ⟨rfl, rfl, rfl⟩
      · exact ⟨rfl, rfl, rfl⟩

theorem Serving.afterControl_alike {s t : Serving} (h : s.Alike t) (r : Round) :
    (s.afterControl maxSessions r).2 = (t.afterControl maxSessions r.unasked).2 ∧
      (s.afterControl maxSessions r).1.Alike (t.afterControl maxSessions r.unasked).1 := by
  obtain ⟨hsessions, hnext⟩ := h
  obtain ⟨stopping, control, finished, lost, incoming, withdrawn⟩ := r
  have hreaped : Serving.Alike
      { s with sessions := s.sessions.filter fun number => !finished number }
      { t with sessions := t.sessions.filter fun number => !finished number } := by
    refine ⟨?_, hnext⟩
    show s.sessions.filter _ = t.sessions.filter _
    rw [hsessions]
  cases lost with
  | error error => exact ⟨rfl, hreaped⟩
  | ok lost =>
    cases lost with
    | true => exact ⟨rfl, hreaped⟩
    | false =>
      cases incoming with
      | wouldBlock => exact ⟨rfl, hreaped⟩
      | failed error => exact ⟨rfl, hreaped⟩
      | connected spawned => exact Serving.accept_alike hreaped spawned

/-- A round whose control connection does no harm is the round without it. -/
theorem Serving.round_alike {s t : Serving} (h : s.Alike t) (r : Round)
    (hok : ∀ call ∈ (s.round euid maxSessions r).calls, call.result = .ok ()) :
    (s.round euid maxSessions r).ended = (t.round euid maxSessions r.unasked).ended ∧
      (s.round euid maxSessions r).state.Alike (t.round euid maxSessions r.unasked).state := by
  unfold Serving.round at hok ⊢
  by_cases hstopping : r.stopping = true
  · rw [if_pos hstopping, if_pos (show r.unasked.stopping = true from hstopping)]
    exact ⟨rfl, h⟩
  · rw [if_neg hstopping] at hok
    rw [if_neg hstopping, if_neg (show ¬ r.unasked.stopping = true from hstopping)]
    cases hresult : (handlePending euid s.raw r.control).result with
    | error error =>
      have hbad := hok (handlePending euid s.raw r.control) (by simp [hresult])
      rw [hresult] at hbad
      cases hbad
    | ok =>
      have hunasked : handlePending euid t.raw r.unasked.control =
          ⟨.wouldBlock, t.raw, t.raw, [], .ok ()⟩ := rfl
      have halike : Serving.Alike
          { s with raw := (handlePending euid s.raw r.control).after } t := h
      simp only [hresult, hunasked]
      exact Serving.afterControl_alike halike r

theorem serve_alike {s t : Serving} (h : s.Alike t) (rounds : List Round)
    (hok : ∀ call ∈ (serve euid maxSessions s rounds).calls, call.result = .ok ()) :
    (serve euid maxSessions s rounds).ended =
        (serve euid maxSessions t (rounds.map Round.unasked)).ended ∧
      (serve euid maxSessions s rounds).state.Alike
        (serve euid maxSessions t (rounds.map Round.unasked)).state := by
  induction rounds generalizing s t with
  | nil => exact ⟨rfl, h⟩
  | cons r rest ih =>
    rw [List.map_cons]
    unfold serve at hok ⊢
    have hfirst : ∀ call ∈ (s.round euid maxSessions r).calls, call.result = .ok () := by
      intro call hcall
      apply hok
      dsimp only
      split
      · exact hcall
      · exact List.mem_append_left _ hcall
    obtain ⟨hended, hstate⟩ := Serving.round_alike h r hfirst
    dsimp only at hok ⊢
    rw [← hended]
    cases hfate : (s.round euid maxSessions r).ended with
    | some result => exact ⟨rfl, hstate⟩
    | none =>
      rw [hfate] at hok
      exact ih hstate fun call hcall => hok call (List.mem_append_right _ hcall)

/-- What the loop did at the control socket was done by `handlePending`. -/
theorem serve_calls {s : Serving} {rounds : List Round} {call : Handled}
    (h : call ∈ (serve euid maxSessions s rounds).calls) :
    call = handlePending euid call.before call.accepted := by
  induction rounds generalizing s with
  | nil => cases h
  | cons r rest ih =>
    have hround : ∀ call ∈ (s.round euid maxSessions r).calls,
        call = handlePending euid call.before call.accepted := by
      intro call hcall
      have hself : call = handlePending euid s.raw r.control := by
        unfold Serving.round at hcall
        dsimp only at hcall
        split_ifs at hcall
        · cases hcall
        · split at hcall <;> exact List.mem_singleton.mp hcall
      rw [hself, handlePending_before, handlePending_accepted]
    unfold serve at h
    dsimp only at h
    split at h
    · exact hround call h
    · rcases List.mem_append.mp h with h | h
      · exact hround call h
      · exact ih h

/-- While the gate has room, every `handle_pending` returns `Ok` exactly if each peer of the
    provider's own user that sent a whole request is there for the answer. Then the loop and its
    sessions go on as with nobody at the control socket. In any case a connection changes the gate
    once at most, and a client is told the truth. -/
theorem control_peers_harmless (euid maxSessions : Nat) (s : Serving) (rounds : List Round)
    (healthy : ∀ call ∈ (serve euid maxSessions s rounds).calls, call.accepted.Healthy)
    (room : ∀ call ∈ (serve euid maxSessions s rounds).calls,
      call.before + 1 < disabledTerminal) :
    ((∀ call ∈ (serve euid maxSessions s rounds).calls, call.result = .ok ()) ↔
      ∀ call ∈ (serve euid maxSessions s rounds).calls, call.accepted.Answerable euid) ∧
    ((∀ call ∈ (serve euid maxSessions s rounds).calls, call.accepted.Answerable euid) →
      (serve euid maxSessions s rounds).ended =
          (serve euid maxSessions s (rounds.map Round.unasked)).ended ∧
        (serve euid maxSessions s rounds).state.Alike
          (serve euid maxSessions s (rounds.map Round.unasked)).state) ∧
    ∀ call ∈ (serve euid maxSessions s rounds).calls, call.OneChange euid ∧ call.ToldTruly euid := by
  have hcalls : (∀ call ∈ (serve euid maxSessions s rounds).calls, call.result = .ok ()) ↔
      ∀ call ∈ (serve euid maxSessions s rounds).calls, call.accepted.Answerable euid := by
    refine forall₂_congr fun call hcall => ?_
    have hself := serve_calls hcall
    rw [hself]
    simpa using handlePending_ok_iff (healthy call hcall) (room call hcall)
  refine ⟨hcalls, fun h => serve_alike ⟨rfl, rfl⟩ rounds (hcalls.mpr h), fun call hcall => ?_⟩
  rw [serve_calls hcall]
  exact ⟨handlePending_oneChange (healthy call hcall) (room call hcall),
    handlePending_toldTruly (healthy call hcall) (room call hcall)⟩

end Loop

/-- A round in which somebody connects and nothing else happens. -/
def visitedBy (connection : Connection) : Round :=
  ⟨false, .connected connection, fun _ => false, .ok false, .wouldBlock, .ok ()⟩

/-- A peer that asks to enable the gate, and how the write of the answer ends. -/
def enabling (write : Except String Unit) : Connection :=
  ⟨.ok 7, .ok (), encodeRequest .enable, write⟩

/-- A client that waits for its answer: the gate is enabled and the loop goes on. -/
theorem control_peers_harmless_waiting :
    (serve 7 4 ⟨0, [1], 2⟩ [visitedBy (enabling (.ok ()))]).state.raw = 1 ∧
      (serve 7 4 ⟨0, [1], 2⟩ [visitedBy (enabling (.ok ()))]).ended = none := by
  have hcalls : (serve 7 4 ⟨0, [1], 2⟩ [visitedBy (enabling (.ok ()))]).calls =
      [handlePending 7 0 (.connected (enabling (.ok ())))] := rfl
  have hspec := control_peers_harmless 7 4 ⟨0, [1], 2⟩ [visitedBy (enabling (.ok ()))]
  rw [hcalls] at hspec
  obtain ⟨-, hgoes, -⟩ := hspec
    (fun call hcall => by
      rw [List.mem_singleton.mp hcall]
      exact ⟨⟨7, rfl⟩, rfl⟩)
    (fun call hcall => by
      rw [List.mem_singleton.mp hcall]
      decide)
  refine ⟨rfl, (hgoes fun call hcall => ?_).1⟩
  rw [List.mem_singleton.mp hcall]
  exact fun _ _ => rfl

/-- A client of the provider's own user that sends its request and closes before it is answered:
    nothing else fails, and the loop ends, with a session running. -/
theorem closed_peer_stops :
    (∃ call, (serve 7 4 ⟨0, [1], 2⟩ [visitedBy (enabling (.error "Broken pipe"))]).calls = [call] ∧
      call.accepted.Healthy ∧ call.before + 1 < disabledTerminal ∧ call.result ≠ .ok ()) ∧
    (serve 7 4 ⟨0, [1], 2⟩ [visitedBy (enabling (.error "Broken pipe"))]).ended =
      some (.error "cannot acknowledge seat-control request: Broken pipe") ∧
    (serve 7 4 ⟨0, [1], 2⟩ ([visitedBy (enabling (.error "Broken pipe"))].map Round.unasked)).ended =
      none := by
  refine ⟨⟨handlePending 7 0 (.connected (enabling (.error "Broken pipe"))), rfl, ⟨⟨7, rfl⟩, rfl⟩,
    by decide, fun hok => ?_⟩, rfl, rfl⟩
  have hbad : Except.error "cannot acknowledge seat-control request: Broken pipe" = Except.ok () := hok
  cases hbad

end AgentSeat.Seat
