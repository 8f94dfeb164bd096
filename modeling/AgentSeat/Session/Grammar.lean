/-
  The grammar of a session's traces.

  `Served` are the traces of the loop and `Talk` those of a whole session: every run is a word of
  the grammar (`serve_run`, `run_talk`), whatever the peer, the gate and the provider do. The state
  of the provider after a run is what the invoked calls made of it, one after the other.
-/
import AgentSeat.Session.Run

namespace AgentSeat.Session

open AgentSeat.Lib AgentSeat.Proto AgentSeat.Provider AgentSeat.Seat

/-! ## Reading a trace -/

def messageOf : Step → Option ServerMessage
  | .said (.writeFrame message) _ => some message
  | _ => none

def frameOf : Step → Option (Except String ReadFrame)
  | .said .readFrame answer => some answer
  | _ => none

def requestOf : Step → Option Request
  | .said .readFrame (.ok (.message (.request request))) => some request
  | _ => none

def loadOf : Step → Option Nat
  | .said .seatLoad raw => some raw
  | _ => none

def callOf : Step → Option Proto.Call
  | .mark (.invoked call) => some call
  | _ => none

def responseOf : ServerMessage → Option Response
  | .response response => some response
  | _ => none

/-- The messages of the session, those included whose writing failed. -/
def written (trace : List Step) : List ServerMessage := trace.filterMap messageOf

/-- The responses among the messages. -/
def answers (trace : List Step) : List Response := (written trace).filterMap responseOf

/-- What reading a frame gave, each time. -/
def received (trace : List Step) : List (Except String ReadFrame) := trace.filterMap frameOf

/-- The request frames that were read. -/
def requests (trace : List Step) : List Request := trace.filterMap requestOf

/-- The words of the gate that the session saw. -/
def loads (trace : List Step) : List Nat := trace.filterMap loadOf

/-- The calls for which the provider was invoked. -/
def invocations (trace : List Step) : List Proto.Call := trace.filterMap callOf

/-- The permit the session works under: the one of the first word it saw. -/
def sessionPermit (trace : List Step) : Option SeatPermit := (loads trace).head?.bind permitOf

/-- A request frame as it is read. -/
def asRequest (request : Request) : Except String ReadFrame := .ok (.message (.request request))

section Append

variable (trace more : List Step)

theorem written_append : written (trace ++ more) = written trace ++ written more :=
  List.filterMap_append

theorem received_append : received (trace ++ more) = received trace ++ received more :=
  List.filterMap_append

theorem requests_append : requests (trace ++ more) = requests trace ++ requests more :=
  List.filterMap_append

theorem loads_append : loads (trace ++ more) = loads trace ++ loads more :=
  List.filterMap_append

theorem invocations_append :
    invocations (trace ++ more) = invocations trace ++ invocations more :=
  List.filterMap_append

theorem answers_append : answers (trace ++ more) = answers trace ++ answers more := by
  unfold answers
  rw [written_append, List.filterMap_append]

end Append

theorem invocations_said {trace : List Step} (h : ∀ e ∈ trace, e.IsSaid) :
    invocations trace = [] := by
  refine List.filterMap_eq_nil_iff.mpr fun e he => ?_
  cases e with
  | said q a => rfl
  | mark m => exact (h _ he).elim

/-! ## The grammar of the loop -/

/-- A step of the idle wait or about the companion's slot. -/
def Aside : Step → Prop
  | .said .stopping _ | .said .pollStream _ | .said .claimSlot _ | .said .releaseSlot _ => True
  | _ => False

theorem Aside.isSaid {e : Step} (h : Aside e) : e.IsSaid := by
  cases e with
  | said q a => trivial
  | mark m => exact h.elim

theorem Aside.unread {e : Step} (h : Aside e) :
    messageOf e = none ∧ frameOf e = none ∧ requestOf e = none ∧ loadOf e = none ∧
      callOf e = none := by
  cases e with
  | mark m => exact h.elim
  | said q a =>
    cases q with
    | stopping | pollStream | claimSlot | releaseSlot => exact ⟨rfl, rfl, rfl, rfl, rfl⟩
    | boundIo | peerCredentials | readFrame | writeFrame m | seatLoad => exact h.elim

theorem aside_append {idle more : List Step} (h : ∀ e ∈ idle, Aside e)
    (hmore : ∀ e ∈ more, e.IsSaid) : ∀ e ∈ idle ++ more, e.IsSaid := by
  intro e he
  rcases List.mem_append.mp he with he | he
  · exact (h e he).isSaid
  · exact hmore e he

/-- Asides are not part of the conversation. -/
theorem aside_unread {trace : List Step} (h : ∀ e ∈ trace, Aside e) :
    written trace = [] ∧ received trace = [] ∧ requests trace = [] ∧ loads trace = [] ∧
      invocations trace = [] :=
  ⟨List.filterMap_eq_nil_iff.mpr fun e he => (h e he).unread.1,
    List.filterMap_eq_nil_iff.mpr fun e he => (h e he).unread.2.1,
    List.filterMap_eq_nil_iff.mpr fun e he => (h e he).unread.2.2.1,
    List.filterMap_eq_nil_iff.mpr fun e he => (h e he).unread.2.2.2.1,
    List.filterMap_eq_nil_iff.mpr fun e he => (h e he).unread.2.2.2.2⟩

/-- Reading failed, or the peer left. -/
def Leaves : Except String ReadFrame → Prop
  | .error _ | .ok .cleanEof | .ok (.message (.goodbye _)) => True
  | _ => False

section Grammar

variable {P : Type} (provider : Provides P) (context : SessionContext)

/-- The outcome of a request: the provider's if the call is authorized, else a refusal. -/
def Answered (request : Request) (outcome : Outcome) : Prop :=
  if authorized request.call context.granted then
    ∃ p, (provider context request.call p).1 = .ok outcome
  else outcome = refusedOutcome

/-- Up to the answer of a request: it is read, the gate is asked, and the provider is invoked if
    the call is authorized. -/
def asking (request : Request) (raw : Nat) : List Step :=
  .said .readFrame (asRequest request) :: .said .seatLoad raw ::
    if authorized request.call context.granted then [.mark (.invoked request.call)] else []

theorem asking_read (request : Request) (raw : Nat) :
    written (asking context request raw) = [] ∧
      received (asking context request raw) = [asRequest request] ∧
      requests (asking context request raw) = [request] ∧
      loads (asking context request raw) = [raw] := by
  unfold asking
  split <;> exact ⟨rfl, rfl, rfl, rfl⟩

/-- The traces of the loop with a number of requests left. -/
inductive Served : Nat → List Step → Prop
  | bound (sent : Except String Unit) :
      Served 0 [.said (.writeFrame (goodbye .sessionClosed "session request bound reached")) sent]
  | idles {left : Nat} {idle : List Step} (h : ∀ e ∈ idle, Aside e) : Served (left + 1) idle
  | leaves {left : Nat} {idle : List Step} (h : ∀ e ∈ idle, Aside e)
      {answer : Except String ReadFrame} (hleaves : Leaves answer) :
      Served (left + 1) (idle ++ [.said .readFrame answer])
  | repeats {left : Nat} {idle : List Step} (h : ∀ e ∈ idle, Aside e) (hello : Hello)
      (sent : Except String Unit) :
      Served (left + 1) (idle ++ [.said .readFrame (.ok (.message (.hello hello))),
        .said (.writeFrame (goodbye .malformed "hello cannot be repeated")) sent])
  | revoked {left : Nat} {idle : List Step} (h : ∀ e ∈ idle, Aside e) (request : Request)
      {raw : Nat} (hraw : Seat.accepts raw context.permit = false) (sent : Except String Unit) :
      Served (left + 1) (idle ++ [.said .readFrame (asRequest request), .said .seatLoad raw,
        .said (.writeFrame (.response ⟨request.id, revokedOutcome⟩)) sent])
  | unsent {left : Nat} {idle : List Step} (h : ∀ e ∈ idle, Aside e) (request : Request)
      {raw : Nat} (hraw : Seat.accepts raw context.permit = true) {outcome : Outcome}
      (houtcome : Answered provider context request outcome) (error : String) :
      Served (left + 1) (idle ++ asking context request raw ++
        [.said (.writeFrame (.response ⟨request.id, outcome⟩)) (.error error)])
  | next {left : Nat} {idle rest : List Step} (h : ∀ e ∈ idle, Aside e) (request : Request)
      {raw : Nat} (hraw : Seat.accepts raw context.permit = true) {outcome : Outcome}
      (houtcome : Answered provider context request outcome) (hrest : Served left rest) :
      Served (left + 1) (idle ++ asking context request raw ++
        .said (.writeFrame (.response ⟨request.id, outcome⟩)) (.ok ()) :: rest)

/-- What the invoked calls make of the provider's state. -/
def invokeAll (calls : List Proto.Call) (p : P) : P :=
  calls.foldl (fun p call => (provider context call p).2) p

theorem invokeAll_append (calls more : List Proto.Call) (p : P) :
    invokeAll provider context (calls ++ more) p =
      invokeAll provider context more (invokeAll provider context calls p) :=
  List.foldl_append

end Grammar

/-! ## The loop speaks the grammar -/

section Runs

variable {P : Type} (env : Peer) (provider : Provides P) (context : SessionContext)
  (patience : Nat) (w : Dialogue Question.Answer Mark P)

theorem writeFrame_run (attempted : String) (message : ServerMessage) :
    ∃ sent : Except String Unit, writeFrame env attempted message w =
      (sent.mapError fun error => .failed (attempted ++ error),
        ⟨w.state, w.trace ++ [.said (.writeFrame message) sent]⟩) :=
  ⟨env w.trace (.writeFrame message), rfl⟩

theorem seatLoad_run :
    ∃ raw, seatLoad env w = (.ok raw, ⟨w.state, w.trace ++ [.said .seatLoad raw]⟩) :=
  ⟨_, rfl⟩

theorem boundIo_run :
    ∃ bound : Except String Unit, boundIo env w =
      (bound.mapError fun error => .failed ("cannot bound session I/O: " ++ error),
        ⟨w.state, w.trace ++ [.said .boundIo bound]⟩) :=
  ⟨env w.trace .boundIo, rfl⟩

theorem peerUid_eq :
    peerUid env w = ((env w.trace .peerCredentials : Except String Nat).mapError fun error =>
        .failed ("cannot authenticate local peer credentials: " ++ error),
      ⟨w.state, w.trace ++ [.said .peerCredentials (env w.trace .peerCredentials)]⟩) := rfl

theorem peerUid_run :
    ∃ uid : Except String Nat, peerUid env w =
      (uid.mapError fun error => .failed ("cannot authenticate local peer credentials: " ++ error),
        ⟨w.state, w.trace ++ [.said .peerCredentials uid]⟩) :=
  ⟨_, peerUid_eq env w⟩

theorem readHello_eq :
    readHello env w = ((env w.trace .readFrame : Except String ReadFrame).mapError fun error =>
        .failed ("cannot read session hello: " ++ error),
      ⟨w.state, w.trace ++ [.said .readFrame (env w.trace .readFrame)]⟩) := rfl

theorem readHello_run :
    ∃ answer : Except String ReadFrame, readHello env w =
      (answer.mapError fun error => .failed ("cannot read session hello: " ++ error),
        ⟨w.state, w.trace ++ [.said .readFrame answer]⟩) :=
  ⟨_, readHello_eq env w⟩

theorem readRequest_eq :
    readRequest env w = ((env w.trace .readFrame : Except String ReadFrame).mapError fun error =>
        .failed ("cannot read session request: " ++ error),
      ⟨w.state, w.trace ++ [.said .readFrame (env w.trace .readFrame)]⟩) := rfl

theorem readRequest_run :
    ∃ answer : Except String ReadFrame, readRequest env w =
      (answer.mapError fun error => .failed ("cannot read session request: " ++ error),
        ⟨w.state, w.trace ++ [.said .readFrame answer]⟩) :=
  ⟨_, readRequest_eq env w⟩

theorem orFail_aside {α : Type} {m : SM P (Except String α)} (attempted : String)
    (h : Utters Eq Aside m) : Utters Eq Aside (orFail attempted m) :=
  Utters.bind h fun _ => Utters.lift _

theorem waitRequest_aside : Utters Eq Aside (waitRequest env patience : SM P Bool) := by
  have hgoes : Utters Eq Aside (goesOn env : SM P Bool) :=
    Utters.bind (Utters.ask fun _ => trivial) fun _ => Utters.pure _
  induction patience with
  | zero => exact Utters.fail _
  | succ patience ih =>
    unfold waitRequest
    refine Utters.bind (Utters.ask fun _ => trivial) fun stopping => ?_
    cases (stopping : Bool) with
    | true => exact hgoes
    | false =>
      refine Utters.bind (orFail_aside _ (Utters.ask fun _ => trivial)) fun ready => ?_
      cases (ready : Bool) with
      | true => exact hgoes
      | false => exact ih

theorem waitIfPersistent_run (persistent : Bool) :
    ∃ idle, (waitIfPersistent env patience persistent w).2 = ⟨w.state, w.trace ++ idle⟩ ∧
      ∀ e ∈ idle, Aside e := by
  have h : Utters Eq Aside (waitIfPersistent env patience persistent : SM P Bool) := by
    cases persistent with
    | true => exact waitRequest_aside env patience
    | false => exact Utters.pure _
  obtain ⟨idle, htrace, hidle, hstate, -⟩ := h w trivial
  refine ⟨idle, ?_, hidle⟩
  rw [hstate, ← htrace]

/-- The answer to an authorized request is the provider's. -/
theorem handle_authorized {request : Request} {outcome : Outcome}
    (hauth : authorized request.call context.granted = true)
    (houtcome : (provider context request.call w.state).1 = .ok outcome) :
    handle provider context request w =
      (.ok ⟨request.id, outcome⟩, ⟨(provider context request.call w.state).2,
        w.trace ++ [.mark (.invoked request.call)]⟩) := by
  have hinvoke : invoke provider context request.call w =
      (.ok outcome, ⟨(provider context request.call w.state).2,
        w.trace ++ [.mark (.invoked request.call)]⟩) := by
    unfold invoke Dialogue.write
    rw [Prog.update_bind]
    simp only [Dialogue.within, Prog.zoom, Prog.total, houtcome]
    rfl
  unfold handle
  rw [if_pos hauth, Prog.bind_ok hinvoke]
  rfl

/-- The answer to a request, the trace up to it and the provider's state then. -/
theorem handle_run (request : Request) (raw : Nat) (trace : List Step) (p : P) :
    ∃ outcome, Answered provider context request outcome ∧
      handle provider context request
        ⟨p, trace ++ [.said .readFrame (asRequest request), .said .seatLoad raw]⟩ =
        (.ok ⟨request.id, outcome⟩,
          ⟨invokeAll provider context (invocations (asking context request raw)) p,
            trace ++ asking context request raw⟩) := by
  by_cases hauth : authorized request.call context.granted = true
  · rcases houtcome : (provider context request.call p).1 with e | outcome
    · exact e.elim
    · refine ⟨outcome, ?_, ?_⟩
      · unfold Answered
        rw [if_pos hauth]
        exact ⟨p, houtcome⟩
      · rw [handle_authorized provider context _ hauth houtcome, List.append_assoc]
        unfold asking
        rw [if_pos hauth]
        rfl
  · refine ⟨refusedOutcome, ?_, ?_⟩
    · unfold Answered
      rw [if_neg hauth]
    · unfold handle asking
      rw [if_neg hauth, if_neg hauth]
      rfl

/-- A request of the loop, given what the rest of the loop does. -/
theorem answer_run {left : Nat} {rest : SM P Unit} {idle : List Step} (request : Request)
    (hidle : ∀ e ∈ idle, Aside e)
    (hrest : ∀ w, ∃ added, Served provider context left added ∧
      (rest w).2 = ⟨invokeAll provider context (invocations added) w.state, w.trace ++ added⟩) :
    ∃ added, Served provider context (left + 1) added ∧
      (answer env provider context request rest
        ⟨w.state, w.trace ++ idle ++ [.said .readFrame (asRequest request)]⟩).2 =
      ⟨invokeAll provider context (invocations added) w.state, w.trace ++ added⟩ := by
  have hquiet : invocations idle = [] := (aside_unread hidle).2.2.2.2
  obtain ⟨raw, hload⟩ := seatLoad_run env
    ⟨w.state, w.trace ++ idle ++ [.said .readFrame (asRequest request)]⟩
  dsimp only at hload
  rw [List.append_assoc (w.trace ++ idle), List.singleton_append] at hload
  unfold answer
  rw [Prog.bind_ok hload]
  by_cases hraw : Seat.accepts raw context.permit = true
  · rw [if_pos hraw]
    obtain ⟨outcome, houtcome, hhandle⟩ :=
      handle_run provider context request raw (w.trace ++ idle) w.state
    rw [Prog.bind_ok hhandle]
    obtain ⟨sent, hsent⟩ := writeFrame_run env
      ⟨invokeAll provider context (invocations (asking context request raw)) w.state,
        w.trace ++ idle ++ asking context request raw⟩ "cannot write session response: "
      (.response ⟨request.id, outcome⟩)
    cases sent with
    | error e =>
      rw [Prog.bind_error hsent]
      refine ⟨_, .unsent hidle request hraw houtcome e, ?_⟩
      rw [invocations_append, invocations_append, hquiet, List.nil_append, invokeAll_append]
      simp only [List.append_assoc]
      rfl
    | ok u =>
      rw [Prog.bind_ok hsent]
      obtain ⟨added, hserved, hrun⟩ := hrest _
      rw [hrun]
      refine ⟨_, .next hidle request hraw houtcome hserved, ?_⟩
      rw [invocations_append, invocations_append, hquiet, List.nil_append, invokeAll_append]
      simp only [List.append_assoc, List.singleton_append]
      rfl
  · rw [if_neg hraw]
    obtain ⟨sent, hsent⟩ := writeFrame_run env
      ⟨w.state, w.trace ++ idle ++ [.said .readFrame (asRequest request), .said .seatLoad raw]⟩
      "cannot write revoked session response: " (.response ⟨request.id, revokedOutcome⟩)
    rw [hsent]
    refine ⟨_, .revoked hidle request (Bool.not_eq_true _ ▸ hraw) sent, ?_⟩
    rw [invocations_append, hquiet]
    simp only [List.append_assoc]
    rfl

theorem serve_run (persistent : Bool) (left : Nat) :
    ∃ added, Served provider context left added ∧
      (serve env provider context patience persistent left w).2 =
        ⟨invokeAll provider context (invocations added) w.state, w.trace ++ added⟩ := by
  induction left generalizing w with
  | zero =>
    obtain ⟨sent, hrun⟩ := writeFrame_run env w "cannot write terminal session message: "
      (goodbye .sessionClosed "session request bound reached")
    refine ⟨_, .bound sent, ?_⟩
    unfold serve close
    rw [hrun]
    rfl
  | succ left ih =>
    unfold serve
    obtain ⟨idle, hwait, hidle⟩ := waitIfPersistent_run env patience w persistent
    have hquiet : invocations idle = [] := (aside_unread hidle).2.2.2.2
    rcases hw : waitIfPersistent env patience persistent w with ⟨r, w₁⟩
    rw [hw] at hwait
    dsimp only at hwait
    subst hwait
    match r, hw with
    | .error e, hw =>
      rw [Prog.bind_error hw]
      exact ⟨idle, .idles hidle, by rw [hquiet]; rfl⟩
    | .ok false, hw =>
      rw [Prog.bind_ok hw]
      exact ⟨idle, .idles hidle, by rw [hquiet]; rfl⟩
    | .ok true, hw =>
      rw [Prog.bind_ok hw]
      obtain ⟨answer, hread⟩ := readRequest_run env ⟨w.state, w.trace ++ idle⟩
      dsimp only at hread
      simp only [if_true]
      have hleave (answer : Except String ReadFrame) (h : Leaves answer) :
          ∃ added, Served provider context (left + 1) added ∧
            (⟨w.state, w.trace ++ idle ++ [.said .readFrame answer]⟩ : Dialogue _ _ _) =
              ⟨invokeAll provider context (invocations added) w.state, w.trace ++ added⟩ := by
        refine ⟨_, .leaves hidle h, ?_⟩
        rw [invocations_append, hquiet, List.append_assoc]
        rfl
      match answer, hread with
      | .error e, hread =>
        rw [Prog.bind_error hread]
        exact hleave _ trivial
      | .ok .cleanEof, hread =>
        rw [Prog.bind_ok hread]
        exact hleave (.ok .cleanEof) trivial
      | .ok (.message (.goodbye g)), hread =>
        rw [Prog.bind_ok hread]
        exact hleave (.ok (.message (.goodbye g))) trivial
      | .ok (.message (.hello hello)), hread =>
        rw [Prog.bind_ok hread]
        obtain ⟨sent, hsent⟩ := writeFrame_run env
          ⟨w.state, w.trace ++ idle ++ [.said .readFrame (.ok (.message (.hello hello)))]⟩
          "cannot write terminal session message: " (goodbye .malformed "hello cannot be repeated")
        refine ⟨_, .repeats hidle hello sent, ?_⟩
        unfold close
        dsimp only
        rw [hsent, invocations_append, hquiet]
        simp only [List.append_assoc]
        rfl
      | .ok (.message (.request request)), hread =>
        rw [Prog.bind_ok hread]
        exact answer_run env provider context w request hidle ih

end Runs

/-! ## The grammar of a session -/

section Talk

variable {P : Type} (provider : Provides P) (config : Config) (session : SessionId)

/-- The steps before a hello is looked at. -/
def greeting (uid : Nat) (hello : Hello) : List Step :=
  [.said .boundIo (.ok ()), .said .peerCredentials (.ok uid),
    .said .readFrame (.ok (.message (.hello hello)))]

/-- The steps up to the welcome. -/
def opening (uid : Nat) (hello : Hello) (raw raw' : Nat) : List Step :=
  greeting uid hello ++ [.said .seatLoad raw, .said .seatLoad raw']

theorem opening_said {uid : Nat} {hello : Hello} {raw raw' : Nat} :
    ∀ e ∈ opening uid hello raw raw', e.IsSaid := by
  simp [opening, greeting, Entry.IsSaid]

theorem opening_read (uid : Nat) (hello : Hello) (raw raw' : Nat) :
    written (opening uid hello raw raw') = [] ∧
      received (opening uid hello raw raw') = [.ok (.message (.hello hello))] ∧
      requests (opening uid hello raw raw') = [] ∧ loads (opening uid hello raw raw') = [raw, raw'] :=
  ⟨rfl, rfl, rfl, rfl⟩

/-- What stands before the rounds of the loop. -/
theorem prelude_read {uid : Nat} {hello : Hello} {raw raw' : Nat} {welcome : Welcome}
    {before : List Step} (hbefore : ∀ e ∈ before, Aside e) (sent : Except String Unit)
    (rest : List Step) :
    written (opening uid hello raw raw' ++ before ++
        .said (.writeFrame (.welcome welcome)) sent :: rest) = .welcome welcome :: written rest ∧
      received (opening uid hello raw raw' ++ before ++
        .said (.writeFrame (.welcome welcome)) sent :: rest) =
        .ok (.message (.hello hello)) :: received rest ∧
      requests (opening uid hello raw raw' ++ before ++
        .said (.writeFrame (.welcome welcome)) sent :: rest) = requests rest ∧
      loads (opening uid hello raw raw' ++ before ++
        .said (.writeFrame (.welcome welcome)) sent :: rest) = raw :: raw' :: loads rest := by
  obtain ⟨hwritten, hreceived, hrequests, hloads, -⟩ := aside_unread hbefore
  rw [written_append, written_append, received_append, received_append, requests_append,
    requests_append, loads_append, loads_append, hwritten, hreceived, hrequests, hloads]
  exact ⟨rfl, rfl, rfl, rfl⟩

/-- No welcome was written and the provider was not invoked. -/
def Shut (trace : List Step) : Prop :=
  (∀ e ∈ trace, e.IsSaid) ∧ (written trace = [] ∨ ∃ farewell, written trace = [.goodbye farewell])

/-- The checks between a hello and its welcome. -/
structure Admits (uid : Nat) (hello : Hello) (raw raw' : Nat) (permit : SeatPermit)
    (welcome : Welcome) : Prop where
  compatible : hello.isCompatible = true
  permit_eq : permitOf raw = some permit
  granted_eq : config.granted uid hello.requested.asSlice = some welcome.granted.asSlice
  accepted : Seat.accepts raw' permit = true

/-- The traces of a session; the context is the one its calls are made in. -/
inductive Talk : SessionContext → List Step → Prop
  | shut {context : SessionContext} {trace : List Step} (h : Shut trace) : Talk context trace
  | unwelcomed {uid : Nat} {hello : Hello} {raw raw' : Nat} {permit : SeatPermit}
      {welcome : Welcome} {before after : List Step}
      (admits : Admits config uid hello raw raw' permit welcome) (hbefore : ∀ e ∈ before, Aside e)
      (hafter : ∀ e ∈ after, Aside e) (error : String) :
      Talk (contextFor config session welcome.granted.asSlice permit)
        (opening uid hello raw raw' ++ before ++
          .said (.writeFrame (.welcome welcome)) (.error error) :: after)
  | welcomed {uid : Nat} {hello : Hello} {raw raw' : Nat} {permit : SeatPermit} {welcome : Welcome}
      {before served after : List Step} (admits : Admits config uid hello raw raw' permit welcome)
      (hbefore : ∀ e ∈ before, Aside e) (hafter : ∀ e ∈ after, Aside e)
      (hserved : Served provider (contextFor config session welcome.granted.asSlice permit)
        config.maxRequests served) :
      Talk (contextFor config session welcome.granted.asSlice permit)
        (opening uid hello raw raw' ++ before ++
          .said (.writeFrame (.welcome welcome)) (.ok ()) :: (served ++ after))

end Talk

theorem welcomeFor_granted {session : SessionId} {granted : List Capability} {welcome : Welcome}
    (h : welcomeFor session granted = .ok welcome) : welcome.granted.asSlice = granted := by
  unfold welcomeFor at h
  obtain ⟨bounded, hgranted, h⟩ := Lib.except_bind_ok h
  obtain ⟨protocol, -, h⟩ := Lib.except_bind_ok h
  obtain ⟨name, -, h⟩ := Lib.except_bind_ok h
  obtain ⟨version, -, h⟩ := Lib.except_bind_ok h
  obtain ⟨features, -, h⟩ := Lib.except_bind_ok h
  rw [← Except.ok.inj h]
  cases hnew : (BoundedList.new granted : Except BoundError (BoundedList Capability maxCapabilities)) with
  | error e => simp [hnew, Except.mapError] at hgranted
  | ok list =>
    rw [hnew] at hgranted
    rw [← Except.ok.inj hgranted]
    exact (BoundedList.new_eq_ok.mp hnew).symm

section Runs

variable {P : Type} (env : Peer) (provider : Provides P) (config : Config) (session : SessionId)
  (patience : Nat) (w : Dialogue Question.Answer Mark P)

theorem claim_run (enabled : Bool) :
    ∃ persistent aside, (claim env enabled w) = (.ok persistent, ⟨w.state, w.trace ++ aside⟩) ∧
      ∀ e ∈ aside, Aside e := by
  cases enabled with
  | true => exact ⟨_, _, rfl, by simp [Aside]⟩
  | false => exact ⟨false, [], by rw [List.append_nil]; rfl, by simp⟩

theorem release_run (persistent : Bool) (result : Except Halt Unit) :
    ∃ aside, (release env persistent result w).2 = ⟨w.state, w.trace ++ aside⟩ ∧
      ∀ e ∈ aside, Aside e := by
  have h : Utters Eq Aside (release env persistent result : SM P Unit) := by
    have hgo : Utters Eq Aside (do
        Prog.onlyIf persistent (Dialogue.ask env .releaseSlot)
        Prog.lift result : SM P Unit) := by
      refine Utters.bind ?_ fun _ => Utters.lift _
      cases persistent with
      | true => exact Utters.ask fun _ => trivial
      | false => exact Utters.pure _
    match result with
    | .error .waiting => exact Utters.fail _
    | .error (.failed text) => exact hgo
    | .ok () => exact hgo
  obtain ⟨aside, htrace, haside, hstate, -⟩ := h w trivial
  refine ⟨aside, ?_, haside⟩
  rw [hstate, ← htrace]

/-- Whatever a session does from its welcome on, the slot is released after it. -/
theorem attempt_release_run (m : SM P Unit) (persistent : Bool) :
    ∃ aside, ((do let result ← Prog.attempt m; release env persistent result : SM P Unit) w).2 =
      ⟨(m w).2.state, (m w).2.trace ++ aside⟩ ∧ ∀ e ∈ aside, Aside e :=
  release_run env (m w).2 persistent (m w).1

/-- From the welcome on, up to the release of the slot. -/
def Hosts (provider : Provides P) (context : SessionContext) (left : Nat) (added : List Step) :
    Prop :=
  added = [] ∨ ∃ welcome : Welcome, welcome.granted.asSlice = context.granted ∧
    ((∃ error, added = [.said (.writeFrame (.welcome welcome)) (.error error)]) ∨
      ∃ served, Served provider context left served ∧
        added = .said (.writeFrame (.welcome welcome)) (.ok ()) :: served)

theorem welcomed_run (permit : SeatPermit) (granted : List Capability) (persistent : Bool) :
    ∃ added, Hosts provider (contextFor config session granted permit) config.maxRequests added ∧
      (welcomed env provider config session patience permit granted persistent w).2 =
        ⟨invokeAll provider (contextFor config session granted permit) (invocations added) w.state,
          w.trace ++ added⟩ := by
  unfold welcomed
  cases hwelcome : welcomeFor session granted with
  | error e =>
    refine ⟨[], .inl rfl, ?_⟩
    rw [List.append_nil]
    rfl
  | ok welcome =>
    have hgranted := welcomeFor_granted hwelcome
    have hlift : (Prog.lift ((Except.ok welcome : Except String Welcome).mapError Halt.failed) :
        SM P Welcome) w = (.ok welcome, w) := rfl
    rw [Prog.bind_ok hlift]
    obtain ⟨sent, hsent⟩ :=
      writeFrame_run env w "cannot write session welcome: " (.welcome welcome)
    cases sent with
    | error e =>
      rw [Prog.bind_error hsent]
      exact ⟨_, .inr ⟨welcome, hgranted, .inl ⟨e, rfl⟩⟩, rfl⟩
    | ok u =>
      rw [Prog.bind_ok hsent, hgranted]
      obtain ⟨served, hserved, hrun⟩ := serve_run env provider
        (contextFor config session granted permit) patience
        ⟨w.state, w.trace ++ [.said (.writeFrame (.welcome welcome)) (.ok ())]⟩ persistent
        config.maxRequests
      refine ⟨_, .inr ⟨welcome, hgranted, .inr ⟨served, hserved, rfl⟩⟩, ?_⟩
      rw [hrun, List.append_assoc]
      rfl

/-- From a passed check of the gate on. -/
theorem admitted_run {uid : Nat} {hello : Hello} {raw raw' : Nat} {permit : SeatPermit}
    {granted : List Capability} (hcompatible : hello.isCompatible = true)
    (hpermit : permitOf raw = some permit)
    (hgranted : config.granted uid hello.requested.asSlice = some granted)
    (haccepted : Seat.accepts raw' permit = true) :
    ∃ added context, Talk provider config session context (opening uid hello raw raw' ++ added) ∧
      (admitted env provider config session patience permit granted w).2 =
        ⟨invokeAll provider context (invocations added) w.state, w.trace ++ added⟩ := by
  unfold admitted
  obtain ⟨persistent, before, hclaim, hbefore⟩ :=
    claim_run env w config.input.providerPrivateDevices
  rw [Prog.bind_ok hclaim]
  obtain ⟨added, hhosts, hrun⟩ := welcomed_run env provider config session patience
    ⟨w.state, w.trace ++ before⟩ permit granted persistent
  obtain ⟨after, hrelease, hafter⟩ := attempt_release_run env ⟨w.state, w.trace ++ before⟩
    (welcomed env provider config session patience permit granted persistent) persistent
  refine ⟨before ++ (added ++ after), contextFor config session granted permit, ?_, ?_⟩
  · rcases hhosts with rfl | ⟨welcome, hwelcome, hcase⟩
    · refine .shut ⟨fun e he => ?_, .inl ?_⟩
      · rcases List.mem_append.mp he with he | he
        · exact opening_said e he
        · exact aside_append hbefore (fun e he => (hafter e he).isSaid) e he
      · rw [written_append, written_append, (aside_unread hbefore).1, (opening_read ..).1]
        exact (aside_unread hafter).1
    · have admits : Admits config uid hello raw raw' permit welcome :=
        ⟨hcompatible, hpermit, by rw [hgranted, hwelcome]; rfl, haccepted⟩
      have hserves : (contextFor config session welcome.granted.asSlice permit) =
          contextFor config session granted permit := by rw [hwelcome]; rfl
      rcases hcase with ⟨error, rfl⟩ | ⟨served, hserved, rfl⟩
      · rw [← List.append_assoc, ← hserves]
        exact .unwelcomed admits hbefore hafter error
      · rw [← List.append_assoc, ← hserves]
        rw [← hserves] at hserved
        exact .welcomed admits hbefore hafter hserved
  · rw [hrelease, hrun, invocations_append, invocations_append, (aside_unread hbefore).2.2.2.2,
      (aside_unread hafter).2.2.2.2]
    simp

theorem close_run (code : ErrorCode) (message : String) :
    ∃ sent, (close env code message w).2 =
      ⟨w.state, w.trace ++ [.said (.writeFrame (goodbye code message)) sent]⟩ := by
  obtain ⟨sent, hsent⟩ := writeFrame_run env w "cannot write terminal session message: "
    (goodbye code message)
  exact ⟨sent, by unfold close; rw [hsent]⟩

/-- A session that ends before its welcome. -/
theorem Shut.talk {provider : Provides P} {config : Config} {session : SessionId}
    {w w' : Dialogue Question.Answer Mark P} {added : List Step} (h : Shut added)
    (hrun : w' = ⟨w.state, w.trace ++ added⟩) :
    ∃ added context, Talk provider config session context added ∧
      w' = ⟨invokeAll provider context (invocations added) w.state, w.trace ++ added⟩ := by
  refine ⟨added, contextFor config session [] ⟨0⟩, .shut h, ?_⟩
  rw [hrun, invocations_said h.1]
  rfl

theorem shut_said {trace : List Step} (hsaid : ∀ e ∈ trace, e.IsSaid)
    (hwritten : written trace = []) : Shut trace :=
  ⟨hsaid, .inl hwritten⟩

/-- A goodbye after a few steps that were only said. -/
theorem shut_close {before : List Step} (code : ErrorCode) (message : String)
    (sent : Except String Unit) (hsaid : ∀ e ∈ before, e.IsSaid) (hwritten : written before = []) :
    Shut (before ++ [.said (.writeFrame (goodbye code message)) sent]) := by
  refine ⟨fun e he => ?_, .inr ⟨⟨code, diagnostic message⟩, ?_⟩⟩
  · rcases List.mem_append.mp he with he | he
    · exact hsaid e he
    · rw [List.mem_singleton.mp he]
      trivial
  · rw [written_append, hwritten]
    rfl

/-- Every refusal is a goodbye after what was said so far. -/
theorem close_talk (before : List Step) (hsaid : ∀ e ∈ before, e.IsSaid)
    (hwritten : written before = []) (code : ErrorCode) (message : String) :
    ∃ added context, Talk provider config session context added ∧
      (close env code message ⟨w.state, w.trace ++ before⟩).2 =
        ⟨invokeAll provider context (invocations added) w.state, w.trace ++ added⟩ := by
  obtain ⟨sent, hsent⟩ := close_run env ⟨w.state, w.trace ++ before⟩ code message
  refine (shut_close code message sent hsaid hwritten).talk ?_
  rw [hsent, List.append_assoc]

theorem opened_run (uid : Nat) (hello : Hello) :
    ∃ added context, Talk provider config session context added ∧
      (opened env provider config session patience uid hello
        ⟨w.state, w.trace ++ greeting uid hello⟩).2 =
        ⟨invokeAll provider context (invocations added) w.state, w.trace ++ added⟩ := by
  unfold opened
  by_cases hcompatible : hello.isCompatible = true
  · rw [if_neg (by simp [hcompatible])]
    obtain ⟨raw, hload⟩ := seatLoad_run env ⟨w.state, w.trace ++ greeting uid hello⟩
    dsimp only at hload
    rw [Prog.bind_ok hload, List.append_assoc]
    cases hpermit : permitOf raw with
    | none => exact close_talk env provider config session w _ (by simp [greeting, Entry.IsSaid]) rfl _ _
    | some permit =>
      dsimp only
      cases hgranted : config.granted uid hello.requested.asSlice with
      | none => exact close_talk env provider config session w _ (by simp [greeting, Entry.IsSaid]) rfl _ _
      | some granted =>
        dsimp only
        obtain ⟨raw', hload'⟩ :=
          seatLoad_run env ⟨w.state, w.trace ++ (greeting uid hello ++ [.said .seatLoad raw])⟩
        dsimp only at hload'
        have hopening : w.trace ++ (greeting uid hello ++ [.said .seatLoad raw]) ++
            [.said .seatLoad raw'] = w.trace ++ opening uid hello raw raw' := by
          simp [opening]
        rw [Prog.bind_ok hload', hopening]
        by_cases haccepted : Seat.accepts raw' permit = true
        · rw [if_pos haccepted]
          obtain ⟨added, context, htalk, hrun⟩ := admitted_run env provider config session patience
            ⟨w.state, w.trace ++ opening uid hello raw raw'⟩ hcompatible hpermit hgranted haccepted
          refine ⟨_, context, htalk, ?_⟩
          rw [hrun, List.append_assoc]
          rfl
        · rw [if_neg haccepted]
          exact close_talk env provider config session w _ opening_said rfl _ _
  · rw [if_pos (by simp [hcompatible])]
    exact close_talk env provider config session w _ (by simp [greeting, Entry.IsSaid]) rfl _ _

/-- Every run of a session speaks the grammar, and its provider ends where the invoked calls take
    it. -/
theorem run_talk :
    ∃ added context, Talk provider config session context added ∧
      (run env provider config session patience w).2 =
        ⟨invokeAll provider context (invocations added) w.state, w.trace ++ added⟩ := by
  obtain ⟨bound, hbound⟩ := boundIo_run env w
  unfold run
  cases bound with
  | error e =>
    rw [Prog.bind_error hbound]
    exact (shut_said (by simp [Entry.IsSaid]) rfl).talk rfl
  | ok u =>
    rw [Prog.bind_ok hbound]
    obtain ⟨uid, huid⟩ := peerUid_run env ⟨w.state, w.trace ++ [.said .boundIo (.ok u)]⟩
    dsimp only at huid
    rw [List.append_assoc, List.singleton_append] at huid
    cases uid with
    | error e =>
      rw [Prog.bind_error huid]
      exact (shut_said (by simp [Entry.IsSaid]) rfl).talk rfl
    | ok uid =>
      rw [Prog.bind_ok huid]
      obtain ⟨frame, hread⟩ := readHello_run env
        ⟨w.state, w.trace ++ [.said .boundIo (.ok u), .said .peerCredentials (.ok uid)]⟩
      dsimp only at hread
      rw [List.append_assoc] at hread
      match frame, hread with
      | .error e, hread =>
        rw [Prog.bind_error hread]
        exact (shut_said (by simp [Entry.IsSaid]) rfl).talk rfl
      | .ok .cleanEof, hread =>
        rw [Prog.bind_ok hread]
        exact (shut_said (by simp [Entry.IsSaid]) rfl).talk rfl
      | .ok (.message (.hello hello)), hread =>
        rw [Prog.bind_ok hread]
        exact opened_run env provider config session patience w uid hello
      | .ok (.message (.request request)), hread =>
        rw [Prog.bind_ok hread]
        exact close_talk env provider config session w _ (by simp [Entry.IsSaid]) rfl _ _
      | .ok (.message (.goodbye g)), hread =>
        rw [Prog.bind_ok hread]
        exact close_talk env provider config session w _ (by simp [Entry.IsSaid]) rfl _ _

end Runs

end AgentSeat.Session
