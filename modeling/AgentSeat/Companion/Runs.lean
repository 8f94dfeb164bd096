/-
  Runs of the server over a sequence of requests.

  A run is the list of its turns (`turns`); `Reached` describes it by the grammar of one turn. Every
  turn works on at most one session (`Uniform`), and every session the server keeps has an unbroken
  record: its requests are numbered from one, and the frames read after its opening answer them one
  by one (`Seats`, for every run by `Reached.seats`).
-/
import AgentSeat.Companion.Turns

namespace AgentSeat.Companion

open AgentSeat.Lib AgentSeat.Proto

abbrev World := Dialogue Question.Answer Mark Server

structure Turn where
  request : RpcRequest
  before : Server
  said : List Step
  after : Server

section Runs

variable (env : Outside) (reason : String → Json → String)

def turnOf (w : World) (request : RpcRequest) : Turn where
  request := request
  before := w.state
  said := (handle env reason request w).2.trace.drop w.trace.length
  after := (handle env reason request w).2.state

def turns : World → List RpcRequest → List Turn
  | _, [] => []
  | w, request :: rest => turnOf env reason w request :: turns (handle env reason request w).2 rest

/-- A server as it starts: with or without an inherited stream, which is open then. -/
inductive Start : Server → Prop
  | alone (socket : Option String) : Start (.new socket none)
  | inherited (socket : Option String) : Start (.new socket (some ⟨0, firstRequest⟩))

/-- The server at its start, with or without an inherited stream. -/
def startServer (socket : Option String) (inherited : Bool) : Server :=
  .new socket (if inherited then some ⟨0, firstRequest⟩ else none)

theorem start_server (socket : Option String) (inherited : Bool) : Start (startServer socket inherited) := by
  cases inherited with
  | true => exact .inherited socket
  | false => exact .alone socket

/-- The turns so far, and the server after them. -/
inductive Reached : List Turn → Server → Prop
  | start {s : Server} (h : Start s) : Reached [] s
  | turn {past : List Turn} {s s' : Server} (h : Reached past s) {request : RpcRequest}
      {said : List Step} (hturned : Turned reason s request said s') :
      Reached (past ++ [⟨request, s, said, s'⟩]) s'

theorem turnOf_turned (w : World) (request : RpcRequest) :
    Turned reason w.state request (turnOf env reason w request).said
      (turnOf env reason w request).after := by
  obtain ⟨said, htrace, hturned⟩ := handle_turned reason env request w.trace
  have hsaid : (turnOf env reason w request).said = said := by
    show List.drop w.trace.length (handle env reason request w).2.trace = said
    rw [htrace, List.drop_left]
  rw [hsaid]
  exact hturned

theorem reached_turns {past : List Turn} (requests : List RpcRequest) {w : World}
    (h : Reached reason past w.state) :
    ∃ s, Reached reason (past ++ turns env reason w requests) s := by
  induction requests generalizing past w with
  | nil => exact ⟨w.state, by rw [turns, List.append_nil]; exact h⟩
  | cons request rest ih =>
    have hnext : Reached reason (past ++ [turnOf env reason w request])
        (handle env reason request w).2.state :=
      .turn h (turnOf_turned env reason w request)
    obtain ⟨s, hs⟩ := ih hnext
    refine ⟨s, ?_⟩
    rwa [List.append_assoc] at hs

/-- A run from the start is reached by the grammar. -/
theorem reached_run (socket : Option String) (inherited : Bool) (requests : List RpcRequest) :
    ∃ s, Reached reason (turns env reason ⟨startServer socket inherited, []⟩ requests) s := by
  have hstart : Reached reason [] (startServer socket inherited) := .start (start_server socket inherited)
  exact reached_turns env reason requests (w := ⟨startServer socket inherited, []⟩) hstart

variable {reason}

/-- What was reached goes through every state on the way. -/
theorem Reached.split {past rest : List Turn} {t : Turn} {s : Server}
    (h : Reached reason (past ++ t :: rest) s) :
    Reached reason past t.before ∧ Turned reason t.before t.request t.said t.after := by
  generalize hall : past ++ t :: rest = all at h
  induction h generalizing rest with
  | start _ => exact absurd hall (by simp)
  | turn h hturned ih =>
    rcases List.eq_nil_or_concat rest with rfl | ⟨rest', u, rfl⟩
    · obtain ⟨rfl, hlast⟩ := List.append_inj' hall rfl
      obtain rfl := (List.cons.inj hlast).1
      exact ⟨h, hturned⟩
    · rw [List.concat_eq_append, ← List.cons_append, ← List.append_assoc] at hall
      exact ih (List.append_inj' hall rfl).1

end Runs

/-- A modern request to call a tool. -/
def modernCall (name : String) (arguments : List (String × Json)) : RpcRequest where
  jsonrpc := "2.0"
  id := some (.num 1)
  method := "tools/call"
  params := .obj [("_meta", .obj [(modernClientCapabilities, .obj []),
      (modernProtocolVersion, .str modernMcpVersion)]),
    ("arguments", .obj arguments), ("name", .str name)]

/-- A provider that takes everything and gives an outcome to the first request of a session. -/
def answerFirst (outcome : Outcome) : Outside := fun _ question =>
  match question with
  | .resolve _ => .ok none
  | .connect _ | .setReadTimeout _ _ | .setWriteTimeout _ _ => .ok ()
  | .writeFrame _ _ => .ok ()
  | .readFrame _ => .ok (.message (.response ⟨firstRequest, outcome⟩))

/-! ## What was said on a stream -/

def sentBy : Step → Option (Conn × Request)
  | .said (.writeFrame conn (.request request)) _ => some (conn, request)
  | _ => none

/-- The requests that were written, with their streams. -/
def sent (said : List Step) : List (Conn × Request) := said.filterMap sentBy

def requestsOn (conn : Conn) (said : List Step) : List Request :=
  (sent said).filterMap fun on => if on.1 = conn then some on.2 else none

def frameBy (conn : Conn) : Step → Option (Except CodecError (ReadFrame ServerMessage))
  | .said (.readFrame conn') frame => if conn' = conn then some frame else none
  | _ => none

/-- What was read from a stream. -/
def framesOn (conn : Conn) (said : List Step) : List (Except CodecError (ReadFrame ServerMessage)) :=
  said.filterMap (frameBy conn)

/-- The deadline of the stream could not be set. -/
def isUnboundedOn (conn : Conn) : Step → Bool
  | .said (.setReadTimeout conn' _) (.error _) => conn' = conn
  | _ => false

/-- A deadline of the stream is set, or cannot be set. -/
def isSettingOn (conn : Conn) : Step → Bool
  | .said (.setReadTimeout conn' _) _ => conn' = conn
  | _ => false

/-- Nothing is read from the stream and no deadline of it is set. -/
def Elsewhere (conn : Conn) (said : List Step) : Prop :=
  ∀ e ∈ said, frameBy conn e = none ∧ isSettingOn conn e = false

/-- A session was made on the stream. -/
def isOpened (conn : Conn) : Step → Bool
  | .mark (.session conn') => conn' = conn
  | _ => false

/-- What was said since a session was made on the stream. -/
def sinceOpened (conn : Conn) : List Step → List Step
  | [] => []
  | e :: rest => if isOpened conn e then rest else sinceOpened conn rest

def history (past : List Turn) : List Step := past.flatMap Turn.said

@[simp] theorem sent_append (said more : List Step) : sent (said ++ more) = sent said ++ sent more :=
  List.filterMap_append

@[simp] theorem requestsOn_append (conn : Conn) (said more : List Step) :
    requestsOn conn (said ++ more) = requestsOn conn said ++ requestsOn conn more := by
  rw [requestsOn, sent_append, List.filterMap_append]
  rfl

@[simp] theorem framesOn_append (conn : Conn) (said more : List Step) :
    framesOn conn (said ++ more) = framesOn conn said ++ framesOn conn more :=
  List.filterMap_append

@[simp] theorem history_snoc (past : List Turn) (t : Turn) :
    history (past ++ [t]) = history past ++ t.said := by
  simp [history]

theorem sinceOpened_append {conn : Conn} {said : List Step} (more : List Step)
    (h : said.any (isOpened conn) = true) :
    sinceOpened conn (said ++ more) = sinceOpened conn said ++ more := by
  induction said with
  | nil => exact absurd h (by simp)
  | cons e rest ih =>
    rw [List.cons_append, sinceOpened, sinceOpened]
    by_cases he : isOpened conn e = true
    · rw [if_pos he, if_pos he]
    · rw [if_neg he, if_neg he]
      rw [List.any_cons, (Bool.not_eq_true _).mp he, Bool.false_or] at h
      exact ih h

theorem sinceOpened_opened {conn : Conn} {said : List Step} (more : List Step)
    (h : said.any (isOpened conn) = false) :
    sinceOpened conn (said ++ .mark (.session conn) :: more) = more := by
  induction said with
  | nil => simp [sinceOpened, isOpened]
  | cons e rest ih =>
    rw [List.any_cons, Bool.or_eq_false_iff] at h
    rw [List.cons_append, sinceOpened, if_neg (by rw [h.1]; decide)]
    exact ih h.2

/-- Nothing of a session. -/
def Still (said : List Step) : Prop :=
  sent said = [] ∧ ∀ conn, said.any (isOpened conn) = false

theorem Still.append {said more : List Step} (h : Still said) (h' : Still more) :
    Still (said ++ more) := by
  refine ⟨?_, fun conn => ?_⟩
  · rw [sent_append, h.1, h'.1, List.append_nil]
  · rw [List.any_append, h.2 conn, h'.2 conn, Bool.or_false]

theorem still_of_forall {said : List Step} {A : Step → Prop} (h : ∀ e ∈ said, A e)
    (hsent : ∀ e, A e → sentBy e = none) (hopened : ∀ e conn, A e → isOpened conn e = false) :
    Still said := by
  refine ⟨List.filterMap_eq_nil_iff.mpr fun e he => hsent e (h e he), fun conn => ?_⟩
  exact List.any_eq_false.mpr fun e he => by simp [hopened e conn (h e he)]

theorem still_line (line : Json) : Still [.mark (.wrote line)] :=
  ⟨rfl, fun _ => rfl⟩

theorem Setting.still {conn : Conn} {settings : List Step} (h : ∀ e ∈ settings, Setting conn e) :
    Still settings := by
  refine still_of_forall h (fun e he => ?_) fun e conn' he => ?_
  · unfold Setting at he
    split at he <;> first | rfl | exact he.elim
  · unfold Setting at he
    split at he <;> first | rfl | exact he.elim

theorem Opens.still {conn : Conn} {said : List Step} (h : ∀ e ∈ said, Opens conn e) : Still said := by
  refine still_of_forall h (fun e he => ?_) fun e conn' he => ?_
  · unfold Opens at he
    split at he <;> first | rfl | exact he.elim
  · unfold Opens at he
    split at he <;> first | rfl | exact he.elim

theorem Elsewhere.frames {conn : Conn} {said : List Step} (h : Elsewhere conn said) :
    framesOn conn said = [] :=
  List.filterMap_eq_nil_iff.mpr fun e he => (h e he).1

theorem Elsewhere.append {conn : Conn} {said more : List Step} (h : Elsewhere conn said)
    (h' : Elsewhere conn more) : Elsewhere conn (said ++ more) := by
  intro e he
  rcases List.mem_append.mp he with hsaid | hmore
  · exact h e hsaid
  · exact h' e hmore

theorem Elsewhere.bounded {conn : Conn} {said : List Step} (h : Elsewhere conn said) :
    said.any (isUnboundedOn conn) = false := by
  refine List.any_eq_false.mpr fun e he => ?_
  match e, (h e he).2 with
  | .said (.setReadTimeout _ _) (.error _), hset => exact (Bool.not_eq_true _).mpr hset
  | .said (.setReadTimeout _ _) (.ok _), _ | .said (.resolve _) _, _ | .said (.connect _) _, _
  | .said (.setWriteTimeout _ _) _, _ | .said (.writeFrame _ _) _, _ | .said (.readFrame _) _, _
  | .mark _, _ => exact Bool.false_ne_true

theorem elsewhere_mark (conn : Conn) (m : Mark) : Elsewhere conn [.mark m] := by
  intro e he
  obtain rfl := List.mem_singleton.mp he
  exact ⟨rfl, rfl⟩

theorem Opens.elsewhere {conn conn' : Conn} {said : List Step} (h : ∀ e ∈ said, Opens conn e)
    (hconn : conn' ≠ conn) : Elsewhere conn' said := by
  intro e he
  have hopens := h e he
  unfold Opens at hopens
  split at hopens
  · exact ⟨rfl, rfl⟩
  · exact ⟨rfl, rfl⟩
  · exact ⟨rfl, decide_eq_false fun heq => hconn (heq.symm.trans hopens)⟩
  · exact ⟨rfl, rfl⟩
  · exact ⟨rfl, rfl⟩
  · exact ⟨if_neg fun heq => hconn (heq.symm.trans hopens), rfl⟩
  · exact hopens.elim

theorem opening_opens (socket : Option String) (conn : Conn) (path : String) (welcome : Welcome) :
    ∀ e ∈ opening socket conn path welcome, Opens conn e := by
  simp [opening, Opens, reads]

/-! ## What a call says -/

/-- A step of a call on the stream. -/
def On (conn : Conn) : Step → Prop
  | .said (.setReadTimeout conn' _) _ | .said (.writeFrame conn' (.request _)) _
  | .said (.readFrame conn') _ => conn' = conn
  | _ => False

theorem Setting.on {conn : Conn} {e : Step} (h : Setting conn e) : On conn e := by
  unfold Setting at h
  split at h
  · exact h
  · exact h.elim

theorem On.elsewhere {conn conn' : Conn} {said : List Step} (h : ∀ e ∈ said, On conn e)
    (hconn : conn' ≠ conn) : Elsewhere conn' said := by
  intro e he
  have hon := h e he
  unfold On at hon
  split at hon
  · exact ⟨rfl, decide_eq_false fun heq => hconn (heq.symm.trans hon)⟩
  · exact ⟨rfl, rfl⟩
  · exact ⟨if_neg fun heq => hconn (heq.symm.trans hon), rfl⟩
  · exact hon.elim

theorem On.unopened {conn : Conn} {said : List Step} (h : ∀ e ∈ said, On conn e) (conn' : Conn) :
    said.any (isOpened conn') = false := by
  refine List.any_eq_false.mpr fun e he => ?_
  have hon := h e he
  unfold On at hon
  split at hon <;> first | exact Bool.false_ne_true | exact hon.elim

@[simp] theorem deadline_sent (conn : Conn) (call : Call) (ms : Nat) :
    sent (deadline conn call ms) = [] :=
  (Setting.still (deadline_setting conn call ms)).1

@[simp] theorem deadline_frames (conn conn' : Conn) (call : Call) (ms : Nat) :
    framesOn conn' (deadline conn call ms) = [] := by
  unfold deadline
  split <;> rfl

theorem deadline_bounded (conn conn' : Conn) (call : Call) (ms : Nat) :
    (deadline conn call ms).any (isUnboundedOn conn') = false := by
  unfold deadline
  split <;> rfl

theorem exchange_frames (conn : Conn) (request : Request) (written : Except CodecError Unit)
    (frame : Except CodecError (ReadFrame ServerMessage)) :
    framesOn conn [asks conn request written, reads conn frame] = [frame] := by
  have hframe : frameBy conn (reads conn frame) = some frame := if_pos rfl
  rw [framesOn, List.filterMap_cons_none rfl, List.filterMap_cons_some hframe]
  rfl

theorem responseOf_ok {id : RequestId} {frame : ReadFrame ServerMessage} {response : Response}
    (h : responseOf id frame = .ok response) :
    frame = .message (.response response) ∧ response.id = id := by
  unfold responseOf at h
  split at h
  · split at h
    · rename_i hid
      obtain rfl := Except.ok.inj h
      exact ⟨rfl, hid⟩
    · exact absurd h (by simp)
  all_goals exact absurd h (by simp)

theorem RequestId.next_get {id next : RequestId} (h : RequestId.next id = some next) :
    next.get = id.get + 1 := by
  unfold RequestId.next at h
  split at h
  · rw [← Option.some.inj h]
  · exact absurd h (by simp)

namespace Called

variable {seat seat' : Seat} {call : Call} {said : List Step} {answer : Except SeatError Response}

theorem conn_eq (h : Called seat call said answer seat') : seat'.conn = seat.conn := by
  cases h <;> rfl

/-- A call writes at most one request, with the next identity. -/
theorem sent_eq (h : Called seat call said answer seat') :
    sent said = [] ∨ sent said = [(seat.conn, ⟨seat.nextRequest, call⟩)] := by
  cases h with
  | unsent h error => exact .inl (Setting.still h).1
  | unwritten hnext failure | unread hnext failure | unrestored hnext frame failure error =>
    rw [sent_append, deadline_sent]
    exact .inr rfl
  | answered hnext frame =>
    rw [sent_append, sent_append, deadline_sent, deadline_sent]
    exact .inr rfl

/-- A call speaks on its stream only. -/
theorem on (h : Called seat call said answer seat') : ∀ e ∈ said, On seat.conn e := by
  have hdeadline (ms : Nat) : ∀ e ∈ deadline seat.conn call ms, On seat.conn e :=
    fun e he => (deadline_setting seat.conn call ms e he).on
  intro e he
  cases h with
  | unsent h error => exact (h e he).on
  | unwritten hnext failure =>
    rcases List.mem_append.mp he with hset | hsaid
    · exact hdeadline _ e hset
    · obtain rfl := List.mem_singleton.mp hsaid
      exact rfl
  | unread hnext failure =>
    rcases List.mem_append.mp he with hset | hsaid
    · exact hdeadline _ e hset
    · simp only [List.mem_cons, List.not_mem_nil, or_false] at hsaid
      rcases hsaid with rfl | rfl <;> exact rfl
  | unrestored hnext frame failure error =>
    rcases List.mem_append.mp he with hset | hsaid
    · exact hdeadline _ e hset
    · simp only [List.mem_cons, List.not_mem_nil, or_false] at hsaid
      rcases hsaid with rfl | rfl | rfl <;> exact rfl
  | answered hnext frame =>
    rcases List.mem_append.mp he with hsaid | hset
    · rcases List.mem_append.mp hsaid with hset | hsaid
      · exact hdeadline _ e hset
      · simp only [List.mem_cons, List.not_mem_nil, or_false] at hsaid
        rcases hsaid with rfl | rfl <;> exact rfl
    · exact hdeadline _ e hset

/-- A call that was answered wrote its request and read the response to it. -/
theorem ok_says {response : Response} (h : Called seat call said (.ok response) seat') :
    sent said = [(seat.conn, ⟨seat.nextRequest, call⟩)] ∧
      framesOn seat.conn said = [.ok (.message (.response response))] ∧
      response.id = seat.nextRequest ∧ seat'.nextRequest.get = seat.nextRequest.get + 1 ∧
      said.any (isUnboundedOn seat.conn) = false := by
  generalize hok : (Except.ok response : Except SeatError Response) = answer at h
  cases h with
  | answered hnext frame =>
    obtain ⟨rfl, hid⟩ := responseOf_ok hok.symm
    refine ⟨?_, ?_, hid, RequestId.next_get hnext, ?_⟩
    · rw [sent_append, sent_append, deadline_sent, deadline_sent]
      rfl
    · rw [framesOn_append, framesOn_append, deadline_frames, deadline_frames, exchange_frames]
      rfl
    · rw [List.any_append, List.any_append, deadline_bounded, deadline_bounded]
      rfl
  | unsent h error | unwritten hnext failure | unread hnext failure
  | unrestored hnext frame failure error => exact absurd hok (by simp)

end Called

/-! ## Tools on the sessions of the server -/

/-- Where the server keeps a session. -/
inductive Place where
  | legacy
  | context (context : Nat)
  deriving DecidableEq

def Server.sessionAt (s : Server) : Place → Option ProviderSession
  | .legacy => s.legacySession
  | .context context => s.modernContexts.get context

/-- The session a tool works on: the one there is, or a new one. -/
inductive Obtained (s : Server) (p : Place) : List Step → ProviderSession → Server → Prop
  | live {session : ProviderSession} (h : s.sessionAt p = some session) : Obtained s p [] session s
  | made (h : s.sessionAt p = none) {opened : List Step} {seat : Seat} {s₁ : Server}
      (hconnected : Connected s opened seat s₁) :
      Obtained s p (opened ++ [.mark (.session seat.conn)]) ⟨seat, []⟩ s₁

/-- The call of a tool did not fail. -/
def Kept (answer : Option (Except SeatError Response)) : Prop := ∀ error, answer ≠ some (.error error)

/-- Which session a request is to work on, and what it is to do there. -/
inductive Assigned (s : Server) : Duty → Place → Task → Prop
  | legacy (task : Task) : Assigned s (.legacy task) .legacy task
  | modern (context : Nat) (task : Task) : Assigned s (.modern context task) (.context context) task
  | status : Assigned s .status (.context s.modernContexts.next) (.call .seatStatus)

/-- A turn does nothing with a session but forget one, or a tool works on one. -/
inductive Uniform (s : Server) (duty : Duty) : List Step → Server → Prop
  | still {said : List Step} {s' : Server} (hsaid : Still said)
      (hframes : ∀ conn, conn < s.streams → Elsewhere conn said)
      (hat : ∀ q, s'.sessionAt q = s.sessionAt q ∨ s'.sessionAt q = none)
      (hspare : s'.inheritedSeat = s.inheritedSeat) (hstreams : s.streams ≤ s'.streams) :
      Uniform s duty said s'
  | worked {p : Place} {task : Task} {opened body : List Step} {session session' : ProviderSession}
      {s₁ s' : Server} {answer : Option (Except SeatError Response)}
      (hassigned : Assigned s duty p task) (hobtained : Obtained s p opened session s₁)
      (hworked : Worked session task body answer session')
      (hp : s'.sessionAt p = none ∨ s'.sessionAt p = some session' ∧ Kept answer)
      (hends : duty ≠ .status → ends answer = true → s'.sessionAt p = none)
      (hroom : duty = .status → s'.sessionAt p ≠ none → s.modernContexts.next < u64Max)
      (hat : ∀ q, q ≠ p → s'.sessionAt q = s.sessionAt q)
      (hspare : s'.inheritedSeat = s₁.inheritedSeat) (hstreams : s'.streams = s₁.streams)
      (line : Json) : Uniform s duty (opened ++ body ++ [.mark (.wrote line)]) s'

theorem Connected.sessionAt {s s' : Server} {said : List Step} {seat : Seat}
    (h : Connected s said seat s') (q : Place) : s'.sessionAt q = s.sessionAt q := by
  cases h <;> cases q <;> rfl

theorem SameSessions.sessionAt {s s' : Server} (h : SameSessions s s') (q : Place) :
    s'.sessionAt q = s.sessionAt q := by
  obtain ⟨negotiated, initialized, rfl⟩ := h
  cases q <;> rfl

theorem Unconnected.uniform {s s' : Server} {said : List Step} (h : Unconnected s said s') (duty : Duty)
    (line : Json) : Uniform s duty (said ++ [.mark (.wrote line)]) s' := by
  refine .still ((Opens.still h.opens).append (still_line line)) (fun conn hconn => ?_)
    (fun q => .inl ?_) ?_ ?_
  · exact (Opens.elsewhere h.opens (Nat.ne_of_lt hconn)).append (elsewhere_mark _ _)
  all_goals rcases h.state with rfl | rfl
  · rfl
  · cases q <;> rfl
  · rfl
  · rfl
  · exact Nat.le_refl _
  · exact Nat.le_succ _

theorem uniform_line {s s' : Server} (duty : Duty) (line : Json) (h : SameSessions s s') :
    Uniform s duty [.mark (.wrote line)] s' := by
  refine .still (still_line line) (fun _ _ => elsewhere_mark _ _) (fun q => .inl (h.sessionAt q)) ?_ ?_
  all_goals obtain ⟨negotiated, initialized, rfl⟩ := h
  · rfl
  · exact Nat.le_refl _

theorem ends_kept {answer : Option (Except SeatError Response)} (h : ends answer = false) :
    Kept answer := by
  rintro error rfl
  exact absurd h (by simp [ends])

theorem dropContext_at (context : Nat) (s : Server) (q : Place) :
    (dropContext context s).sessionAt q = if q = .context context then none else s.sessionAt q := by
  cases q with
  | legacy => rfl
  | context c =>
    show List.lookup c (Assoc.erase context s.modernContexts.entries) = _
    rw [Assoc.lookup_erase]
    by_cases h : c = context
    · rw [if_pos h, if_pos (by rw [h])]
    · rw [if_neg h, if_neg (by simpa using h)]
      rfl

theorem Held.obtained {s s₁ : Server} {opened : List Step} {session : ProviderSession}
    (h : Held s opened session s₁) : ∃ s₂, Obtained s .legacy opened session s₂ ∧
      s₁.inheritedSeat = s₂.inheritedSeat ∧ s₁.streams = s₂.streams ∧
      s₁.modernContexts = s₂.modernContexts := by
  cases h with
  | live h => exact ⟨s, .live h, rfl, rfl, rfl⟩
  | made h hconnected => exact ⟨_, .made (p := .legacy) h hconnected, rfl, rfl, rfl⟩

theorem Obtained.contexts {s s₁ : Server} {p : Place} {opened : List Step} {session : ProviderSession}
    (h : Obtained s p opened session s₁) : s₁.modernContexts = s.modernContexts := by
  cases h with
  | live h => rfl
  | made h hconnected => exact hconnected.modernContexts

theorem settleLegacy_at (task : Task) (answer : Option (Except SeatError Response))
    (session : ProviderSession) (s : Server) :
    (settleLegacy task answer session s).legacySession =
      (if ends answer then none else some session) ∧
    (settleLegacy task answer session s).modernContexts = s.modernContexts ∧
    (settleLegacy task answer session s).inheritedSeat = s.inheritedSeat ∧
    (settleLegacy task answer session s).streams = s.streams := by
  unfold settleLegacy
  cases ends answer <;> exact ⟨rfl, rfl, rfl, rfl⟩

theorem settleModern_at {context : Nat} (answer : Option (Except SeatError Response))
    {live : ProviderSession} (session : ProviderSession) {s : Server}
    (hlive : s.modernContexts.get context = some live) (q : Place) :
    (settleModern context answer session s).sessionAt q =
      if q = .context context then (if ends answer then none else some session) else s.sessionAt q := by
  unfold settleModern
  cases ends answer with
  | true => exact dropContext_at context s q
  | false =>
    cases q with
    | legacy => rfl
    | context c =>
      show List.lookup c (Assoc.set context session s.modernContexts.entries) = _
      rw [Assoc.lookup_set]
      by_cases h : c = context
      · rw [if_pos h, if_pos (by rw [h])]
        have hlive' : List.lookup context s.modernContexts.entries = some live := hlive
        rw [hlive']
        rfl
      · rw [if_neg h, if_neg (by simpa using h)]
        rfl

theorem LegacyWork.uniform {s s' : Server} {task : Task} {result : Except ProviderFailure ToolResult}
    {said : List Step} (h : LegacyWork s task result said s') (line : Json) :
    Uniform s (.legacy task) (said ++ [.mark (.wrote line)]) s' := by
  cases h with
  | refused failure => exact uniform_line _ line (SameSessions.refl s)
  | unconnected hnone h failure => exact h.uniform _ line
  | worked hrecovered hheld hworked hshown =>
    rename_i opened body session session' s₁ answer
    obtain ⟨s₂, hobtained, hspare, hstreams, hcontexts⟩ := hheld.obtained
    obtain ⟨hsession, hcontexts', hspare', hstreams'⟩ := settleLegacy_at task answer session' s₁
    refine .worked (.legacy task) hobtained hworked ?_ (fun _ hends => ?_) (by simp) (fun q hq => ?_)
      (hspare'.trans hspare) (hstreams'.trans hstreams) line
    · cases hends : ends answer with
      | true => exact .inl (by rw [Server.sessionAt, hsession, hends]; rfl)
      | false => exact .inr ⟨by rw [Server.sessionAt, hsession, hends]; rfl, ends_kept hends⟩
    · rw [Server.sessionAt, hsession, hends]
      rfl
    · match q, hq with
      | .context c, _ =>
        rw [Server.sessionAt, Server.sessionAt, hcontexts', hcontexts, hobtained.contexts]

theorem ModernWork.uniform {s s' : Server} {context : Nat} {task : Task}
    {result : Except ProviderFailure ToolResult} {said : List Step}
    (h : ModernWork s context task result said s') (line : Json) :
    Uniform s (.modern context task) (said ++ [.mark (.wrote line)]) s' := by
  cases h with
  | refused failure => exact uniform_line _ line (SameSessions.refl s)
  | worked hsession hworked hshown =>
    rename_i session session' answer
    have hat := settleModern_at answer session' hsession
    have hrest : (settleModern context answer session' s).inheritedSeat = s.inheritedSeat ∧
        (settleModern context answer session' s).streams = s.streams := by
      unfold settleModern
      cases ends answer <;> exact ⟨rfl, rfl⟩
    refine .worked (.modern context task) (.live hsession) hworked ?_ (fun _ hends => ?_) (by simp)
      (fun q hq => ?_) hrest.1 hrest.2 line
    · rw [hat, if_pos rfl]
      cases hends : ends answer with
      | true => exact .inl rfl
      | false => exact .inr ⟨rfl, ends_kept hends⟩
    · rw [hat, if_pos rfl, hends]
      rfl
    · rw [hat, if_neg hq]

/-! ## The table of contexts -/

/-- A turn adds no context, or one with the next number while there is room. -/
inductive Tabled (c c' : Contexts ProviderSession) : Prop
  | kept (hlimit : c'.limit = c.limit) (hnext : c'.next = c.next)
      (hlength : c'.entries.length ≤ c.entries.length)
      (hget : ∀ context, (c'.get context).isSome = true → (c.get context).isSome = true) : Tabled c c'
  | added (hlimit : c'.limit = c.limit) (hnext : c'.next = c.next + 1)
      (hroom : c.entries.length < c.limit) (hlength : c'.entries.length ≤ c.entries.length + 1)
      (hget : ∀ context, (c'.get context).isSome = true →
        context = c.next ∨ (c.get context).isSome = true) : Tabled c c'

theorem Tabled.refl (c : Contexts ProviderSession) : Tabled c c :=
  .kept rfl rfl (Nat.le_refl _) fun _ => id

theorem Tabled.remove (c : Contexts ProviderSession) (context : Nat) : Tabled c (c.remove context) := by
  refine .kept rfl rfl (Assoc.length_erase_le _ _) fun context' h => ?_
  have hlookup : (Assoc.erase context c.entries).lookup context' =
      if context' = context then none else c.entries.lookup context' := Assoc.lookup_erase _ _ _
  rw [Contexts.get, Contexts.remove, hlookup] at h
  split at h
  · exact absurd h (by simp)
  · exact h

theorem Tabled.set (c : Contexts ProviderSession) (context : Nat) (session : ProviderSession) :
    Tabled c (c.set context session) := by
  refine .kept rfl rfl (Nat.le_of_eq (Assoc.length_set _ _ _)) fun context' h => ?_
  have hlookup : (Assoc.set context session c.entries).lookup context' =
      if context' = context then (c.entries.lookup context).map fun _ => session
      else c.entries.lookup context' := Assoc.lookup_set _ _ _ _
  rw [Contexts.get, Contexts.set, hlookup] at h
  split at h
  · rename_i heq
    rw [Option.isSome_map] at h
    rwa [Contexts.get, heq]
  · exact h

theorem Unconnected.contexts {s s' : Server} {said : List Step} (h : Unconnected s said s') :
    s'.modernContexts = s.modernContexts := by
  rcases h.state with rfl | rfl <;> rfl

theorem SameSessions.contexts {s s' : Server} (h : SameSessions s s') :
    s'.modernContexts = s.modernContexts := by
  obtain ⟨negotiated, initialized, rfl⟩ := h
  rfl

theorem Held.contexts {s s₁ : Server} {opened : List Step} {session : ProviderSession}
    (h : Held s opened session s₁) : s₁.modernContexts = s.modernContexts := by
  obtain ⟨s₂, hobtained, -, -, hcontexts⟩ := h.obtained
  rw [hcontexts, hobtained.contexts]

theorem LegacyWork.contexts {s s' : Server} {task : Task} {result : Except ProviderFailure ToolResult}
    {said : List Step} (h : LegacyWork s task result said s') :
    s'.modernContexts = s.modernContexts := by
  cases h with
  | refused failure => rfl
  | unconnected hnone h failure => exact h.contexts
  | worked hrecovered hheld hworked hshown =>
    rw [(settleLegacy_at task _ _ _).2.1, hheld.contexts]

theorem settleModern_tabled (context : Nat) (answer : Option (Except SeatError Response))
    (session : ProviderSession) (s : Server) :
    Tabled s.modernContexts (settleModern context answer session s).modernContexts := by
  unfold settleModern
  cases ends answer with
  | true => exact Tabled.remove s.modernContexts context
  | false => exact Tabled.set s.modernContexts context session

theorem Turned.tabled {reason : String → Json → String} {s s' : Server} {request : RpcRequest}
    {said : List Step} (h : Turned reason s request said s') :
    Tabled s.modernContexts s'.modernContexts := by
  cases h with
  | silent h hs | spoke h hid hduty hline hs =>
    rw [hs.contexts]
    exact Tabled.refl _
  | unknown h hid hduty hline hnone => exact Tabled.refl _
  | legacy h hid hduty hwork =>
    rw [hwork.contexts]
    exact Tabled.refl _
  | modern h hid hduty hwork =>
    cases hwork with
    | refused failure => exact Tabled.refl _
    | worked hsession hworked hshown => exact settleModern_tabled _ _ _ _
  | status h hid hduty hwork =>
    cases hwork with
    | refused failure => exact Tabled.refl _
    | unconnected h failure =>
      rw [h.contexts]
      exact Tabled.refl _
    | failed hconnected hcalled hfailed failure =>
      rw [hconnected.modernContexts]
      exact Tabled.refl _
    | created hfull hconnected hcalled hnext =>
      have hroom : s.modernContexts.entries.length < s.modernContexts.limit := by
        simpa [Contexts.isFull] using hfull
      refine .added rfl (checkedSucc_eq_some.mp hnext).2 hroom (Assoc.length_insert_le _ _ _) fun context h => ?_
      rw [Contexts.get, Assoc.lookup_insert] at h
      split at h
      · exact .inl ‹_›
      · exact .inr h
  | released h hid hduty hline hlive => exact Tabled.remove s.modernContexts _

/-- The table has room for eight contexts, all with numbers below the next one. -/
structure Table (c : Contexts ProviderSession) : Prop where
  limit : c.limit = maxModernContexts
  room : c.entries.length ≤ maxModernContexts
  below : ∀ context, (c.get context).isSome = true → context < c.next

theorem Tabled.table {c c' : Contexts ProviderSession} (h : Tabled c c') (ht : Table c) : Table c' := by
  cases h with
  | kept hlimit hnext hlength hget =>
    refine ⟨hlimit.trans ht.limit, Nat.le_trans hlength ht.room, fun context h => ?_⟩
    rw [hnext]
    exact ht.below context (hget context h)
  | added hlimit hnext hroom hlength hget =>
    have hlimit' := ht.limit
    refine ⟨hlimit.trans ht.limit, by omega, fun context h => ?_⟩
    rcases hget context h with rfl | hlive
    · omega
    · have := ht.below context hlive
      omega

theorem Start.table {s : Server} (h : Start s) : Table s.modernContexts := by
  cases h <;> exact ⟨rfl, Nat.zero_le _, fun context h => absurd h (by simp [Server.new, Contexts.new,
    Contexts.get])⟩

theorem Reached.table {reason : String → Json → String} {past : List Turn} {s : Server}
    (h : Reached reason past s) : Table s.modernContexts := by
  induction h with
  | start h => exact h.table
  | turn h hturned ih => exact hturned.tabled.table ih

/-! ## The sessions the server keeps -/

theorem StatusWork.uniform {s s' : Server} {result : Except ProviderFailure (Nat × Outcome)}
    {said : List Step} (h : StatusWork s result said s') (ht : Table s.modernContexts) (line : Json) :
    Uniform s .status (said ++ [.mark (.wrote line)]) s' := by
  have hfresh : s.sessionAt (.context s.modernContexts.next) = none := by
    rw [← Option.not_isSome_iff_eq_none]
    exact fun h => Nat.lt_irrefl _ (ht.below _ h)
  cases h with
  | refused failure => exact uniform_line _ line (SameSessions.refl s)
  | unconnected h failure => exact h.uniform _ line
  | failed hconnected hcalled hfailed failure =>
    exact .worked .status (.made hfresh hconnected) (.call hcalled)
      (.inl ((hconnected.sessionAt _).trans hfresh)) (fun hne => absurd rfl hne)
      (fun _ hkept => absurd ((hconnected.sessionAt _).trans hfresh) hkept)
      (fun q _ => hconnected.sessionAt q) rfl rfl line
  | created hfull hconnected hcalled hnext =>
    rename_i seat seat' s₁ response next
    refine .worked .status (.made hfresh hconnected) (.call hcalled) (.inr ⟨?_, ?_⟩)
      (fun hne => absurd rfl hne) (fun _ _ => (checkedSucc_eq_some.mp hnext).1) (fun q hq => ?_) ?_ ?_
      line
    · show List.lookup _ (Assoc.insert _ _ _) = _
      rw [Assoc.lookup_insert, if_pos rfl]
    · intro error h
      exact absurd h (by simp)
    · cases q with
      | legacy => exact hconnected.sessionAt .legacy
      | context c =>
        show List.lookup c (Assoc.insert _ _ _) = _
        rw [Assoc.lookup_insert, if_neg (by simpa using hq)]
        rfl
    · rfl
    · rfl

theorem Turned.uniform {reason : String → Json → String} {s s' : Server} {request : RpcRequest}
    {said : List Step} (h : Turned reason s request said s') (ht : Table s.modernContexts) :
    Uniform s (dutyOf reason request) said s' := by
  cases h with
  | silent h hs =>
    refine .still ⟨rfl, fun _ => rfl⟩ (fun _ _ _ he => absurd he (by simp))
      (fun q => .inl (hs.sessionAt q)) ?_ ?_
    all_goals obtain ⟨negotiated, initialized, rfl⟩ := hs
    · rfl
    · exact Nat.le_refl _
  | spoke h hid hduty hline hs => exact uniform_line _ _ hs
  | unknown h hid hduty hline hnone => exact uniform_line _ _ (SameSessions.refl s)
  | legacy h hid hduty hwork =>
    rw [hduty]
    exact hwork.uniform _
  | modern h hid hduty hwork =>
    rw [hduty]
    exact hwork.uniform _
  | status h hid hduty hwork =>
    rw [hduty]
    exact hwork.uniform ht _
  | released h hid hduty hline hlive =>
    refine .still (still_line _) (fun _ _ => elsewhere_mark _ _) (fun q => ?_) rfl (Nat.le_refl _)
    rw [dropContext_at]
    split
    · exact .inr rfl
    · exact .inl rfl

/-- A frame is the response to a request. -/
def Answering (request : Request) (frame : Except CodecError (ReadFrame ServerMessage)) : Prop :=
  ∃ response, frame = .ok (.message (.response response)) ∧ response.id = request.id

/-- Nothing of a session was said on the stream. -/
def Untouched (said : List Step) (conn : Conn) : Prop :=
  said.any (isOpened conn) = false ∧ requestsOn conn said = []

/-- The record of a session that is still good: every request was answered by the next frame. -/
structure Unbroken (said : List Step) (seat : Seat) : Prop where
  opened : said.any (isOpened seat.conn) = true
  next : seat.nextRequest.get = (requestsOn seat.conn said).length + 1
  paired : List.Forall₂ Answering (requestsOn seat.conn said)
    (framesOn seat.conn (sinceOpened seat.conn said))
  bounded : (sinceOpened seat.conn said).any (isUnboundedOn seat.conn) = false

/-- Sessions kept at their places, over everything said so far. -/
structure Seats (said : List Step) (kept : Place → Option ProviderSession) (spare : Option Seat)
    (streams : Nat) : Prop where
  unbroken : ∀ {p : Place} {session : ProviderSession},
    kept p = some session → Unbroken said session.seat
  apart : ∀ {p q : Place} {session session' : ProviderSession}, kept p = some session →
    kept q = some session' → session.seat.conn = session'.seat.conn → p = q
  spare : ∀ {seat : Seat}, spare = some seat →
    seat.nextRequest = firstRequest ∧ seat.conn < streams ∧ Untouched said seat.conn
  fresh : ∀ {conn : Conn}, streams ≤ conn → Untouched said conn
  numbered : ∀ (conn : Conn) (k : Nat) (request : Request),
    (requestsOn conn said)[k]? = some request → request.id.get = k + 1

theorem requestsOn_sent {conn : Conn} {said : List Step} (h : sent said = []) :
    requestsOn conn said = [] := by
  rw [requestsOn, h]
  rfl

theorem Still.untouched {said : List Step} (h : Still said) (conn : Conn) : Untouched said conn :=
  ⟨h.2 conn, requestsOn_sent h.1⟩

theorem Untouched.append {said more : List Step} {conn : Conn} (h : Untouched said conn)
    (h' : Untouched more conn) : Untouched (said ++ more) conn := by
  refine ⟨?_, ?_⟩
  · rw [List.any_append, h.1, h'.1, Bool.or_false]
  · rw [requestsOn_append, h.2, h'.2, List.append_nil]

/-- What is said elsewhere does not change the record of a session. -/
theorem Unbroken.append {said more : List Step} {seat : Seat} (h : Unbroken said seat)
    (hrequests : requestsOn seat.conn more = []) (hmore : Elsewhere seat.conn more) :
    Unbroken (said ++ more) seat := by
  refine ⟨by rw [List.any_append, h.opened, Bool.true_or], ?_, ?_, ?_⟩
  · rw [requestsOn_append, hrequests, List.append_nil]
    exact h.next
  · rw [sinceOpened_append more h.opened, requestsOn_append, hrequests, framesOn_append, hmore.frames,
      List.append_nil, List.append_nil]
    exact h.paired
  · rw [sinceOpened_append more h.opened, List.any_append, h.bounded, Bool.false_or]
    exact hmore.bounded

/-- A call that was answered continues the record of its session. -/
theorem Unbroken.call {said body : List Step} {seat seat' : Seat} {call : Call} {response : Response}
    (h : Unbroken said seat) (hcalled : Called seat call body (.ok response) seat') :
    Unbroken (said ++ body) seat' := by
  obtain ⟨hsent, hframes, hid, hnext, hbounded⟩ := hcalled.ok_says
  have hrequests : requestsOn seat.conn body = [⟨seat.nextRequest, call⟩] := by
    simp [requestsOn, hsent]
  refine ⟨?_, ?_, ?_, ?_⟩
  all_goals rw [hcalled.conn_eq]
  · rw [List.any_append, h.opened, Bool.true_or]
  · rw [requestsOn_append, hrequests, List.length_append, hnext, h.next]
    rfl
  · rw [sinceOpened_append body h.opened, requestsOn_append, hrequests, framesOn_append, hframes]
    exact List.rel_append h.paired (.cons ⟨response, rfl, hid⟩ .nil)
  · rw [sinceOpened_append body h.opened, List.any_append, h.bounded, hbounded, Bool.or_false]

/-- The record of a new session. -/
theorem Untouched.unbroken {said opened : List Step} {seat : Seat} (h : Untouched (said ++ opened) seat.conn)
    (hnext : seat.nextRequest = firstRequest) :
    Unbroken (said ++ (opened ++ [.mark (.session seat.conn)])) seat := by
  have hmark : requestsOn seat.conn [.mark (.session seat.conn)] = [] := rfl
  have hrequests : requestsOn seat.conn (said ++ (opened ++ [.mark (.session seat.conn)])) = [] := by
    rw [← List.append_assoc, requestsOn_append, h.2, hmark]
    rfl
  have hsince : sinceOpened seat.conn (said ++ (opened ++ [.mark (.session seat.conn)])) = [] := by
    rw [← List.append_assoc, sinceOpened_opened [] h.1]
  refine ⟨by simp [isOpened], ?_, ?_, by rw [hsince]; rfl⟩
  · rw [hrequests, hnext]
    rfl
  · rw [hrequests, hsince]
    exact .nil

theorem Unbroken.touched {said : List Step} {seat : Seat} (h : Unbroken said seat) :
    ¬ Untouched said seat.conn := by
  intro huntouched
  exact absurd h.opened (by rw [huntouched.1]; decide)

namespace Seats

variable {said : List Step} {kept : Place → Option ProviderSession} {spare : Option Seat}
  {streams : Nat}

theorem below (h : Seats said kept spare streams) {p : Place} {session : ProviderSession}
    (hp : kept p = some session) : session.seat.conn < streams :=
  Nat.lt_of_not_le fun hle => (h.unbroken hp).touched (h.fresh hle)

/-- Nothing of a session is said, and sessions are only forgotten. -/
theorem still (h : Seats said kept spare streams) {more : List Step} (hmore : Still more)
    (hframes : ∀ conn, conn < streams → Elsewhere conn more)
    {kept' : Place → Option ProviderSession} (hkept : ∀ q, kept' q = kept q ∨ kept' q = none)
    {streams' : Nat} (hstreams : streams ≤ streams') : Seats (said ++ more) kept' spare streams' := by
  have hstill {q : Place} {session : ProviderSession} (hq : kept' q = some session) :
      kept q = some session := by
    rcases hkept q with heq | heq
    · exact heq.symm.trans hq
    · exact absurd (heq.symm.trans hq) (by simp)
  refine ⟨fun hp => ?_, fun hp hq => h.apart (hstill hp) (hstill hq), fun hseat => ?_, fun hconn => ?_,
    fun conn k request hk => ?_⟩
  · exact (h.unbroken (hstill hp)).append (requestsOn_sent hmore.1) (hframes _ (h.below (hstill hp)))
  · obtain ⟨hfirst, hlt, huntouched⟩ := h.spare hseat
    exact ⟨hfirst, Nat.lt_of_lt_of_le hlt hstreams, huntouched.append (hmore.untouched _)⟩
  · exact (h.fresh (Nat.le_trans hstreams hconn)).append (hmore.untouched _)
  · rw [requestsOn_append, requestsOn_sent hmore.1, List.append_nil] at hk
    exact h.numbered conn k request hk

theorem opened (h : Seats said kept spare streams) {more : List Step} {seat : Seat}
    (hfirst : seat.nextRequest = firstRequest) (huntouched : Untouched said seat.conn)
    (hmore : Still more) (hframes : ∀ conn, conn ≠ seat.conn → Elsewhere conn more)
    {spare' : Option Seat} (hspare : ∀ seat', spare' = some seat' → spare = some seat' ∧
      seat'.conn ≠ seat.conn)
    {streams' : Nat} (hstreams : streams ≤ streams') (hlt : seat.conn < streams') (p : Place) :
    Seats (said ++ (more ++ [.mark (.session seat.conn)]))
      (fun q => if q = p then some ⟨seat, []⟩ else kept q) spare' streams' := by
  have hsent : sent (more ++ [.mark (.session seat.conn)]) = [] := by
    rw [sent_append, hmore.1]
    rfl
  have hmore' (conn : Conn) (hconn : conn ≠ seat.conn) :
      Untouched (more ++ [.mark (.session seat.conn)]) conn := by
    refine ⟨?_, requestsOn_sent hsent⟩
    rw [List.any_append, hmore.2 conn]
    simp [isOpened, Ne.symm hconn]
  have hnew : Unbroken (said ++ (more ++ [.mark (.session seat.conn)])) seat :=
    (huntouched.append (hmore.untouched _)).unbroken hfirst
  have hother {q : Place} {session : ProviderSession} (hq : kept q = some session) :
      session.seat.conn ≠ seat.conn :=
    fun heq => (h.unbroken hq).touched (heq ▸ huntouched)
  refine ⟨fun {q session} hq => ?_, fun {q q' session session'} hq hq' heq => ?_,
    fun {seat'} hseat => ?_, fun {conn} hconn => ?_, fun conn k request hk => ?_⟩
  · by_cases hqp : q = p
    · rw [if_pos hqp] at hq
      obtain rfl := Option.some.inj hq
      exact hnew
    · rw [if_neg hqp] at hq
      exact (h.unbroken hq).append (requestsOn_sent hsent)
        ((hframes _ (hother hq)).append (elsewhere_mark _ _))
  · by_cases hqp : q = p <;> by_cases hqp' : q' = p
    · rw [hqp, hqp']
    · rw [if_pos hqp] at hq
      rw [if_neg hqp'] at hq'
      obtain rfl := Option.some.inj hq
      exact absurd heq.symm (hother hq')
    · rw [if_neg hqp] at hq
      rw [if_pos hqp'] at hq'
      obtain rfl := Option.some.inj hq'
      exact absurd heq (hother hq)
    · rw [if_neg hqp] at hq
      rw [if_neg hqp'] at hq'
      exact h.apart hq hq' heq
  · obtain ⟨hseat', hne⟩ := hspare seat' hseat
    obtain ⟨hfirst', hlt', huntouched'⟩ := h.spare hseat'
    exact ⟨hfirst', Nat.lt_of_lt_of_le hlt' hstreams, huntouched'.append (hmore' _ hne)⟩
  · have hne : conn ≠ seat.conn := Nat.ne_of_gt (Nat.lt_of_lt_of_le hlt hconn)
    exact (h.fresh (Nat.le_trans hstreams hconn)).append (hmore' _ hne)
  · rw [requestsOn_append, requestsOn_sent hsent, List.append_nil] at hk
    exact h.numbered conn k request hk

/-- A session is made at a place. -/
theorem made {s s₁ : Server} (h : Seats said kept s.inheritedSeat s.streams) {more : List Step}
    {seat : Seat} (hconnected : Connected s more seat s₁) (p : Place) :
    Seats (said ++ (more ++ [.mark (.session seat.conn)]))
      (fun q => if q = p then some ⟨seat, []⟩ else kept q) s₁.inheritedSeat s₁.streams := by
  cases hconnected with
  | inherited hseat =>
    obtain ⟨hfirst, hlt, huntouched⟩ := h.spare hseat
    exact h.opened hfirst huntouched ⟨rfl, fun _ => rfl⟩ (fun _ _ _ he => absurd he (by simp))
      (fun seat' h => absurd h (by simp)) (Nat.le_refl _) hlt p
  | opened hnone path welcome =>
    have hopens := opening_opens s.socket s.streams path welcome
    exact h.opened rfl (h.fresh (Nat.le_refl _)) (Opens.still hopens) (fun conn => Opens.elsewhere hopens)
      (fun seat' h => absurd (hnone.symm.trans h) (by simp)) (Nat.le_succ _) (Nat.lt_succ_self _) p

/-- A call on the session of a place. -/
theorem called (h : Seats said kept spare streams) {p : Place} {session session' : ProviderSession}
    (hp : kept p = some session) {call : Call} {body : List Step} {answer : Except SeatError Response}
    (hcalled : Called session.seat call body answer session'.seat)
    {kept' : Place → Option ProviderSession}
    (hp' : kept' p = none ∨ kept' p = some session' ∧ Kept (some answer))
    (hkept : ∀ q, q ≠ p → kept' q = kept q) : Seats (said ++ body) kept' spare streams := by
  have hoff {conn : Conn} (hconn : conn ≠ session.seat.conn) : Untouched body conn := by
    refine ⟨On.unopened hcalled.on conn, ?_⟩
    rcases hcalled.sent_eq with hsent | hsent
    · exact requestsOn_sent hsent
    · simp [requestsOn, hsent, Ne.symm hconn]
  have hother {conn : Conn} (huntouched : Untouched said conn) : conn ≠ session.seat.conn := by
    rintro rfl
    exact (h.unbroken hp).touched huntouched
  have hp'' {session'' : ProviderSession} (hq : kept' p = some session'') :
      session'' = session' ∧ Kept (some answer) := by
    rcases hp' with hnone | ⟨heq, hkeeps⟩
    · exact absurd (hnone.symm.trans hq) (by simp)
    · exact ⟨Option.some.inj (hq.symm.trans heq), hkeeps⟩
  refine ⟨fun {q session''} hq => ?_, fun {q q' session₁ session₂} hq hq' heq => ?_,
    fun hseat => ?_, fun hconn => ?_, fun conn k request hk => ?_⟩
  · by_cases hqp : q = p
    · obtain ⟨rfl, hkeeps⟩ := hp'' (hqp ▸ hq)
      cases answer with
      | error error => exact absurd rfl (hkeeps error)
      | ok response => exact (h.unbroken hp).call hcalled
    · rw [hkept q hqp] at hq
      have hne : session''.seat.conn ≠ session.seat.conn := fun heq => hqp (h.apart hq hp heq)
      exact (h.unbroken hq).append (hoff hne).2 (On.elsewhere hcalled.on hne)
  · have hconn {r : Place} {session₀ : ProviderSession} (hr : kept' r = some session₀) :
        ∃ session₁, kept r = some session₁ ∧ session₁.seat.conn = session₀.seat.conn := by
      by_cases hrp : r = p
      · obtain ⟨rfl, -⟩ := hp'' (hrp ▸ hr)
        exact ⟨session, hrp ▸ hp, hcalled.conn_eq.symm⟩
      · exact ⟨session₀, (hkept r hrp).symm.trans hr, rfl⟩
    obtain ⟨old, hold, holdconn⟩ := hconn hq
    obtain ⟨old', hold', holdconn'⟩ := hconn hq'
    exact h.apart hold hold' (holdconn.trans (heq.trans holdconn'.symm))
  · obtain ⟨hfirst, hlt, huntouched⟩ := h.spare hseat
    exact ⟨hfirst, hlt, huntouched.append (hoff (hother huntouched))⟩
  · exact (h.fresh hconn).append (hoff (hother (h.fresh hconn)))
  · rw [requestsOn_append] at hk
    by_cases hconn : conn = session.seat.conn
    · subst hconn
      rcases hcalled.sent_eq with hsent | hsent
      · rw [requestsOn_sent hsent, List.append_nil] at hk
        exact h.numbered _ k request hk
      · have hbody : requestsOn session.seat.conn body = [⟨session.seat.nextRequest, call⟩] := by
          simp [requestsOn, hsent]
        rw [hbody] at hk
        by_cases hlt : k < (requestsOn session.seat.conn said).length
        · rw [List.getElem?_append_left hlt] at hk
          exact h.numbered _ k request hk
        · -- the new request has the identity after all earlier ones
          have hk' : k = (requestsOn session.seat.conn said).length := by
            have hbound := (List.getElem?_eq_some_iff.mp hk).1
            rw [List.length_append, List.length_singleton] at hbound
            omega
          rw [hk', List.getElem?_append_right (Nat.le_refl _), Nat.sub_self] at hk
          obtain rfl := Option.some.inj hk
          rw [hk']
          exact (h.unbroken hp).next
    · rw [(hoff hconn).2, List.append_nil] at hk
      exact h.numbered conn k request hk

/-- A tool works on the session of a place. -/
theorem worked (h : Seats said kept spare streams) {p : Place} {session session' : ProviderSession}
    (hp : kept p = some session) {task : Task} {body : List Step}
    {answer : Option (Except SeatError Response)} (hworked : Worked session task body answer session')
    {kept' : Place → Option ProviderSession}
    (hp' : kept' p = none ∨ kept' p = some session' ∧ Kept answer)
    (hkept : ∀ q, q ≠ p → kept' q = kept q) : Seats (said ++ body) kept' spare streams := by
  have hquiet (hseat : session'.seat = session.seat) : Seats said kept' spare streams := by
    have hq {q : Place} {session₀ : ProviderSession} (hq : kept' q = some session₀) :
        ∃ old, kept q = some old ∧ old.seat = session₀.seat := by
      by_cases hqp : q = p
      · subst hqp
        rcases hp' with hnone | ⟨heq, -⟩
        · exact absurd (hnone.symm.trans hq) (by simp)
        · obtain rfl := Option.some.inj (hq.symm.trans heq)
          exact ⟨session, hp, hseat.symm⟩
      · exact ⟨session₀, (hkept q hqp).symm.trans hq, rfl⟩
    refine ⟨fun hr => ?_, fun hr hr' heq => ?_, h.spare, h.fresh, h.numbered⟩
    · obtain ⟨old, hold, heq⟩ := hq hr
      exact heq ▸ h.unbroken hold
    · obtain ⟨old, hold, heq₁⟩ := hq hr
      obtain ⟨old', hold', heq₂⟩ := hq hr'
      exact h.apart hold hold' (by rw [heq₁, heq₂, heq])
  cases hworked with
  | call hcalled => exact h.called hp hcalled hp' hkept
  | replayed hread hslot hcalled => exact h.called hp hcalled hp' hkept
  | idle name arguments | saved hread =>
    rw [List.append_nil]
    exact hquiet rfl

end Seats

theorem Uniform.seats {s s' : Server} {duty : Duty} {said more : List Step} (h : Uniform s duty more s')
    (hseats : Seats said s.sessionAt s.inheritedSeat s.streams) :
    Seats (said ++ more) s'.sessionAt s'.inheritedSeat s'.streams := by
  cases h with
  | still hsaid hframes hat hspare hstreams =>
    rw [hspare]
    exact hseats.still hsaid hframes hat hstreams
  | worked hassigned hobtained hworked hp hends hroom hat hspare hstreams line =>
    rw [hspare, hstreams, ← List.append_assoc, ← List.append_assoc]
    refine Seats.still ?_ (still_line line) (fun _ _ => elsewhere_mark _ _) (fun q => .inl rfl) (Nat.le_refl _)
    cases hobtained with
    | live h =>
      rw [List.append_nil]
      exact hseats.worked h hworked hp hat
    | made h hconnected =>
      refine (hseats.made hconnected _).worked (if_pos rfl) hworked hp fun q hq => ?_
      rw [if_neg hq]
      exact hat q hq

theorem Start.seats {s : Server} (h : Start s) :
    Seats [] s.sessionAt s.inheritedSeat s.streams := by
  have huntouched (conn : Conn) : Untouched [] conn := ⟨rfl, rfl⟩
  have hnone (q : Place) : s.sessionAt q = none := by
    cases h <;> cases q <;> rfl
  refine ⟨fun hp => ?_, fun hp => ?_, fun hseat => ?_, fun _ => huntouched _, fun conn k request hk => ?_⟩
  · exact absurd ((hnone _).symm.trans hp) (by simp)
  · exact absurd ((hnone _).symm.trans hp) (by simp)
  · cases h with
    | alone socket => exact absurd hseat (by simp [Server.new])
    | inherited socket =>
      obtain rfl := Option.some.inj hseat
      exact ⟨rfl, Nat.zero_lt_one, huntouched _⟩
  · exact absurd hk (by simp [requestsOn, sent])

theorem Reached.seats {reason : String → Json → String} {past : List Turn} {s : Server}
    (h : Reached reason past s) : Seats (history past) s.sessionAt s.inheritedSeat s.streams := by
  induction h with
  | start h => exact h.seats
  | turn h hturned ih =>
    rw [history_snoc]
    exact (hturned.uniform h.table).seats ih

theorem Connected.unopened {s s₁ : Server} {opened : List Step} {seat : Seat}
    (h : Connected s opened seat s₁) (conn : Conn) : opened.any (isOpened conn) = false := by
  cases h <;> rfl

theorem Connected.elsewhere {s s₁ : Server} {opened : List Step} {seat : Seat}
    (h : Connected s opened seat s₁) {conn : Conn} (hconn : conn ≠ seat.conn) :
    Elsewhere conn opened := by
  cases h with
  | inherited h => exact fun _ he => absurd he (by simp)
  | opened h path welcome => exact Opens.elsewhere (opening_opens _ _ _ _) hconn

theorem Worked.elsewhere {session session' : ProviderSession} {task : Task} {body : List Step}
    {answer : Option (Except SeatError Response)} (h : Worked session task body answer session')
    {conn : Conn} (hconn : conn ≠ session.seat.conn) : Elsewhere conn body := by
  cases h with
  | call h | replayed hread hslot h => exact On.elsewhere h.on hconn
  | idle name arguments | saved h => exact fun _ he => absurd he (by simp)

/-- A session is made on a stream on which nothing was said. -/
theorem Seats.unopened {s s₁ : Server} {said opened : List Step} {seat : Seat}
    {kept : Place → Option ProviderSession} (h : Seats said kept s.inheritedSeat s.streams)
    (hconnected : Connected s opened seat s₁) :
    Untouched said seat.conn ∧ (said ++ opened).any (isOpened seat.conn) = false := by
  have huntouched : Untouched said seat.conn := by
    cases hconnected with
    | inherited hseat => exact (h.spare hseat).2.2
    | opened hnone path welcome => exact h.fresh (Nat.le_refl _)
  refine ⟨huntouched, ?_⟩
  rw [List.any_append, huntouched.1, hconnected.unopened, Bool.or_false]

/-! ## The outcome of a turn -/

def responseBy (id : RequestId) : Step → Option Response
  | .said (.readFrame _) (.ok (.message (.response response))) =>
    if response.id = id then some response else none
  | _ => none

def isUnbounded : Step → Bool
  | .said (.setReadTimeout _ _) (.error _) => true
  | _ => false

/-- The outcome a provider gave to the request of a turn: that of the response to it. It does not
    count when the deadline of the stream could not be restored. -/
def outcomeIn (said : List Step) : Option Outcome :=
  match sent said with
  | [(_, request)] =>
    if said.any isUnbounded then none
    else (said.findSome? (responseBy request.id)).map Response.outcome
  | _ => none

/-- What is said on the way to a session has no part in an outcome. -/
def Apart (said : List Step) : Prop :=
  sent said = [] ∧ said.any isUnbounded = false ∧ ∀ id, said.findSome? (responseBy id) = none

theorem Connected.apart {s s₁ : Server} {opened : List Step} {seat : Seat}
    (h : Connected s opened seat s₁) : Apart (opened ++ [.mark (.session seat.conn)]) := by
  cases h with
  | inherited h => exact ⟨rfl, rfl, fun _ => rfl⟩
  | opened h path welcome => exact ⟨rfl, rfl, fun _ => rfl⟩

theorem Obtained.apart {s s₁ : Server} {p : Place} {opened : List Step} {session : ProviderSession}
    (h : Obtained s p opened session s₁) : Apart opened := by
  cases h with
  | live h => exact ⟨rfl, rfl, fun _ => rfl⟩
  | made h hconnected => exact hconnected.apart

theorem outcomeIn_none {said : List Step} (h : sent said = []) : outcomeIn said = none := by
  rw [outcomeIn, h]

theorem deadline_apart (conn : Conn) (call : Call) (ms : Nat) : Apart (deadline conn call ms) := by
  unfold deadline
  split <;> exact ⟨rfl, rfl, fun _ => rfl⟩

theorem outcomeIn_exchange {opened body more : List Step} (hopened : Apart opened) (hmore : Apart more)
    (conn : Conn) (request : Request) (hbody : sent body = [(conn, request)]) :
    outcomeIn (opened ++ body ++ more) =
      if body.any isUnbounded then none
      else (body.findSome? (responseBy request.id)).map Response.outcome := by
  have hsent : sent (opened ++ body ++ more) = [(conn, request)] := by
    rw [sent_append, sent_append, hopened.1, hbody, hmore.1]
    rfl
  have hany : (opened ++ body ++ more).any isUnbounded = body.any isUnbounded := by
    rw [List.any_append, List.any_append, hopened.2.1, hmore.2.1, Bool.or_false, Bool.false_or]
  have hfind : (opened ++ body ++ more).findSome? (responseBy request.id) =
      body.findSome? (responseBy request.id) := by
    rw [List.findSome?_append, List.findSome?_append, hopened.2.2, hmore.2.2, Option.none_or,
      Option.or_none]
  unfold outcomeIn
  rw [hsent]
  dsimp only
  rw [hany, hfind]

theorem responseBy_reads (id : RequestId) (conn : Conn) (frame : ReadFrame ServerMessage) :
    responseBy id (reads conn (.ok frame)) = (responseOf id frame).toOption := by
  cases frame with
  | cleanEof => rfl
  | message message =>
    cases message with
    | welcome _ | goodbye _ => rfl
    | response response =>
      by_cases hid : response.id = id
      · simp [reads, responseBy, responseOf, hid, Except.toOption]
      · simp [reads, responseBy, responseOf, hid, Except.toOption]

/-- The outcome of a turn is the one its call gave. -/
theorem Called.outcomeIn_eq {seat seat' : Seat} {call : Call} {opened body : List Step}
    {answer : Except SeatError Response} (h : Called seat call body answer seat') (hopened : Apart opened)
    (line : Json) :
    outcomeIn (opened ++ body ++ [.mark (.wrote line)]) = answer.toOption.map Response.outcome := by
  have hline : Apart [.mark (.wrote line)] := ⟨rfl, rfl, fun _ => rfl⟩
  have hdeadline := deadline_apart seat.conn call longInputTimeoutMs
  have hrestored := deadline_apart seat.conn call ioTimeoutMs
  cases h with
  | unsent h error =>
    refine outcomeIn_none ?_
    rw [sent_append, sent_append, hopened.1, (Setting.still h).1]
    rfl
  | unwritten hnext failure | unread hnext failure =>
    rw [outcomeIn_exchange hopened hline seat.conn ⟨seat.nextRequest, call⟩
      (by rw [sent_append, hdeadline.1]; rfl), List.any_append, hdeadline.2.1, List.findSome?_append,
      hdeadline.2.2]
    rfl
  | unrestored hnext frame failure error =>
    rw [outcomeIn_exchange hopened hline seat.conn ⟨seat.nextRequest, call⟩
      (by rw [sent_append, hdeadline.1]; rfl), List.any_append]
    simp [asks, reads, isUnbounded]
    rfl
  | answered hnext frame =>
    rw [outcomeIn_exchange hopened hline seat.conn ⟨seat.nextRequest, call⟩
      (by rw [sent_append, sent_append, hdeadline.1, hrestored.1]; rfl), List.any_append,
      List.any_append, hdeadline.2.1, hrestored.2.1, List.findSome?_append, List.findSome?_append,
      hdeadline.2.2, hrestored.2.2]
    have hresponse := responseBy_reads seat.nextRequest seat.conn frame
    have hasks : responseBy seat.nextRequest (asks seat.conn ⟨seat.nextRequest, call⟩ (.ok ())) = none :=
      rfl
    rw [Option.none_or, Option.or_none, List.findSome?_cons, hasks]
    dsimp only
    rw [List.findSome?_cons, hresponse, List.findSome?_nil]
    cases responseOf seat.nextRequest frame <;> rfl

end AgentSeat.Companion
