/-
  Requests and responses across the wire.

  `Paired` says of a run that every outcome the companion returns is that of the response to the one
  request of its call; that nothing is written to a stream once an exchange on it went wrong; and that,
  with the session loop of the provider at the other end of the stream, the outcome was given by the
  provider to that very request. It holds of every run (`request_response_pairing`).
-/
import AgentSeat.Companion.Runs
import AgentSeat.Session.Conversation
import AgentSeat.Session.Plain

namespace AgentSeat.Companion

open AgentSeat.Lib AgentSeat.Proto

/-! ## What is returned -/

/-- The line in which the result of a tool is shown. -/
def toolLine (duty : Duty) (id : Json) (result : ToolResult) : Json :=
  match duty with
  | .legacy _ => resultLine id result.json
  | _ => resultLine id (modernToolResult result)

/-- What is shown of the outcome of a call: with a status, the new context. -/
def shownOutcome (s : Server) (duty : Duty) (outcome : Outcome) : ToolResult :=
  match duty with
  | .status => (toolOutcome outcome).withContext s.modernContexts.next
  | _ => toolOutcome outcome

/-- The calls a request may lead to. -/
def Asks : Duty → Call → Prop
  | .legacy (.call call), call' | .modern _ (.call call), call' => call' = call
  | .legacy (.slot _ _), call' | .modern _ (.slot _ _), call' => ∃ click, call' = .pointerClick click
  | .status, call' => call' = .seatStatus
  | .nothing, _ | .release _, _ => False

def isSlotDuty : Duty → Bool
  | .legacy (.slot _ _) | .modern _ (.slot _ _) => true
  | _ => false

/-- The line shows the outcome of the response to the one request of the turn. The session had as many
    frames as requests before, and the turn read the next one. -/
structure Returned (reason : String → Json → String) (past : List Turn) (t : Turn) (line : Json)
    (conn : Conn) (request : Request) (response : Response) : Prop where
  sent_eq : sent t.said = [(conn, request)]
  call : Asks (dutyOf reason t.request) request.call
  number : request.id.get = (requestsOn conn (history past)).length + 1
  before : (framesOn conn (sinceOpened conn (history past))).length =
    (requestsOn conn (history past)).length
  frame : framesOn conn (sinceOpened conn (history (past ++ [t]))) =
    framesOn conn (sinceOpened conn (history past)) ++ [.ok (.message (.response response))]
  id_eq : response.id = request.id
  line_eq : ∃ id, t.request.id = some id ∧ line = toolLine (dutyOf reason t.request) id
    (shownOutcome t.before (dutyOf reason t.request) response.outcome)

/-! ## The other end of a stream -/

def messageIn : Except CodecError (ReadFrame ServerMessage) → Option ServerMessage
  | .ok (.message message) => some message
  | _ => none

/-- A stream between the companion and a session of the provider: each end reads what the other wrote,
    in order, up to some point. -/
structure Wired (conn : Conn) (companion : List Step) (provider : List Session.Step) : Prop where
  requests : Session.requests provider <+: requestsOn conn companion
  messages : (framesOn conn (sinceOpened conn companion)).filterMap messageIn <+:
    (Session.written provider).drop 1

/-- Where the lines of a turn come from: from no provider, from a failure, from a tool that sent
    nothing, or from the response to the request of the turn. -/
def Explained (reason : String → Json → String) (past : List Turn) (t : Turn) : Prop :=
  ∀ line, .mark (.wrote line) ∈ t.said →
    t.said = [.mark (.wrote line)] ∨
    (∃ id failure, line = toolLine (dutyOf reason t.request) id (failureResult failure)) ∨
    (sent t.said = [] ∧ isSlotDuty (dutyOf reason t.request) = true) ∨
    ∃ conn request response, Returned reason past t line conn request response

structure Paired (reason : String → Json → String) (run : List Turn) : Prop where
  returned : ∀ past t rest, run = past ++ t :: rest → Explained reason past t
  /-- A request is written only on a stream where every request was answered by the next frame. -/
  unbroken : ∀ past t rest, run = past ++ t :: rest →
    ∀ conn request, (conn, request) ∈ sent t.said →
    (history (past ++ [t])).any (isOpened conn) = true ∧
    List.Forall₂ Answering (requestsOn conn (history past))
      (framesOn conn (sinceOpened conn (history past))) ∧
    (sinceOpened conn (history past)).any (isUnboundedOn conn) = false
  /-- What a session of the provider answers was given to the request of the turn. -/
  computed : ∀ past t rest, run = past ++ t :: rest → ∀ line conn request response,
    Returned reason past t line conn request response →
    ∀ (P : Type) (provider : Session.Provides P) (config : Session.Config) (session : SessionId)
      (peer : Session.Peer) (patience : Nat) (start : P),
    let trace := Session.conversation peer provider config session patience start
    Wired conn (history run) trace → ∃ context pre steps post, trace = pre ++ steps ++ post ∧
      (Session.requests pre).length = (requestsOn conn (history past)).length ∧
      Session.Gives provider context request steps response

/-! ## One exchange -/

theorem sinceOpened_none {conn : Conn} {said : List Step} (h : said.any (isOpened conn) = false) :
    sinceOpened conn said = [] := by
  induction said with
  | nil => rfl
  | cons e rest ih =>
    rw [List.any_cons, Bool.or_eq_false_iff] at h
    rw [sinceOpened, if_neg (by rw [h.1]; decide)]
    exact ih h.2

theorem Connected.first {s s₁ : Server} {said opened : List Step} {seat : Seat}
    {kept : Place → Option ProviderSession} (h : Seats said kept s.inheritedSeat s.streams)
    (hconnected : Connected s opened seat s₁) : seat.nextRequest = firstRequest := by
  cases hconnected with
  | inherited hseat => exact (h.spare hseat).1
  | opened hnone path welcome => rfl

section Exchange

variable {said : List Step} {s s₁ : Server} {p : Place} {opened : List Step} {session : ProviderSession}

/-- The record of the session a tool obtains, before the turn. -/
theorem Seats.obtained (h : Seats said s.sessionAt s.inheritedSeat s.streams)
    (hobtained : Obtained s p opened session s₁) :
    (said ++ opened).any (isOpened session.seat.conn) = true ∧
      session.seat.nextRequest.get = (requestsOn session.seat.conn said).length + 1 ∧
      List.Forall₂ Answering (requestsOn session.seat.conn said)
        (framesOn session.seat.conn (sinceOpened session.seat.conn said)) ∧
      (sinceOpened session.seat.conn said).any (isUnboundedOn session.seat.conn) = false ∧
      ∀ more, sinceOpened session.seat.conn (said ++ (opened ++ more)) =
        sinceOpened session.seat.conn said ++ more := by
  cases hobtained with
  | live hlive =>
    have hunbroken := h.unbroken hlive
    refine ⟨by rw [List.append_nil]; exact hunbroken.opened, hunbroken.next, hunbroken.paired,
      hunbroken.bounded, fun more => ?_⟩
    rw [List.nil_append, sinceOpened_append more hunbroken.opened]
  | made hnone hconnected =>
    obtain ⟨huntouched, hunopened⟩ := h.unopened hconnected
    dsimp only
    rw [huntouched.2, sinceOpened_none huntouched.1, hconnected.first h]
    refine ⟨by simp [isOpened], rfl, .nil, rfl, fun more => ?_⟩
    rw [List.append_assoc, List.singleton_append, ← List.append_assoc]
    exact sinceOpened_opened more hunopened

theorem Seats.exchanged (h : Seats said s.sessionAt s.inheritedSeat s.streams)
    (hobtained : Obtained s p opened session s₁) {call : Call} {body : List Step} {response : Response}
    {seat : Seat} (hcalled : Called session.seat call body (.ok response) seat) (line : Json) :
    sent (opened ++ body ++ [.mark (.wrote line)]) =
        [(session.seat.conn, ⟨session.seat.nextRequest, call⟩)] ∧
      (framesOn session.seat.conn (sinceOpened session.seat.conn said)).length =
        (requestsOn session.seat.conn said).length ∧
      framesOn session.seat.conn (sinceOpened session.seat.conn
          (said ++ (opened ++ body ++ [.mark (.wrote line)]))) =
        framesOn session.seat.conn (sinceOpened session.seat.conn said) ++
          [.ok (.message (.response response))] ∧
      response.id = session.seat.nextRequest := by
  obtain ⟨-, -, hpaired, -, hsince⟩ := h.obtained hobtained
  obtain ⟨hsent, hframes, hid, -⟩ := hcalled.ok_says
  refine ⟨?_, hpaired.length_eq.symm, ?_, hid⟩
  · rw [sent_append, sent_append, hobtained.apart.1, hsent]
    rfl
  · rw [List.append_assoc opened, hsince, framesOn_append, framesOn_append, hframes]
    rfl

end Exchange

/-! ## Which lines a turn writes -/

/-- No line is written. -/
def Unwritten (said : List Step) : Prop := ∀ line, .mark (.wrote line) ∉ said

theorem Opens.unwritten {conn : Conn} {said : List Step} (h : ∀ e ∈ said, Opens conn e) :
    Unwritten said := fun _ hline => (h _ hline).elim

theorem On.unwritten {conn : Conn} {said : List Step} (h : ∀ e ∈ said, On conn e) : Unwritten said :=
  fun _ hline => (h _ hline).elim

theorem Unwritten.append {said more : List Step} (h : Unwritten said) (h' : Unwritten more) :
    Unwritten (said ++ more) := by
  intro line hline
  rcases List.mem_append.mp hline with hsaid | hmore
  · exact h line hsaid
  · exact h' line hmore

theorem Connected.unwritten {s s₁ : Server} {opened : List Step} {seat : Seat}
    (h : Connected s opened seat s₁) : Unwritten (opened ++ [.mark (.session seat.conn)]) := by
  refine Unwritten.append ?_ fun line hline => absurd (List.mem_singleton.mp hline) (by simp)
  cases h with
  | inherited h => exact fun line hline => absurd hline (by simp)
  | opened h path welcome => exact Opens.unwritten (opening_opens _ _ _ _)

theorem Obtained.unwritten {s s₁ : Server} {p : Place} {opened : List Step} {session : ProviderSession}
    (h : Obtained s p opened session s₁) : Unwritten opened := by
  cases h with
  | live h => exact fun line hline => absurd hline (by simp)
  | made h hconnected => exact hconnected.unwritten

theorem Worked.unwritten {session session' : ProviderSession} {task : Task} {body : List Step}
    {answer : Option (Except SeatError Response)} (h : Worked session task body answer session') :
    Unwritten body := by
  cases h with
  | call h | replayed hread hslot h => exact On.unwritten h.on
  | idle name arguments | saved h => exact fun line hline => absurd hline (by simp)

/-- The line a turn ends with is the only one. -/
theorem Unwritten.last {said : List Step} (h : Unwritten said) {line last : Json}
    (hline : .mark (.wrote line) ∈ said ++ [.mark (.wrote last)]) : line = last := by
  rcases List.mem_append.mp hline with hsaid | hlast
  · exact absurd hsaid (h line)
  · simpa using List.mem_singleton.mp hlast

section Explained

variable {reason : String → Json → String} {past : List Turn} {s s' s₁ : Server} {request : RpcRequest}
  {id : Json}

theorem explained_line {line : Json} : Explained reason past ⟨request, s, [.mark (.wrote line)], s'⟩ := by
  intro line' hline
  have heq : line' = line := by simpa using hline
  rw [heq]
  exact .inl rfl

theorem explained_failure {said : List Step} (h : Unwritten said) {line : Json}
    (hline : ∃ id failure, line = toolLine (dutyOf reason request) id (failureResult failure)) :
    Explained reason past ⟨request, s, said ++ [.mark (.wrote line)], s'⟩ := by
  intro line' hline'
  rw [h.last hline']
  exact .inr (.inl hline)

theorem Called.explained (hreached : Reached reason past s) (hid : request.id = some id) {p : Place}
    {opened body : List Step} {session : ProviderSession} {seat : Seat} {call : Call}
    {response : Response} (hobtained : Obtained s p opened session s₁)
    (hcalled : Called session.seat call body (.ok response) seat)
    (hasks : Asks (dutyOf reason request) call) {line : Json}
    (hline : line = toolLine (dutyOf reason request) id
      (shownOutcome s (dutyOf reason request) response.outcome)) :
    Explained reason past ⟨request, s, opened ++ body ++ [.mark (.wrote line)], s'⟩ := by
  intro line' hline'
  rw [(hobtained.unwritten.append (On.unwritten hcalled.on)).last hline']
  obtain ⟨-, hnumber, -⟩ := hreached.seats.obtained hobtained
  obtain ⟨hsent, hlength, hframe, hresponse⟩ := hreached.seats.exchanged hobtained hcalled line
  refine .inr (.inr (.inr ⟨session.seat.conn, ⟨session.seat.nextRequest, call⟩, response, ?_⟩))
  exact ⟨hsent, hasks, hnumber, hlength, by rw [history_snoc]; exact hframe, hresponse, id, hid, hline⟩

/-- The line of a tool that works on a session. -/
theorem Worked.explained (hreached : Reached reason past s) (hid : request.id = some id) {p : Place}
    {task : Task} (hassigned : Assigned s (dutyOf reason request) p task)
    (hduty : dutyOf reason request ≠ .status) {opened body : List Step}
    {session session' : ProviderSession} {answer : Option (Except SeatError Response)}
    {result : Except ProviderFailure ToolResult} (hobtained : Obtained s p opened session s₁)
    (hworked : Worked session task body answer session') (hshown : Shown answer result) :
    Explained reason past ⟨request, s, opened ++ body ++
      [.mark (.wrote (toolLine (dutyOf reason request) id (outcomeOf result)))], s'⟩ := by
  have hfailed (error : SeatError) (hanswer : answer = some (.error error)) :
      Explained reason past ⟨request, s, opened ++ body ++
        [.mark (.wrote (toolLine (dutyOf reason request) id (outcomeOf result)))], s'⟩ := by
    subst hanswer
    obtain ⟨failure, rfl⟩ := hshown
    exact explained_failure (hobtained.unwritten.append hworked.unwritten) ⟨id, failure, rfl⟩
  have hanswered {call : Call} {seat : Seat} (response : Response)
      (hanswer : answer = some (.ok response))
      (hcalled : Called session.seat call body (.ok response) seat)
      (hasks : Asks (dutyOf reason request) call) :
      Explained reason past ⟨request, s, opened ++ body ++
        [.mark (.wrote (toolLine (dutyOf reason request) id (outcomeOf result)))], s'⟩ := by
    subst hanswer
    refine hcalled.explained hreached hid hobtained hasks ?_
    have hresult : result = .ok (toolOutcome response.outcome) := hshown
    have hstatus : shownOutcome s (dutyOf reason request) response.outcome =
        toolOutcome response.outcome := by
      unfold shownOutcome
      split
      · exact absurd ‹_› hduty
      · rfl
    rw [hstatus, hresult]
    rfl
  have hcalls (call : Call) (h : task = .call call ∨ (∃ name arguments, task = .slot name arguments) ∧
      ∃ click, call = .pointerClick click) : Asks (dutyOf reason request) call := by
    generalize dutyOf reason request = duty at hassigned hduty
    cases hassigned with
    | status => exact absurd rfl hduty
    | legacy task | modern context task =>
      rcases h with rfl | ⟨⟨name, arguments, rfl⟩, hclick⟩
      · exact rfl
      · exact hclick
  have hslot (name : String) (arguments : Json) (h : task = .slot name arguments) :
      isSlotDuty (dutyOf reason request) = true := by
    generalize dutyOf reason request = duty at hassigned hduty
    cases hassigned with
    | status => exact absurd rfl hduty
    | legacy task | modern context task => rw [h]; rfl
  cases hworked with
  | call hcalled =>
    rename_i call given seat
    cases given with
    | error error => exact hfailed error rfl
    | ok response => exact hanswered response rfl hcalled (hcalls call (.inl rfl))
  | replayed hread hslot' hcalled =>
    rename_i arguments replay action given seat
    cases given with
    | error error => exact hfailed error rfl
    | ok response =>
      exact hanswered response rfl hcalled (hcalls _ (.inr ⟨⟨_, _, rfl⟩, _, rfl⟩))
  | idle name arguments =>
    intro line hline
    refine .inr (.inr (.inl ⟨?_, hslot name arguments rfl⟩))
    rw [sent_append, sent_append, hobtained.apart.1]
    rfl
  | saved hread =>
    intro line hline
    refine .inr (.inr (.inl ⟨?_, hslot _ _ rfl⟩))
    rw [sent_append, sent_append, hobtained.apart.1]
    rfl

theorem Turned.explained {said : List Step} (hturned : Turned reason s request said s')
    (hreached : Reached reason past s) : Explained reason past ⟨request, s, said, s'⟩ := by
  cases hturned with
  | silent hn hs => exact fun line hline => absurd hline (by simp)
  | spoke hn hid hduty hline hs => exact explained_line
  | unknown hn hid hduty hline hnone => exact explained_line
  | released hn hid hduty hline hlive => exact explained_line
  | legacy hn hid hduty hwork =>
    rename_i id task result said
    have hline : resultLine id (outcomeOf result).json =
        toolLine (dutyOf reason request) id (outcomeOf result) := by
      rw [hduty]
      rfl
    rw [hline]
    cases hwork with
    | refused failure => exact explained_line
    | unconnected hnone hunconnected failure =>
      exact explained_failure (Opens.unwritten hunconnected.opens) ⟨id, failure, rfl⟩
    | worked hrecovered hheld hworked hshown =>
      obtain ⟨s₂, hobtained, -⟩ := hheld.obtained
      exact hworked.explained hreached hid (by rw [hduty]; exact .legacy task) (by rw [hduty]; simp)
        hobtained hshown
  | modern hn hid hduty hwork =>
    rename_i id context task result said
    have hline : resultLine id (modernToolResult (outcomeOf result)) =
        toolLine (dutyOf reason request) id (outcomeOf result) := by
      rw [hduty]
      rfl
    rw [hline]
    cases hwork with
    | refused failure => exact explained_line
    | worked hlive hworked hshown =>
      have hobtained : Obtained s (.context context) [] _ s := .live hlive
      exact hworked.explained hreached hid (by rw [hduty]; exact .modern context task)
        (by rw [hduty]; simp) hobtained hshown
  | status hn hid hduty hwork =>
    rename_i id result said
    have hfailure (failure : ProviderFailure) : ∃ id' failure',
        resultLine id (modernToolResult (statusOutcome (.error failure))) =
          toolLine (dutyOf reason request) id' (failureResult failure') :=
      ⟨id, failure, by rw [hduty]; rfl⟩
    cases hwork with
    | refused failure => exact explained_line
    | unconnected hunconnected failure =>
      exact explained_failure (Opens.unwritten hunconnected.opens) (hfailure failure)
    | failed hconnected hcalled hfailed failure =>
      exact explained_failure (hconnected.unwritten.append (On.unwritten hcalled.on)) (hfailure failure)
    | created hfull hconnected hcalled hnext =>
      have hfresh : s.sessionAt (.context s.modernContexts.next) = none := by
        rw [← Option.not_isSome_iff_eq_none]
        exact fun h => Nat.lt_irrefl _ (hreached.table.below _ h)
      refine hcalled.explained hreached hid (.made hfresh hconnected) (by rw [hduty]; rfl) ?_
      rw [hduty]
      rfl

end Explained

/-! ## Unbroken streams -/

theorem Uniform.unbroken_sends {said more : List Step} {s s' : Server} {duty : Duty}
    (h : Uniform s duty more s') (hseats : Seats said s.sessionAt s.inheritedSeat s.streams) {conn : Conn}
    {request : Request} (hsent : (conn, request) ∈ sent more) :
    (said ++ more).any (isOpened conn) = true ∧
      List.Forall₂ Answering (requestsOn conn said) (framesOn conn (sinceOpened conn said)) ∧
      (sinceOpened conn said).any (isUnboundedOn conn) = false := by
  cases h with
  | still hsaid hframes hat hspare hstreams => exact absurd hsent (by simp [hsaid.1])
  | worked hassigned hobtained hworked hp hends hroom hat hspare hstreams line =>
    rename_i p task opened body session session' s₁ answer
    obtain ⟨hopened, -, hpaired, hbounded, -⟩ := hseats.obtained hobtained
    have hconn : conn = session.seat.conn := by
      rw [sent_append, sent_append, hobtained.apart.1, (still_line line).1, List.nil_append,
        List.append_nil] at hsent
      cases hworked with
      | idle name arguments | saved hread => exact absurd hsent (by simp [sent])
      | call hcalled | replayed hread hslot hcalled =>
        rcases hcalled.sent_eq with hnothing | hone
        · exact absurd hsent (by simp [hnothing])
        · rw [hone] at hsent
          exact (Prod.mk.inj (List.mem_singleton.mp hsent)).1
    subst hconn
    refine ⟨?_, hpaired, hbounded⟩
    rw [List.append_assoc opened, ← List.append_assoc said, List.any_append, hopened, Bool.true_or]

/-! ## The provider's end -/

theorem answering_messages {requests : List Request}
    {frames : List (Except CodecError (ReadFrame ServerMessage))}
    (h : List.Forall₂ Answering requests frames) :
    (frames.filterMap messageIn).length = frames.length := by
  induction h with
  | nil => rfl
  | cons hanswering hrest ih =>
    obtain ⟨response, rfl, -⟩ := hanswering
    have hmessage : messageIn (.ok (.message (.response response))) = some (.response response) := rfl
    rw [List.filterMap_cons_some hmessage, List.length_cons, List.length_cons, ih]

/-- A response among the messages after a welcome is an answer at the same place. -/
theorem answers_of_messages {P : Type} {provider : Session.Provides P} {config : Session.Config}
    {session : SessionId} {context : Provider.SessionContext} {trace : List Session.Step}
    (h : Session.Talk provider config session context trace) {k : Nat} {response : Response}
    (hk : ((Session.written trace).drop 1)[k]? = some (.response response)) :
    (Session.answers trace)[k]? = some response := by
  rcases h.messages.1 with hnone | ⟨farewell, hone⟩ | ⟨welcome, responses, farewell, hall⟩
  · rw [hnone] at hk
    exact absurd hk (by simp)
  · rw [hone] at hk
    exact absurd hk (by simp)
  · rw [Session.answers_of_written rfl hall]
    rw [hall, List.drop_one, List.tail_cons] at hk
    by_cases hlt : k < responses.length
    · rw [List.getElem?_append_left (by rwa [List.length_map]), List.getElem?_map] at hk
      obtain ⟨response', hresponse, heq⟩ := Option.map_eq_some_iff.mp hk
      rw [hresponse, ServerMessage.response.inj heq]
    · rw [List.getElem?_append_right (by rw [List.length_map]; omega), List.getElem?_map] at hk
      obtain ⟨goodbye, -, heq⟩ := Option.map_eq_some_iff.mp hk
      exact absurd heq (by simp)

theorem getElem?_of_initial {α : Type} {xs ys : List α} (h : xs <+: ys) {k : Nat} {x : α}
    (hk : xs[k]? = some x) : ys[k]? = some x := by
  obtain ⟨rest, rfl⟩ := h
  rw [List.getElem?_append_left (List.getElem?_eq_some_iff.mp hk).1, hk]

/-- The request a session reads at some place. -/
theorem Gives_request {P : Type} {provider : Session.Provides P} {context : Provider.SessionContext}
    {request : Request} {steps : List Session.Step} {response : Response}
    (h : Session.Gives provider context request steps response) :
    Session.requests steps = [request] := by
  cases h with
  | revoked hraw sent => rfl
  | computed hraw houtcome sent =>
    rw [Session.requests_append, (Session.asking_read context request _).2.2.1]
    rfl

section Computed

variable {reason : String → Json → String} {past rest : List Turn} {t : Turn} {line : Json} {conn : Conn}
  {request : Request} {response : Response}

theorem history_append (turns more : List Turn) : history (turns ++ more) = history turns ++ history more :=
  List.flatMap_append

theorem Returned.computed (h : Returned reason past t line conn request response)
    (hpaired : List.Forall₂ Answering (requestsOn conn (history past))
      (framesOn conn (sinceOpened conn (history past))))
    (hopened : (history (past ++ [t])).any (isOpened conn) = true)
    {P : Type} {provider : Session.Provides P} {config : Session.Config} {session : SessionId}
    {context : Provider.SessionContext} {trace : List Session.Step}
    (htalk : Session.Talk provider config session context trace)
    (hwired : Wired conn (history (past ++ t :: rest)) trace) :
    ∃ pre steps post, trace = pre ++ steps ++ post ∧
      (Session.requests pre).length = (requestsOn conn (history past)).length ∧
      Session.Gives provider context request steps response := by
  have hhistory : history (past ++ t :: rest) = history (past ++ [t]) ++ history rest := by
    rw [List.append_cons, history_append]
  let k := (requestsOn conn (history past)).length
  have hframe : ((framesOn conn (sinceOpened conn (history (past ++ t :: rest)))).filterMap
      messageIn)[k]? = some (.response response) := by
    have hlength : ((framesOn conn (sinceOpened conn (history past))).filterMap messageIn).length = k :=
      (answering_messages hpaired).trans h.before
    rw [hhistory, sinceOpened_append _ hopened, framesOn_append, h.frame, List.filterMap_append,
      List.filterMap_append, List.append_assoc, List.getElem?_append_right (by rw [hlength]), hlength,
      Nat.sub_self]
    rfl
  have hanswer : (Session.answers trace)[k]? = some response :=
    answers_of_messages htalk (getElem?_of_initial hwired.messages hframe)
  obtain ⟨pre, steps, post, request', rfl, hk, hgives⟩ := htalk.gives hanswer
  have hread : (Session.requests (pre ++ steps ++ post))[k]? = some request' := by
    rw [Session.requests_append, Session.requests_append, Gives_request hgives, List.append_assoc,
      List.getElem?_append_right (Nat.le_of_eq hk), hk, Nat.sub_self]
    rfl
  have hwrote : (requestsOn conn (history (past ++ t :: rest)))[k]? = some request := by
    have hturn : requestsOn conn t.said = [request] := by
      simp [requestsOn, h.sent_eq]
    rw [hhistory, history_snoc, requestsOn_append, requestsOn_append, hturn, List.append_assoc,
      List.getElem?_append_right (Nat.le_refl _), Nat.sub_self]
    rfl
  -- both ends count the same request
  have heq : request' = request :=
    Option.some.inj ((getElem?_of_initial hwired.requests hread).symm.trans hwrote)
  rw [heq] at hgives
  exact ⟨pre, steps, post, rfl, hk, hgives⟩

end Computed

/-- Requests and responses are paired in every run of the server, whatever the provider does. -/
theorem request_response_pairing (env : Outside) (reason : String → Json → String)
    (socket : Option String) (inherited : Bool) (requests : List RpcRequest) :
    Paired reason (turns env reason ⟨startServer socket inherited, []⟩ requests) := by
  obtain ⟨final, hrun⟩ := reached_run env reason socket inherited requests
  generalize turns env reason ⟨startServer socket inherited, []⟩ requests = run at hrun
  refine ⟨?_, ?_, ?_⟩
  · rintro past t rest rfl
    obtain ⟨hreached, hturned⟩ := hrun.split
    exact hturned.explained hreached
  · rintro past t rest rfl conn request hsent
    obtain ⟨hreached, hturned⟩ := hrun.split
    rw [history_snoc]
    exact (hturned.uniform hreached.table).unbroken_sends hreached.seats hsent
  · rintro past t rest rfl line conn request response hreturned P provider config session peer patience
      start trace hwired
    obtain ⟨hreached, hturned⟩ := hrun.split
    have hsent : (conn, request) ∈ sent t.said := by
      rw [hreturned.sent_eq]
      exact List.mem_singleton_self _
    obtain ⟨hopened, hpaired, -⟩ :=
      (hturned.uniform hreached.table).unbroken_sends hreached.seats hsent
    rw [← history_snoc] at hopened
    obtain ⟨added, context, htalk, hended⟩ :=
      Session.run_talk peer provider config session patience ⟨start, []⟩
    have htrace : trace = added := by
      show (Session.run peer provider config session patience ⟨start, []⟩).2.trace = added
      rw [hended]
      rfl
    rw [htrace] at hwired ⊢
    exact ⟨context, hreturned.computed hpaired hopened htalk hwired⟩

/-- A status on an inherited stream, and a session of the provider that reads and answers it. -/
example : Wired 0 (history (turns (answerFirst Session.refusedOutcome) (fun _ _ => "")
      ⟨startServer none true, []⟩ [modernCall "seat_status" []]))
    (Session.conversation (Session.plainPeer 0 1 [.hello companionHello,
      .request ⟨firstRequest, .seatStatus⟩]) (fun _ _ => pure Session.refusedOutcome)
      (Session.plainConfig 0 .empty) ⟨1, Nat.one_ne_zero⟩ 0 ()) :=
  ⟨⟨[], rfl⟩, ⟨[], rfl⟩⟩

end AgentSeat.Companion
