/-
  The conversation of a session: what it writes, what it has read when it writes it, and when it
  invokes the provider.

  Main result:
  * `session_conversation`: the messages of a session, the order of its answers, and what holds at
    every invocation of the provider.
-/
import AgentSeat.Session.Grammar

namespace AgentSeat.Session

open AgentSeat.Lib AgentSeat.Proto AgentSeat.Provider AgentSeat.Seat

/-! ## What the words of the loop say -/

section Served

variable {P : Type} {provider : Provides P} {context : SessionContext}

/-- A message whose writing did not fail. -/
def Acked : Step → Prop
  | .said (.writeFrame _) (.error _) => False
  | _ => True

/-- What has been said when the provider is invoked for a call: only requests were read and only
    responses written, the gate accepted the permit each time, the last time after the request that
    makes the call, and the call is authorized. -/
structure Due (provider : Provides P) (context : SessionContext) (pre : List Step)
    (call : Proto.Call) (answered : List Request) (request : Request)
    (responses : List Response) : Prop where
  call_eq : request.call = call
  authorized : authorized call context.granted = true
  last : ∃ before raw, pre = before ++ [.said .readFrame (asRequest request), .said .seatLoad raw]
  received : received pre = (answered ++ [request]).map asRequest
  written : written pre = responses.map .response
  loads : ∀ raw ∈ loads pre, Seat.accepts raw context.permit = true
  acked : ∀ e ∈ pre, Acked e
  answers : ∀ r ∈ responses, ∃ request, Answered provider context request r.outcome

theorem Aside.acked {e : Step} (h : Aside e) : Acked e := by
  cases e with
  | mark m => trivial
  | said q a =>
    cases q with
    | writeFrame m => exact h.elim
    | _ => trivial

theorem asking_acked (context : SessionContext) (request : Request) (raw : Nat) :
    ∀ e ∈ asking context request raw, Acked e := by
  unfold asking
  intro e he
  split at he <;> simp only [List.mem_cons, List.not_mem_nil, or_false] at he
  · rcases he with rfl | rfl | rfl <;> trivial
  · rcases he with rfl | rfl <;> trivial

/-- The messages of the loop: responses in the order of the requests, and at most one goodbye. -/
theorem Served.messages {left : Nat} {trace : List Step} (h : Served provider context left trace) :
    ∃ (responses : List Response) (farewell : Option Goodbye),
      written trace = responses.map .response ++ farewell.toList.map .goodbye ∧
      responses.length ≤ left ∧
      responses.map Response.id <+: (requests trace).map Request.id := by
  induction h with
  | bound sent => exact ⟨[], some _, rfl, Nat.le_refl _, List.nil_prefix⟩
  | idles h => exact ⟨[], none, (aside_unread h).1, Nat.zero_le _, List.nil_prefix⟩
  | leaves h hleaves =>
    refine ⟨[], none, ?_, Nat.zero_le _, List.nil_prefix⟩
    rw [written_append, (aside_unread h).1]
    rfl
  | repeats h hello sent =>
    refine ⟨[], some ⟨.malformed, diagnostic "hello cannot be repeated"⟩, ?_, Nat.zero_le _,
      List.nil_prefix⟩
    rw [written_append, (aside_unread h).1]
    rfl
  | revoked h request hraw sent =>
    refine ⟨[⟨request.id, revokedOutcome⟩], none, ?_, Nat.le_add_left _ _, ?_⟩
    · rw [written_append, (aside_unread h).1]
      rfl
    · rw [requests_append, (aside_unread h).2.2.1]
      exact List.prefix_rfl
  | @unsent left idle h request raw hraw outcome houtcome error =>
    refine ⟨[⟨request.id, outcome⟩], none, ?_, Nat.le_add_left _ _, ?_⟩
    · rw [written_append, written_append, (aside_unread h).1, (asking_read context request raw).1]
      rfl
    · rw [requests_append, requests_append, (aside_unread h).2.2.1,
        (asking_read context request raw).2.2.1]
      exact List.prefix_rfl
  | @next left idle rest h request raw hraw outcome houtcome hrest ih =>
    obtain ⟨responses, farewell, hwritten, hlength, hids⟩ := ih
    refine ⟨⟨request.id, outcome⟩ :: responses, farewell, ?_, Nat.succ_le_succ hlength, ?_⟩
    · rw [written_append, written_append, (aside_unread h).1, (asking_read context request raw).1]
      exact congrArg (_ :: ·) hwritten
    · rw [requests_append, requests_append, (aside_unread h).2.2.1,
        (asking_read context request raw).2.2.1]
      exact List.cons_prefix_cons.mpr ⟨rfl, hids⟩

/-- The first call of a round. -/
theorem Due.first {idle : List Step} (h : ∀ e ∈ idle, Aside e) {request : Request} {raw : Nat}
    (hraw : Seat.accepts raw context.permit = true)
    (hauth : Session.authorized request.call context.granted = true) :
    Due provider context
      (idle ++ [.said .readFrame (asRequest request), .said .seatLoad raw]) request.call []
      request [] where
  call_eq := rfl
  authorized := hauth
  last := ⟨idle, raw, rfl⟩
  received := by
    rw [received_append, (aside_unread h).2.1]
    rfl
  written := by
    rw [written_append, (aside_unread h).1]
    rfl
  loads := by
    rw [loads_append, (aside_unread h).2.2.2.1]
    intro raw' hraw'
    rw [List.mem_singleton.mp hraw']
    exact hraw
  acked := by
    intro e he
    rcases List.mem_append.mp he with he | he
    · exact (h e he).acked
    · simp only [List.mem_cons, List.not_mem_nil, or_false] at he
      rcases he with rfl | rfl <;> trivial
  answers := by simp

/-- A call of a later round. -/
theorem Due.later {idle pre : List Step} {call : Proto.Call} {answered : List Request}
    {last : Request} {responses : List Response} (h : ∀ e ∈ idle, Aside e) {request : Request}
    {raw : Nat} (hraw : Seat.accepts raw context.permit = true) {outcome : Outcome}
    (houtcome : Answered provider context request outcome)
    (due : Due provider context pre call answered last responses) :
    Due provider context (idle ++ asking context request raw ++
        .said (.writeFrame (.response ⟨request.id, outcome⟩)) (.ok ()) :: pre) call
      (request :: answered) last (⟨request.id, outcome⟩ :: responses) where
  call_eq := due.call_eq
  authorized := due.authorized
  last := by
    obtain ⟨before, raw', hlast⟩ := due.last
    exact ⟨idle ++ asking context request raw ++
      .said (.writeFrame (.response ⟨request.id, outcome⟩)) (.ok ()) :: before, raw', by
        rw [hlast]; simp⟩
  received := by
    rw [received_append, received_append, (aside_unread h).2.1, (asking_read context request raw).2.1]
    exact congrArg (_ :: ·) due.received
  written := by
    rw [written_append, written_append, (aside_unread h).1, (asking_read context request raw).1]
    exact congrArg (_ :: ·) due.written
  loads := by
    rw [loads_append, loads_append, (aside_unread h).2.2.2.1,
      (asking_read context request raw).2.2.2]
    intro raw' hraw'
    rcases List.mem_cons.mp hraw' with rfl | hraw'
    · exact hraw
    · exact due.loads raw' hraw'
  acked := by
    intro e he
    rcases List.mem_append.mp he with he | he
    · rcases List.mem_append.mp he with he | he
      · exact (h e he).acked
      · exact asking_acked context request raw e he
    · rcases List.mem_cons.mp he with rfl | he
      · trivial
      · exact due.acked e he
  answers := by
    intro r hr
    rcases List.mem_cons.mp hr with rfl | hr
    · exact ⟨request, houtcome⟩
    · exact due.answers r hr

/-- A mark of a round is its own invocation, or stands in the rest. -/
theorem asking_split {idle tail pre post : List Step} {request : Request} {raw : Nat}
    {message : ServerMessage} {sent : Except String Unit} {call : Proto.Call}
    (h : ∀ e ∈ idle, Aside e)
    (split : idle ++ asking context request raw ++ .said (.writeFrame message) sent :: tail =
      pre ++ .mark (.invoked call) :: post) :
    (pre = idle ++ [.said .readFrame (asRequest request), .said .seatLoad raw] ∧
      call = request.call ∧ Session.authorized request.call context.granted = true) ∨
    ∃ pre', pre = idle ++ asking context request raw ++ .said (.writeFrame message) sent :: pre' ∧
      tail = pre' ++ .mark (.invoked call) :: post := by
  have hsaid : ∀ e ∈ idle ++ [.said .readFrame (asRequest request), .said .seatLoad raw],
      e.IsSaid := aside_append h (by simp [Entry.IsSaid])
  have hwrite : ∀ e ∈ [(.said (.writeFrame message) sent : Step)], e.IsSaid := by
    simp [Entry.IsSaid]
  unfold asking at split ⊢
  by_cases hauth : Session.authorized request.call context.granted = true
  · rw [if_pos hauth] at split ⊢
    have hsplit : (idle ++ [.said .readFrame (asRequest request), .said .seatLoad raw]) ++
        .mark (.invoked request.call) :: .said (.writeFrame message) sent :: tail =
        pre ++ .mark (.invoked call) :: post := by
      rw [← split]
      simp
    obtain ⟨pre', rfl, hrest⟩ := Entry.split_said hsaid hsplit
    cases pre' with
    | nil =>
      rw [List.nil_append, List.cons.injEq, Entry.mark.injEq, Mark.invoked.injEq] at hrest
      exact .inl ⟨List.append_nil _, hrest.1.symm, hauth⟩
    | cons e pre' =>
      obtain ⟨rfl, hwritten⟩ := List.cons.inj hrest
      obtain ⟨pre'', rfl, htail⟩ := Entry.split_said hwrite hwritten
      exact .inr ⟨pre'', by simp, htail⟩
  · rw [if_neg hauth] at split ⊢
    obtain ⟨pre', rfl, hwritten⟩ := Entry.split_said hsaid
      (by rw [← split] :
        _ ++ .said (.writeFrame message) sent :: tail = pre ++ .mark (.invoked call) :: post)
    obtain ⟨pre'', rfl, htail⟩ := Entry.split_said hwrite hwritten
    exact .inr ⟨pre'', by simp, htail⟩

theorem Served.due {left : Nat} {trace : List Step} (h : Served provider context left trace)
    {pre post : List Step} {call : Proto.Call}
    (split : trace = pre ++ .mark (.invoked call) :: post) :
    ∃ answered request responses, Due provider context pre call answered request responses := by
  induction h generalizing pre with
  | bound sent => exact (Entry.ne_split (by simp [Entry.IsSaid]) split).elim
  | idles h => exact (Entry.ne_split (fun e he => (h e he).isSaid) split).elim
  | leaves h hleaves =>
    exact (Entry.ne_split (aside_append h (by simp [Entry.IsSaid])) split).elim
  | repeats h hello sent =>
    exact (Entry.ne_split (aside_append h (by simp [Entry.IsSaid])) split).elim
  | revoked h request hraw sent =>
    exact (Entry.ne_split (aside_append h (by simp [Entry.IsSaid])) split).elim
  | unsent h request hraw houtcome error =>
    rcases asking_split h split with ⟨rfl, rfl, hauth⟩ | ⟨pre', -, hnil⟩
    · exact ⟨_, _, _, Due.first h hraw hauth⟩
    · simp at hnil
  | next h request hraw houtcome hrest ih =>
    rcases asking_split h split with ⟨rfl, rfl, hauth⟩ | ⟨pre', rfl, hsplit⟩
    · exact ⟨_, _, _, Due.first h hraw hauth⟩
    · obtain ⟨answered, last, responses, hdue⟩ := ih hsplit
      exact ⟨_, _, _, hdue.later h hraw houtcome⟩

end Served

/-! ## The conversation law -/

/-- An outcome with the code `revoked`. -/
def IsRevoked : Outcome → Bool
  | .ok _ => false
  | .error error => error.code = .revoked

/-- A provider whose own outcomes never have the code `revoked`: it is the session that tells a peer
    about the gate. -/
def NeverRevokes {P : Type} (provider : Provides P) : Prop :=
  ∀ context call p outcome, (provider context call p).1 = .ok outcome → IsRevoked outcome = false

theorem Answered.not_revoked {P : Type} {provider : Provides P} {context : SessionContext}
    {request : Request} {outcome : Outcome} (h : Answered provider context request outcome)
    (never : NeverRevokes provider) : IsRevoked outcome = false := by
  unfold Answered at h
  split at h
  · obtain ⟨p, hp⟩ := h
    exact never _ _ _ _ hp
  · rw [h]
    rfl

theorem accepts_permitOf {raw : Nat} {permit : SeatPermit} (h : permitOf raw = some permit) :
    Seat.accepts raw permit = true := by
  unfold permitOf at h
  split at h
  · next henabled =>
    rw [← Option.some.inj h]
    simpa [Seat.accepts] using henabled
  · simp at h

theorem answers_of_written {trace : List Step} {responses : List Response} {first : ServerMessage}
    {farewell : Option Goodbye} (hfirst : responseOf first = none)
    (h : written trace = first :: (responses.map .response ++ farewell.toList.map .goodbye)) :
    answers trace = responses := by
  unfold answers
  rw [h, List.filterMap_cons_none hfirst, List.filterMap_append, List.filterMap_map,
    List.filterMap_map]
  have hresponses : responses.filterMap (responseOf ∘ ServerMessage.response) = responses :=
    List.filterMap_some
  have hfarewell : farewell.toList.filterMap (responseOf ∘ ServerMessage.goodbye) = [] := by
    cases farewell <;> rfl
  rw [hresponses, hfarewell, List.append_nil]

section Law

variable {P : Type} {provider : Provides P} {config : Config} {session : SessionId}
  {context : SessionContext} {trace : List Step}

theorem Talk.messages (h : Talk provider config session context trace) :
    (written trace = [] ∨ (∃ farewell, written trace = [.goodbye farewell]) ∨
      ∃ (welcome : Welcome) (responses : List Response) (farewell : Option Goodbye),
        written trace =
          .welcome welcome :: (responses.map .response ++ farewell.toList.map .goodbye)) ∧
    (answers trace).map Response.id <+: (requests trace).map Request.id ∧
    (answers trace).length ≤ config.maxRequests := by
  cases h with
  | shut h =>
    have hanswers : answers trace = [] := by
      unfold answers
      rcases h.2 with hnone | ⟨farewell, hone⟩
      · rw [hnone]
        rfl
      · rw [hone]
        rfl
    rw [hanswers]
    refine ⟨?_, List.nil_prefix, Nat.zero_le _⟩
    rcases h.2 with hnone | hone
    · exact .inl hnone
    · exact .inr (.inl hone)
  | @unwelcomed uid hello raw raw' permit welcome before after admits hbefore hafter error =>
    have hwritten : written (opening uid hello raw raw' ++ before ++
        .said (.writeFrame (.welcome welcome)) (.error error) :: after) =
        .welcome welcome :: (([] : List Response).map .response ++
          (none : Option Goodbye).toList.map .goodbye) := by
      rw [(prelude_read hbefore _ _).1, (aside_unread hafter).1]
      rfl
    rw [answers_of_written rfl hwritten]
    exact ⟨.inr (.inr ⟨_, _, _, hwritten⟩), List.nil_prefix, Nat.zero_le _⟩
  | @welcomed uid hello raw raw' permit welcome before served after admits hbefore hafter hserved =>
    obtain ⟨responses, farewell, hmessages, hlength, hids⟩ := hserved.messages
    have hwritten : written (opening uid hello raw raw' ++ before ++
        .said (.writeFrame (.welcome welcome)) (.ok ()) :: (served ++ after)) =
        .welcome welcome :: (responses.map .response ++ farewell.toList.map .goodbye) := by
      rw [(prelude_read hbefore _ _).1, written_append, (aside_unread hafter).1, hmessages,
        List.append_nil]
    have hrequests : requests (opening uid hello raw raw' ++ before ++
        .said (.writeFrame (.welcome welcome)) (.ok ()) :: (served ++ after)) = requests served := by
      rw [(prelude_read hbefore _ _).2.2.1, requests_append, (aside_unread hafter).2.2.1,
        List.append_nil]
    rw [answers_of_written rfl hwritten, hrequests]
    exact ⟨.inr (.inr ⟨_, _, _, hwritten⟩), hids, hlength⟩

/-- The prelude of an invocation: the opening, the welcome, and what the loop said since. -/
theorem Talk.due (h : Talk provider config session context trace) {pre post : List Step}
    {call : Proto.Call} (split : trace = pre ++ .mark (.invoked call) :: post) :
    ∃ uid hello raw raw' permit welcome before said answered request responses,
      Admits config uid hello raw raw' permit welcome ∧ (∀ e ∈ before, Aside e) ∧
      pre = opening uid hello raw raw' ++ before ++
        .said (.writeFrame (.welcome welcome)) (.ok ()) :: said ∧
      context = contextFor config session welcome.granted.asSlice permit ∧
      Due provider context said call answered request responses := by
  cases h with
  | shut h => exact (Entry.ne_split h.1 split).elim
  | unwelcomed admits hbefore hafter error =>
    refine (Entry.ne_split (fun e he => ?_) split).elim
    rw [List.append_assoc] at he
    rcases List.mem_append.mp he with he | he
    · exact opening_said e he
    · refine aside_append hbefore (fun e he => ?_) e he
      rcases List.mem_cons.mp he with rfl | he
      · trivial
      · exact (hafter e he).isSaid
  | @welcomed uid hello raw raw' permit welcome before served after admits hbefore hafter hserved =>
    have hsaid : ∀ e ∈ opening uid hello raw raw' ++ before ++
        [.said (.writeFrame (.welcome welcome)) (.ok ())], e.IsSaid := by
      intro e he
      rw [List.append_assoc] at he
      rcases List.mem_append.mp he with he | he
      · exact opening_said e he
      · exact aside_append hbefore (by simp [Entry.IsSaid]) e he
    have hsplit : opening uid hello raw raw' ++ before ++
        [.said (.writeFrame (.welcome welcome)) (.ok ())] ++ (served ++ after) =
        pre ++ .mark (.invoked call) :: post := by
      rw [← split]
      simp
    obtain ⟨said, rfl, hrest⟩ := Entry.split_said hsaid hsplit
    rcases List.append_eq_append_iff.mp hrest with ⟨mid, -, hmid⟩ | ⟨mid, hserves, hmid⟩
    · exact (Entry.ne_split (fun e he => (hafter e he).isSaid) hmid).elim
    · cases mid with
      | nil =>
        have hafter' : after = [] ++ .mark (.invoked call) :: post := hmid.symm
        exact (Entry.ne_split (fun e he => (hafter e he).isSaid) hafter').elim
      | cons e mid =>
        obtain ⟨rfl, -⟩ := List.cons.inj hmid
        obtain ⟨answered, request, responses, hdue⟩ := hserved.due hserves
        exact ⟨uid, hello, raw, raw', permit, welcome, before, said, answered, request, responses,
          admits, hbefore, by simp, rfl, hdue⟩

end Law

theorem prelude_acked {uid : Nat} {hello : Hello} {raw raw' : Nat} {welcome : Welcome}
    {before said : List Step} (hbefore : ∀ e ∈ before, Aside e) (hsaid : ∀ e ∈ said, Acked e) :
    ∀ e ∈ opening uid hello raw raw' ++ before ++
      .said (.writeFrame (.welcome welcome)) (.ok ()) :: said, Acked e := by
  intro e he
  rcases List.mem_append.mp he with he | he
  · rcases List.mem_append.mp he with he | he
    · simp only [opening, greeting, List.cons_append, List.nil_append, List.mem_cons,
        List.not_mem_nil, or_false] at he
      rcases he with rfl | rfl | rfl | rfl | rfl <;> trivial
    · exact (hbefore e he).acked
  · rcases List.mem_cons.mp he with rfl | he
    · trivial
    · exact hsaid e he

/-- Everything a session said, from its start. -/
def conversation {P : Type} (env : Peer) (provider : Provides P) (config : Config)
    (session : SessionId) (patience : Nat) (start : P) : List Step :=
  (run env provider config session patience ⟨start, []⟩).2.trace

/-- For any peer, gate and provider: a session writes nothing, one goodbye, or a welcome, responses
    and at most one goodbye; its responses carry the ids of the requests in the order in which these
    were read, and are no more than the policy allows. Whenever the provider is invoked, a hello and
    requests and nothing else was read, a welcome and responses and nothing else was written, the
    last request makes the call, the call is authorized by the grant of the welcome, and the permit
    of the session was accepted each time the gate was asked, the last time after that request. If
    the provider leaves the code `revoked` to the session, no response before had it. -/
theorem session_conversation {P : Type} (env : Peer) (provider : Provides P) (config : Config)
    (session : SessionId) (patience : Nat) (start : P) :
    let trace := conversation env provider config session patience start
    (written trace = [] ∨ (∃ farewell, written trace = [.goodbye farewell]) ∨
      ∃ (welcome : Welcome) (responses : List Response) (farewell : Option Goodbye),
        written trace =
          .welcome welcome :: (responses.map .response ++ farewell.toList.map .goodbye)) ∧
    (answers trace).map Response.id <+: (requests trace).map Request.id ∧
    (answers trace).length ≤ config.maxRequests ∧
    ∀ pre call post, trace = pre ++ .mark (.invoked call) :: post →
      ∃ (hello : Hello) (answered : List Request) (request : Request) (permit : SeatPermit)
        (welcome : Welcome) (responses : List Response) (before : List Step) (raw : Nat),
        received pre = .ok (.message (.hello hello)) :: (answered ++ [request]).map asRequest ∧
        request.call = call ∧
        written pre = .welcome welcome :: responses.map .response ∧
        (∀ e ∈ pre, Acked e) ∧
        authorized call welcome.granted.asSlice = true ∧
        sessionPermit pre = some permit ∧
        pre = before ++ [.said .readFrame (asRequest request), .said .seatLoad raw] ∧
        Seat.accepts raw permit = true ∧
        (∀ raw ∈ loads pre, Seat.accepts raw permit = true) ∧
        (NeverRevokes provider → ∀ response ∈ responses, IsRevoked response.outcome = false) := by
  obtain ⟨added, context, htalk, hrun⟩ :=
    run_talk env provider config session patience ⟨start, []⟩
  have htrace : conversation env provider config session patience start = added := by
    unfold conversation
    rw [hrun]
    rfl
  intro trace
  have htrace : trace = added := htrace
  rw [htrace]
  obtain ⟨hmessages, hids, hlength⟩ := htalk.messages
  refine ⟨hmessages, hids, hlength, fun pre call post split => ?_⟩
  obtain ⟨uid, hello, raw, raw', permit, welcome, before, said, answered, request, responses,
    admits, hbefore, rfl, rfl, hdue⟩ := htalk.due split
  obtain ⟨hwritten, hreceived, -, hloads⟩ :=
    @prelude_read uid hello raw raw' welcome before hbefore (.ok ()) said
  have hall : ∀ r ∈ raw :: raw' :: loads said, Seat.accepts r permit = true := by
    intro r hr
    rcases List.mem_cons.mp hr with rfl | hr
    · exact accepts_permitOf admits.permit_eq
    · rcases List.mem_cons.mp hr with rfl | hr
      · exact admits.accepted
      · exact hdue.loads r hr
  obtain ⟨said', last, rfl⟩ := hdue.last
  refine ⟨hello, answered, request, permit, welcome, responses,
    opening uid hello raw raw' ++ before ++ .said (.writeFrame (.welcome welcome)) (.ok ()) :: said',
    last, ?_, hdue.call_eq, ?_, ?_, hdue.authorized, ?_, by simp, ?_, ?_, ?_⟩
  · rw [hreceived, hdue.received]
  · rw [hwritten, hdue.written]
  · exact prelude_acked hbefore hdue.acked
  · unfold sessionPermit
    rw [hloads]
    exact admits.permit_eq
  · refine hall last ?_
    rw [loads_append]
    exact List.mem_cons_of_mem _ (List.mem_cons_of_mem _ (List.mem_append_right _ (.head _)))
  · rw [hloads]
    exact hall
  · intro never response hresponse
    obtain ⟨request, hanswered⟩ := hdue.answers response hresponse
    exact hanswered.not_revoked never

/-! ## Which request an answer belongs to -/

section Gives

variable {P : Type} {provider : Provides P} {config : Config} {session : SessionId}
  {context : SessionContext}

/-- A request is read and answered: the provider computed the outcome, or the gate was closed. -/
inductive Gives (provider : Provides P) (context : SessionContext) (request : Request) :
    List Step → Response → Prop
  | revoked {raw : Nat} (hraw : Seat.accepts raw context.permit = false) (sent : Except String Unit) :
      Gives provider context request [.said .readFrame (asRequest request), .said .seatLoad raw,
        .said (.writeFrame (.response ⟨request.id, revokedOutcome⟩)) sent] ⟨request.id, revokedOutcome⟩
  | computed {raw : Nat} (hraw : Seat.accepts raw context.permit = true) {outcome : Outcome}
      (houtcome : Answered provider context request outcome) (sent : Except String Unit) :
      Gives provider context request (asking context request raw ++
        [.said (.writeFrame (.response ⟨request.id, outcome⟩)) sent]) ⟨request.id, outcome⟩

/-- The answer at a place of a trace is given to the request at the same place. -/
def GivesAt (provider : Provides P) (context : SessionContext) (trace : List Step) (k : Nat)
    (response : Response) : Prop :=
  ∃ pre steps post request, trace = pre ++ steps ++ post ∧ (requests pre).length = k ∧
    Gives provider context request steps response

theorem GivesAt.after {trace : List Step} {k : Nat} {response : Response}
    (h : GivesAt provider context trace k response) {before : List Step} (after : List Step)
    (hbefore : requests before = []) : GivesAt provider context (before ++ trace ++ after) k response := by
  obtain ⟨pre, steps, post, request, rfl, hk, hgives⟩ := h
  refine ⟨before ++ pre, steps, post ++ after, request, by simp, ?_, hgives⟩
  rw [requests_append, hbefore]
  exact hk

theorem GivesAt.of_silent {trace : List Step} {k : Nat} {response : Response} (h : answers trace = [])
    (hk : (answers trace)[k]? = some response) : GivesAt provider context trace k response := by
  rw [h] at hk
  exact absurd hk (by simp)

theorem Served.gives {left : Nat} {trace : List Step} (h : Served provider context left trace)
    {k : Nat} {response : Response} (hk : (answers trace)[k]? = some response) :
    GivesAt provider context trace k response := by
  induction h generalizing k with
  | bound sent => exact .of_silent rfl hk
  | idles h => exact .of_silent (by rw [answers, (aside_unread h).1]; rfl) hk
  | leaves h hleaves => exact .of_silent (by rw [answers, written_append, (aside_unread h).1]; rfl) hk
  | repeats h hello sent =>
    exact .of_silent (by rw [answers, written_append, (aside_unread h).1]; rfl) hk
  | @revoked left idle h request raw hraw sent =>
    have hanswers : answers (idle ++ [.said .readFrame (asRequest request), .said .seatLoad raw,
        .said (.writeFrame (.response ⟨request.id, revokedOutcome⟩)) sent]) =
        [⟨request.id, revokedOutcome⟩] := by
      rw [answers, written_append, (aside_unread h).1]
      rfl
    rw [hanswers, List.getElem?_singleton] at hk
    split at hk
    · obtain rfl := Option.some.inj hk
      refine ⟨idle, _, [], request, by rw [List.append_nil], ?_, .revoked hraw sent⟩
      rw [(aside_unread h).2.2.1, ‹k = 0›]
      rfl
    · exact absurd hk (by simp)
  | @unsent left idle h request raw hraw outcome houtcome error =>
    have hanswers : answers (idle ++ asking context request raw ++
        [.said (.writeFrame (.response ⟨request.id, outcome⟩)) (.error error)]) =
        [⟨request.id, outcome⟩] := by
      rw [answers, written_append, written_append, (aside_unread h).1, (asking_read context request raw).1]
      rfl
    rw [hanswers, List.getElem?_singleton] at hk
    split at hk
    · obtain rfl := Option.some.inj hk
      refine ⟨idle, _, [], request, by rw [List.append_nil, List.append_assoc], ?_,
        .computed hraw houtcome (.error error)⟩
      rw [(aside_unread h).2.2.1, ‹k = 0›]
      rfl
    · exact absurd hk (by simp)
  | @next left idle rest h request raw hraw outcome houtcome hrest ih =>
    have hanswers : answers (idle ++ asking context request raw ++
        .said (.writeFrame (.response ⟨request.id, outcome⟩)) (.ok ()) :: rest) =
        ⟨request.id, outcome⟩ :: answers rest := by
      rw [answers, written_append, written_append, (aside_unread h).1, (asking_read context request raw).1]
      rfl
    rw [hanswers] at hk
    cases k with
    | zero =>
      obtain rfl := Option.some.inj hk
      refine ⟨idle, _, rest, request, ?_, ?_, .computed hraw houtcome (.ok ())⟩
      · simp only [List.append_assoc, List.singleton_append]
      · rw [(aside_unread h).2.2.1]
        rfl
    | succ k =>
      obtain ⟨pre, steps, post, request', rfl, hk', hgives⟩ := ih hk
      refine ⟨idle ++ asking context request raw ++
        .said (.writeFrame (.response ⟨request.id, outcome⟩)) (.ok ()) :: pre, steps, post, request', ?_,
        ?_, hgives⟩
      · simp only [List.append_assoc, List.cons_append]
      · rw [requests_append, requests_append, (aside_unread h).2.2.1,
          (asking_read context request raw).2.2.1]
        have hpre : requests (.said (.writeFrame (.response ⟨request.id, outcome⟩)) (.ok ()) :: pre) =
            requests pre := rfl
        rw [hpre, ← hk']
        simp [Nat.add_comm]

theorem Talk.gives {trace : List Step} (h : Talk provider config session context trace) {k : Nat}
    {response : Response} (hk : (answers trace)[k]? = some response) :
    GivesAt provider context trace k response := by
  cases h with
  | shut h =>
    rcases h.2 with hnone | ⟨farewell, hone⟩
    · exact .of_silent (by rw [answers, hnone]; rfl) hk
    · exact .of_silent (by rw [answers, hone]; rfl) hk
  | unwelcomed admits hbefore hafter error =>
    exact .of_silent
      (by rw [answers, (prelude_read hbefore _ _).1, (aside_unread hafter).1]; rfl) hk
  | @welcomed uid hello raw raw' permit welcome before served after admits hbefore hafter hserved =>
    have hanswers : answers (opening uid hello raw raw' ++ before ++
        .said (.writeFrame (.welcome welcome)) (.ok ()) :: (served ++ after)) = answers served := by
      rw [answers, (prelude_read hbefore _ _).1, written_append, (aside_unread hafter).1,
        List.append_nil]
      rfl
    rw [hanswers] at hk
    have hgives := hserved.gives hk
    have hrequests : requests (opening uid hello raw raw' ++ before ++
        [.said (.writeFrame (.welcome welcome)) (.ok ())]) = [] :=
      (prelude_read hbefore (.ok ()) []).2.2.1
    have hall := hgives.after after hrequests
    rwa [List.append_assoc _ served, List.append_assoc, List.singleton_append] at hall

end Gives

end AgentSeat.Session
