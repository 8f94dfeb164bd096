/-
  What the companion says to a provider: the ways of a call on a session (`Called`), of making a
  session (`Connected`) and of a tool on a session (`Worked`), whatever the provider does.
-/
import AgentSeat.Companion.Server

namespace AgentSeat.Companion

open AgentSeat.Lib AgentSeat.Proto

/-! ## Calls -/

/-- A timeout of a stream is set. -/
def Setting (conn : Conn) : Step → Prop
  | .said (.setReadTimeout conn' _) _ => conn' = conn
  | _ => False

/-- A request is written on a stream. -/
def asks (conn : Conn) (request : Request) (sent : Except CodecError Unit) : Step :=
  .said (.writeFrame conn (.request request)) sent

/-- A frame is read from a stream. -/
def reads (conn : Conn) (frame : Except CodecError (ReadFrame ServerMessage)) : Step :=
  .said (.readFrame conn) frame

/-- The deadline of a call is set, if the call has one of its own. -/
def deadline (conn : Conn) (call : Call) (ms : Nat) : List Step :=
  if isLongInput call then [.said (.setReadTimeout conn ms) (.ok ())] else []

/-- The ways of `Seat::call`, with its answer and the session after it. -/
inductive Called (seat : Seat) (call : Call) :
    List Step → Except SeatError Response → Seat → Prop
  | unsent {settings : List Step} (h : ∀ e ∈ settings, Setting seat.conn e) (error : SeatError) :
      Called seat call settings (.error error) seat
  | unwritten {next : RequestId} (hnext : RequestId.next seat.nextRequest = some next)
      (failure : CodecError) :
      Called seat call (deadline seat.conn call longInputTimeoutMs ++
          [asks seat.conn ⟨seat.nextRequest, call⟩ (.error failure)])
        (.error (codecError failure)) ⟨seat.conn, next⟩
  | unread {next : RequestId} (hnext : RequestId.next seat.nextRequest = some next)
      (failure : CodecError) :
      Called seat call (deadline seat.conn call longInputTimeoutMs ++
          [asks seat.conn ⟨seat.nextRequest, call⟩ (.ok ()), reads seat.conn (.error failure)])
        (.error (codecError failure)) ⟨seat.conn, next⟩
  | unrestored {next : RequestId} (hnext : RequestId.next seat.nextRequest = some next)
      (frame : ReadFrame ServerMessage) (failure : String) (error : SeatError) :
      Called seat call (deadline seat.conn call longInputTimeoutMs ++
          [asks seat.conn ⟨seat.nextRequest, call⟩ (.ok ()), reads seat.conn (.ok frame),
            .said (.setReadTimeout seat.conn ioTimeoutMs) (.error failure)])
        (.error error) ⟨seat.conn, next⟩
  | answered {next : RequestId} (hnext : RequestId.next seat.nextRequest = some next)
      (frame : ReadFrame ServerMessage) :
      Called seat call (deadline seat.conn call longInputTimeoutMs ++
          [asks seat.conn ⟨seat.nextRequest, call⟩ (.ok ()), reads seat.conn (.ok frame)] ++
          deadline seat.conn call ioTimeoutMs)
        (responseOf seat.nextRequest frame) ⟨seat.conn, next⟩

theorem deadline_setting (conn : Conn) (call : Call) (ms : Nat) :
    ∀ e ∈ deadline conn call ms, Setting conn e := by
  unfold deadline
  split <;> simp [Setting]

section Calls

variable {σ : Type} (env : Outside) {s : σ}

theorem orFail_does {ε ε' α : Type} {describe : ε → ε'} {question : CM σ ε' (Except ε α)}
    {F : Except ε' α → List Step → σ → Prop}
    (h : Does s question fun r added s' =>
      ∃ answer, r = .ok answer ∧ F (answer.mapError describe) added s') :
    Does s (orFail describe question) F := by
  refine Does.bind h (fun a added s' hF => ?_) fun e added s' hF => ?_
  · obtain ⟨answer, heq, hF⟩ := hF
    obtain rfl := Except.ok.inj heq
    refine Does.lift ?_
    rwa [List.append_nil]
  · obtain ⟨answer, heq, -⟩ := hF
    exact absurd heq (by simp)

/-- A question whose refusal is a failure, and what follows if it was granted. -/
theorem orFail_bind {ε ε' α β : Type} {describe : ε → ε'} {question : CM σ ε' (Except ε α)}
    {f : α → CM σ ε' β} {F : Except ε' β → List Step → σ → Prop}
    (h : Does s question fun r added s' => ∃ answer, r = .ok answer ∧
      (∀ a, answer = .ok a → Does s' (f a) fun r more => F r (added ++ more)) ∧
      ∀ e, answer = .error e → F (.error (describe e)) added s') :
    Does s (orFail describe question >>= f) F := by
  have hfail : Does s (orFail describe question) fun r added s' => ∃ answer : Except ε α,
      r = answer.mapError describe ∧
      (∀ a, answer = .ok a → Does s' (f a) fun r more => F r (added ++ more)) ∧
      ∀ e, answer = .error e → F (.error (describe e)) added s' :=
    orFail_does (h.post fun r added s' ⟨answer, heq, hF⟩ => ⟨answer, heq, answer, rfl, hF⟩)
  refine Does.bind hfail (fun a added s' hF => ?_) fun e added s' hF => ?_
  · obtain ⟨answer, heq, hok, -⟩ := hF
    cases answer with
    | error e => exact absurd heq (by simp [Except.mapError])
    | ok a' =>
      obtain rfl := Except.ok.inj heq
      exact hok a rfl
  · obtain ⟨answer, heq, -, herr⟩ := hF
    cases answer with
    | ok a' => exact absurd heq (by simp [Except.mapError])
    | error e' =>
      rw [Except.error.inj heq]
      exact herr e' rfl

/-- A deadline is set, or the call needs none. -/
theorem setDeadline_does {conn : Conn} {call : Call} {ms : Nat} {attempted : String}
    {F : Except SeatError Unit → List Step → σ → Prop} (hset : F (.ok ()) (deadline conn call ms) s)
    (hfail : ∀ failure error, F (.error error) [.said (.setReadTimeout conn ms) (.error failure)] s) :
    Does s (setDeadline env conn call ms attempted) F := by
  unfold setDeadline
  unfold deadline at hset
  by_cases hlong : isLongInput call = true
  · rw [if_pos hlong] at hset ⊢
    refine orFail_does (Does.ask fun answer => ⟨answer, rfl, ?_⟩)
    match (answer : Except String Unit) with
    | .ok () => exact hset
    | .error failure => exact hfail failure _
  · rw [if_neg hlong] at hset ⊢
    exact Does.pure hset

theorem exchange_does {conn : Conn} {request : Request}
    {F : Except SeatError Response → List Step → σ → Prop}
    (hunwritten : ∀ failure, F (.error (codecError failure)) [asks conn request (.error failure)] s)
    (hunread : ∀ failure, F (.error (codecError failure))
      [asks conn request (.ok ()), reads conn (.error failure)] s)
    (hunrestored : ∀ frame failure error, F (.error error) [asks conn request (.ok ()),
      reads conn (.ok frame), .said (.setReadTimeout conn ioTimeoutMs) (.error failure)] s)
    (hanswered : ∀ frame, F (responseOf request.id frame)
      ([asks conn request (.ok ()), reads conn (.ok frame)] ++ deadline conn request.call ioTimeoutMs)
      s) :
    Does s (exchange env conn request) F := by
  unfold exchange
  refine orFail_bind (Does.ask fun sent => ⟨sent, rfl, fun a hsent => ?_, fun failure hsent => ?_⟩)
  · refine orFail_bind (Does.ask fun answer => ⟨answer, rfl, fun frame hread => ?_,
      fun failure hread => ?_⟩)
    · rw [hsent, hread]
      have hrestore : Does s (setDeadline env conn request.call ioTimeoutMs
          "cannot restore provider I/O bound: ") fun r restored s' => s' = s ∧
            ((r = .ok () ∧ restored = deadline conn request.call ioTimeoutMs) ∨
              ∃ failure error, r = .error error ∧
                restored = [.said (.setReadTimeout conn ioTimeoutMs) (.error failure)]) :=
        setDeadline_does env ⟨rfl, .inl ⟨rfl, rfl⟩⟩
          fun failure error => ⟨rfl, .inr ⟨failure, error, rfl, rfl⟩⟩
      refine Does.bind hrestore (fun _ restored s' hF => Does.lift ?_) fun e restored s' hF => ?_
      · obtain ⟨rfl, ⟨-, rfl⟩ | ⟨failure, error, heq, -⟩⟩ := hF
        · rw [List.append_nil]
          exact hanswered frame
        · exact absurd heq (by simp)
      · obtain ⟨rfl, ⟨heq, -⟩ | ⟨failure, error, heq, rfl⟩⟩ := hF
        · exact absurd heq (by simp)
        · rw [Except.error.inj heq]
          exact hunrestored frame failure error
    · rw [hsent, hread]
      exact hunread failure
  · rw [hsent]
    exact hunwritten failure

theorem seatCall_does (seat : Seat) (call : Call) :
    Does s (seat.call env call) fun r said s' => s' = s ∧
      ∃ answer seat', r = .ok (answer, seat') ∧ Called seat call said answer seat' := by
  have hextend : Does s (Prog.attempt (setDeadline env seat.conn call longInputTimeoutMs
      "cannot extend provider I/O bound: ") : CM σ Empty _) fun r settings s' => s' = s ∧
        ((r = .ok (.ok ()) ∧ settings = deadline seat.conn call longInputTimeoutMs) ∨
          ∃ error, r = .ok (.error error) ∧ ∀ e ∈ settings, Setting seat.conn e) := by
    have hdeadline : Does s (setDeadline env seat.conn call longInputTimeoutMs
        "cannot extend provider I/O bound: ") fun r settings s' => s' = s ∧
          ((r = .ok () ∧ settings = deadline seat.conn call longInputTimeoutMs) ∨
            ∃ error, r = .error error ∧ ∀ e ∈ settings, Setting seat.conn e) :=
      setDeadline_does env ⟨rfl, .inl ⟨rfl, rfl⟩⟩
        fun failure error => ⟨rfl, .inr ⟨error, rfl, by simp [Setting]⟩⟩
    refine hdeadline.attempt fun r added s' ⟨hs, h⟩ => ⟨hs, ?_⟩
    rcases h with ⟨rfl, hsettings⟩ | ⟨error, rfl, hsettings⟩
    · exact .inl ⟨rfl, hsettings⟩
    · exact .inr ⟨error, rfl, hsettings⟩
  unfold Seat.call
  refine Does.bind hextend (fun extended settings s' hF => ?_) fun e => e.elim
  obtain ⟨rfl, ⟨heq, rfl⟩ | ⟨error, heq, hsettings⟩⟩ := hF
  · obtain rfl := Except.ok.inj heq
    cases hnext : RequestId.next seat.nextRequest with
    | none =>
      refine Does.pure ⟨rfl, _, _, rfl, ?_⟩
      rw [List.append_nil]
      exact .unsent (deadline_setting _ _ _) _
    | some next =>
      have hexchange : Does s' (Prog.attempt (exchange env seat.conn ⟨seat.nextRequest, call⟩) :
          CM σ Empty _) fun r said s'' => s'' = s' ∧ ∃ answer, r = .ok answer ∧
            Called seat call (deadline seat.conn call longInputTimeoutMs ++ said) answer
              ⟨seat.conn, next⟩ := by
        refine Does.attempt (exchange_does env (F := fun answer said s'' => s'' = s' ∧
          Called seat call (deadline seat.conn call longInputTimeoutMs ++ said) answer
            ⟨seat.conn, next⟩) ?_ ?_ ?_ ?_) fun answer said s'' ⟨hs, h⟩ => ⟨hs, answer, rfl, h⟩
        · exact fun failure => ⟨rfl, .unwritten hnext failure⟩
        · exact fun failure => ⟨rfl, .unread hnext failure⟩
        · exact fun frame failure error => ⟨rfl, .unrestored hnext frame failure error⟩
        · intro frame
          rw [← List.append_assoc]
          exact ⟨rfl, .answered hnext frame⟩
      refine Does.bind hexchange (fun answer said s'' hF => ?_) fun e => e.elim
      obtain ⟨rfl, answer', heq, hcalled⟩ := hF
      obtain rfl := Except.ok.inj heq
      refine Does.pure ⟨rfl, answer, _, rfl, ?_⟩
      rwa [List.append_nil]
  · obtain rfl := Except.ok.inj heq
    refine Does.pure ⟨rfl, _, _, rfl, ?_⟩
    rw [List.append_nil]
    exact .unsent hsettings error

end Calls

/-! ## Making a session -/

/-- A step on the way to a session: of the discovery, or of a stream that is being opened. -/
def Opens (conn : Conn) : Step → Prop
  | .said (.resolve _) _ | .said (.connect _) _ => True
  | .said (.setReadTimeout conn' _) _ | .said (.setWriteTimeout conn' _) _ => conn' = conn
  | .said (.writeFrame conn' (.hello _)) _ | .said (.readFrame conn') _ => conn' = conn
  | _ => False

/-- A stream opened for a session, up to the welcome. -/
def opening (socket : Option String) (conn : Conn) (path : String) (welcome : Welcome) : List Step :=
  [.said (.resolve socket) (.ok (some path)), .said (.connect path) (.ok ()),
    .said (.setReadTimeout conn ioTimeoutMs) (.ok ()), .said (.setWriteTimeout conn ioTimeoutMs) (.ok ()),
    .said (.writeFrame conn (.hello companionHello)) (.ok ()),
    reads conn (.ok (.message (.welcome welcome)))]

/-- The seat `connect_seat` gives: the inherited one, or one on a new stream. -/
inductive Connected (s : Server) : List Step → Seat → Server → Prop
  | inherited {seat : Seat} (h : s.inheritedSeat = some seat) :
      Connected s [] seat { s with inheritedSeat := none }
  | opened (h : s.inheritedSeat = none) (path : String) (welcome : Welcome) :
      Connected s (opening s.socket s.streams path welcome) ⟨s.streams, firstRequest⟩
        { s with streams := s.streams + 1 }

/-- `connect_seat` gave no seat. -/
structure Unconnected (s : Server) (said : List Step) (s' : Server) : Prop where
  fresh : s.inheritedSeat = none
  opens : ∀ e ∈ said, Opens s.streams e
  state : s' = s ∨ s' = { s with streams := s.streams + 1 }

section Connect

variable (env : Outside)

theorem fromStream_does {σ : Type} {s : σ} (conn : Conn) :
    Does s (Seat.fromStream env conn) fun r said s' => s' = s ∧
      ((∃ welcome, r = .ok ⟨conn, firstRequest⟩ ∧ said =
          [.said (.setReadTimeout conn ioTimeoutMs) (.ok ()),
            .said (.setWriteTimeout conn ioTimeoutMs) (.ok ()),
            .said (.writeFrame conn (.hello companionHello)) (.ok ()),
            reads conn (.ok (.message (.welcome welcome)))]) ∨
        ∃ error, r = .error error ∧ ∀ e ∈ said, Opens conn e) := by
  unfold Seat.fromStream
  refine orFail_bind (Does.ask fun a => ⟨a, rfl, fun u ha => ?_, fun e _ =>
    ⟨rfl, .inr ⟨_, rfl, by simp [Opens]⟩⟩⟩)
  refine orFail_bind (Does.ask fun b => ⟨b, rfl, fun u' hb => ?_, fun e _ =>
    ⟨rfl, .inr ⟨_, rfl, by simp [Opens]⟩⟩⟩)
  refine orFail_bind (Does.ask fun c => ⟨c, rfl, fun u'' hc => ?_, fun e _ =>
    ⟨rfl, .inr ⟨_, rfl, by simp [Opens]⟩⟩⟩)
  refine orFail_bind (Does.ask fun d => ⟨d, rfl, fun frame hd => ?_, fun e _ =>
    ⟨rfl, .inr ⟨_, rfl, by simp [Opens]⟩⟩⟩)
  rw [ha, hb, hc, hd]
  have hrefused : ∀ e ∈ ([.said (.setReadTimeout conn ioTimeoutMs) (.ok ()),
      .said (.setWriteTimeout conn ioTimeoutMs) (.ok ()),
      .said (.writeFrame conn (.hello companionHello)) (.ok ()), reads conn (.ok frame)] : List Step),
      Opens conn e := by simp [Opens, reads]
  refine Does.lift_bind (fun welcome hopening => ?_) fun error _ =>
    ⟨rfl, .inr ⟨error, rfl, hrefused⟩⟩
  refine Does.lift_bind (fun _ _ => Does.pure ?_) fun error _ => ⟨rfl, .inr ⟨error, rfl, hrefused⟩⟩
  have hframe : frame = .message (.welcome welcome) := by
    unfold openingOf at hopening
    split at hopening
    · rw [Except.ok.inj hopening]
    all_goals exact absurd hopening (by simp)
  exact ⟨rfl, .inl ⟨welcome, rfl, by rw [hframe]; rfl⟩⟩

section State

variable {ε β : Type} {s : Server} {F : Except ε β → List Step → Server → Prop}

theorem server_bind {f : Server → ServerM ε β} (h : Does s (f s) F) : Does s (server >>= f) F :=
  Does.read_bind (g := id) h

theorem modify_does {g : Server → Server} {F : Except ε Unit → List Step → Server → Prop}
    (h : F (.ok ()) [] (g s)) : Does s (modify g) F :=
  Does.update (f := g) h

theorem modify_bind {g : Server → Server} {f : Unit → ServerM ε β} (h : Does (g s) (f ()) F) :
    Does s (modify g >>= f) F :=
  Does.update_bind (g := g) h

theorem session_bind {seat : Seat} {f : ProviderSession → ServerM ε β}
    (h : Does s (f ⟨seat, []⟩) fun r more => F r (.mark (.session seat.conn) :: more)) :
    Does s (ProviderSession.new seat >>= f) F := by
  have hnew : Does s (ProviderSession.new seat : ServerM ε ProviderSession) fun r added s' =>
      r = .ok ⟨seat, []⟩ ∧ added = [.mark (.session seat.conn)] ∧ s' = s :=
    Does.write_bind (Does.pure ⟨rfl, rfl, rfl⟩)
  refine Does.bind hnew (fun session added s' hF => ?_) fun e added s' hF => absurd hF.1 (by simp)
  obtain ⟨heq, rfl, rfl⟩ := hF
  obtain rfl := Except.ok.inj heq
  exact h

end State

theorem connectSeat_does (s : Server) :
    Does s (connectSeat env) fun r said s' =>
      (∃ seat, r = .ok seat ∧ Connected s said seat s') ∨
        ∃ failure, r = .error failure ∧ Unconnected s said s' := by
  unfold connectSeat
  refine server_bind ?_
  cases hinherited : s.inheritedSeat with
  | some seat => exact modify_bind (Does.pure (.inl ⟨seat, rfl, .inherited hinherited⟩))
  | none =>
    refine orFail_bind (Does.ask fun a => ⟨a, rfl, fun resolved ha => ?_, fun e _ =>
      .inr ⟨_, rfl, hinherited, by simp [Opens], .inl rfl⟩⟩)
    rw [ha]
    cases resolved with
    | none => exact Does.fail (.inr ⟨_, rfl, hinherited, by simp [Opens], .inl rfl⟩)
    | some path =>
      have hconnect : Does s (Prog.attempt (Seat.connect env s.streams path) :
          ServerM ProviderFailure _) fun r said s' => s' = s ∧
            ((∃ welcome, r = .ok (.ok ⟨s.streams, firstRequest⟩) ∧
                .said (.resolve s.socket) (.ok (some path)) :: said =
                  opening s.socket s.streams path welcome) ∨
              ∃ error, r = .ok (.error error) ∧ ∀ e ∈ said, Opens s.streams e) := by
        refine Does.attempt (F := fun r said s' => s' = s ∧
          ((∃ welcome, r = .ok ⟨s.streams, firstRequest⟩ ∧
              .said (.resolve s.socket) (.ok (some path)) :: said =
                opening s.socket s.streams path welcome) ∨
            ∃ error, r = .error error ∧ ∀ e ∈ said, Opens s.streams e)) ?_ ?_
        · unfold Seat.connect
          refine orFail_bind (Does.ask fun b => ⟨b, rfl, fun u hb => ?_, fun e _ =>
            ⟨rfl, .inr ⟨_, rfl, by simp [Opens]⟩⟩⟩)
          rw [hb]
          refine (fromStream_does env s.streams).post fun r said s' ⟨hs, h⟩ => ⟨hs, ?_⟩
          rcases h with ⟨welcome, hr, rfl⟩ | ⟨error, hr, hopens⟩
          · exact .inl ⟨welcome, hr, rfl⟩
          · exact .inr ⟨error, hr, by simpa [Opens] using hopens⟩
        · rintro r said s' ⟨hs, ⟨welcome, rfl, hsaid⟩ | ⟨error, rfl, hopens⟩⟩
          · exact ⟨hs, .inl ⟨welcome, rfl, hsaid⟩⟩
          · exact ⟨hs, .inr ⟨error, rfl, hopens⟩⟩
      refine Does.bind hconnect (fun opened said s' hF => modify_bind (Does.lift ?_))
        fun e said s' hF => ?_
      · obtain ⟨rfl, ⟨welcome, heq, hsaid⟩ | ⟨error, heq, hopens⟩⟩ := hF
        · obtain rfl := Except.ok.inj heq
          refine .inl ⟨_, rfl, ?_⟩
          rw [List.append_nil, List.singleton_append, hsaid]
          exact .opened hinherited path welcome
        · obtain rfl := Except.ok.inj heq
          refine .inr ⟨_, rfl, hinherited, ?_, .inr rfl⟩
          simpa [Opens] using hopens
      · obtain ⟨-, ⟨welcome, heq, -⟩ | ⟨error, heq, -⟩⟩ := hF <;> exact absurd heq (by simp)

end Connect

/-! ## Which results end a session -/

theorem get_object (key : String) (members : List (String × Json)) :
    get key (object members) = members.reverse.lookup key :=
  Assoc.lookup_ofList key members

theorem toValueMembers_eq (members : List (String × Json)) :
    toValueMembers members = members.map fun member => (member.1, toValue member.2) := by
  induction members with
  | nil => rfl
  | cons member rest ih => rw [toValueMembers, ih, List.map_cons]

theorem get_toValue (key : String) (members : List (String × Json)) :
    get key (toValue (.obj members)) =
      ((members.map fun member => (member.1, toValue member.2)).reverse).lookup key := by
  rw [toValue, toValueMembers_eq]
  exact Assoc.lookup_ofList key _

theorem toolError_keeps {code retry message : String} (h : retry ≠ "reconnect") :
    (toolError code retry message).requiresProviderReconnect = false := by
  simp [ToolResult.requiresProviderReconnect, toolError, toolResult, get_object, Assoc.lookup_cons, asStr, h]

theorem okBody_keeps {content : List ToolContent} {kind : String} {value : Json} {isError : Bool} :
    (⟨content, okBody kind value, isError⟩ : ToolResult).requiresProviderReconnect = false := by
  simp [ToolResult.requiresProviderReconnect, okBody, get_object, Assoc.lookup_cons]

theorem toolOutcome_reconnect (outcome : Outcome) :
    (toolOutcome outcome).requiresProviderReconnect = outcomeRequiresReconnect outcome := by
  cases outcome with
  | error error =>
    -- the retry hint of the error is the member the result is judged by
    obtain ⟨members, hbody, hretry⟩ : ∃ members, Schema.protocolError.encode error = .obj members ∧
        ((members.map fun member => (member.1, toValue member.2)).reverse).lookup "retry" =
          some (.str (Schema.retryName error.retry)) := by
      obtain ⟨code, retry, field, message, generation, sequence⟩ := error
      cases field <;> cases message <;> cases generation <;> cases sequence <;> exact ⟨_, rfl, rfl⟩
    have hencode : Schema.outcome.encode (.error error) =
        .obj [("status", .str "error"), ("body", .obj members)] := by
      rw [← hbody]
      rfl
    have hget : get "body" (toValue (Schema.outcome.encode (.error error))) =
        some (toValue (.obj members)) := by
      rw [hencode, get_toValue]
      rfl
    unfold ToolResult.requiresProviderReconnect toolOutcome toolResult outcomeRequiresReconnect
    rw [hget, Option.bind_some, get_toValue, hretry]
    dsimp only
    cases error.retry <;> rfl
  | ok reply =>
    have hplain (reply : Reply) :
        (toolResult (toValue (Schema.outcome.encode (.ok reply))) false).requiresProviderReconnect =
          false := by
      obtain ⟨kind, value, hencode⟩ : ∃ kind value, Schema.outcome.encode (.ok reply) =
          .obj [("status", .str "ok"), ("body", .obj [("kind", kind), ("value", value)])] := by
        cases reply <;> exact ⟨_, _, rfl⟩
      have hget : get "body" (toValue (Schema.outcome.encode (.ok reply))) =
          some (toValue (.obj [("kind", kind), ("value", value)])) := by
        rw [hencode, get_toValue]
        rfl
      unfold ToolResult.requiresProviderReconnect toolResult
      rw [hget, Option.bind_some, get_toValue]
      rfl
    cases reply with
    | capture _ | captureRegion _ => exact okBody_keeps
    | seatStatus _ | desktopSnapshot _ | subscribed _ | events _ | management _ | applications _
    | launched _ | input _ | textTransfer _ => exact hplain _

/-! ## Tools on a session -/

/-- What a tool is to do on a session. -/
inductive Task where
  | call (call : Call)
  | slot (name : String) (arguments : Json)

/-- The ways of a tool on a session: the answer of the provider if it was called, and the session
    afterwards. -/
inductive Worked (session : ProviderSession) :
    Task → List Step → Option (Except SeatError Response) → ProviderSession → Prop
  | call {call : Call} {said : List Step} {answer : Except SeatError Response} {seat : Seat}
      (h : Called session.seat call said answer seat) :
      Worked session (.call call) said (some answer) { session with seat := seat }
  | idle (name : String) (arguments : Json) : Worked session (.slot name arguments) [] none session
  | saved {arguments : Json} {request : PointerSlotSaveRequest}
      (h : PointerSlotSaveRequest.read arguments = some request) :
      Worked session (.slot "pointer_slot_save" arguments) [] none
        { session with pointerSlots := Assoc.insert request.name request.action session.pointerSlots }
  | replayed {arguments : Json} {request : PointerSlotReplayRequest} {action : PointerClickRequest}
      {said : List Step} {answer : Except SeatError Response} {seat : Seat}
      (hread : PointerSlotReplayRequest.read arguments = some request)
      (hslot : session.pointerSlots.lookup request.name = some action)
      (h : Called session.seat (.pointerClick (aimed action request.generation)) said answer seat) :
      Worked session (.slot "pointer_slot_replay" arguments) said (some answer)
        { session with seat := seat }

/-- The call failed, or its outcome asks for a new session. -/
def ends : Option (Except SeatError Response) → Bool
  | some (.ok response) => outcomeRequiresReconnect response.outcome
  | some (.error _) => true
  | none => false

/-- The result of a tool agrees with the answer of the provider. -/
def Reports (answer : Option (Except SeatError Response)) (result : Except ProviderFailure ToolResult) :
    Prop :=
  match answer with
  | some (.ok response) => result = .ok (toolOutcome response.outcome)
  | some (.error _) => ∃ failure, result = .error failure
  | none => ∃ shown, result = .ok shown ∧ shown.requiresProviderReconnect = false

section Work

variable (env : Outside) (reason : String → Json → String) {ε : Type} {s : Server}

theorem callSeat_does (session : ProviderSession) (call : Call) :
    Does s (callSeat env session call : ServerM ε _) fun r said s' => s' = s ∧
      ∃ answer session', r = .ok ((answer.map Response.outcome).mapError providerFailure, session') ∧
        Called session.seat call said answer session'.seat ∧
        session' = { session with seat := session'.seat } := by
  unfold callSeat
  refine Does.bind ((seatCall_does env session.seat call).total
    (K := fun r said s' => s' = s ∧ ∃ answer seat, r = .ok (answer, seat) ∧
      Called session.seat call said answer seat) fun a added s' ⟨hs, answer, seat, heq, h⟩ =>
        ⟨hs, answer, seat, by rw [Except.ok.inj heq], h⟩) (fun a said s' hF => ?_) fun e said s' hF => ?_
  · obtain ⟨rfl, answer, seat, heq, hcalled⟩ := hF
    obtain rfl := Except.ok.inj heq
    refine Does.pure ⟨rfl, answer, _, rfl, ?_, rfl⟩
    rwa [List.append_nil]
  · obtain ⟨-, answer, seat, heq, -⟩ := hF
    exact absurd heq (by simp)

theorem pointerSlotSave_worked (session : ProviderSession) (arguments : Json) :
    Worked session (.slot "pointer_slot_save" arguments) [] none
        (pointerSlotSave reason session arguments).2 ∧
      (pointerSlotSave reason session arguments).1.requiresProviderReconnect = false := by
  unfold pointerSlotSave
  cases hread : PointerSlotSaveRequest.read arguments with
  | none => exact ⟨.idle _ _, toolError_keeps (by decide)⟩
  | some request =>
    dsimp only
    split
    · exact ⟨.idle _ _, toolError_keeps (by decide)⟩
    · cases request.action.validate with
      | error error => exact ⟨.idle _ _, toolError_keeps (by decide)⟩
      | ok u =>
        dsimp only
        split
        · exact ⟨.idle _ _, toolError_keeps (by decide)⟩
        · exact ⟨.saved hread, okBody_keeps⟩

theorem pointerSlotsList_keeps (session : ProviderSession) (arguments : Json) :
    (pointerSlotsList session arguments).requiresProviderReconnect = false := by
  unfold pointerSlotsList
  split
  · exact toolError_keeps (by decide)
  · exact okBody_keeps

theorem pointerSlotReplay_does (session : ProviderSession) (arguments : Json) :
    Does s (pointerSlotReplay env reason session arguments : ServerM ε _) fun r said s' => s' = s ∧
      ∃ answer result session', r = .ok (result, session') ∧
        Worked session (.slot "pointer_slot_replay" arguments) said answer session' ∧
        Reports answer result := by
  unfold pointerSlotReplay
  cases hread : PointerSlotReplayRequest.read arguments with
  | none => exact Does.pure ⟨rfl, none, _, _, rfl, .idle _ _, _, rfl, toolError_keeps (by decide)⟩
  | some request =>
    dsimp only
    split
    · exact Does.pure ⟨rfl, none, _, _, rfl, .idle _ _, _, rfl, toolError_keeps (by decide)⟩
    · cases hslot : session.pointerSlots.lookup request.name with
      | none => exact Does.pure ⟨rfl, none, _, _, rfl, .idle _ _, _, rfl, toolError_keeps (by decide)⟩
      | some action =>
        refine Does.bind (callSeat_does env session _) (fun a said s' hF => Does.pure ?_)
          fun e said s' hF => ?_
        · obtain ⟨rfl, answer, session', heq, hcalled, hsession⟩ := hF
          obtain rfl := Except.ok.inj heq
          refine ⟨rfl, some answer, _, _, rfl, ?_, ?_⟩
          · rw [List.append_nil, hsession]
            exact .replayed hread hslot hcalled
          · cases answer with
            | ok response => rfl
            | error error => exact ⟨_, rfl⟩
        · obtain ⟨-, answer, session', heq, -⟩ := hF
          exact absurd heq (by simp)

theorem pointerSlotCall_does (session : ProviderSession) (name : String) (arguments : Option Json) :
    Does s (pointerSlotCall env reason session name arguments : ServerM ε _) fun r said s' => s' = s ∧
      ∃ answer result session', r = .ok (result, session') ∧
        Worked session (.slot name (arguments.getD (.obj []))) said answer session' ∧
        Reports answer result := by
  unfold pointerSlotCall
  dsimp only
  split
  · obtain ⟨hworked, hkeeps⟩ := pointerSlotSave_worked reason session (arguments.getD (.obj []))
    exact Does.pure ⟨rfl, none, _, _, rfl, hworked, _, rfl, hkeeps⟩
  · exact pointerSlotReplay_does env reason session _
  · exact Does.pure ⟨rfl, none, _, _, rfl, .idle _ _, _, rfl, pointerSlotsList_keeps session _⟩
  · exact Does.pure ⟨rfl, none, _, _, rfl, .idle _ _, _, rfl, toolError_keeps (by decide)⟩

end Work

end AgentSeat.Companion
