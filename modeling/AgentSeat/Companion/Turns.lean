/-
  What the server does with one request.

  A tool of the legacy era works on the one legacy session (`LegacyWork`), a modern one on the session
  of its context (`ModernWork`), and a modern status makes a session (`StatusWork`). Every run of
  `handle` is one of the ways of `Turned` (`handle_turned`), whatever the provider does. The results
  about runs of the server use this grammar and not the methods.
-/
import AgentSeat.Companion.Calls

namespace AgentSeat.Companion

open AgentSeat.Lib AgentSeat.Proto

/-! ## The sessions of the two eras -/

/-- The legacy session a tool works on: the one there is, or a new one. -/
inductive Held (s : Server) : List Step → ProviderSession → Server → Prop
  | live {session : ProviderSession} (h : s.legacySession = some session) : Held s [] session s
  | made (h : s.legacySession = none) {opened : List Step} {seat : Seat} {s₁ : Server}
      (hconnected : Connected s opened seat s₁) :
      Held s (opened ++ [.mark (.session seat.conn)]) ⟨seat, []⟩
        { s₁ with legacySession := some ⟨seat, []⟩ }

/-- A status was answered with `ok`. -/
def statusOk : Task → Option (Except SeatError Response) → Bool
  | .call call, some (.ok response) => isStatus call && isOk response.outcome
  | _, _ => false

/-- The legacy session after a tool. -/
def settleLegacy (task : Task) (answer : Option (Except SeatError Response))
    (session : ProviderSession) (s : Server) : Server :=
  if ends answer then dropLegacy s
  else { s with
    legacySession := some session
    legacyRecoveryRequired := s.legacyRecoveryRequired && !statusOk task answer }

/-- The session of a context after a tool. -/
def settleModern (context : Nat) (answer : Option (Except SeatError Response))
    (session : ProviderSession) (s : Server) : Server :=
  if ends answer then dropContext context s
  else { s with modernContexts := s.modernContexts.set context session }

/-- The tool gives the outcome of the provider, and an error if the call failed. -/
def Shown (answer : Option (Except SeatError Response)) (result : Except ProviderFailure ToolResult) :
    Prop :=
  match answer with
  | some (.ok response) => result = .ok (toolOutcome response.outcome)
  | some (.error _) => ∃ failure, result = .error failure
  | none => True

/-- A legacy tool: refused, without a provider, or on the session. -/
inductive LegacyWork (s : Server) (task : Task) :
    Except ProviderFailure ToolResult → List Step → Server → Prop
  | refused (failure : ProviderFailure) : LegacyWork s task (.error failure) [] s
  | unconnected {said : List Step} {s' : Server} (hnone : s.legacySession = none)
      (h : Unconnected s said s') (failure : ProviderFailure) :
      LegacyWork s task (.error failure) said s'
  | worked {opened said : List Step} {session session' : ProviderSession} {s₁ : Server}
      {answer : Option (Except SeatError Response)} {result : Except ProviderFailure ToolResult}
      (hrecovered : s.legacyRecoveryRequired = true → task = .call .seatStatus)
      (hheld : Held s opened session s₁) (hworked : Worked session task said answer session')
      (hshown : Shown answer result) :
      LegacyWork s task result (opened ++ said) (settleLegacy task answer session' s₁)

/-- A modern tool: refused, or on the session of its context. -/
inductive ModernWork (s : Server) (context : Nat) (task : Task) :
    Except ProviderFailure ToolResult → List Step → Server → Prop
  | refused (failure : ProviderFailure) : ModernWork s context task (.error failure) [] s
  | worked {said : List Step} {session session' : ProviderSession}
      {answer : Option (Except SeatError Response)} {result : Except ProviderFailure ToolResult}
      (hsession : s.modernContexts.get context = some session)
      (hworked : Worked session task said answer session') (hshown : Shown answer result) :
      ModernWork s context task result said (settleModern context answer session' s)

section Eras

variable (env : Outside) (reason : String → Json → String) (s : Server)

theorem legacySession_does :
    Does s (legacySession env) fun r opened s' =>
      (∃ session, r = .ok session ∧ Held s opened session s') ∨
        ∃ failure, r = .error failure ∧ s.legacySession = none ∧ Unconnected s opened s' := by
  unfold legacySession
  refine server_bind ?_
  cases hlive : s.legacySession with
  | some session => exact Does.pure (.inl ⟨session, rfl, .live hlive⟩)
  | none =>
    refine Does.bind (connectSeat_does env s) (fun seat opened s₁ hF => ?_) fun e opened s₁ hF => ?_
    · rcases hF with ⟨seat', heq, hconnected⟩ | ⟨failure, heq, -⟩
      · obtain rfl := Except.ok.inj heq
        exact session_bind (modify_bind (Does.pure (.inl ⟨_, rfl, .made hlive hconnected⟩)))
      · exact absurd heq (by simp)
    · rcases hF with ⟨seat', heq, -⟩ | ⟨failure, heq, hunconnected⟩
      · exact absurd heq (by simp)
      · exact .inr ⟨failure, by rw [Except.error.inj heq], rfl, hunconnected⟩

/-- A tool on the legacy session: `R` relates the answer of the provider to the result of the tool. -/
theorem legacyWork_does {α : Type} {task : Task}
    {R : Option (Except SeatError Response) → Except ProviderFailure α → Prop} {display : α → ToolResult}
    {work : ProviderSession →
      ServerM ProviderFailure (Except ProviderFailure α × ProviderSession)}
    {conclude : Except ProviderFailure α → ServerM ProviderFailure α}
    (hrecovered : s.legacyRecoveryRequired = true → task = .call .seatStatus)
    (hwork : ∀ session s₁, Does s₁ (work session) fun r said s' => s' = s₁ ∧
      ∃ answer result session', r = .ok (result, session') ∧
        Worked session task said answer session' ∧ R answer result)
    (hconclude : ∀ answer result session' s₁, R answer result →
      Does { s₁ with legacySession := some session' } (conclude result) fun r said s' =>
        said = [] ∧ s' = settleLegacy task answer session' s₁ ∧ Shown answer (r.map display)) :
    Does s (do
      let session ← legacySession env
      let answer ← work session
      modify fun s => { s with legacySession := some answer.2 }
      conclude answer.1) fun r said s' => LegacyWork s task (r.map display) said s' := by
  refine Does.bind (legacySession_does env s) (fun session opened s₁ hF => ?_)
    fun e opened s₁ hF => ?_
  · rcases hF with ⟨session', heq, hheld⟩ | ⟨failure, heq, -⟩
    · obtain rfl := Except.ok.inj heq
      refine Does.bind (hwork session s₁) (fun a said s₂ hF => modify_bind ?_) fun e said s₂ hF => ?_
      · obtain ⟨rfl, answer, result, session', heq, hworked, hR⟩ := hF
        obtain rfl := Except.ok.inj heq
        refine (hconclude answer result session' s₂ hR).post fun r more s₃ hF => ?_
        obtain ⟨rfl, rfl, hshown⟩ := hF
        rw [List.append_nil]
        exact .worked hrecovered hheld hworked hshown
      · obtain ⟨-, answer, result, session', heq, -⟩ := hF
        exact absurd heq (by simp)
    · exact absurd heq (by simp)
  · rcases hF with ⟨session', heq, -⟩ | ⟨failure, heq, hnone, hunconnected⟩
    · exact absurd heq (by simp)
    · exact .unconnected hnone hunconnected e

/-- A tool on the session of a context. -/
theorem modernWork_does {α : Type} {task : Task} {context : Nat} {session : ProviderSession}
    {R : Option (Except SeatError Response) → Except ProviderFailure α → Prop} {display : α → ToolResult}
    {work : ServerM ProviderFailure (Except ProviderFailure α × ProviderSession)}
    {conclude : Except ProviderFailure α → ServerM ProviderFailure α}
    (hsession : s.modernContexts.get context = some session)
    (hwork : Does s work fun r said s' => s' = s ∧
      ∃ answer result session', r = .ok (result, session') ∧
        Worked session task said answer session' ∧ R answer result)
    (hconclude : ∀ answer result session', R answer result →
      Does { s with modernContexts := s.modernContexts.set context session' } (conclude result)
        fun r said s' => said = [] ∧ s' = settleModern context answer session' s ∧
          Shown answer (r.map display)) :
    Does s (do
      let answer ← work
      modify fun s => { s with modernContexts := s.modernContexts.set context answer.2 }
      conclude answer.1) fun r said s' => ModernWork s context task (r.map display) said s' := by
  refine Does.bind hwork (fun a said s₂ hF => modify_bind ?_) fun e said s₂ hF => ?_
  · obtain ⟨rfl, answer, result, session', heq, hworked, hR⟩ := hF
    obtain rfl := Except.ok.inj heq
    refine (hconclude answer result session' hR).post fun r more s₃ hF => ?_
    obtain ⟨rfl, rfl, hshown⟩ := hF
    rw [List.append_nil]
    exact .worked hsession hworked hshown
  · obtain ⟨-, answer, result, session', heq, -⟩ := hF
    exact absurd heq (by simp)

/-- The answer of the provider to a call and the outcome of the call. -/
def Results (answer : Option (Except SeatError Response)) (result : Except ProviderFailure Outcome) :
    Prop :=
  ∃ given, answer = some given ∧ result = (given.map Response.outcome).mapError providerFailure

theorem dropContext_set (context : Nat) (session : ProviderSession) (s : Server) :
    dropContext context { s with modernContexts := s.modernContexts.set context session } =
      dropContext context s := by
  have hentries : Assoc.erase context (Assoc.set context session s.modernContexts.entries) =
      Assoc.erase context s.modernContexts.entries := by
    unfold Assoc.erase Assoc.set
    induction s.modernContexts.entries with
    | nil => rfl
    | cons entry rest ih =>
      by_cases h : entry.1 = context
      · rw [List.map_cons, if_pos h, List.filter_cons_of_neg (by simp),
          List.filter_cons_of_neg (by simp [h]), ih]
      · rw [List.map_cons, if_neg h, List.filter_cons_of_pos (by simp [h]),
          List.filter_cons_of_pos (by simp [h]), ih]
  unfold dropContext Contexts.remove Contexts.set
  dsimp only
  rw [hentries]

theorem callSeat_works {ε : Type} (session : ProviderSession) (call : Call) :
    Does s (callSeat env session call : ServerM ε _) fun r said s' => s' = s ∧
      ∃ answer result session', r = .ok (result, session') ∧
        Worked session (.call call) said answer session' ∧ Results answer result := by
  refine (callSeat_does env session call).post fun r said s' hF => ?_
  obtain ⟨hs, answer, session', heq, hcalled, hsession⟩ := hF
  refine ⟨hs, some answer, _, session', heq, ?_, answer, rfl, rfl⟩
  rw [hsession]
  exact .call hcalled

theorem concludeLegacy_does (call : Call) {answer : Option (Except SeatError Response)}
    {result : Except ProviderFailure Outcome} (session : ProviderSession) (h : Results answer result) :
    Does { s with legacySession := some session } (concludeLegacy (isStatus call) result)
      fun r said s' => said = [] ∧ s' = settleLegacy (.call call) answer session s ∧
        Shown answer (r.map toolOutcome) := by
  obtain ⟨given, rfl, rfl⟩ := h
  cases given with
  | error error => exact modify_bind (Does.fail ⟨rfl, rfl, _, rfl⟩)
  | ok response =>
    show Does _ (concludeLegacy (isStatus call) (.ok response.outcome)) _
    unfold concludeLegacy
    dsimp only
    by_cases hends : outcomeRequiresReconnect response.outcome = true
    · rw [if_pos hends]
      refine modify_bind (Does.pure ⟨rfl, ?_, rfl⟩)
      rw [settleLegacy, ends, if_pos hends]
      rfl
    · rw [if_neg hends]
      have hsettle : settleLegacy (.call call) (some (.ok response)) session s =
          { s with
            legacySession := some session
            legacyRecoveryRequired :=
              s.legacyRecoveryRequired && !(isStatus call && isOk response.outcome) } := by
        rw [settleLegacy, ends, if_neg hends]
        rfl
      by_cases hstatus : (isStatus call && isOk response.outcome) = true
      · rw [if_pos hstatus]
        refine modify_bind (Does.pure ⟨rfl, ?_, rfl⟩)
        rw [hsettle, hstatus, Bool.not_true, Bool.and_false]
      · rw [if_neg hstatus]
        refine Does.pure ⟨rfl, ?_, rfl⟩
        rw [hsettle, (Bool.not_eq_true _).mp hstatus, Bool.not_false, Bool.and_true]

theorem concludeModern_does (context : Nat) {answer : Option (Except SeatError Response)}
    {result : Except ProviderFailure Outcome} (session : ProviderSession) (h : Results answer result) :
    Does { s with modernContexts := s.modernContexts.set context session }
      (concludeModern context result) fun r said s' => said = [] ∧
        s' = settleModern context answer session s ∧ Shown answer (r.map toolOutcome) := by
  obtain ⟨given, rfl, rfl⟩ := h
  cases given with
  | error error =>
    exact modify_bind (Does.fail ⟨rfl, dropContext_set context session s, _, rfl⟩)
  | ok response =>
    show Does _ (concludeModern context (.ok response.outcome)) _
    unfold concludeModern
    dsimp only
    by_cases hends : outcomeRequiresReconnect response.outcome = true
    · rw [if_pos hends]
      refine modify_bind (Does.pure ⟨rfl, ?_, rfl⟩)
      rw [settleModern, ends, if_pos hends, dropContext_set]
    · rw [if_neg hends]
      refine Does.pure ⟨rfl, ?_, rfl⟩
      rw [settleModern, ends, if_neg hends]

theorem concludeLegacySlot_does {name : String} {arguments : Json}
    {answer : Option (Except SeatError Response)} {result : Except ProviderFailure ToolResult}
    (session : ProviderSession) (h : Reports answer result) :
    Does { s with legacySession := some session } (concludeLegacySlot result)
      fun r said s' => said = [] ∧ s' = settleLegacy (.slot name arguments) answer session s ∧
        Shown answer (r.map id) := by
  have hsettle (b : Bool) (hends : ends answer = b) :
      settleLegacy (.slot name arguments) answer session s =
        if b then dropLegacy s else { s with legacySession := some session } := by
    have hstatus : statusOk (.slot name arguments) answer = false := rfl
    rw [settleLegacy, hends, hstatus, Bool.not_false, Bool.and_true]
  match answer, result, h with
  | some (.error error), _, ⟨failure, rfl⟩ =>
    exact modify_bind (Does.fail ⟨rfl, (hsettle true rfl).symm, _, rfl⟩)
  | some (.ok response), _, rfl =>
    unfold concludeLegacySlot
    dsimp only
    rw [toolOutcome_reconnect]
    by_cases hends : outcomeRequiresReconnect response.outcome = true
    · rw [if_pos hends]
      exact modify_bind (Does.pure ⟨rfl, (hsettle true hends).symm, rfl⟩)
    · rw [if_neg hends]
      exact Does.pure ⟨rfl, (hsettle false ((Bool.not_eq_true _).mp hends)).symm, rfl⟩
  | none, _, ⟨shown, rfl, hkeeps⟩ =>
    unfold concludeLegacySlot
    dsimp only
    rw [if_neg (by rw [hkeeps]; decide)]
    exact Does.pure ⟨rfl, (hsettle false rfl).symm, trivial⟩

theorem concludeModernSlot_does (context : Nat) {answer : Option (Except SeatError Response)}
    {result : Except ProviderFailure ToolResult} (session : ProviderSession) (h : Reports answer result) :
    Does { s with modernContexts := s.modernContexts.set context session }
      (concludeModernSlot context result) fun r said s' => said = [] ∧
        s' = settleModern context answer session s ∧ Shown answer (r.map id) := by
  match answer, result, h with
  | some (.error error), _, ⟨failure, rfl⟩ =>
    exact modify_bind (Does.fail ⟨rfl, dropContext_set context session s, _, rfl⟩)
  | some (.ok response), _, rfl =>
    unfold concludeModernSlot
    dsimp only
    rw [toolOutcome_reconnect]
    by_cases hends : outcomeRequiresReconnect response.outcome = true
    · rw [if_pos hends]
      refine modify_bind (Does.pure ⟨rfl, ?_, rfl⟩)
      rw [settleModern, ends, if_pos hends, dropContext_set]
    · rw [if_neg hends]
      refine Does.pure ⟨rfl, ?_, rfl⟩
      rw [settleModern, ends, if_neg hends]
  | none, _, ⟨shown, rfl, hkeeps⟩ =>
    unfold concludeModernSlot
    dsimp only
    rw [if_neg (by rw [hkeeps]; decide)]
    exact Does.pure ⟨rfl, rfl, trivial⟩

theorem providerCallLegacy_does (call : Call) :
    Does s (providerCallLegacy env call) fun r said s' =>
      LegacyWork s (.call call) (r.map toolOutcome) said s' := by
  unfold providerCallLegacy
  refine server_bind ?_
  by_cases hrefused : s.legacyRecoveryRequired && !isStatus call
  · rw [if_pos hrefused]
    exact Does.fail (.refused _)
  · rw [if_neg hrefused]
    refine legacyWork_does env s (fun hrequired => ?_) (fun session s₁ => callSeat_works env s₁ session call)
      fun answer result session' s₁ hresults => concludeLegacy_does s₁ call session' hresults
    cases call <;> simp_all [isStatus]

theorem providerCallModern_does (context : Nat) (call : Call) :
    Does s (providerCallModern env context call) fun r said s' =>
      ModernWork s context (.call call) (r.map toolOutcome) said s' := by
  unfold providerCallModern
  refine server_bind ?_
  cases hsession : s.modernContexts.get context with
  | none => exact Does.fail (.refused _)
  | some session =>
    exact modernWork_does s hsession (callSeat_works env s session call)
      fun answer result session' hresults => concludeModern_does s context session' hresults

theorem pointerSlotLegacy_does (name : String) (arguments : Option Json) :
    Does s (pointerSlotLegacy env reason name arguments) fun r said s' =>
      LegacyWork s (.slot name (arguments.getD (.obj []))) (r.map id) said s' := by
  unfold pointerSlotLegacy
  refine server_bind ?_
  by_cases hrefused : s.legacyRecoveryRequired
  · rw [if_pos hrefused]
    exact Does.fail (.refused _)
  · rw [if_neg hrefused]
    exact legacyWork_does env s (fun hrequired => absurd hrequired hrefused)
      (fun session s₁ => pointerSlotCall_does env reason session name arguments)
      fun answer result session' s₁ hreports => concludeLegacySlot_does s₁ session' hreports

theorem pointerSlotModern_does (context : Nat) (name : String) (arguments : Option Json) :
    Does s (pointerSlotModern env reason context name arguments) fun r said s' =>
      ModernWork s context (.slot name (arguments.getD (.obj []))) (r.map id) said s' := by
  unfold pointerSlotModern
  refine server_bind ?_
  cases hsession : s.modernContexts.get context with
  | none => exact Does.fail (.refused _)
  | some session =>
    exact modernWork_does s hsession (pointerSlotCall_does env reason session name arguments)
      fun answer result session' hreports => concludeModernSlot_does s context session' hreports

/-- A modern status: refused, without a provider, failed on its new session, or with a new context. -/
inductive StatusWork (s : Server) :
    Except ProviderFailure (Nat × Outcome) → List Step → Server → Prop
  | refused (failure : ProviderFailure) : StatusWork s (.error failure) [] s
  | unconnected {said : List Step} {s' : Server} (h : Unconnected s said s') (failure : ProviderFailure) :
      StatusWork s (.error failure) said s'
  | failed {opened said : List Step} {seat seat' : Seat} {s₁ : Server}
      {answer : Except SeatError Response} (hconnected : Connected s opened seat s₁)
      (hcalled : Called seat .seatStatus said answer seat')
      (hfailed : (∃ error, answer = .error error) ∨ checkedSucc s.modernContexts.next = none)
      (failure : ProviderFailure) :
      StatusWork s (.error failure) (opened ++ [.mark (.session seat.conn)] ++ said) s₁
  | created {opened said : List Step} {seat seat' : Seat} {s₁ : Server} {response : Response} {next : Nat}
      (hfull : s.modernContexts.isFull = false) (hconnected : Connected s opened seat s₁)
      (hcalled : Called seat .seatStatus said (.ok response) seat')
      (hnext : checkedSucc s.modernContexts.next = some next) :
      StatusWork s (.ok (s.modernContexts.next, response.outcome))
        (opened ++ [.mark (.session seat.conn)] ++ said)
        { s₁ with modernContexts := ⟨s.modernContexts.limit, next,
            Assoc.insert s.modernContexts.next ⟨seat', []⟩ s.modernContexts.entries⟩ }

theorem Connected.modernContexts {s s' : Server} {said : List Step} {seat : Seat}
    (h : Connected s said seat s') : s'.modernContexts = s.modernContexts := by
  cases h <;> rfl

theorem createModernContext_does : Does s (createModernContext env .seatStatus) (StatusWork s) := by
  unfold createModernContext
  refine server_bind ?_
  cases hfull : s.modernContexts.isFull with
  | true =>
    rw [if_pos rfl]
    exact Does.fail (.refused _)
  | false =>
    rw [if_neg Bool.false_ne_true]
    refine Does.bind (connectSeat_does env s) (fun seat opened s₁ hF => ?_) fun e opened s₁ hF => ?_
    · rcases hF with ⟨seat', heq, hconnected⟩ | ⟨failure, heq, -⟩
      · obtain rfl := Except.ok.inj heq
        refine session_bind (Does.bind (callSeat_does env _ _) (fun a said s₂ hF => ?_)
          fun e said s₂ hF => ?_)
        · obtain ⟨rfl, answer, session', heq, hcalled, hsession⟩ := hF
          obtain rfl := Except.ok.inj heq
          cases answer with
          | error error =>
            refine Does.lift_bind (fun outcome hok => absurd hok (by simp [Except.map, Except.mapError]))
              fun e _ => ?_
            rw [List.append_nil, List.append_cons]
            exact .failed hconnected hcalled (.inl ⟨error, rfl⟩) e
          | ok response =>
            refine Does.lift_bind (fun outcome hok => server_bind ?_)
              fun e herr => absurd herr (by simp [Except.map, Except.mapError])
            obtain rfl := Except.ok.inj hok
            refine Does.lift_bind (fun inserted hinserted => modify_bind (Does.pure ?_))
              fun e hrefused => ?_
            · rw [hconnected.modernContexts, Contexts.insert, hfull, if_neg Bool.false_ne_true] at hinserted
              cases hnext : checkedSucc s.modernContexts.next with
              | none =>
                rw [hnext] at hinserted
                exact absurd hinserted (by simp)
              | some next =>
                rw [hnext] at hinserted
                obtain rfl := Except.ok.inj hinserted
                dsimp only
                rw [List.append_nil, List.append_cons, hsession]
                exact .created hfull hconnected hcalled hnext
            · have hnext : checkedSucc s.modernContexts.next = none := by
                rw [hconnected.modernContexts, Contexts.insert, hfull, if_neg Bool.false_ne_true]
                  at hrefused
                cases hnext : checkedSucc s.modernContexts.next with
                | none => rfl
                | some next =>
                  rw [hnext] at hrefused
                  exact absurd hrefused (by simp)
              rw [List.append_nil, List.append_cons]
              exact .failed hconnected hcalled (.inr hnext) e
        · obtain ⟨-, answer, session', heq, -⟩ := hF
          exact absurd heq (by simp)
      · exact absurd heq (by simp)
    · rcases hF with ⟨seat', heq, -⟩ | ⟨failure, heq, hunconnected⟩
      · exact absurd heq (by simp)
      · exact .unconnected hunconnected e

end Eras

/-! ## Requests -/

/-- What a request asks to be done with a provider. -/
inductive Duty where
  | nothing
  | legacy (task : Task)
  | modern (context : Nat) (task : Task)
  | status
  | release (context : Nat)

/-- A request that gets no answer. -/
def isNotification (request : RpcRequest) : Bool :=
  request.method = "notifications/initialized" || request.method = "notifications/cancelled" ||
    request.id.isNone

/-- A request of the modern era. -/
def isModern (request : RpcRequest) : Bool :=
  hasModernVersion request.params || request.method = "server/discover"

def outcomeOf : Except ProviderFailure ToolResult → ToolResult
  | .ok result => result
  | .error error => failureResult error

def statusOutcome : Except ProviderFailure (Nat × Outcome) → ToolResult
  | .ok (context, outcome) => (toolOutcome outcome).withContext context
  | .error error => failureResult error

/-- A response to the request of an identity. -/
inductive Answers (id : Json) : Json → Prop
  | result (result : Json) : Answers id (resultLine id result)
  | error (code : Int) (message : String) (data : List (String × Json)) :
      Answers id (errorLineWith id code message data)

/-- Only the progress of the legacy opening differs. -/
def SameSessions (s s' : Server) : Prop :=
  ∃ negotiated initialized,
    s' = { s with legacyNegotiated := negotiated, legacyInitialized := initialized }

section Requests

variable (reason : String → Json → String)

def legacyDuty (params : Json) : Duty :=
  match CallToolParams.read params with
  | none => .nothing
  | some params =>
    if isPointerSlotTool params.name then .legacy (.slot params.name (params.arguments.getD (.obj [])))
    else
      match translateCall reason params.name params.arguments with
      | .error _ => .nothing
      | .ok call => .legacy (.call call)

def modernDuty (params : Json) : Duty :=
  match CallToolParams.read params with
  | none => .nothing
  | some params =>
    match takeContext params.arguments with
    | .error _ => .nothing
    | .ok (context, arguments) =>
      if params.name = "seat_release" then
        if (arguments.bind asObject).any fun members => !members.isEmpty then .nothing
        else context.elim .nothing .release
      else if params.name = "seat_status" then .status
      else if isPointerSlotTool params.name then
        context.elim .nothing fun context => .modern context (.slot params.name (arguments.getD (.obj [])))
      else
        match translateCall reason params.name arguments with
        | .error _ => .nothing
        | .ok call => context.elim .nothing fun context => .modern context (.call call)

def dutyOf (request : RpcRequest) : Duty :=
  if isNotification request || request.method ≠ "tools/call" then .nothing
  else if isModern request then
    match validateModernMetadata request.params with
    | .error _ => .nothing
    | .ok _ => modernDuty reason request.params
  else legacyDuty reason request.params

/-- The ways of a request. -/
inductive Turned (s : Server) (request : RpcRequest) : List Step → Server → Prop
  | silent (h : isNotification request = true) {s' : Server} (hs : SameSessions s s') :
      Turned s request [] s'
  | spoke (h : isNotification request = false) {id line : Json} (hid : request.id = some id)
      (hduty : ∀ context, dutyOf reason request ≠ .release context)
      (hline : Answers id line) {s' : Server} (hs : SameSessions s s') :
      Turned s request [.mark (.wrote line)] s'
  | legacy (h : isNotification request = false) {id : Json} (hid : request.id = some id)
      {task : Task} (hduty : dutyOf reason request = .legacy task)
      {result : Except ProviderFailure ToolResult} {said : List Step} {s' : Server}
      (hwork : LegacyWork s task result said s') :
      Turned s request (said ++ [.mark (.wrote (resultLine id (outcomeOf result).json))]) s'
  | modern (h : isNotification request = false) {id : Json} (hid : request.id = some id)
      {context : Nat} {task : Task} (hduty : dutyOf reason request = .modern context task)
      {result : Except ProviderFailure ToolResult} {said : List Step} {s' : Server}
      (hwork : ModernWork s context task result said s') :
      Turned s request
        (said ++ [.mark (.wrote (resultLine id (modernToolResult (outcomeOf result))))]) s'
  | status (h : isNotification request = false) {id : Json} (hid : request.id = some id)
      (hduty : dutyOf reason request = .status)
      {result : Except ProviderFailure (Nat × Outcome)} {said : List Step} {s' : Server}
      (hwork : StatusWork s result said s') :
      Turned s request
        (said ++ [.mark (.wrote (resultLine id (modernToolResult (statusOutcome result))))]) s'
  | released (h : isNotification request = false) {id line : Json} (hid : request.id = some id)
      {context : Nat} (hduty : dutyOf reason request = .release context) (hline : Answers id line)
      (hlive : (s.modernContexts.get context).isSome = true) :
      Turned s request [.mark (.wrote line)] (dropContext context s)
  | unknown (h : isNotification request = false) {id line : Json} (hid : request.id = some id)
      {context : Nat} (hduty : dutyOf reason request = .release context) (hline : Answers id line)
      (hnone : s.modernContexts.get context = none) : Turned s request [.mark (.wrote line)] s

theorem SameSessions.refl (s : Server) : SameSessions s s := ⟨_, _, rfl⟩

theorem dutyOf_legacy {request : RpcRequest} (h : isNotification request = false)
    (hmethod : request.method = "tools/call") (hmodern : isModern request = false) :
    dutyOf reason request = legacyDuty reason request.params := by
  rw [dutyOf, if_neg (by rw [h, hmethod]; decide), if_neg (by rw [hmodern]; decide)]

theorem dutyOf_modern {request : RpcRequest} (h : isNotification request = false)
    (hmethod : request.method = "tools/call") (hmodern : isModern request = true)
    (hvalid : validateModernMetadata request.params = .ok ()) :
    dutyOf reason request = modernDuty reason request.params := by
  rw [dutyOf, if_neg (by rw [h, hmethod]; decide), if_pos hmodern, hvalid]

theorem dutyOf_other {request : RpcRequest} (hmethod : request.method ≠ "tools/call") (context : Nat) :
    dutyOf reason request ≠ .release context := by
  rw [dutyOf, if_pos (by simp [hmethod])]
  simp

theorem dutyOf_invalid {request : RpcRequest} {error : ModernMetadataError}
    (hmodern : isModern request = true) (hvalid : validateModernMetadata request.params = .error error)
    (context : Nat) : dutyOf reason request ≠ .release context := by
  rw [dutyOf, if_pos hmodern, hvalid]
  split <;> simp

theorem dutyOf_legacy_other {request : RpcRequest} (h : isNotification request = false)
    (hmodern : isModern request = false) (context : Nat) :
    dutyOf reason request ≠ .release context := by
  by_cases hmethod : request.method = "tools/call"
  · rw [dutyOf_legacy reason h hmethod hmodern]
    unfold legacyDuty
    cases CallToolParams.read request.params with
    | none => simp
    | some params =>
      dsimp only
      split
      · simp
      · split <;> simp
  · exact dutyOf_other reason hmethod context

/-- The call of a modern status. -/
theorem translateCall_status {arguments : Option Json} {call : Call}
    (h : translateCall reason "seat_status" arguments = .ok call) : call = .seatStatus := by
  unfold translateCall callOf readArguments at h
  cases hread : Schema.empty.decode .stream (arguments.getD (.obj [])) with
  | none =>
    rw [hread] at h
    exact absurd h (by simp [bind, Except.bind])
  | some u =>
    rw [hread] at h
    exact (Except.ok.inj h).symm

variable (env : Outside) {s : Server} {request : RpcRequest} {id : Json}

theorem attempt_write {α : Type} {m : ServerM ProviderFailure α} {line : Except ProviderFailure α → Json}
    {W : Except ProviderFailure α → List Step → Server → Prop}
    {F : Except Empty Unit → List Step → Server → Prop} (hm : Does s m W)
    (h : ∀ result said s', W result said s' →
      F (.ok ()) (said ++ [.mark (.wrote (line result))]) s') :
    Does s (Prog.attempt m >>= fun result => writeLine (line result)) F := by
  refine Does.bind (hm.attempt (G := fun r said s' => ∃ result, r = .ok result ∧ W result said s')
    fun result said s' hW => ⟨result, rfl, hW⟩) (fun a said s' hF => Does.write ?_) fun e => e.elim
  obtain ⟨result, heq, hW⟩ := hF
  obtain rfl := Except.ok.inj heq
  exact h _ said s' hW

variable (hanswer : isNotification request = false) (hid : request.id = some id)

include hanswer hid

theorem writeLine_turned (hduty : ∀ context, dutyOf reason request ≠ .release context) {line : Json}
    {s' : Server} (hline : Answers id line) (hs : SameSessions s s') :
    Does s' (writeLine line) fun _ said s'' => Turned reason s request said s'' :=
  Does.write (.spoke hanswer hid hduty hline hs)

theorem writeError_turned (hduty : ∀ context, dutyOf reason request ≠ .release context) (code : Int)
    (message : String) :
    Does s (writeError id code message) fun _ said s' => Turned reason s request said s' :=
  writeLine_turned reason hanswer hid hduty (.error code message []) (SameSessions.refl s)

theorem writeResult_turned (hduty : ∀ context, dutyOf reason request ≠ .release context)
    (result : Json) :
    Does s (writeResult id result) fun _ said s' => Turned reason s request said s' :=
  writeLine_turned reason hanswer hid hduty (.result result) (SameSessions.refl s)

theorem callToolLegacy_turned (hmethod : request.method = "tools/call")
    (hmodern : isModern request = false) :
    Does s (callToolLegacy env reason id request.params) fun _ said s' =>
      Turned reason s request said s' := by
  have hduty := dutyOf_legacy reason hanswer hmethod hmodern
  have hother := dutyOf_legacy_other reason hanswer hmodern
  unfold legacyDuty at hduty
  unfold callToolLegacy
  cases hread : CallToolParams.read request.params with
  | none => exact writeError_turned reason hanswer hid hother _ _
  | some params =>
    rw [hread] at hduty
    dsimp only at hduty ⊢
    by_cases hslot : isPointerSlotTool params.name = true
    · rw [if_pos hslot] at hduty ⊢
      refine attempt_write (pointerSlotLegacy_does env reason s params.name params.arguments)
        fun result said s' hwork => ?_
      have hturned := Turned.legacy hanswer hid hduty hwork
      cases result with
      | ok shown => exact hturned
      | error failure => exact hturned
    · rw [if_neg hslot] at hduty ⊢
      cases htranslate : translateCall reason params.name params.arguments with
      | error error =>
        cases error with
        | unknownTool => exact writeError_turned reason hanswer hid hother _ _
        | arguments message => exact writeResult_turned reason hanswer hid hother _
      | ok call =>
        rw [htranslate] at hduty
        refine attempt_write (providerCallLegacy_does env s call) fun result said s' hwork => ?_
        have hturned := Turned.legacy hanswer hid hduty hwork
        cases result with
        | ok outcome => exact hturned
        | error failure => exact hturned

theorem seatRelease_turned {context : Option Nat} {arguments : Option Json}
    (hduty : dutyOf reason request =
      if (arguments.bind asObject).any fun members => !members.isEmpty then .nothing
      else context.elim .nothing .release) :
    Does s (seatRelease id context arguments) fun _ said s' => Turned reason s request said s' := by
  unfold seatRelease
  by_cases hmembers : ((arguments.bind asObject).any fun members => !members.isEmpty) = true
  · rw [if_pos hmembers] at hduty ⊢
    exact writeResult_turned reason hanswer hid (by simp [hduty]) _
  · rw [if_neg hmembers] at hduty ⊢
    refine server_bind ?_
    cases context with
    | none =>
      rw [Option.elim_none] at hduty
      exact writeResult_turned reason hanswer hid (by simp [hduty]) _
    | some context =>
      dsimp only
      by_cases hlive : (s.modernContexts.get context).isSome = true
      · rw [if_pos hlive]
        exact modify_bind (Does.write (.released hanswer hid hduty (.result _) hlive))
      · rw [if_neg hlive]
        exact Does.write (.unknown hanswer hid hduty (.result _) (Option.not_isSome_iff_eq_none.mp hlive))

theorem writeModernCallError_turned (hduty : ∀ context, dutyOf reason request ≠ .release context)
    (error : CallError) :
    Does s (writeModernCallError id error) fun _ said s' => Turned reason s request said s' := by
  cases error with
  | unknownTool => exact writeError_turned reason hanswer hid hduty _ _
  | arguments message => exact writeResult_turned reason hanswer hid hduty _

theorem seatStatusModern_turned (context : Option Nat) (arguments : Option Json)
    (hduty : dutyOf reason request = .status) :
    Does s (seatStatusModern env reason id context arguments) fun _ said s' =>
      Turned reason s request said s' := by
  have hother : ∀ context, dutyOf reason request ≠ .release context := by simp [hduty]
  unfold seatStatusModern
  split
  · exact writeResult_turned reason hanswer hid hother _
  · cases htranslate : translateCall reason "seat_status" arguments with
    | error error => exact writeModernCallError_turned reason hanswer hid hother error
    | ok call =>
      obtain rfl := translateCall_status reason htranslate
      refine attempt_write (createModernContext_does env s) fun result said s' hwork => ?_
      have hturned := Turned.status hanswer hid hduty hwork
      cases result with
      | ok opened => exact hturned
      | error failure => exact hturned

theorem callToolModern_turned
    (hduty : dutyOf reason request = modernDuty reason request.params) :
    Does s (callToolModern env reason id request.params) fun _ said s' =>
      Turned reason s request said s' := by
  unfold modernDuty at hduty
  unfold callToolModern
  cases hread : CallToolParams.read request.params with
  | none =>
    rw [hread] at hduty
    exact writeError_turned reason hanswer hid (by simp [hduty]) _ _
  | some params =>
    rw [hread] at hduty
    dsimp only at hduty ⊢
    cases htake : takeContext params.arguments with
    | error message =>
      rw [htake] at hduty
      exact writeResult_turned reason hanswer hid (by simp [hduty]) _
    | ok taken =>
      obtain ⟨context, arguments⟩ := taken
      rw [htake] at hduty
      dsimp only at hduty ⊢
      by_cases hrelease : params.name = "seat_release"
      · rw [if_pos hrelease] at hduty ⊢
        exact seatRelease_turned reason hanswer hid hduty
      · rw [if_neg hrelease] at hduty ⊢
        by_cases hstatus : params.name = "seat_status"
        · rw [if_pos hstatus] at hduty ⊢
          exact seatStatusModern_turned reason env hanswer hid context arguments hduty
        · rw [if_neg hstatus] at hduty ⊢
          by_cases hslot : isPointerSlotTool params.name = true
          · rw [if_pos hslot] at hduty ⊢
            cases context with
            | none =>
              rw [Option.elim_none] at hduty
              exact writeResult_turned reason hanswer hid (by simp [hduty]) _
            | some context =>
              refine attempt_write (pointerSlotModern_does env reason s context params.name arguments)
                fun result said s' hwork => ?_
              have hturned := Turned.modern hanswer hid hduty hwork
              cases result with
              | ok shown => exact hturned
              | error failure => exact hturned
          · rw [if_neg hslot] at hduty ⊢
            cases htranslate : translateCall reason params.name arguments with
            | error error =>
              rw [htranslate] at hduty
              exact writeModernCallError_turned reason hanswer hid (by simp [hduty]) error
            | ok call =>
              rw [htranslate] at hduty
              dsimp only at hduty
              cases context with
              | none =>
                rw [Option.elim_none] at hduty
                exact writeResult_turned reason hanswer hid (by simp [hduty]) _
              | some context =>
                refine attempt_write (providerCallModern_does env s context call)
                  fun result said s' hwork => ?_
                have hturned := Turned.modern hanswer hid hduty hwork
                cases result with
                | ok outcome => exact hturned
                | error failure => exact hturned

theorem listTools_turned (hduty : ∀ context, dutyOf reason request ≠ .release context) (params : Json)
    (era : Era) :
    Does s (listTools id params era) fun _ said s' => Turned reason s request said s' := by
  unfold listTools
  split
  · exact writeResult_turned reason hanswer hid hduty _
  · exact writeError_turned reason hanswer hid hduty _ _

theorem handleModern_turned (hmodern : isModern request = true) :
    Does s (handleModern env reason id request.method request.params) fun _ said s' =>
      Turned reason s request said s' := by
  unfold handleModern
  cases hvalid : validateModernMetadata request.params with
  | error error =>
    have hother := dutyOf_invalid reason hmodern hvalid
    cases error with
    | invalid => exact writeError_turned reason hanswer hid hother _ _
    | unsupported requested =>
      exact writeLine_turned reason hanswer hid hother (.error _ _ _) (SameSessions.refl s)
  | ok u =>
    by_cases hmethod : request.method = "tools/call"
    · rw [hmethod]
      exact callToolModern_turned reason env hanswer hid
        (dutyOf_modern reason hanswer hmethod hmodern hvalid)
    · have hother := dutyOf_other reason hmethod
      dsimp only
      split
      · unfold discover
        split
        · exact writeError_turned reason hanswer hid hother _ _
        · exact writeResult_turned reason hanswer hid hother _
      · exact listTools_turned reason hanswer hid hother _ _
      · exact absurd ‹_› hmethod
      · exact writeError_turned reason hanswer hid hother _ _

theorem handleLegacy_turned (hmodern : isModern request = false) :
    Does s (handleLegacy env reason id request.method request.params) fun _ said s' =>
      Turned reason s request said s' := by
  have hother := dutyOf_legacy_other reason hanswer hmodern
  unfold handleLegacy
  refine server_bind ?_
  split
  · exact writeResult_turned reason hanswer hid hother _
  · split
    · exact listTools_turned reason hanswer hid hother _ _
    · exact writeError_turned reason hanswer hid hother _ _
  · rename_i hmethod
    split
    · exact callToolLegacy_turned reason env hanswer hid hmethod hmodern
    · exact writeError_turned reason hanswer hid hother _ _
  · exact writeError_turned reason hanswer hid hother _ _

theorem initializeLegacy_turned (hmethod : request.method = "initialize") :
    Does s (initializeLegacy id request.params) fun _ said s' => Turned reason s request said s' := by
  have hmethod' : request.method ≠ "tools/call" := by
    rw [hmethod]
    decide
  have hother := dutyOf_other reason hmethod'
  unfold initializeLegacy
  refine server_bind ?_
  split
  · exact writeError_turned reason hanswer hid hother _ _
  · split
    · exact writeError_turned reason hanswer hid hother _ _
    · split
      · exact writeError_turned reason hanswer hid hother _ _
      · exact modify_bind (writeLine_turned reason hanswer hid hother (.result _) ⟨_, _, rfl⟩)

omit hanswer hid in
/-- Every request goes one of these ways, whatever the outside does. -/
theorem handle_turned (request : RpcRequest) :
    Does s (handle env reason request) fun _ said s' => Turned reason s request said s' := by
  unfold handle
  by_cases hready : request.method = "notifications/initialized"
  · rw [if_pos hready]
    refine modify_does (F := fun _ said s' => Turned reason s request said s')
      (.silent (by rw [isNotification, hready]; rfl) ?_)
    split
    · exact ⟨_, _, rfl⟩
    · exact SameSessions.refl s
  · rw [if_neg hready]
    by_cases hcancelled : request.method = "notifications/cancelled"
    · rw [if_pos hcancelled]
      exact Does.pure (.silent (by rw [isNotification, hcancelled]; rfl) (SameSessions.refl s))
    · rw [if_neg hcancelled]
      cases hid : request.id with
      | none => exact Does.pure (.silent (by simp [isNotification, hid]) (SameSessions.refl s))
      | some id =>
        have hanswer : isNotification request = false := by
          simp [isNotification, hready, hcancelled, hid]
        dsimp only
        by_cases hinitialize : request.method = "initialize"
        · rw [if_pos hinitialize]
          exact initializeLegacy_turned reason hanswer hid hinitialize
        · rw [if_neg hinitialize]
          by_cases hmodern : isModern request = true
          · rw [if_pos (by exact hmodern)]
            exact handleModern_turned reason env hanswer hid hmodern
          · rw [if_neg (by exact hmodern)]
            exact handleLegacy_turned reason env hanswer hid ((Bool.not_eq_true _).mp hmodern)

end Requests

end AgentSeat.Companion
