/-
  The action boundary of input over whole sessions.

  The provider of a session is the host of `Provider.Calls`, its outside everything but the peer:
  the X server with its other clients, the window manager, the operator and the launcher. What one
  call keeps (`markedCall_lawful`) every sequence of calls keeps.

  Main result:
  * `input_action_boundary`: an XTEST event of a session stands in a server grab that warrants it,
    under the permit of the session and for a call the session invoked.
-/
import AgentSeat.Provider.Host
import AgentSeat.Session.Conversation
import AgentSeat.Session.Plain

namespace AgentSeat.Session

open AgentSeat.Lib AgentSeat.Proto AgentSeat.Provider AgentSeat.Seat

/-- A host without an observer. -/
def freshHost : Host := ⟨none, []⟩

/-- The permit of a session that invoked its provider is the one of its calls. -/
theorem Talk.permit {P : Type} {provider : Provides P} {config : Config} {session : SessionId}
    {context : SessionContext} {trace : List Step}
    (h : Talk provider config session context trace) (hinvoked : invocations trace ≠ []) :
    sessionPermit trace = some context.permit := by
  cases h with
  | shut h => exact (hinvoked (invocations_said h.1)).elim
  | unwelcomed admits hbefore hafter error =>
    unfold sessionPermit
    rw [(prelude_read hbefore _ _).2.2.2]
    exact admits.permit_eq
  | welcomed admits hbefore hafter hserved =>
    unfold sessionPermit
    rw [(prelude_read hbefore _ _).2.2.2]
    exact admits.permit_eq

section Host

variable (outside : Outside) (context : SessionContext)

theorem invokeAll_lawful (calls : List Proto.Call) (h : Host)
    (lawful : Lawful context.permit h.trace) :
    Lawful context.permit (invokeAll (markedCall outside) context calls h).trace := by
  induction calls generalizing h with
  | nil => exact lawful
  | cons call rest ih => exact ih _ (markedCall_lawful outside context call h lawful)

theorem invokeAll_began {calls : List Proto.Call} {h : Host} {begun : Proto.Call}
    (hmem : .mark (.began begun) ∈ (invokeAll (markedCall outside) context calls h).trace) :
    .mark (.began begun) ∈ h.trace ∨ begun ∈ calls := by
  induction calls generalizing h with
  | nil => exact .inl hmem
  | cons call rest ih =>
    rcases ih hmem with hmem | hmem
    · rcases markedCall_began outside context hmem with hmem | rfl
      · exact .inl hmem
      · exact .inr (List.mem_cons_self ..)
    · exact .inr (List.mem_cons_of_mem _ hmem)

end Host

/-- What a session's host said, from its start. -/
def hostTrace (env : Peer) (outside : Outside) (config : Config) (session : SessionId)
    (patience : Nat) : List Provider.Step :=
  (run env (markedCall outside) config session patience ⟨freshHost, []⟩).2.state.trace

/-- The host of a session after the calls the session invoked, all in one context. -/
theorem run_invokes (env : Peer) (outside : Outside) (config : Config) (session : SessionId)
    (patience : Nat) :
    ∃ context,
      (invocations (conversation env (markedCall outside) config session patience freshHost) ≠ [] →
        sessionPermit (conversation env (markedCall outside) config session patience freshHost) =
          some context.permit) ∧
      (run env (markedCall outside) config session patience ⟨freshHost, []⟩).2.state =
        invokeAll (markedCall outside) context
          (invocations (conversation env (markedCall outside) config session patience freshHost))
          freshHost := by
  obtain ⟨added, context, htalk, hrun⟩ :=
    run_talk env (markedCall outside) config session patience ⟨freshHost, []⟩
  have htrace : conversation env (markedCall outside) config session patience freshHost = added := by
    unfold conversation
    rw [hrun]
    rfl
  rw [htrace, hrun]
  exact ⟨context, htalk.permit, rfl⟩

/-- For any peer, gate, X server and window manager: an XTEST event of a session is emitted in a
    server grab, in which before it the model was refreshed and the target of the call matched, the
    focus or the destination belonged to it, the whole stroke was resolved against the map read
    there, and the gate accepted the permit of the session (`Warrant`). The call is one the session
    invoked; a text call had found all of its text typable first. -/
theorem input_action_boundary (env : Peer) (outside : Outside) (config : Config)
    (session : SessionId) (patience : Nat) (pre : List Provider.Step) (event : XTestEvent)
    (answer : Provider.Question.Answer (.fakeInput event)) (post : List Provider.Step)
    (emitted : hostTrace env outside config session patience =
      pre ++ .said (.fakeInput event) answer :: post) :
    ∃ permit call since grab,
      sessionPermit (conversation env (markedCall outside) config session patience freshHost) =
        some permit ∧
      call ∈ invocations (conversation env (markedCall outside) config session patience freshHost) ∧
      current pre = some (call, since) ∧ hold pre = some grab ∧
      Warrant permit since grab event call := by
  obtain ⟨context, hpermit, hstate⟩ := run_invokes env outside config session patience
  unfold hostTrace at emitted
  rw [hstate] at emitted
  have hlawful := invokeAll_lawful outside context
    (invocations (conversation env (markedCall outside) config session patience freshHost))
    freshHost (fun pre event answer post hsplit => by simp [freshHost] at hsplit)
  obtain ⟨call, since, grab, hcurrent, hgrab, hwarrant⟩ := hlawful pre event answer post emitted
  have hcall : call ∈
      invocations (conversation env (markedCall outside) config session patience freshHost) := by
    have hbegun : .mark (.began call) ∈ (invokeAll (markedCall outside) context
        (invocations (conversation env (markedCall outside) config session patience freshHost))
        freshHost).trace := by
      rw [emitted]
      exact List.mem_append_left _ (mem_of_current hcurrent)
    rcases invokeAll_began outside context hbegun with hnone | hcall
    · simp [freshHost] at hnone
    · exact hcall
  exact ⟨context.permit, call, since, grab, hpermit (List.ne_nil_of_mem hcall), hcall, hcurrent,
    hgrab, hwarrant⟩

/-- The XTEST events of a trace. -/
def emitted (trace : List Provider.Step) : List XTestEvent :=
  trace.filterMap fun
    | .said (.fakeInput event) _ => some event
    | _ => none

theorem split_of_emitted {trace : List Provider.Step} {event : XTestEvent}
    (h : event ∈ emitted trace) :
    ∃ pre answer post, trace = pre ++ .said (.fakeInput event) answer :: post := by
  obtain ⟨e, he, hevent⟩ := List.mem_filterMap.mp h
  obtain ⟨pre, post, rfl⟩ := List.append_of_mem he
  cases e with
  | mark m => simp at hevent
  | said q a =>
    cases q with
    | fakeInput event' =>
      cases Option.some.inj hevent
      exact ⟨pre, a, post, rfl⟩
    | _ => simp at hevent

/-- The host of a session in which a peer moves the pointer onto the only window. -/
def movingTrace : List Provider.Step :=
  hostTrace (plainPeer 1000 1 [.hello (helloFor ⟨[.observeStructure, .inputPointer], by decide⟩),
      .request ⟨⟨1, by decide⟩, .pointerMove ⟨⟨⟨1, by decide⟩, 0⟩, 5, 5⟩⟩])
    (plainOutside 1 fun _ => ⟨0, [⟨10, 0, 20⟩], 10⟩)
    (plainConfig 1000 ⟨[.observeStructure, .inputPointer], by decide⟩) ⟨1, by decide⟩ 0

/-- The motion of that session was emitted in a grab that warranted it. -/
theorem input_action_boundary_move :
    emitted movingTrace = [⟨.motionNotify, 0, 5, 5⟩] ∧
    ∃ pre answer post, movingTrace = pre ++ .said (.fakeInput ⟨.motionNotify, 0, 5, 5⟩) answer :: post ∧
      ∃ permit call since grab, current pre = some (call, since) ∧ hold pre = some grab ∧
        Warrant permit since grab ⟨.motionNotify, 0, 5, 5⟩ call := by
  have hemitted : emitted movingTrace = [⟨.motionNotify, 0, 5, 5⟩] := by decide +kernel
  have hmem : ⟨.motionNotify, 0, 5, 5⟩ ∈ emitted movingTrace := by
    rw [hemitted]
    exact .head _
  obtain ⟨pre, answer, post, hsplit⟩ := split_of_emitted hmem
  obtain ⟨permit, call, since, grab, -, -, hcurrent, hgrab, hwarrant⟩ :=
    input_action_boundary _ _ _ _ _ pre _ answer post hsplit
  exact ⟨hemitted, pre, answer, post, hsplit, permit, call, since, grab, hcurrent, hgrab, hwarrant⟩

end AgentSeat.Session
