/-
  From the methods of an observer to the calls of a session.

  A session's observer starts with the first call that needs one and is never replaced
  (`Evolves`). Whatever a method obeys, the call that runs it obeys, so the trace of a session stays
  `Lawful` over every sequence of calls.
-/
import AgentSeat.Provider.Boundary

namespace AgentSeat.Provider

open AgentSeat.Lib AgentSeat.Proto AgentSeat.X11 AgentSeat.Seat Relation

/-- How a session's observer can move: it is connected with the session's settings, and moves as
    its methods move it. -/
inductive Evolves (context : SessionContext) : Option State → Option State → Prop
  | stays (o : Option State) : Evolves context o o
  | opens (root : Window) (atoms : Atoms) {s : State}
      (h : Moves (freshObserver root atoms context.exposure context.granted) s) :
      Evolves context none (some s)
  | moves {s s' : State} (h : Moves s s') : Evolves context (some s) (some s')

instance (context : SessionContext) : IsPreorder (Option State) (Evolves context) where
  refl := .stays
  trans := by
    intro a b c h h'
    cases h with
    | stays => exact h'
    | opens root atoms h =>
      cases h' with
      | stays => exact .opens root atoms h
      | moves h' => exact .opens root atoms (h.trans h')
    | moves h =>
      cases h' with
      | stays => exact .moves h
      | moves h' => exact .moves (h.trans h')

section Silent

variable {env : Outside} {context : SessionContext} {ε α : Type}

theorem method_silent {A : Step → Prop} {m : XM α} (h : Utters Moves A m) :
    Utters (Evolves context) A (method m) := by
  intro w _
  unfold method
  rcases hs : w.state with _ | s
  · exact ⟨[], (List.append_nil _).symm, by simp, by rw [hs]; exact .stays _, trivial⟩
  · obtain ⟨added, htrace, ha, hmoves, -⟩ := h ⟨s, w.trace⟩ trivial
    exact ⟨added, htrace, ha, .moves hmoves, trivial⟩

/-- Connecting is one question; without an answer there is still no observer. -/
theorem connectObserver_run (env : Outside) (context : SessionContext) (h : Host) :
    (∃ e, connectObserver env context h =
      (.error e, ⟨h.state, h.trace ++ [asked .connect (.error e)]⟩)) ∨
    ∃ root atoms, connectObserver env context h =
      (.ok (), ⟨some (freshObserver root atoms context.exposure context.granted),
        h.trace ++ [asked .connect (.ok (root, atoms))]⟩) := by
  have hrun : connectObserver env context h = (do
      let server ← Prog.lift (env h.trace .connect)
      Prog.update fun h : Host =>
        ⟨some (freshObserver server.1 server.2 context.exposure context.granted), h.trace⟩ :
      Prog Host Failure Unit)
      ⟨h.state, h.trace ++ [asked .connect (env h.trace .connect)]⟩ := rfl
  rw [hrun]
  cases hc : (env h.trace .connect : Except Failure (Window × Atoms)) with
  | error e => exact .inl ⟨e, rfl⟩
  | ok server => exact .inr ⟨server.1, server.2, rfl⟩

theorem observerFor_silent : Utters (Evolves context) Silent (observerFor env context) := by
  intro w _
  unfold observerFor
  rw [Prog.read_bind]
  rcases hs : w.state with _ | s
  · rw [Option.isSome_none, if_neg (by simp)]
    rcases connectObserver_run env context w with ⟨e, hrun⟩ | ⟨root, atoms, hrun⟩
    · rw [hrun]
      exact ⟨_, rfl, by simp [Silent], by rw [hs]; exact .stays _, trivial⟩
    · rw [hrun]
      exact ⟨_, rfl, by simp [Silent], .opens root atoms .refl, trivial⟩
  · rw [Option.isSome_some, if_pos rfl]
    exact ⟨[], (List.append_nil _).symm, by simp, by rw [← hs]; exact .stays _, trivial⟩

theorem onObserver_silent {m : XM α} (h : Utters Moves Silent m) :
    Utters (Evolves context) Silent (onObserver env context m) :=
  Utters.bind observerFor_silent fun _ => method_silent h

theorem launchApplication_silent (application : ApplicationId) :
    Utters (Evolves context) Silent (launchApplication env context application) := by
  unfold launchApplication
  refine Utters.bind ?_ fun baseline => Utters.bind (Utters.ask fun _ => trivial) fun _ =>
    Utters.bind (Utters.lift _) fun _ => Utters.bind ?_ fun _ => Utters.pure _
  · unfold baselineFor
    split
    · exact Utters.bind (Utters.attempt (onObserver_silent (utters_silent launchBaseline_quiet)))
        fun _ => Utters.pure _
    · exact Utters.pure _
  · cases baseline with
    | none => exact Utters.pure _
    | some windows =>
      exact Utters.bind (Utters.attempt (method_silent (utters_silent (correlateLaunch_quiet _ _))))
        fun _ => Utters.pure _

end Silent

/-! ## The result of a method -/

section Results

variable (env : Outside) (context : SessionContext) {α : Type}

/-- The result of a method as the outcome of its call. -/
def outcomeOf (wrap : α → Proto.Reply) : Except Failure α → Outcome
  | .ok value => .ok (wrap value)
  | .error error => observationError error

theorem observing_run (wrap : α → Proto.Reply) (m : XM α) (h : Host) :
    observing env context wrap m h =
      (.ok (outcomeOf wrap (onObserver env context m h).1), (onObserver env context m h).2) := by
  unfold observing
  rw [Prog.bind_run]
  rcases hrun : onObserver env context m h with ⟨r, h'⟩
  cases r with
  | ok value => simp only [Prog.attempt, hrun, Prog.pure_run, outcomeOf]
  | error error => simp only [Prog.attempt, hrun, Prog.pure_run, outcomeOf]

/-- A method on the observer there is. -/
theorem onObserver_some (m : XM α) {h : Host} {s : State} (hs : h.state = some s) :
    onObserver env context m h =
      ((m ⟨s, h.trace⟩).1, ⟨some (m ⟨s, h.trace⟩).2.state, (m ⟨s, h.trace⟩).2.trace⟩) := by
  have hpresent : observerFor env context h = (.ok (), h) := by
    unfold observerFor
    rw [Prog.read_bind, hs, Option.isSome_some, if_pos rfl]
    rfl
  unfold onObserver
  rw [Prog.bind_ok hpresent]
  unfold method
  rw [hs]

/-- A method that returned was run on some observer. -/
theorem onObserver_ok {m : XM α} {h : Host} {a : α} (ha : (onObserver env context m h).1 = .ok a) :
    ∃ s trace, (m ⟨s, trace⟩).1 = .ok a ∧
      (onObserver env context m h).2.state = some (m ⟨s, trace⟩).2.state := by
  rcases hs : h.state with _ | s
  · have hnone : observerFor env context h = connectObserver env context h := by
      unfold observerFor
      rw [Prog.read_bind, hs, Option.isSome_none, if_neg (by simp)]
    unfold onObserver at ha ⊢
    rcases connectObserver_run env context h with ⟨e, hrun⟩ | ⟨root, atoms, hrun⟩
    · rw [Prog.bind_error (hnone.trans hrun)] at ha
      simp at ha
    · rw [Prog.bind_ok (hnone.trans hrun)] at ha ⊢
      exact ⟨_, _, ha, rfl⟩
  · rw [onObserver_some env context m hs] at ha ⊢
    exact ⟨s, h.trace, ha, rfl⟩

end Results

/-! ## Calls -/

section Calls

variable {env : Outside} {context : SessionContext} {permit : SeatPermit} {call : Proto.Call}
  {α : Type}

theorem method_obeys {m : XM α}
    (h : Obeys Moves permit call (fun _ => True) m fun _ _ => True) :
    Obeys (Evolves context) permit call (fun _ => True) (method m) fun _ _ => True := by
  intro w since hcall _
  unfold method
  rcases hs : w.state with _ | s
  · exact ⟨[], (List.append_nil _).symm, Conforms.of_silent (by simp), by rw [hs]; exact .stays _,
      trivial⟩
  · obtain ⟨added, htrace, hconf, hmoves, -⟩ := h ⟨s, w.trace⟩ since hcall trivial
    exact ⟨added, htrace, hconf, .moves hmoves, trivial⟩

theorem observing_obeys {wrap : α → Proto.Reply} {m : XM α}
    (h : Obeys Moves permit call (fun _ => True) m fun _ _ => True) :
    Obeys (Evolves context) permit call (fun _ => True) (observing env context wrap m)
      fun _ _ => True := by
  have hrun : Obeys (Evolves context) permit call (fun _ => True) (onObserver env context m)
      fun _ _ => True :=
    Obeys.bind (Obeys.of_silent observerFor_silent fun _ _ => id) (fun _ => method_obeys h)
      fun _ _ => id
  refine Obeys.bind (Obeys.attempt hrun) (fun result => ?_) fun _ _ _ => trivial
  refine Obeys.weaken (P := fun _ => True) (F := fun _ _ => True) ?_ (fun _ _ => trivial)
    fun _ _ => id
  cases result with
  | ok value => exact Obeys.of_silent (Utters.pure _) fun _ _ => id
  | error e => exact Obeys.of_silent (Utters.pure _) fun _ _ => id

theorem observing_silent {wrap : α → Proto.Reply} {m : XM α} (h : Utters Moves Silent m) :
    Obeys (Evolves context) permit call (fun _ => True) (observing env context wrap m)
      fun _ _ => True :=
  observing_obeys (Obeys.of_silent h fun _ _ => id)

theorem launching_silent {wrap : α → Proto.Reply} {m : Prog Host LaunchFailure α}
    (h : Utters (Evolves context) Silent m) :
    Obeys (Evolves context) permit call (fun _ => True) (launching wrap m) fun _ _ => True := by
  refine Obeys.of_silent (Utters.bind (Utters.attempt h) fun result => ?_) fun _ _ => id
  cases result with
  | ok value => exact Utters.pure _
  | error e => exact Utters.pure _

theorem seatStatus_silent : Utters (Evolves context) Silent (seatStatus context) :=
  fun _ _ => ⟨[], (List.append_nil _).symm, by simp, .stays _, trivial⟩

/-- Every call of a session appends only what its kind may append. -/
theorem providerCall_obeys (env : Outside) (context : SessionContext) (call : Proto.Call) :
    Obeys (Evolves context) context.permit call (fun _ => True) (providerCall env context call)
      fun _ _ => True := by
  cases call with
  | seatStatus => exact Obeys.of_silent seatStatus_silent fun _ _ => id
  | desktopSnapshot => exact observing_silent (utters_silent snapshot_quiet)
  | eventsSubscribe arguments => exact observing_silent (utters_silent (subscribe_quiet _))
  | eventsPoll arguments => exact observing_silent (utters_silent (poll_quiet _))
  | clientActivate arguments => exact observing_silent (manage_silent _)
  | clientClose arguments => exact observing_silent (manage_silent _)
  | workspaceSwitch arguments => exact observing_silent (manage_silent _)
  | clientWorkspace arguments => exact observing_silent (manage_silent _)
  | clientState arguments => exact observing_silent (manage_silent _)
  | clientGeometry arguments => exact observing_silent (manage_silent _)
  | applicationsList arguments =>
    exact launching_silent (Utters.bind (Utters.ask fun _ => trivial) fun _ => Utters.lift _)
  | applicationLaunch arguments => exact launching_silent (launchApplication_silent _)
  | pointerMove arguments =>
    exact observing_obeys (action_obeys (moveAction_acts _ _) (fun _ _ _ hsub h => h.mono hsub)
      fun _ _ _ => id)
  | pointerClick arguments =>
    exact observing_obeys (action_obeys (clickAction_acts _ _) (fun _ _ _ hsub h => h.mono hsub)
      fun _ _ _ => id)
  | keyboardType arguments => exact observing_obeys (keyboardText_obeys fun _ _ _ => id)
  | keyboardWrite arguments => exact observing_obeys (keyboardText_obeys fun _ _ _ => id)
  | keyboardKey arguments =>
    exact observing_obeys (action_obeys (keyAction_acts _ _) (fun _ _ _ hsub h => h.mono hsub)
      fun _ _ _ => id)
  | textInsert arguments => exact observing_obeys (textInsert_obeys _)
  | captureObscured arguments => exact observing_silent capture_silent
  | captureRegion arguments => exact observing_silent capture_silent

theorem Lawful.append {trace since added : List Step} (h : Lawful permit trace)
    (hcall : current trace = some (call, since))
    (hconf : Conforms permit call trace since added) : Lawful permit (trace ++ added) := by
  intro pre event answer post hsplit
  rcases List.append_eq_append_iff.mp hsplit with ⟨mid, hpre, hadded⟩ | ⟨mid, htrace, hpost⟩
  · subst hpre
    obtain ⟨grab, hgrab, hwarrant⟩ := hconf.warranted mid event answer post hadded
    have hmid : ∀ e ∈ mid, Within e := fun e he =>
      hconf.within e (by rw [hadded]; exact List.mem_append_left _ he)
    exact ⟨call, since ++ mid, grab, current_append hcall hmid, hgrab, hwarrant⟩
  · cases mid with
    | nil =>
      rw [List.append_nil] at htrace
      subst htrace
      obtain ⟨grab, hgrab, hwarrant⟩ := hconf.warranted [] event answer post hpost.symm
      rw [List.append_nil] at hgrab hwarrant
      exact ⟨call, since, grab, hcall, hgrab, hwarrant⟩
    | cons e mid =>
      obtain ⟨rfl, -⟩ := List.cons.inj hpost
      exact h pre event answer mid htrace

/-- A mark adds no event. -/
theorem Lawful.mark {trace : List Step} (h : Lawful permit trace) (m : Mark) :
    Lawful permit (trace ++ [.mark m]) := by
  intro pre event answer post hsplit
  obtain ⟨post', hsplit'⟩ := split_last (by simp) hsplit
  exact h pre event answer post' hsplit'

/-- The two marks around a call. -/
theorem markedCall_run (env : Outside) (context : SessionContext) (call : Proto.Call) (h : Host) :
    ∃ outcome host, providerCall env context call ⟨h.state, h.trace ++ [.mark (.began call)]⟩ =
        (.ok outcome, host) ∧
      markedCall env context call h =
        (.ok outcome, ⟨host.state, host.trace ++ [.mark (.answered outcome)]⟩) := by
  rcases hrun : providerCall env context call ⟨h.state, h.trace ++ [.mark (.began call)]⟩ with
    ⟨r, host⟩
  cases r with
  | error e => exact e.elim
  | ok outcome =>
    refine ⟨outcome, host, hrun, ?_⟩
    unfold markedCall Dialogue.write
    rw [Prog.update_bind, Prog.bind_ok hrun, Prog.update_bind]
    rfl

/-- The spec of a call: between its marks stands only what its kind may append, and the observer
    moves as a session may move it. -/
theorem markedCall_spec (env : Outside) (context : SessionContext) (call : Proto.Call) (h : Host) :
    ∃ outcome added, (markedCall env context call h).1 = .ok outcome ∧
      (markedCall env context call h).2.trace =
        h.trace ++ [.mark (.began call)] ++ added ++ [.mark (.answered outcome)] ∧
      Conforms context.permit call (h.trace ++ [.mark (.began call)]) [] added ∧
      Evolves context h.state (markedCall env context call h).2.state := by
  obtain ⟨outcome, host, hcall, hmarked⟩ := markedCall_run env context call h
  obtain ⟨added, htrace, hconf, hevolves, -⟩ :=
    providerCall_obeys env context call ⟨h.state, h.trace ++ [.mark (.began call)]⟩ []
      (current_began h.trace call) trivial
  rw [hcall] at htrace hevolves
  rw [hmarked]
  dsimp only at htrace ⊢
  exact ⟨outcome, added, rfl, by rw [htrace], hconf, hevolves⟩

/-- A call keeps a session's trace lawful. -/
theorem markedCall_lawful (env : Outside) (context : SessionContext) (call : Proto.Call)
    (h : Host) (lawful : Lawful context.permit h.trace) :
    Lawful context.permit (markedCall env context call h).2.trace := by
  obtain ⟨outcome, added, -, htrace, hconf, -⟩ := markedCall_spec env context call h
  rw [htrace]
  exact (Lawful.append (lawful.mark _) (current_began h.trace call) hconf).mark _

/-- The calls begun in a trace are those that were made. -/
theorem markedCall_began (env : Outside) (context : SessionContext) {call begun : Proto.Call}
    {h : Host} (hmem : .mark (.began begun) ∈ (markedCall env context call h).2.trace) :
    .mark (.began begun) ∈ h.trace ∨ begun = call := by
  obtain ⟨outcome, added, -, htrace, hconf, -⟩ := markedCall_spec env context call h
  rw [htrace] at hmem
  simp only [List.mem_append, List.mem_singleton, Entry.mark.injEq, Mark.began.injEq, reduceCtorEq,
    or_false] at hmem
  rcases hmem with (hmem | heq) | hmem
  · exact .inl hmem
  · exact .inr heq
  · exact (hconf.within _ hmem).elim

end Calls

end AgentSeat.Provider
