/-
  The sequence number pins the visible desktop, over all calls of a session.

  Every call moves the observer by refreshes and by changes of its queue. Along these the notes only
  grow and two models noted under one number show the same desktop, so a workspace switch that
  passes its check against the sequence is sent to the desktop that the peer saw.

  Main result:
  * `sequence_pins_desktop`: the law for any two moments of an observer, and what it means for a
    workspace switch.
-/
import AgentSeat.Observer.Pinned
import AgentSeat.Session.Boundary

namespace AgentSeat.Session

open AgentSeat.Lib AgentSeat.Proto AgentSeat.Provider AgentSeat.Seat AgentSeat.X11 Relation

/-! ## Along the moves of an observer -/

theorem moves_notes {s s' : State} (h : Moves s s') : s.notes ⊆ s'.notes := by
  induction h with
  | refl => exact List.Subset.refl _
  | tail _ step ih =>
    refine List.Subset.trans ih ?_
    cases step with
    | refresh sample => exact refresh_notes sample _
    | settle | resubscribe kinds | drain after => exact List.Subset.refl _

theorem moves_pinInv {s s' : State} (h : Moves s s') (inv : PinInv s)
    (room : .exhausted ∉ s'.notes) : PinInv s' := by
  induction h with
  | refl => exact inv
  | tail hmoves step ih =>
    have hroom := fun hmem => room (moves_notes (.single step) hmem)
    cases step with
    | refresh sample => exact (ih hroom).refresh sample room
    | settle => exact (ih hroom).sameModel (settle_sameModel _)
    | resubscribe kinds | drain after => exact (ih hroom).sameModel ⟨rfl, rfl, rfl, rfl⟩

/-- The law for two moments of an observer, the first one reached from a fresh connection. -/
theorem moves_sameView {root : Window} {atoms : Atoms} {exposure : Exposure}
    {granted : List Capability} {s s' : State} {m m' : Model}
    (h : Moves (freshObserver root atoms exposure granted) s) (h' : Moves s s')
    (room : .exhausted ∉ s'.notes) (sequence : s'.observer.sequence = s.observer.sequence)
    (model : s.observer.model = some m) (model' : s'.observer.model = some m') : SameView m m' := by
  have hfresh : PinInv (freshObserver root atoms exposure granted) := PinInv.fresh _
  have hinv := moves_pinInv h hfresh fun hmem => room (moves_notes h' hmem)
  exact hinv.sameView (moves_pinInv h' hinv room) (moves_notes h') sequence model model'

/-! ## Snapshots -/

/-- A snapshot shows a model, up to the order of the clients. -/
structure Shows (snap : DesktopSnapshot) (m : Model) : Prop where
  currentWorkspace : snap.currentWorkspace = m.currentWorkspace
  workspaces : snap.workspaces.asSlice = m.workspaces
  active : snap.active = m.active
  clients : snap.clients.asSlice.Perm (m.clients.map ClientRecord.descriptor)

theorem Shows.sameView {snap : DesktopSnapshot} {m m' : Model} (h : Shows snap m)
    (same : SameView m m') : Shows snap m' :=
  ⟨h.currentWorkspace.trans same.currentWorkspace, h.workspaces.trans same.workspaces,
    h.active.trans same.active, h.clients.trans same.clients⟩

theorem snapshotOf_shows {sequence : Nat} {m : Model} {snap : DesktopSnapshot}
    (h : snapshotOf sequence m = .ok snap) : snap.sequence = sequence ∧ Shows snap m := by
  unfold snapshotOf at h
  split at h
  · simp at h
  · next workspaces hworkspaces =>
    split at h
    · simp at h
    · next clients hclients =>
      rw [Except.ok.injEq] at h
      subst h
      refine ⟨rfl, rfl, (BoundedList.new_eq_ok.mp hworkspaces).symm, rfl, ?_⟩
      rw [← BoundedList.new_eq_ok.mp hclients]

/-- A snapshot shows the model in force when it returns, under the sequence then. -/
theorem snapshot_shows {sample : Sample} {s s' : State} {snap : DesktopSnapshot}
    (h : X11.snapshot sample s = (.ok snap, s')) :
    ∃ m, s'.observer.model = some m ∧ s'.observer.sequence = snap.sequence ∧ Shows snap m := by
  rcases snapshot_spec sample s with ⟨e, -, hs⟩ | ⟨m, snap', -, hm, hsnap, hs⟩
  · simp [hs] at h
  · rw [hs, Prod.mk.injEq, Except.ok.injEq] at h
    obtain ⟨rfl, rfl⟩ := h
    obtain ⟨hsequence, hshows⟩ := snapshotOf_shows hsnap
    have hsame := settle_sameModel (refresh sample s).2
    exact ⟨m, hsame.model.trans hm, hsame.sequence.trans hsequence.symm, hshows⟩

theorem provider_snapshot_ok {env : Outside} {w : World} {snap : DesktopSnapshot}
    (h : (Provider.snapshot env w).1 = .ok snap) :
    ∃ m, (Provider.snapshot env w).2.state.observer.model = some m ∧
      (Provider.snapshot env w).2.state.observer.sequence = snap.sequence ∧ Shows snap m := by
  have hrun : Provider.snapshot env w = (do
      let snap ← Dialogue.within (X11.snapshot (env w.trace .sample))
      let o ← this id
      markRefreshed o
      pure snap : XM DesktopSnapshot)
      ⟨w.state, w.trace ++ [.said .sample (env w.trace .sample)]⟩ := rfl
  rw [hrun, Prog.bind_run] at h
  rw [hrun, Prog.bind_run]
  rcases hsnap : X11.snapshot (env w.trace .sample) w.state with ⟨r, s⟩
  cases r with
  | error e => simp [Dialogue.within, Prog.zoom, hsnap] at h
  | ok snap' =>
    obtain ⟨m, hm, hsequence, hshows⟩ := snapshot_shows hsnap
    simp only [Dialogue.within, Prog.zoom, hsnap] at h ⊢
    unfold this at h ⊢
    rw [Prog.read_bind] at h ⊢
    unfold markRefreshed at h ⊢
    dsimp only [id] at h ⊢
    rw [hm] at h ⊢
    have hsame : snap' = snap := Except.ok.inj h
    rw [← hsame]
    exact ⟨m, hm, hsequence, hshows⟩

/-! ## Workspace switches -/

/-- A prepared switch names the sequence of the observer. -/
theorem prepare_switch {d : Desktop} {o : Observer} {request : WorkspaceRequest}
    {prepared : Prepared} (h : prepare d o (.workspaceSwitch request) = .ok prepared) :
    o.sequence = request.sequence := by
  unfold prepare at h
  obtain ⟨supported, -, h⟩ := Lib.except_bind_ok h
  obtain ⟨u, hrefuse, -⟩ := Lib.except_bind_ok h
  exact (Decidable.not_not.mp (refuseIf_ok hrefuse)).symm

theorem send_run (env : Outside) (destination : Window) (event : ClientMessageEvent)
    (desired : Desired) (w : World) :
    ((do
      reply "cannot send an EWMH request" "the X server refused an EWMH request"
        (Dialogue.ask env (.sendMessage destination event))
      pure desired : XM Desired) w).2 = ⟨w.state, w.trace ++
        [.said (.sendMessage destination event) (env w.trace (.sendMessage destination event))]⟩ := by
  have hreply : reply "cannot send an EWMH request" "the X server refused an EWMH request"
      (Dialogue.ask env (.sendMessage destination event)) w =
      (checked "cannot send an EWMH request" "the X server refused an EWMH request"
        (env w.trace (.sendMessage destination event)), ⟨w.state, w.trace ++
          [.said (.sendMessage destination event) (env w.trace (.sendMessage destination event))]⟩) :=
    rfl
  rw [Prog.bind_run, hreply]
  cases checked "cannot send an EWMH request" "the X server refused an EWMH request"
    (env w.trace (.sendMessage destination event)) with
  | ok u => rfl
  | error e => rfl

/-- What is done under the grab of a workspace switch: quiet checks, and then at most the message,
    which has the model of the requested sequence behind it. -/
theorem sendPrepared_switch (env : Outside) (request : WorkspaceRequest) (w : World) :
    ∃ checks sends, (sendPrepared env (.workspaceSwitch request) w).2.trace =
        w.trace ++ (checks ++ sends) ∧ (∀ e ∈ checks, Quiet e) ∧
      Moves w.state (sendPrepared env (.workspaceSwitch request) w).2.state ∧
      (sends = [] ∨ ∃ destination event answer m,
        sends = [.said (.sendMessage destination event) answer] ∧
        .mark (.refreshed request.sequence m) ∈ checks ∧
        (sendPrepared env (.workspaceSwitch request) w).2.state.observer.model = some m ∧
        (sendPrepared env (.workspaceSwitch request) w).2.state.observer.sequence =
          request.sequence) := by
  unfold sendPrepared
  obtain ⟨added, htrace, hquiet, hmoves, hlearns⟩ := refresh_learns env w trivial
  rcases hrun : refresh env w with ⟨r, w₁⟩
  rw [hrun] at htrace hmoves hlearns
  dsimp only at htrace hmoves hlearns
  cases r with
  | error e =>
    rw [Prog.bind_error hrun]
    exact ⟨added, [], by rw [List.append_nil]; exact htrace, hquiet, hmoves, .inl rfl⟩
  | ok u =>
    rw [Prog.bind_ok hrun]
    obtain ⟨m, hm, hmark⟩ := hlearns u rfl
    have hchecks : ∀ e ∈ added ++ [.said .desktop (env w₁.trace .desktop)], Quiet e := by
      intro e he
      rcases List.mem_append.mp he with he | he
      · exact hquiet e he
      · rw [List.mem_singleton.mp he]
        trivial
    have hrest : (do
        let d : Desktop ← Dialogue.ask env .desktop
        let o ← this id
        let prepared ← Prog.lift (prepare d o (.workspaceSwitch request))
        reply "cannot send an EWMH request" "the X server refused an EWMH request"
          (Dialogue.ask env (.sendMessage o.root prepared.event))
        pure prepared.desired : XM Desired) w₁ = (do
        let prepared ← Prog.lift (prepare (env w₁.trace .desktop) w₁.state.observer
          (.workspaceSwitch request))
        reply "cannot send an EWMH request" "the X server refused an EWMH request"
          (Dialogue.ask env (.sendMessage w₁.state.observer.root prepared.event))
        pure prepared.desired : XM Desired)
        ⟨w₁.state, w₁.trace ++ [.said .desktop (env w₁.trace .desktop)]⟩ := rfl
    rw [hrest]
    cases hprepare : prepare (env w₁.trace .desktop) w₁.state.observer (.workspaceSwitch request) with
    | error e =>
      refine ⟨_, [], ?_, hchecks, hmoves, .inl rfl⟩
      rw [List.append_nil, ← List.append_assoc, ← htrace]
      rfl
    | ok prepared =>
      rw [Prog.lift_ok_bind, send_run]
      refine ⟨_, [.said (.sendMessage w₁.state.observer.root prepared.event) (env
        (w₁.trace ++ [.said .desktop (env w₁.trace .desktop)]) (.sendMessage _ prepared.event))], ?_,
        hchecks, hmoves, .inr ⟨_, _, _, m, rfl, ?_, hm, ?_⟩⟩
      · rw [← List.append_assoc, ← List.append_assoc, ← htrace]
      · rw [← prepare_switch hprepare]
        exact List.mem_append_left _ hmark
      · exact prepare_switch hprepare

/-- Not a message to the window manager. -/
def Unsent : Provider.Step → Prop
  | .said (.sendMessage ..) _ => False
  | _ => True

theorem Quiet.unsent {e : Provider.Step} (h : Quiet e) : Unsent e := by
  cases e with
  | said q a => cases q <;> trivial
  | mark m => trivial

theorem unsent_ne {said pre post : List Provider.Step} {destination : Window}
    {event : ClientMessageEvent} {answer : Provider.Question.Answer (.sendMessage destination event)}
    (h : ∀ e ∈ said, Unsent e) : said ≠ pre ++ .said (.sendMessage destination event) answer :: post := by
  intro split
  exact h (.said (.sendMessage destination event) answer) (by simp [split])

/-- A management call asks for the grab, does its work under it, and sends nothing after it. -/
theorem manage_run (env : Outside) (operation : Operation) (w : World) :
    (∃ fault, (manage env operation w).2.trace = w.trace ++ [asked .grabServer (.error fault)]) ∨
    ∃ more, (manage env operation w).2.trace = (sendPrepared env operation
        ⟨w.state, w.trace ++ [asked .grabServer (.ok ())]⟩).2.trace ++ more ∧
      (∀ e ∈ more, Unsent e) ∧
      Moves (sendPrepared env operation
        ⟨w.state, w.trace ++ [asked .grabServer (.ok ())]⟩).2.state (manage env operation w).2.state := by
  have hgrab := grab_run env w
  unfold manage
  cases hanswer : (env w.trace .grabServer : Except XFault Unit) with
  | error fault =>
    rw [hanswer] at hgrab
    refine .inl ⟨fault, ?_⟩
    rw [Prog.bind_run, hgrab]
    cases fault <;> rfl
  | ok u =>
    rw [hanswer] at hgrab
    rw [Prog.bind_ok hgrab]
    have hrest (sent : Except Failure Desired) : Utters Moves Unsent (do
        let ungrab : Except XFault Unit ← Dialogue.ask env .ungrabServer
        let flush : Except XFault Unit ← Dialogue.ask env .flush
        let desired ← Prog.lift sent
        Prog.lift (checked "cannot request an X11 server ungrab"
          "cannot release the X11 server grab" ungrab)
        Prog.lift (checked "cannot flush an EWMH request" "cannot flush an EWMH request" flush)
        observeTerminal env desired : XM ManagementReply) := by
      refine Utters.bind (Utters.ask fun _ => trivial) fun _ => ?_
      refine Utters.bind (Utters.ask fun _ => trivial) fun _ => Utters.bind (Utters.lift _) fun _ => ?_
      refine Utters.bind (Utters.lift _) fun _ => Utters.bind (Utters.lift _) fun _ => ?_
      exact Tells.weaken (observeTerminal_quiet _) (fun _ => Quiet.unsent) (fun _ => id) fun _ _ _ => id
    obtain ⟨more, htrace, hmore, hmoves, -⟩ := hrest
      (sendPrepared env operation ⟨w.state, w.trace ++ [asked .grabServer (.ok ())]⟩).1
      (sendPrepared env operation ⟨w.state, w.trace ++ [asked .grabServer (.ok ())]⟩).2 trivial
    exact .inr ⟨more, htrace, hmore, hmoves⟩

/-- A workspace switch that is sent has refreshed under its grab to a model of the requested
    sequence. -/
theorem manage_switch (env : Outside) (request : WorkspaceRequest) (w : World)
    {pre post : List Provider.Step} {destination : Window} {event : ClientMessageEvent}
    {answer : Provider.Question.Answer (.sendMessage destination event)}
    (h : (manage env (.workspaceSwitch request) w).2.trace =
      w.trace ++ pre ++ .said (.sendMessage destination event) answer :: post) :
    ∃ grab m s, hold (w.trace ++ pre) = some grab ∧
      .mark (.refreshed request.sequence m) ∈ grab ∧ Moves w.state s ∧
      s.observer.model = some m ∧ s.observer.sequence = request.sequence ∧
      Moves s (manage env (.workspaceSwitch request) w).2.state := by
  rcases manage_run env (.workspaceSwitch request) w with ⟨fault, hrun⟩ | ⟨more, hrun, hmore, hmoves⟩
  · rw [hrun, List.append_assoc, List.append_cancel_left_eq] at h
    exact (unsent_ne (by simp [Unsent, asked]) h).elim
  · obtain ⟨checks, sends, htrace, hquiet, hmoves', hsends⟩ := sendPrepared_switch env request
      ⟨w.state, w.trace ++ [asked .grabServer (.ok ())]⟩
    have hchecks : ∀ e ∈ asked .grabServer (.ok ()) :: checks, Unsent e := by
      intro e he
      rcases List.mem_cons.mp he with rfl | he
      · trivial
      · exact Quiet.unsent (hquiet e he)
    have hsplit : asked .grabServer (.ok ()) :: checks ++ (sends ++ more) =
        pre ++ .said (.sendMessage destination event) answer :: post := by
      rw [hrun, htrace] at h
      simpa using h
    obtain ⟨pre', rfl, hrest⟩ := split_past hchecks id hsplit
    rcases hsends with rfl | ⟨_, _, _, m, rfl, hmark, hmodel, hsequence⟩
    · exact (unsent_ne hmore hrest).elim
    · cases pre' with
      | cons e pre' =>
        obtain ⟨-, hmore'⟩ := List.cons.inj hrest
        exact (unsent_ne hmore hmore').elim
      | nil =>
        rw [List.append_nil]
        exact ⟨checks, m, _, hold_grabbed w.trace fun e he => (hquiet e he).ungrabbing, hmark, hmoves',
          hmodel, hsequence, hmoves⟩

/-! ## Calls of a session -/

section Calls

variable (outside : Outside) (context : SessionContext)

theorem markedCall_evolves (call : Proto.Call) (h : Host) :
    Evolves context h.state (markedCall outside context call h).2.state := by
  obtain ⟨outcome, added, -, -, -, hevolves⟩ := markedCall_spec outside context call h
  exact hevolves

theorem invokeAll_evolves (calls : List Proto.Call) (h : Host) :
    Evolves context h.state (invokeAll (markedCall outside) context calls h).state := by
  induction calls generalizing h with
  | nil => exact .stays _
  | cons call rest ih =>
    exact trans_of (Evolves context) (markedCall_evolves outside context call h) (ih _)

/-- An observer that is there stays. -/
theorem evolves_some {context : SessionContext} {s : State} {o : Option State}
    (h : Evolves context (some s) o) : ∃ s', o = some s' ∧ Moves s s' := by
  cases h with
  | stays => exact ⟨s, rfl, .refl⟩
  | moves h => exact ⟨_, rfl, h⟩

/-- An observer that is there was connected and moved. -/
theorem evolves_opened {context : SessionContext} {s : State}
    (h : Evolves context none (some s)) :
    ∃ root atoms, Moves (freshObserver root atoms context.exposure context.granted) s := by
  cases h with
  | opens root atoms h => exact ⟨root, atoms, h⟩

/-- A snapshot that a call returned shows the model of the observer it leaves behind. -/
theorem markedCall_snapshot {h : Host} {snap : DesktopSnapshot}
    (hsnap : (markedCall outside context .desktopSnapshot h).1 = .ok (.ok (.desktopSnapshot snap))) :
    ∃ s m, (markedCall outside context .desktopSnapshot h).2.state = some s ∧
      s.observer.model = some m ∧ s.observer.sequence = snap.sequence ∧ Shows snap m := by
  obtain ⟨outcome, host, hcall, hmarked⟩ := markedCall_run outside context .desktopSnapshot h
  rw [hmarked] at hsnap ⊢
  have hobserving : providerCall outside context .desktopSnapshot =
      Provider.observing outside context .desktopSnapshot (Provider.snapshot outside) := rfl
  rw [hobserving, observing_run, Prod.mk.injEq] at hcall
  obtain ⟨houtcome, rfl⟩ := hcall
  have hresult := (Except.ok.inj houtcome).trans (Except.ok.inj hsnap)
  cases hon : (onObserver outside context (Provider.snapshot outside)
      ⟨h.state, h.trace ++ [.mark (.began .desktopSnapshot)]⟩).1 with
  | error e => simp [hon, outcomeOf, observationError] at hresult
  | ok snap' =>
    rw [hon] at hresult
    have hsame : snap' = snap := by
      simpa [outcomeOf] using hresult
    subst hsame
    obtain ⟨s, trace, hok, hstate⟩ := onObserver_ok outside context hon
    obtain ⟨m, hm, hsequence, hshows⟩ := provider_snapshot_ok hok
    exact ⟨_, m, hstate, hm, hsequence, hshows⟩

/-- The message of a workspace switch call and the grab it was sent in. -/
theorem markedCall_switch {request : WorkspaceRequest} {h : Host} {s : State}
    (hs : h.state = some s) {pre post : List Provider.Step} {destination : Window}
    {event : ClientMessageEvent} {answer : Provider.Question.Answer (.sendMessage destination event)}
    (split : (markedCall outside context (.workspaceSwitch request) h).2.trace =
      h.trace ++ pre ++ .said (.sendMessage destination event) answer :: post) :
    ∃ grab m s' s'', hold (h.trace ++ pre) = some grab ∧
      .mark (.refreshed request.sequence m) ∈ grab ∧ Moves s s' ∧
      s'.observer.model = some m ∧ s'.observer.sequence = request.sequence ∧ Moves s' s'' ∧
      (markedCall outside context (.workspaceSwitch request) h).2.state = some s'' := by
  obtain ⟨outcome, host, hcall, hmarked⟩ :=
    markedCall_run outside context (.workspaceSwitch request) h
  have hobserving : providerCall outside context (.workspaceSwitch request) =
      Provider.observing outside context .management
        (manage outside (.workspaceSwitch request)) := rfl
  rw [hobserving, observing_run, onObserver_some outside context _ (show
    (⟨h.state, h.trace ++ [.mark (.began (.workspaceSwitch request))]⟩ : Host).state = some s from hs),
    Prod.mk.injEq] at hcall
  obtain ⟨-, rfl⟩ := hcall
  rw [hmarked] at split ⊢
  obtain ⟨added, htrace, -⟩ := @manage_silent outside (.workspaceSwitch request)
    ⟨s, h.trace ++ [.mark (.began (.workspaceSwitch request))]⟩ trivial
  dsimp only at split htrace ⊢
  -- the message stands between the two marks of the call
  have hinner : [.mark (.began (.workspaceSwitch request))] ++ (added ++ [.mark (.answered outcome)]) =
      pre ++ .said (.sendMessage destination event) answer :: post := by
    rw [htrace, List.append_assoc, List.append_assoc, List.append_assoc,
      List.append_cancel_left_eq] at split
    exact split
  obtain ⟨pre', rfl, hadded⟩ := split_past (A := Unsent) (by simp [Unsent]) id hinner
  obtain ⟨post', rfl⟩ := split_last (by simp) hadded
  obtain ⟨grab, m, s', hgrab, hmark, hmoves, hmodel, hsequence, hmoves'⟩ :=
    manage_switch outside request ⟨s, h.trace ++ [.mark (.began (.workspaceSwitch request))]⟩
      (htrace.trans (List.append_assoc ..).symm)
  refine ⟨grab, m, s', _, ?_, hmark, hmoves, hmodel, hsequence, hmoves', rfl⟩
  rw [← List.append_assoc]
  exact hgrab

/-- For any outside and any calls: every call moves the observer of a session along `Moves`; at any
    two moments of an observer with one sequence number, no counter having run out, the models show
    the same desktop up to the order of the clients; and a workspace switch sends its message only in
    a grab in which it refreshed to the desktop that every earlier snapshot with the requested
    sequence showed. -/
theorem sequence_pins_desktop :
    (∀ call h, Evolves context h.state (markedCall outside context call h).2.state) ∧
    (∀ root atoms s s' m m', Moves (freshObserver root atoms context.exposure context.granted) s →
      Moves s s' → .exhausted ∉ s'.notes → s'.observer.sequence = s.observer.sequence →
      s.observer.model = some m → s'.observer.model = some m' → SameView m m') ∧
    (∀ calls more request snap pre destination event answer post,
      let h := invokeAll (markedCall outside) context calls freshHost
      let h' := invokeAll (markedCall outside) context more
        (markedCall outside context .desktopSnapshot h).2
      (markedCall outside context .desktopSnapshot h).1 = .ok (.ok (.desktopSnapshot snap)) →
      snap.sequence = request.sequence →
      (markedCall outside context (.workspaceSwitch request) h').2.trace =
        h'.trace ++ pre ++ .said (.sendMessage destination event) answer :: post →
      (∀ s, (markedCall outside context (.workspaceSwitch request) h').2.state = some s →
        .exhausted ∉ s.notes) →
      ∃ grab m, hold (h'.trace ++ pre) = some grab ∧
        .mark (.refreshed request.sequence m) ∈ grab ∧ Shows snap m) := by
  refine ⟨fun call h => markedCall_evolves outside context call h,
    fun root atoms s s' m m' h h' room sequence model model' =>
      moves_sameView h h' room sequence model model', ?_⟩
  intro calls more request snap pre destination event answer post h h' hsnap hrequest split room
  obtain ⟨s₁, m₁, hs₁, hm₁, hseq₁, hshows⟩ := markedCall_snapshot outside context hsnap
  have hopened : Evolves context none (some s₁) := by
    rw [← hs₁]
    exact trans_of (Evolves context) (invokeAll_evolves outside context calls freshHost)
      (markedCall_evolves outside context .desktopSnapshot h)
  obtain ⟨root, atoms, hfresh⟩ := evolves_opened hopened
  have hmore := invokeAll_evolves outside context more
    (markedCall outside context .desktopSnapshot h).2
  rw [hs₁] at hmore
  obtain ⟨s₂, hs₂, hmoves⟩ := evolves_some hmore
  obtain ⟨grab, m, s₃, s₄, hgrab, hmark, hmoves₃, hm₃, hseq₃, hmoves₄, hs₄⟩ :=
    markedCall_switch outside context hs₂ split
  have hroom : .exhausted ∉ s₃.notes := fun hmem => room s₄ hs₄ (moves_notes hmoves₄ hmem)
  have hsame := moves_sameView hfresh (hmoves.trans hmoves₃) hroom
    (by rw [hseq₃, hseq₁, hrequest]) hm₁ hm₃
  exact ⟨grab, m, hgrab, hmark, hshows.sameView hsame⟩

end Calls

/-- The messages to the window manager in a trace. -/
def messages (trace : List Provider.Step) : List (Window × ClientMessageEvent) :=
  trace.filterMap fun
    | .said (.sendMessage destination event) _ => some (destination, event)
    | _ => none

theorem split_of_messages {trace : List Provider.Step} {destination : Window}
    {event : ClientMessageEvent} (h : (destination, event) ∈ messages trace) :
    ∃ pre answer post, trace = pre ++ .said (.sendMessage destination event) answer :: post := by
  obtain ⟨e, he, hevent⟩ := List.mem_filterMap.mp h
  obtain ⟨pre, post, rfl⟩ := List.append_of_mem he
  cases e with
  | mark m => simp at hevent
  | said q a =>
    cases q with
    | sendMessage destination' event' =>
      cases Option.some.inj hevent
      exact ⟨pre, a, post, rfl⟩
    | _ => simp at hevent

/-- The snapshot that a call returned. -/
def snapshotIn : Except Empty Outcome → Option DesktopSnapshot
  | .ok (.ok (.desktopSnapshot snap)) => some snap
  | _ => none

theorem eq_of_snapshotIn {result : Except Empty Outcome} {snap : DesktopSnapshot}
    (h : snapshotIn result = some snap) : result = .ok (.ok (.desktopSnapshot snap)) := by
  unfold snapshotIn at h
  split at h
  · rw [Option.some.inj h]
  · simp at h

def switchingOutside : Outside := plainOutside 1 fun _ => ⟨0, [⟨10, 0, 20⟩], 10⟩

def switchingContext : SessionContext :=
  ⟨⟨1, Nat.one_ne_zero⟩, [.observeStructure, .manageWorkspace], ⟨.allWorkspaces, false⟩, ⟨1⟩⟩

/-- A host after its first snapshot. -/
def seenHost : Host := (markedCall switchingOutside switchingContext .desktopSnapshot freshHost).2

/-- The same host after a switch under the sequence of that snapshot. -/
def switchedHost : Host :=
  (markedCall switchingOutside switchingContext (.workspaceSwitch ⟨1, 0⟩) seenHost).2

/-- The switch was sent in a grab whose refresh found the desktop of the snapshot. -/
theorem sequence_pins_desktop_switch :
    messages switchedHost.trace = [(plainRoot, ⟨plainRoot, plainAtoms.currentDesktop, [1, 0, 0, 0, 0]⟩)] ∧
    ∃ snap pre grab m, snapshotIn (markedCall switchingOutside switchingContext .desktopSnapshot
        freshHost).1 = some snap ∧ hold (seenHost.trace ++ pre) = some grab ∧
      .mark (.refreshed 0 m) ∈ grab ∧ Shows snap m := by
  have hsent : messages switchedHost.trace =
      [(plainRoot, ⟨plainRoot, plainAtoms.currentDesktop, [1, 0, 0, 0, 0]⟩)] := by decide +kernel
  have hunsent : messages seenHost.trace = [] := by decide +kernel
  have hsequence : (snapshotIn (markedCall switchingOutside switchingContext .desktopSnapshot
      freshHost).1).map DesktopSnapshot.sequence = some 0 := by decide +kernel
  obtain ⟨snap, hsnap, hsequence⟩ := Option.map_eq_some_iff.mp hsequence
  have hroom : ∀ s, switchedHost.state = some s → .exhausted ∉ s.notes := by
    have hnotes : .exhausted ∉ (switchedHost.state.map State.notes).getD [] := by decide +kernel
    intro s hs
    simpa [hs] using hnotes
  obtain ⟨outcome, added, -, htrace, -⟩ := markedCall_spec switchingOutside switchingContext
    (.workspaceSwitch ⟨1, 0⟩) seenHost
  rw [List.append_assoc, List.append_assoc] at htrace
  have hadded := hsent
  rw [show switchedHost.trace = _ from htrace, messages, List.filterMap_append,
    show seenHost.trace.filterMap _ = [] from hunsent, List.nil_append] at hadded
  obtain ⟨pre, answer, post, hsplit⟩ := split_of_messages (hadded ▸ List.mem_cons_self ..)
  obtain ⟨grab, m, hgrab, hmark, hshows⟩ :=
    (sequence_pins_desktop switchingOutside switchingContext).2.2 [] [] ⟨1, 0⟩ snap pre _ _ answer post
      (eq_of_snapshotIn hsnap) hsequence (by rw [List.append_assoc, ← hsplit]; exact htrace) hroom
  exact ⟨hsent, snap, pre, grab, m, hsnap, hgrab, hmark, hshows⟩

end AgentSeat.Session
