/-
  What a session without the structure grant can learn about the desktop.

  `StructureHidden` says that nothing of it reaches the peer: whatever the peer does, the messages
  of the session are the same for any two desktops. A session that has neither `observe_structure`
  nor `observe_events` can only make launcher calls, and these do not ask the desktop
  (`markedCall_launcher`). With `observe_events` alone a peer can subscribe and poll.

  Main result:
  * `structure_hidden_iff`: for a validated policy, a session without the structure grant hides the
    desktop exactly if it has no grant for events.
-/
import AgentSeat.Session.Boundary
import AgentSeat.Session.Plain

namespace AgentSeat.Session

open AgentSeat.Lib AgentSeat.Proto AgentSeat.Provider AgentSeat.Seat AgentSeat.X11

/-! ## Sessions with providers that agree -/

section Congruence

variable {P : Type} (env : Peer) {provider provider' : Provides P} {context : SessionContext}
  (patience : Nat)

theorem handle_congr {request : Request}
    (h : authorized request.call context.granted = true →
      provider context request.call = provider' context request.call) :
    handle provider context request = handle provider' context request := by
  unfold handle
  split
  · next hauth =>
    unfold invoke
    rw [h hauth]
  · rfl

theorem serve_congr (persistent : Bool)
    (h : ∀ call, authorized call context.granted = true →
      provider context call = provider' context call) (left : Nat) :
    serve env provider context patience persistent left =
      serve env provider' context patience persistent left := by
  induction left with
  | zero => rfl
  | succ left ih =>
    have hanswer (request : Request) :
        answer env provider context request
          (serve env provider context patience persistent left) =
        answer env provider' context request
          (serve env provider' context patience persistent left) := by
      unfold answer
      rw [ih, handle_congr (h request.call)]
    unfold serve
    simp only [hanswer]

/-- What a peer shows of itself before it is welcomed. -/
def Presents (uid : Nat) (hello : Hello) : Prop :=
  ∀ trace, received trace = [] →
    env trace .peerCredentials = .ok uid ∧ env trace .readFrame = .ok (.message (.hello hello))

variable {config : Config} {session : SessionId} {uid : Nat} {hello : Hello}

/-- The providers agree on what a session of this peer can invoke. -/
def AgreeOn (provider provider' : Provides P) (config : Config) (session : SessionId) (uid : Nat)
    (hello : Hello) : Prop :=
  hello.isCompatible = true → ∀ granted permit call,
    config.granted uid hello.requested.asSlice = some granted → authorized call granted = true →
      provider (contextFor config session granted permit) call =
        provider' (contextFor config session granted permit) call

theorem welcomed_congr (h : AgreeOn provider provider' config session uid hello)
    (hcompatible : hello.isCompatible = true)
    {permit : SeatPermit} {granted : List Capability}
    (hgranted : config.granted uid hello.requested.asSlice = some granted) (persistent : Bool) :
    welcomed env provider config session patience permit granted persistent =
      welcomed env provider' config session patience permit granted persistent := by
  unfold welcomed
  cases hwelcome : welcomeFor session granted with
  | error e => rfl
  | ok welcome =>
    funext w
    refine Prog.bind_congr fun welcome' w' hlift => ?_
    have hsame : welcome' = welcome := by
      cases hlift
      rfl
    rw [hsame, welcomeFor_granted hwelcome, serve_congr env patience persistent fun call hauth =>
      h hcompatible granted permit call hgranted hauth]

theorem opened_congr (h : AgreeOn provider provider' config session uid hello) :
    opened env provider config session patience uid hello =
      opened env provider' config session patience uid hello := by
  unfold opened
  split
  · rfl
  · next hcompatible =>
    rw [Bool.not_eq_true', Bool.not_eq_false] at hcompatible
    refine congrArg (seatLoad env >>= ·) (funext fun raw => ?_)
    cases permitOf raw with
    | none => rfl
    | some permit =>
      cases hgranted : config.granted uid hello.requested.asSlice with
      | none => rfl
      | some granted =>
        refine congrArg (seatLoad env >>= ·) (funext fun raw' => ?_)
        split
        · unfold admitted
          simp only [welcomed_congr env patience h hcompatible hgranted]
        · rfl

/-- A session does not depend on what its provider does beyond what the session can invoke. -/
theorem run_congr (hpresents : Presents env uid hello)
    (h : AgreeOn provider provider' config session uid hello) (start : P) :
    run env provider config session patience ⟨start, []⟩ =
      run env provider' config session patience ⟨start, []⟩ := by
  unfold run
  refine Prog.bind_congr fun _ w hbound => ?_
  obtain ⟨bound, hbound'⟩ := boundIo_run env (⟨start, []⟩ : Dialogue Question.Answer Mark P)
  have hnone : received w.trace = [] := by
    rw [hbound'] at hbound
    rw [← (Prod.mk.inj hbound).2]
    rfl
  refine Prog.bind_congr fun uid' w' huid => ?_
  rw [peerUid_eq, (hpresents _ hnone).1] at huid
  obtain ⟨huid, hw'⟩ := Prod.mk.inj huid
  have hsame : uid = uid' := Except.ok.inj huid
  have hnone' : received w'.trace = [] := by
    rw [← hw', received_append, hnone]
    rfl
  refine Prog.bind_congr fun frame w'' hread => ?_
  rw [readHello_eq, (hpresents _ hnone').2] at hread
  have hframe : .message (.hello hello) = frame := Except.ok.inj (Prod.mk.inj hread).1
  rw [← hframe, ← hsame]
  dsimp only
  rw [opened_congr env patience h]

end Congruence

/-! ## Calls that do not ask the desktop -/

/-- Two outsides with the same launcher and catalog. -/
def SameLauncher (outside outside' : Outside) : Prop :=
  ∀ trace, (∀ request, outside trace (.listApplications request) =
      outside' trace (.listApplications request)) ∧
    ∀ application, outside trace (.launch application) = outside' trace (.launch application)

/-- A call of the launcher. -/
def IsLauncher : Proto.Call → Prop
  | .applicationsList _ | .applicationLaunch _ => True
  | _ => False

/-- Without the structure grant and without the events grant only the launcher can be called. -/
theorem authorized_launcher {call : Proto.Call} {granted : List Capability}
    (hauth : authorized call granted = true) (hstructure : .observeStructure ∉ granted)
    (hevents : .observeEvents ∉ granted) : IsLauncher call := by
  cases call <;>
    simp_all [authorized, Call.requiredCapability, needsStructure, IsLauncher]

theorem listApplications_congr {outside outside' : Outside} (h : SameLauncher outside outside')
    (request : ApplicationListRequest) :
    listApplications outside request = listApplications outside' request := by
  have hrun (outside : Outside) (w : Host) : listApplications outside request w =
      (outside w.trace (.listApplications request), ⟨w.state, w.trace ++
        [.said (.listApplications request) (outside w.trace (.listApplications request))]⟩) := rfl
  funext w
  rw [hrun, hrun, (h w.trace).1]

/-- Without the structure grant a launch is not correlated with the windows there are. -/
theorem launchApplication_congr {outside outside' : Outside} (h : SameLauncher outside outside')
    {context : SessionContext} (hstructure : .observeStructure ∉ context.granted)
    (application : ApplicationId) :
    launchApplication outside context application =
      launchApplication outside' context application := by
  have hbaseline (outside : Outside) :
      baselineFor outside context = (pure none : Prog Host LaunchFailure _) := by
    unfold baselineFor
    rw [if_neg]
    simp [hstructure]
  have hrun (outside : Outside) (w : Host) : launchApplication outside context application w = (do
      let started ← Prog.lift (outside w.trace (.launch application))
      pure ⟨Started.token started, none⟩ : Prog Host LaunchFailure LaunchReply) ⟨w.state, w.trace ++
        [.said (.launch application) (outside w.trace (.launch application))]⟩ := by
    unfold launchApplication
    rw [hbaseline]
    rfl
  funext w
  rw [hrun, hrun, (h w.trace).2]

/-- Without the structure grant a launcher call is the same on every desktop. -/
theorem markedCall_launcher {outside outside' : Outside} (h : SameLauncher outside outside')
    {context : SessionContext} (hstructure : .observeStructure ∉ context.granted)
    {call : Proto.Call} (hcall : IsLauncher call) :
    markedCall outside context call = markedCall outside' context call := by
  have hsame : providerCall outside context call = providerCall outside' context call := by
    cases call with
    | applicationsList arguments =>
      exact congrArg (launching .applications) (listApplications_congr h arguments)
    | applicationLaunch arguments =>
      exact congrArg (launching .launched)
        (launchApplication_congr h hstructure arguments.application)
    | _ => exact hcall.elim
  unfold markedCall
  rw [hsame]

/-! ## Hiding the desktop -/

/-- For this peer the messages of a session do not depend on the desktop: they are the same for any
    two outsides that have the same launcher, whatever else the peer and the gate do. -/
def StructureHidden (config : Config) (uid : Nat) (hello : Hello) : Prop :=
  ∀ env session patience outside outside', Presents env uid hello →
    SameLauncher outside outside' →
    written (conversation env (markedCall outside) config session patience freshHost) =
      written (conversation env (markedCall outside') config session patience freshHost)

theorem structureHidden_of_no_events {config : Config} {uid : Nat} {hello : Hello}
    (h : hello.isCompatible = true → ∀ granted,
      config.granted uid hello.requested.asSlice = some granted →
        .observeStructure ∉ granted ∧ .observeEvents ∉ granted) :
    StructureHidden config uid hello := by
  intro env session patience outside outside' hpresents hlauncher
  have hagree : AgreeOn (markedCall outside) (markedCall outside') config session uid hello := by
    intro hcompatible granted permit call hgranted hauth
    obtain ⟨hstructure, hevents⟩ := h hcompatible granted hgranted
    exact markedCall_launcher hlauncher hstructure (authorized_launcher hauth hstructure hevents)
  unfold conversation
  rw [run_congr env patience hpresents hagree]

/-! ## What events show -/

theorem subscribe_result (outside : Outside) (request : SubscribeRequest) (w : World) :
    (Provider.subscribe outside request w).1 =
      (X11.subscribe request.kinds.asSlice (outside w.trace .sample) w.state).1 := by
  have hrun : Provider.subscribe outside request w = (do
      let subscription ← Dialogue.within (X11.subscribe request.kinds.asSlice
        (outside w.trace .sample))
      let o ← this id
      markRefreshed o
      pure subscription : XM Subscription)
      ⟨w.state, w.trace ++ [.said .sample (outside w.trace .sample)]⟩ := rfl
  rw [hrun, Prog.bind_run]
  rcases hsub : X11.subscribe request.kinds.asSlice (outside w.trace .sample) w.state with ⟨r, s⟩
  cases r with
  | error e => simp only [Dialogue.within, Prog.zoom, hsub]
  | ok subscription =>
    simp only [Dialogue.within, Prog.zoom, hsub]
    unfold this
    rw [Prog.read_bind]
    unfold markRefreshed
    dsimp only [id]
    cases s.observer.model <;> rfl

/-- The first subscription of a session shows what a refresh of the desktop gave. -/
theorem markedCall_subscribe (scene : Scene) (context : SessionContext)
    (request : SubscribeRequest) :
    (markedCall (plainOutside 1 fun _ => scene) context (.eventsSubscribe request) freshHost).1 =
      .ok (outcomeOf .subscribed (X11.subscribe request.kinds.asSlice scene.sample
        (freshObserver plainRoot plainAtoms context.exposure context.granted)).1) := by
  obtain ⟨outcome, host, hcall, hmarked⟩ := markedCall_run (plainOutside 1 fun _ => scene) context
    (.eventsSubscribe request) freshHost
  have hresult := congrArg Prod.fst (observing_run (plainOutside 1 fun _ => scene) context .subscribed
    (Provider.subscribe (plainOutside 1 fun _ => scene) request)
    ⟨none, [.mark (.began (.eventsSubscribe request))]⟩)
  dsimp only at hresult
  have hmethod : (onObserver (plainOutside 1 fun _ => scene) context
      (Provider.subscribe (plainOutside 1 fun _ => scene) request)
      ⟨none, [.mark (.began (.eventsSubscribe request))]⟩).1 =
      (Provider.subscribe (plainOutside 1 fun _ => scene) request
        ⟨freshObserver plainRoot plainAtoms context.exposure context.granted,
          [.mark (.began (.eventsSubscribe request)),
            .said .connect (.ok (plainRoot, plainAtoms))]⟩).1 := rfl
  rw [hmethod, subscribe_result] at hresult
  rw [hmarked]
  exact (congrArg Prod.fst hcall).symm.trans hresult

/-- A desktop without windows. -/
def emptyScene : Scene := ⟨0, [], none32⟩

/-- A desktop whose current workspace is not one of its workspaces. -/
def brokenScene : Scene := ⟨2, [], none32⟩

theorem subscribe_emptyScene (exposure : Exposure) (granted : List Capability) :
    (X11.subscribe [] emptyScene.sample
      (freshObserver plainRoot plainAtoms exposure granted)).1 = .ok ⟨0⟩ := by
  have h (scope : ClientScope) (showTitles captureEnabled : Bool) :
      (X11.subscribe [] emptyScene.sample
        ⟨connected plainRoot plainAtoms scope showTitles captureEnabled, []⟩).1 = .ok ⟨0⟩ := by
    cases scope <;> cases captureEnabled <;> rfl
  exact h _ _ _

theorem subscribe_brokenScene (exposure : Exposure) (granted : List Capability) :
    ∃ e, (X11.subscribe [] brokenScene.sample
      (freshObserver plainRoot plainAtoms exposure granted)).1 = .error e := by
  have h (scope : ClientScope) (showTitles captureEnabled : Bool) :
      ∃ e, (X11.subscribe [] brokenScene.sample
        ⟨connected plainRoot plainAtoms scope showTitles captureEnabled, []⟩).1 = .error e := by
    cases scope <;> exact ⟨_, rfl⟩
  exact h _ _ _

theorem plainPeer_presents (uid gate : Nat) (hello : Hello) (messages : List ClientMessage) :
    Presents (plainPeer uid gate (.hello hello :: messages)) uid hello := by
  intro trace hnone
  refine ⟨rfl, ?_⟩
  unfold plainPeer
  dsimp only
  rw [hnone]
  rfl

/-- With the events grant alone a peer can tell two desktops apart. -/
theorem not_structureHidden_of_events {config : Config} {uid : Nat} {hello : Hello}
    {granted : List Capability} (hmax : 0 < config.maxRequests)
    (hcompatible : hello.isCompatible = true)
    (hgranted : config.granted uid hello.requested.asSlice = some granted)
    (hevents : .observeEvents ∈ granted) : ¬ StructureHidden config uid hello := by
  intro hidden
  have hauth : authorized (.eventsSubscribe ⟨.empty⟩) granted = true := by
    simp [authorized, Call.requiredCapability, needsStructure, isApplicationLaunch, hevents]
  have hfirst (scene : Scene) {outcome : Outcome}
      (houtcome : (markedCall (plainOutside 1 fun _ => scene)
        (contextFor config ⟨1, by decide⟩ granted ⟨1⟩) (.eventsSubscribe ⟨.empty⟩) freshHost).1 =
          .ok outcome) :=
    plainPeer_first (markedCall (plainOutside 1 fun _ => scene)) ⟨1, by decide⟩ 0 hello
      ⟨⟨1, by decide⟩, .eventsSubscribe ⟨.empty⟩⟩ freshHost (by decide) hcompatible hgranted hmax
      hauth houtcome
  have hempty := hfirst emptyScene (markedCall_subscribe ..)
  have hbroken := hfirst brokenScene (markedCall_subscribe ..)
  have hsame := hidden (plainPeer uid 1 [.hello hello, .request ⟨⟨1, by decide⟩,
    .eventsSubscribe ⟨.empty⟩⟩]) ⟨1, by decide⟩ 0 (plainOutside 1 fun _ => emptyScene)
    (plainOutside 1 fun _ => brokenScene) (plainPeer_presents _ _ _ _) fun _ => ⟨fun _ => rfl, fun _ => rfl⟩
  unfold conversation at hsame
  unfold answers at hempty hbroken
  rw [hsame, hbroken] at hempty
  have houtcome := congrArg Response.outcome (Option.some.inj hempty)
  obtain ⟨e, he⟩ := subscribe_brokenScene
    (contextFor config ⟨1, by decide⟩ granted ⟨1⟩).exposure granted
  have hok := subscribe_emptyScene (contextFor config ⟨1, by decide⟩ granted ⟨1⟩).exposure granted
  have hdiffer : outcomeOf .subscribed (.error e) = outcomeOf .subscribed (.ok ⟨0⟩) := by
    rw [← he, ← hok]
    exact houtcome
  exact Outcome.noConfusion hdiffer

/-- For a validated policy: if the welcome does not grant `observe_structure`, the session hides the
    desktop exactly if `observe_events` was not granted either (or there was no welcome). -/
theorem structure_hidden_iff {raw : RawConfig} {providerUid : Nat} {config : Config}
    (valid : raw.validate providerUid = .ok config) (uid : Nat) (hello : Hello) :
    ((∀ granted, config.granted uid hello.requested.asSlice = some granted →
        .observeStructure ∉ granted) → StructureHidden config uid hello) ↔
      ¬ (hello.isCompatible = true ∧ ∃ granted,
        config.granted uid hello.requested.asSlice = some granted ∧
          .observeStructure ∉ granted ∧ .observeEvents ∈ granted) := by
  constructor
  · rintro hidden ⟨hcompatible, granted, hgranted, hstructure, hevents⟩
    refine not_structureHidden_of_events (RawConfig.validate_maxRequests valid).1 hcompatible
      hgranted hevents (hidden fun granted' hgranted' => ?_)
    rw [hgranted, Option.some.injEq] at hgranted'
    rwa [← hgranted']
  · intro hnever hstructure
    refine structureHidden_of_no_events fun hcompatible granted hgranted => ?_
    have hnone := hstructure granted hgranted
    exact ⟨hnone, fun hevents => hnever ⟨hcompatible, granted, hgranted, hnone, hevents⟩⟩

/-- A policy that grants structure and events to its own user. -/
def eventsRaw : RawConfig where
  enabled := true
  grant := some ⟨1000, ⟨[.observeStructure, .observeEvents], by decide⟩⟩
  observation := { clients := .allWorkspaces }

def eventsConfig : Config :=
  plainConfig 1000 ⟨[.observeStructure, .observeEvents], by decide⟩

/-- Asked for events only, the policy grants events only, and the session tells about the desktop. -/
theorem structure_hidden_iff_events :
    ¬ ((∀ granted, eventsConfig.granted 1000 [.observeEvents] = some granted →
        .observeStructure ∉ granted) →
      StructureHidden eventsConfig 1000 (helloFor ⟨[.observeEvents], by decide⟩)) ∧
    StructureHidden eventsConfig 1000 (helloFor ⟨[.launchList], by decide⟩) := by
  have hvalid : eventsRaw.validate 1000 = .ok eventsConfig := rfl
  refine ⟨fun hidden => (structure_hidden_iff hvalid 1000 (helloFor ⟨[.observeEvents], by decide⟩)).mp
    hidden ⟨rfl, [.observeEvents], rfl, by decide, by decide⟩,
    (structure_hidden_iff hvalid 1000 (helloFor ⟨[.launchList], by decide⟩)).mpr ?_ ?_⟩
  · rintro ⟨-, granted, hgranted, -, hevents⟩
    have hnone : ([] : List Capability) = granted := Option.some.inj hgranted
    simp [← hnone] at hevents
  · intro granted hgranted
    have hnone : ([] : List Capability) = granted := Option.some.inj hgranted
    simp [← hnone]

/-- A window appears after the first call. -/
def appearing (trace : List Provider.Step) : Scene :=
  if trace.length < 4 then emptyScene else ⟨0, [⟨10, 0, 20⟩], none32⟩

/-- The events a response carries. -/
def eventsOf (response : Response) : List Event :=
  match response.outcome with
  | .ok (.events batch) => batch.events.asSlice.map EventEnvelope.event
  | _ => []

/-- A peer that asked for `observe_events` only subscribes, polls, and gets the descriptor of a
    window. -/
theorem structure_leaks_through_events :
    eventsRaw.validate 1000 = .ok eventsConfig ∧
    eventsConfig.granted 1000 [.observeEvents] = some [.observeEvents] ∧
    ¬ StructureHidden eventsConfig 1000 (helloFor ⟨[.observeEvents], by decide⟩) ∧
    (answers (conversation (plainPeer 1000 1 [.hello (helloFor ⟨[.observeEvents], by decide⟩),
        .request ⟨⟨1, by decide⟩, .eventsSubscribe ⟨.empty⟩⟩,
        .request ⟨⟨2, by decide⟩, .eventsPoll ⟨0, 8, 0⟩⟩])
      (markedCall (plainOutside 1 appearing)) eventsConfig ⟨1, by decide⟩ 0 freshHost)).map eventsOf =
      [[], [.clientAdded ⟨⟨1, by decide⟩, 0, none, some 0, some ⟨0, 0, 20, 10⟩, .empty,
        ⟨[.activate], by decide⟩⟩]] :=
  ⟨rfl, rfl, not_structureHidden_of_events (by decide) rfl rfl (.head _), by decide +kernel⟩

end AgentSeat.Session
