/-
  Plain surroundings: a peer that sends given messages to a session whose gate stays open, and an
  outside that shows a plain desktop and grants every request. They show that the hypotheses of the
  results about sessions can be met, and they carry the sessions that tell two desktops apart.

  Main result:
  * `plainPeer_first`: an authorized first request of a plain peer is answered with the outcome of
    the provider.
-/
import AgentSeat.Observer.Plain
import AgentSeat.Session.Grammar

namespace AgentSeat.Session

open AgentSeat.Lib AgentSeat.Proto AgentSeat.Provider AgentSeat.Seat AgentSeat.X11

/-! ## The outside -/

/-- What can be seen on a plain desktop. -/
structure Scene where
  current : Nat
  windows : List PlainWindow
  active : Window

/-- A server with the Composite extension that grants every request. -/
def plainComposite : Composite where
  queryVersion := .ok (0, 4)
  windowAttributes _ := .ok ()
  unredirect _ := .ok ()
  redirect _ := .ok ()
  order windows := windows
  order_perm _ := List.Perm.refl _

def Scene.sample (scene : Scene) : Sample :=
  ⟨plainDesktop scene.current scene.windows scene.active, plainComposite⟩

/-- An outside whose desktop depends on what was said, and that grants every request at once. There
    is no XKB extension and nothing to launch. -/
def plainOutside (gate : Nat) (scene : List Provider.Step → Scene) : Outside := fun trace question =>
  match question with
  | .sample => (scene trace).sample
  | .samples => ((scene trace).sample, [])
  | .desktop => (scene trace).sample.desktop
  | .rounds => (0 : Nat)
  | .transferRounds => none
  | .settled => true
  | .seatLoad => gate
  | .grabServer | .ungrabServer | .flush | .sync | .sendMessage .. | .fakeInput _
  | .createWindow _ | .destroyWindow _ | .setSelectionOwner _ | .changeProperty ..
  | .notifySelection _ | .pollStream => .ok ()
  | .getInputFocus => .ok (scene trace).active
  | .generateId | .getSelectionOwner => .ok none32
  | .queryTree window =>
    .ok ⟨plainRoot, if window = plainRoot then (scene trace).windows.map PlainWindow.xid else []⟩
  | .getWindowAttributes _ => .ok true
  | .xkbUseExtension => .ok false
  | .getGeometry window => (scene trace).sample.desktop.getGeometry window
  | .translateCoordinates source destination x y =>
    (scene trace).sample.desktop.translateCoordinates source destination x y
  | .shapeGetRectangles window =>
    .ok (((scene trace).windows.filter fun w => w.xid = window).map fun w => ⟨0, 0, w.width, 10⟩)
  | .xkbGetState | .xkbGetMap | .resQueryVersion | .resQueryClientIds _ => .error .reply
  | .pollForEvent => .ok none
  | .readPixels .. | .encodeCapture _ => .error (Failure.unavailable "there are no pixels")
  | .connect => .ok (plainRoot, plainAtoms)
  | .listApplications _ | .launch _ => .error ⟨.unavailable, .never, "there is no launcher"⟩

/-! ## The peer -/

/-- A peer with a UID that sends its messages one after the other and then leaves. Its gate shows
    one word throughout. -/
def plainPeer (uid gate : Nat) (messages : List ClientMessage) : Peer := fun trace question =>
  match question with
  | .boundIo | .writeFrame _ => .ok ()
  | .peerCredentials => .ok uid
  | .readFrame => .ok ((messages[(received trace).length]?.map ReadFrame.message).getD .cleanEof)
  | .seatLoad => gate
  | .claimSlot | .stopping => false
  | .releaseSlot => ()
  | .pollStream => .ok true

/-- A hello that asks for the given capabilities. -/
def helloFor (requested : BoundedList Capability maxCapabilities) : Hello :=
  ⟨⟨"agent-seat", by decide⟩, 9, ⟨⟨"peer", by decide⟩, ⟨"1", by decide⟩, ⟨"", by decide⟩⟩, requested⟩

/-- A policy that grants the capabilities to one user and shows all windows without titles. -/
def plainConfig (uid : Nat) (capabilities : BoundedList Capability maxPolicyCapabilities) :
    Config where
  maxSessions := 4
  maxRequests := 1024
  ioTimeoutMs := 2000
  grant := some ⟨uid, capabilities⟩
  observation := ⟨.allWorkspaces, false⟩
  launch := ⟨.deny, .empty, .empty, false⟩
  input := ⟨false⟩

theorem features_length (granted : List Capability) : (features granted).length ≤ maxFeatures := by
  unfold features maxFeatures
  simp only [List.length_append]
  repeat' split
  all_goals simp

theorem welcomeFor_ok (session : SessionId) {granted : List Capability}
    (h : granted.length ≤ maxCapabilities) : ∃ welcome, welcomeFor session granted = .ok welcome := by
  unfold welcomeFor
  rw [BoundedList.new_of_le h]
  have hfeatures := BoundedList.new_of_le (features_length granted)
  simp only [Except.mapError, bind, Except.bind]
  rw [hfeatures]
  exact ⟨_, rfl⟩

theorem granted_length {config : Config} {uid : Nat}
    {requested : BoundedList Capability maxCapabilities} {granted : List Capability}
    (h : config.granted uid requested.asSlice = some granted) :
    granted.length ≤ maxCapabilities := by
  unfold Config.granted at h
  obtain ⟨grant, -, rfl⟩ := Option.map_eq_some_iff.mp h
  exact Nat.le_trans (List.length_filter_le _ _) requested.bound

section First

variable {P : Type} (provider : Provides P) {config : Config} (session : SessionId)
  (patience : Nat) {uid gate : Nat} {hello : Hello} {request : Request}
  {granted : List Capability}

theorem accepts_open (hgate : isEnabled gate = true) : Seat.accepts gate ⟨gate⟩ = true := by
  simpa [Seat.accepts] using hgate

/-- A plain peer with a grant is admitted. -/
theorem plainPeer_admitted (messages : List ClientMessage) (start : P)
    (hgate : isEnabled gate = true) (hcompatible : hello.isCompatible = true)
    (hgranted : config.granted uid hello.requested.asSlice = some granted) :
    run (plainPeer uid gate (.hello hello :: messages)) provider config session patience
        ⟨start, []⟩ =
      admitted (plainPeer uid gate (.hello hello :: messages)) provider config session patience
        ⟨gate⟩ granted ⟨start, opening uid hello gate gate⟩ := by
  have hload (w : Dialogue Question.Answer Mark P) :
      seatLoad (plainPeer uid gate (.hello hello :: messages)) w =
        (.ok gate, ⟨w.state, w.trace ++ [.said .seatLoad gate]⟩) := rfl
  have hopened : run (plainPeer uid gate (.hello hello :: messages)) provider config session
      patience ⟨start, []⟩ = opened (plainPeer uid gate (.hello hello :: messages)) provider config
        session patience uid hello ⟨start, greeting uid hello⟩ := rfl
  have hpermit : permitOf gate = some ⟨gate⟩ := if_pos hgate
  rw [hopened]
  unfold opened
  rw [if_neg (by simp [hcompatible]), Prog.bind_ok (hload _), hpermit]
  dsimp only
  rw [hgranted]
  dsimp only
  rw [Prog.bind_ok (hload _), if_pos (accepts_open hgate)]
  rfl

/-- The loop answers the first request of a plain peer. -/
theorem plainPeer_serve (uid : Nat) (hello : Hello) (w : Dialogue Question.Answer Mark P)
    {outcome : Outcome} (left : Nat) (context : SessionContext) (hpermit : Seat.accepts gate context.permit = true)
    (hreceived : (received w.trace).length = 1)
    (hauth : authorized request.call context.granted = true)
    (houtcome : (provider context request.call w.state).1 = .ok outcome) :
    ∃ added, (serve (plainPeer uid gate [.hello hello, .request request]) provider context patience
        false (left + 1) w).2.trace =
      w.trace ++ asking context request gate ++
        .said (.writeFrame (.response ⟨request.id, outcome⟩)) (.ok ()) :: added := by
  have hread : readRequest (plainPeer uid gate [.hello hello, .request request]) w =
      (.ok (.message (.request request)),
        ⟨w.state, w.trace ++ [.said .readFrame (asRequest request)]⟩) := by
    have hframe : plainPeer uid gate [.hello hello, .request request] w.trace .readFrame =
        asRequest request := by
      unfold plainPeer
      dsimp only
      rw [hreceived]
      rfl
    rw [readRequest_eq, hframe]
    rfl
  have hload : seatLoad (plainPeer uid gate [.hello hello, .request request])
      ⟨w.state, w.trace ++ [.said .readFrame (asRequest request)]⟩ = (.ok gate, ⟨w.state, w.trace ++
        [.said .readFrame (asRequest request)] ++ [.said .seatLoad gate]⟩) := rfl
  have hwait : waitIfPersistent (plainPeer uid gate [.hello hello, .request request]) patience false
      w = (.ok true, w) := rfl
  unfold serve
  rw [Prog.bind_ok hwait, if_pos rfl, Prog.bind_ok hread]
  dsimp only
  unfold answer
  have hhandle := handle_authorized provider context
    ⟨w.state, w.trace ++ [.said .readFrame (asRequest request)] ++ [.said .seatLoad gate]⟩ hauth
    houtcome
  dsimp only at hhandle
  rw [Prog.bind_ok hload, if_pos hpermit, Prog.bind_ok hhandle]
  have hwrite (w' : Dialogue Question.Answer Mark P) :
      writeFrame (plainPeer uid gate [.hello hello, .request request])
        "cannot write session response: " (.response ⟨request.id, outcome⟩) w' =
      (.ok (), ⟨w'.state, w'.trace ++
        [.said (.writeFrame (.response ⟨request.id, outcome⟩)) (.ok ())]⟩) := rfl
  rw [Prog.bind_ok (hwrite _)]
  obtain ⟨added, -, hrun⟩ := serve_run (plainPeer uid gate [.hello hello, .request request]) provider
    context patience ⟨(provider context request.call w.state).2, w.trace ++
      [.said .readFrame (asRequest request)] ++ [.said .seatLoad gate] ++
      [.mark (.invoked request.call)] ++
      [.said (.writeFrame (.response ⟨request.id, outcome⟩)) (.ok ())]⟩ false left
  rw [hrun]
  refine ⟨added, ?_⟩
  unfold asking
  rw [if_pos hauth]
  simp

/-- An authorized first request of a plain peer is answered with what the provider makes of it. -/
theorem plainPeer_first (hello : Hello) (request : Request) (start : P) {outcome : Outcome}
    (hgate : isEnabled gate = true) (hcompatible : hello.isCompatible = true)
    (hgranted : config.granted uid hello.requested.asSlice = some granted)
    (hmax : 0 < config.maxRequests) (hauth : authorized request.call granted = true)
    (houtcome : (provider (contextFor config session granted ⟨gate⟩) request.call start).1 =
      .ok outcome) :
    (answers (run (plainPeer uid gate [.hello hello, .request request]) provider config session
      patience ⟨start, []⟩).2.trace).head? = some ⟨request.id, outcome⟩ := by
  rw [plainPeer_admitted provider session patience _ start hgate hcompatible hgranted]
  obtain ⟨before, hclaim, hbefore⟩ : ∃ before,
      claim (plainPeer uid gate [.hello hello, .request request])
        config.input.providerPrivateDevices ⟨start, opening uid hello gate gate⟩ =
        (.ok false, ⟨start, opening uid hello gate gate ++ before⟩) ∧ ∀ e ∈ before, Aside e := by
    cases config.input.providerPrivateDevices with
    | true => exact ⟨_, rfl, by simp [Aside]⟩
    | false => exact ⟨[], rfl, by simp⟩
  obtain ⟨welcome, hwelcome⟩ := welcomeFor_ok session (granted_length hgranted)
  obtain ⟨left, hleft⟩ : ∃ left, config.maxRequests = left + 1 := ⟨_, (Nat.succ_pred_eq_of_pos hmax).symm⟩
  unfold admitted
  rw [Prog.bind_ok hclaim]
  obtain ⟨after, hrelease, hafter⟩ := attempt_release_run
    (plainPeer uid gate [.hello hello, .request request])
    ⟨start, opening uid hello gate gate ++ before⟩ (welcomed
      (plainPeer uid gate [.hello hello, .request request]) provider config session patience ⟨gate⟩
      granted false) false
  rw [hrelease]
  have hgrants := welcomeFor_granted hwelcome
  have hlift (w : Dialogue Question.Answer Mark P) :
      (Prog.lift ((welcomeFor session granted).mapError Halt.failed) : SM P Welcome) w =
        (.ok welcome, w) := by
    rw [hwelcome]
    rfl
  have hwrite (w : Dialogue Question.Answer Mark P) :
      writeFrame (plainPeer uid gate [.hello hello, .request request])
        "cannot write session welcome: " (.welcome welcome) w =
      (.ok (), ⟨w.state, w.trace ++ [.said (.writeFrame (.welcome welcome)) (.ok ())]⟩) := rfl
  unfold welcomed
  rw [Prog.bind_ok (hlift _), Prog.bind_ok (hwrite _), hgrants, hleft]
  obtain ⟨hwritten, hreceived, -⟩ :=
    @prelude_read uid hello gate gate welcome before hbefore (.ok ()) []
  obtain ⟨added, hserve⟩ := plainPeer_serve provider patience uid hello
    ⟨start, opening uid hello gate gate ++ before ++
      [.said (.writeFrame (.welcome welcome)) (.ok ())]⟩ left
    (contextFor config session granted ⟨gate⟩) (accepts_open hgate) (by rw [hreceived]; rfl) hauth
    houtcome
  have hprelude : answers (opening uid hello gate gate ++ before ++
      [.said (.writeFrame (.welcome welcome)) (.ok ())]) = [] := by
    unfold answers
    rw [hwritten]
    rfl
  have hasking : answers
      (asking (contextFor config session granted ⟨gate⟩) request gate) = [] := by
    unfold answers
    rw [(asking_read _ request gate).1]
    rfl
  rw [hserve, answers_append, answers_append, answers_append, hprelude, hasking]
  rfl

end First

end AgentSeat.Session
