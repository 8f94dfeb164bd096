/-
  The part of the provider that injects nothing: refreshes, selection transfers, management,
  observation, capture and launching.

  Each program is shown to append entries of its kind only, and to move the observer by refreshes
  and queue changes. `Quiet` programs may run under a grab someone else holds; `Silent` ones may also
  take grabs of their own and send messages, but never an XTEST event.
-/
import AgentSeat.Provider.Calls

namespace AgentSeat.Provider

open AgentSeat.Lib AgentSeat.Proto AgentSeat.X11 AgentSeat.Seat

/-! ## Programs without input -/

/-- No input, and not the begin of a call. -/
def Silent : Step → Prop
  | .said (.fakeInput _) _ | .mark (.began _) => False
  | _ => True

theorem Quiet.silent {e : Step} (h : Quiet e) : Silent e := by
  cases e with
  | said q a => cases q <;> trivial
  | mark m => cases m <;> trivial

section Silent

variable {env : Outside} {α : Type}

theorem reply_utters {A : Step → Prop} {request : XM (Except XFault α)}
    (h : Utters Moves A request) (onSend onReply : String) :
    Utters Moves A (reply onSend onReply request) :=
  Utters.bind h fun _ => Utters.lift _

theorem Finds.utters {m : XM α} {F : α → List Step → Prop} (h : Finds m F) :
    Utters Moves Quiet m :=
  Learns.utters h

theorem utters_silent {m : XM α} (h : Utters Moves Quiet m) : Utters Moves Silent m :=
  Tells.weaken h (fun _ => Quiet.silent) (fun _ => id) fun _ _ _ => id

theorem underServerGrab_utters {A : Step → Prop} (hgrab : ∀ a, A (asked .grabServer a))
    (hungrab : ∀ a, A (asked .ungrabServer a)) {action : XM α} (h : Utters Moves A action) :
    Utters Moves A (underServerGrab env action) := by
  unfold underServerGrab
  refine Utters.bind (reply_utters (Utters.ask hgrab) _ _) fun _ => ?_
  refine Utters.bind (Utters.attempt h) fun _ => ?_
  exact Utters.bind (Utters.ask hungrab) fun _ => Utters.lift _

theorem underServerGrab_silent {action : XM α} (h : Utters Moves Silent action) :
    Utters Moves Silent (underServerGrab env action) :=
  underServerGrab_utters (fun _ => trivial) (fun _ => trivial) h

theorem refresh_quiet : Utters Moves Quiet (refresh env) := (refresh_learns env).utters

theorem selectionOwner_quiet (message : String) :
    Utters Moves Quiet (selectionOwner env message) :=
  reply_utters (Utters.ask fun _ => trivial) _ _

theorem claimTransferSelection_quiet (owner : Window) :
    Utters Moves Quiet (claimTransferSelection env owner) := by
  unfold claimTransferSelection
  refine Utters.bind (reply_utters (Utters.ask fun _ => trivial) _ _) fun _ => ?_
  exact Utters.bind (selectionOwner_quiet _) fun _ => Utters.lift _

theorem requireXresClientIdentity_quiet (window : Window) :
    Utters Moves Quiet (requireXresClientIdentity env window) := by
  unfold requireXresClientIdentity
  refine Utters.bind (reply_utters (Utters.ask fun _ => trivial) _ _) fun _ => ?_
  refine Utters.bind (Utters.lift _) fun _ => ?_
  exact Utters.bind (reply_utters (Utters.ask fun _ => trivial) _ _) fun _ => Utters.lift _

theorem notifySelection_quiet (request : SelectionRequestEvent) (property : Atom) :
    Utters Moves Quiet (notifySelection env request property) :=
  reply_utters (Utters.ask fun _ => trivial) _ _

theorem synchronize_quiet (message : String) : Utters Moves Quiet (synchronize env message) :=
  reply_utters (Utters.ask fun _ => trivial) _ _

theorem refuseSelection_quiet (request : SelectionRequestEvent) (message : String) :
    Utters Moves Quiet (refuseSelection env request message) :=
  Utters.bind (notifySelection_quiet _ _) fun _ => Utters.bind (synchronize_quiet _) fun _ =>
    Utters.pure _

/-- A property written for the requestor, the notification and the synchronization. -/
theorem serve_quiet {request : SelectionRequestEvent} {type : Atom} {data : PropertyData}
    {onSend onReply message : String} {written : Bool} :
    Utters Moves Quiet (do
      reply onSend onReply (Dialogue.ask env
        (.changeProperty request.requestor (answerProperty request) type data))
      notifySelection env request (answerProperty request)
      synchronize env message
      pure written : XM Bool) :=
  Utters.bind (reply_utters (Utters.ask fun _ => trivial) _ _) fun _ =>
    Utters.bind (notifySelection_quiet _ _) fun _ => Utters.bind (synchronize_quiet _) fun _ =>
      Utters.pure _

theorem this_quiet {A : Step → Prop} (f : Observer → α) : Utters Moves A (this f) :=
  Utters.read fun s : State => f s.observer

theorem serveSelection_quiet (request : SelectionRequestEvent) (owner : Window)
    (text : List UInt8) : Utters Moves Quiet (serveSelection env request owner text) := by
  unfold serveSelection
  refine Utters.bind (selectionOwner_quiet _) fun _ => Utters.bind (this_quiet _) fun atoms => ?_
  split
  · exact Utters.pure _
  · split
    · exact serve_quiet
    · split
      · exact serve_quiet
      · exact refuseSelection_quiet _ _

theorem selectionAction_quiet (t : Transfer) (request : SelectionRequestEvent) :
    Utters Moves Quiet (selectionAction env t request) := by
  unfold selectionAction
  refine Utters.bind (freshTarget_finds _).utters fun _ => ?_
  refine Utters.bind (requireFocusOwnedBy_finds _).utters fun _ => ?_
  refine Utters.bind (accepts_finds _).utters fun _ => ?_
  split
  · refine Utters.bind ?_ fun same => ?_
    · exact Utters.bind (requireXresClientIdentity_quiet _) fun _ =>
        Utters.bind (requireXresClientIdentity_quiet _) fun _ => Utters.pure _
    · split
      · exact serveSelection_quiet _ _ _
      · exact refuseSelection_quiet _ _
  · exact Utters.pure _

theorem evidenceAction_quiet (t : Transfer) : Utters Moves Quiet (evidenceAction env t) := by
  unfold evidenceAction
  refine Utters.bind (freshTarget_finds _).utters fun _ => ?_
  refine Utters.bind (requireFocusOwnedBy_finds _).utters fun _ => ?_
  refine Utters.bind (accepts_finds _).utters fun _ => ?_
  split
  · exact Utters.bind (selectionOwner_quiet _) fun _ => Utters.pure _
  · exact Utters.pure _

theorem serveEvents_silent (t : Transfer) (clipboard : Atom) (events requests : Nat)
    (delivered : Bool) :
    Utters Moves Silent (serveEvents env t clipboard events requests delivered) := by
  induction events generalizing requests delivered with
  | zero =>
    unfold serveEvents
    refine Utters.bind (reply_utters (Utters.ask fun _ => trivial) _ _) fun pending => ?_
    cases pending with
    | none => exact Utters.pure _
    | some event => exact Utters.pure _
  | succ events ih =>
    unfold serveEvents
    refine Utters.bind (reply_utters (Utters.ask fun _ => trivial) _ _) fun pending => ?_
    cases pending with
    | none => exact Utters.pure _
    | some event =>
      cases event with
      | selectionClear owner selection =>
        dsimp only
        split
        · exact Utters.pure _
        · exact ih _ _
      | selectionRequest request =>
        dsimp only
        split
        · split
          · exact Utters.pure _
          · exact Utters.bind
              (underServerGrab_silent (utters_silent (selectionAction_quiet _ _))) fun _ => ih _ _
        · exact ih _ _
      | other => exact ih _ _

theorem waitRounds_silent (t : Transfer) (clipboard : Atom) (bytes rounds : Nat)
    (serving : Serving) :
    Utters Moves Silent (waitRounds env t clipboard bytes rounds serving) := by
  have hevidence : Utters Moves Silent (transferEvidenceIsCurrent env t) :=
    Utters.bind (Utters.attempt (underServerGrab_silent (utters_silent (evidenceAction_quiet t))))
      fun _ => Utters.pure _
  induction rounds generalizing serving with
  | zero =>
    unfold waitRounds
    refine Utters.bind (serveEvents_silent _ _ _ _ _) fun served => ?_
    cases served with
    | none => exact Utters.pure _
    | some serving =>
      refine Utters.bind hevidence fun current => ?_
      split
      · exact Utters.pure _
      · refine Utters.bind (Utters.ask fun _ => trivial) fun settled => ?_
        split
        · exact Utters.pure _
        · exact Utters.pure _
  | succ rounds ih =>
    unfold waitRounds
    refine Utters.bind (serveEvents_silent _ _ _ _ _) fun served => ?_
    cases served with
    | none => exact Utters.pure _
    | some serving =>
      refine Utters.bind hevidence fun current => ?_
      split
      · exact Utters.pure _
      · refine Utters.bind (Utters.ask fun _ => trivial) fun settled => ?_
        split
        · exact Utters.pure _
        · exact Utters.bind (reply_utters (Utters.ask fun _ => trivial) _ _) fun _ => ih _

theorem afterOffer_silent (t : Transfer) (bytes : Nat) (offered : Except Failure Bool) :
    Utters Moves Silent (afterOffer env t bytes offered) := by
  unfold afterOffer
  split
  · refine Utters.bind (Utters.ask fun _ => trivial) fun deadline => ?_
    refine Utters.bind (this_quiet _) fun clipboard => ?_
    split
    · exact Utters.fail _
    · exact waitRounds_silent _ _ _ _ _
  · exact Utters.pure _
  · exact Utters.fail _

theorem createTransferOwner_silent : Utters Moves Silent (createTransferOwner env) :=
  Utters.bind (reply_utters (Utters.ask fun _ => trivial) _ _) fun _ =>
    Utters.bind (reply_utters (Utters.ask fun _ => trivial) _ _) fun _ => Utters.pure _

theorem releaseTransferOwner_silent (owner : Window) :
    Utters Moves Silent (releaseTransferOwner env owner) := by
  have hrelease : Utters Moves Quiet (releaseSelection env owner) := by
    unfold releaseSelection
    refine Utters.bind (selectionOwner_quiet _) fun current => ?_
    refine Utters.bind ?_ fun _ => reply_utters (Utters.ask fun _ => trivial) _ _
    unfold Prog.onlyIf
    split
    · exact reply_utters (Utters.ask fun _ => trivial) _ _
    · exact Utters.pure _
  unfold releaseTransferOwner
  refine Utters.bind (reply_utters (Utters.ask fun _ => trivial) _ _) fun _ => ?_
  refine Utters.bind (Utters.attempt (utters_silent hrelease)) fun _ => ?_
  refine Utters.bind (Utters.ask fun _ => trivial) fun _ => ?_
  exact Utters.bind (Utters.lift _) fun _ => utters_silent (synchronize_quiet _)

theorem sendPrepared_silent (operation : Operation) :
    Utters Moves Silent (sendPrepared env operation) := by
  unfold sendPrepared
  refine Utters.bind (utters_silent refresh_quiet) fun _ => ?_
  refine Utters.bind (Utters.ask fun _ => trivial) fun _ => Utters.bind (this_quiet _) fun _ => ?_
  refine Utters.bind (Utters.lift _) fun _ => ?_
  exact Utters.bind (reply_utters (Utters.ask fun _ => trivial) _ _) fun _ => Utters.pure _

theorem observeTerminal_quiet (desired : Desired) :
    Utters Moves Quiet (observeTerminal env desired) := by
  have hsample : Utters Moves Quiet (sampleTerminal env desired) :=
    Utters.bind (Utters.attempt refresh_quiet) fun _ =>
      Utters.bind (this_quiet _) fun _ => Utters.pure _
  refine Utters.bind (Utters.ask fun _ => trivial) fun (rounds : Nat) => ?_
  induction rounds with
  | zero => exact Utters.bind hsample fun _ => Utters.pure _
  | succ rounds ih =>
    refine Utters.bind hsample fun seen => ?_
    obtain ⟨seen, sequence⟩ := seen
    cases seen with
    | none => exact ih
    | some observation => exact Utters.pure _

theorem manage_silent (operation : Operation) : Utters Moves Silent (manage env operation) := by
  unfold manage
  refine Utters.bind (reply_utters (Utters.ask fun _ => trivial) _ _) fun _ => ?_
  refine Utters.bind (Utters.attempt (sendPrepared_silent _)) fun _ => ?_
  refine Utters.bind (Utters.ask fun _ => trivial) fun _ => ?_
  refine Utters.bind (Utters.ask fun _ => trivial) fun _ => Utters.bind (Utters.lift _) fun _ => ?_
  refine Utters.bind (Utters.lift _) fun _ => Utters.bind (Utters.lift _) fun _ => ?_
  exact utters_silent (observeTerminal_quiet _)

/-! ## Methods -/

/-- Every call of the observing part moves the observer by its refreshes and its queue. -/
theorem exec_moves (op : Op) (s : State) : Moves s (op.exec s).2 :=
  Op.exec_keeps (fun _ => .refl) (fun _ _ _ => Relation.ReflTransGen.trans)
    (fun sample s => .single (.refresh sample s)) (fun s => .single (.settle s))
    (fun kinds s => .single (.resubscribe kinds s)) (fun after s => .single (.drain after s)) op s

theorem markRefreshed_quiet (o : Observer) : Utters Moves Quiet (markRefreshed o) := by
  unfold markRefreshed
  split
  · exact Utters.write trivial
  · exact Utters.pure _

theorem snapshot_quiet : Utters Moves Quiet (snapshot env) :=
  Utters.bind (Utters.ask fun _ => trivial) fun sample =>
    Utters.bind (Utters.within fun s => exec_moves (.snapshot sample) s) fun _ =>
      Utters.bind (this_quiet _) fun _ => Utters.bind (markRefreshed_quiet _) fun _ =>
        Utters.pure _

theorem subscribe_quiet (request : SubscribeRequest) :
    Utters Moves Quiet (subscribe env request) :=
  Utters.bind (Utters.ask fun _ => trivial) fun sample =>
    Utters.bind (Utters.within fun s => exec_moves (.subscribe request.kinds.asSlice sample) s)
      fun _ => Utters.bind (this_quiet _) fun _ => Utters.bind (markRefreshed_quiet _) fun _ =>
        Utters.pure _

theorem poll_quiet (request : PollRequest) : Utters Moves Quiet (poll env request) :=
  Utters.bind (Utters.ask fun _ => trivial) fun samples =>
    Utters.within fun s => exec_moves (.poll request.after request.limit samples.1 samples.2) s

theorem readTargetPixels_quiet (request : TargetRequest) (region : Option CaptureRegion) :
    Utters Moves Quiet (readTargetPixels env request region) := by
  unfold readTargetPixels
  refine Utters.bind (freshTarget_finds _).utters fun _ => Utters.bind (this_quiet _) fun _ => ?_
  refine Utters.bind (Utters.lift _) fun _ => ?_
  refine Utters.bind (reply_utters (Utters.ask fun _ => trivial) _ _) fun _ => ?_
  refine Utters.bind (Utters.lift _) fun _ => ?_
  exact Utters.bind (Utters.ask fun _ => trivial) fun _ => Utters.lift _

/-- What both capture calls do: read under a grab, then encode. -/
theorem capture_silent {β : Type} {request : TargetRequest} {region : Option CaptureRegion}
    {wrap : RawCapture → CaptureData → β} :
    Utters Moves Silent (do
      let raw ← underServerGrab env (readTargetPixels env request region)
      let data ← encoded env raw
      pure (wrap raw data) : XM β) :=
  Utters.bind (underServerGrab_silent (utters_silent (readTargetPixels_quiet _ _))) fun _ =>
    Utters.bind (Utters.bind (Utters.ask fun _ => trivial) fun _ => Utters.lift _) fun _ =>
      Utters.pure _

theorem launchBaseline_quiet : Utters Moves Quiet (launchBaseline env) :=
  Utters.bind refresh_quiet fun _ => this_quiet _

theorem correlateLaunch_quiet (baseline : List Window) (startupId : List UInt8) :
    Utters Moves Quiet (correlateLaunch env baseline startupId) := by
  have hsample : Utters Moves Quiet (sampleLaunch env baseline startupId) :=
    Utters.bind refresh_quiet fun _ => Utters.bind (Utters.ask fun _ => trivial) fun _ =>
      Utters.bind (this_quiet _) fun _ => Utters.pure _
  refine Utters.bind (Utters.ask fun _ => trivial) fun (rounds : Nat) => ?_
  induction rounds with
  | zero => exact hsample
  | succ rounds ih =>
    refine Utters.bind hsample fun client => ?_
    cases client with
    | none => exact ih
    | some id => exact Utters.pure _

end Silent

end AgentSeat.Provider
