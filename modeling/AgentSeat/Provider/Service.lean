/-
  The grammar of a text transfer.

  The trace of `text_insert` has a fixed shape: a window is created, the selection is offered, events
  are served, and the window is released. `Serves` is the grammar of the service, with the events it
  may still take, the requests it has taken and whether the text was delivered; a request of the
  owned selection is handled in one grab of its own (`Handling`). `Release` is the grammar of the
  clean-up.

  Main result: `textInsert_inserts`. Every run speaks this grammar.
-/
import AgentSeat.Provider.Boundary
import AgentSeat.Provider.Looks

namespace AgentSeat.Provider

open AgentSeat.Lib AgentSeat.Proto AgentSeat.X11 AgentSeat.Seat

/-! ## What a write needs -/

/-- An X-Resource query among the entries gave `client` for the window. -/
def ClientOf (window : Window) (client : Nat) (entries : List Step) : Prop :=
  ∃ ids, .said (.resQueryClientIds window) (.ok ids) ∈ entries ∧
    (ids.find? fun value => value.mask == clientXidMask && value.value.isEmpty).map
      ClientIdValue.client = some client

/-- The five checks before the text is written to a window: the target's id and generation match a
    refresh, the target owns the focus, the seat accepted the permit, the request's own window owns
    the clipboard, and the window belongs to the target's X client. -/
def Verified (t : Transfer) (requestor : Window) (grab : List Step) : Prop :=
  ∃ xid client, Fresh t.target xid grab ∧ FocusOwned xid grab ∧ Accepted t.permit grab ∧
    ClientOf xid client grab ∧ ClientOf requestor client grab ∧
    .said .getSelectionOwner (.ok t.owner) ∈ grab

/-- A write of bytes to a property. -/
abbrev wrote (window : Window) (property type : Atom) (data : List UInt8)
    (answer : Except XFault Unit) : Step :=
  .said (.changeProperty window property type (.bytes data)) answer

abbrev polled (event : XEvent) : Step := .said .pollForEvent (.ok (some event))

/-- Writes no property, tells no requestor, takes no event, and leaves selections and windows as
    they are. -/
def Passive : Step → Prop
  | .said (.changeProperty ..) _ | .said (.notifySelection _) _
  | .said .pollForEvent (.ok (some _)) | .said (.setSelectionOwner _) _
  | .said (.createWindow _) _ | .said (.destroyWindow _) _ => False
  | _ => True

theorem Looking.passive {e : Step} (h : Looking e) : Passive e := by
  cases e with
  | said q a => cases q <;> trivial
  | mark m => trivial

theorem Looking.ungrabbing {e : Step} (h : Looking e) : Ungrabbing e := by
  cases e with
  | said q a => cases q <;> trivial
  | mark m => trivial

/-! ## The grammar of a transfer -/

/-- The event asks for the selection that the request's window owns. -/
def Asks (t : Transfer) (clipboard : Atom) : XEvent → Prop
  | .selectionRequest request => request.owner = t.owner ∧ request.selection = clipboard
  | _ => False

instance (t : Transfer) (clipboard : Atom) : DecidablePred (Asks t clipboard)
  | .selectionRequest request =>
    inferInstanceAs (Decidable (request.owner = t.owner ∧ request.selection = clipboard))
  | .selectionClear .. | .other => inferInstanceAs (Decidable False)

/-- The events that were taken. -/
def taken (trace : List Step) : List XEvent :=
  trace.filterMap fun
    | .said .pollForEvent (.ok (some event)) => some event
    | _ => none

/-- What the answer to a request may add after its checks. -/
def Answering (t : Transfer) (request : SelectionRequestEvent) (checks : List Step) : Step → Prop
  | .said (.changeProperty window _ _ (.words _)) _ => window = request.requestor
  | .said (.changeProperty window _ _ (.bytes data)) _ =>
    window = request.requestor ∧ data = t.text ∧ Verified t window checks
  | .said (.notifySelection event) _ => event.requestor = request.requestor
  | .said .sync _ => True
  | _ => False

/-- The text and its notification, both accepted by the server. -/
def delivery (t : Transfer) (request : SelectionRequestEvent) : List Step :=
  [wrote request.requestor (answerProperty request) request.target t.text (.ok ()),
    .said (.notifySelection ⟨request.time, request.requestor, request.selection, request.target,
      answerProperty request⟩) (.ok ())]

/-- One request, handled in one grab: checks, then the answer they allow. `written` is whether the
    handling reports the text as delivered. -/
inductive Handling (t : Transfer) (request : SelectionRequestEvent) : Bool → List Step → Prop
  | refused (fault : XFault) : Handling t request false [asked .grabServer (.error fault)]
  | answered {written : Bool} {checks acts : List Step} (released : Except XFault Unit)
      (hchecks : ∀ e ∈ checks, Passive e ∧ Ungrabbing e)
      (hacts : ∀ e ∈ acts, Answering t request checks e)
      (hwritten : written = true → ∃ rest, acts = delivery t request ++ rest) :
      Handling t request written
        (asked .grabServer (.ok ()) :: (checks ++ acts ++ [asked .ungrabServer released]))

/-- From one point of the serving loop to another: the events that are left go down by one with
    each event taken, the requests go up by one with each request handled. -/
inductive Serves (t : Transfer) (clipboard : Atom) : Serving → List Step → Serving → Prop
  | done (s : Serving) : Serves t clipboard s [] s
  | passive {s s' : Serving} {e : Step} {trace : List Step} (he : Passive e)
      (rest : Serves t clipboard s trace s') : Serves t clipboard s (e :: trace) s'
  | event {n k : Nat} {d : Bool} {s' : Serving} {event : XEvent} {trace : List Step}
      (other : ¬ Asks t clipboard event) (rest : Serves t clipboard ⟨n, k, d⟩ trace s') :
      Serves t clipboard ⟨n + 1, k, d⟩ (polled event :: trace) s'
  | request {n k : Nat} {d written : Bool} {s' : Serving} {request : SelectionRequestEvent}
      {block trace : List Step} (own : Asks t clipboard (.selectionRequest request))
      (room : k < maxSelectionRequests) (handled : Handling t request written block)
      (rest : Serves t clipboard ⟨n, k + 1, d || written⟩ trace s') :
      Serves t clipboard ⟨n + 1, k, d⟩ (polled (.selectionRequest request) :: (block ++ trace)) s'

/-- An event that was taken beyond a bound, and not served. -/
def Unserved (rest : List Step) : Prop := rest = [] ∨ ∃ event, rest = [polled event]

/-- The offer claims the selection for the request's window, and nothing else of its kind. -/
def Offering (owner : Window) (e : Step) : Prop :=
  Passive e ∨ ∃ answer, e = .said (.setSelectionOwner owner) answer

/-- What the clean-up does while it holds its grab: it clears the selection only after the server
    named the request's window as the owner. -/
inductive Releasing (owner : Window) : List Step → Prop
  | unknown (fault : XFault) : Releasing owner [.said .getSelectionOwner (.error fault)]
  | lost {current : Window} (h : current ≠ owner) (destroyed : Except XFault Unit) :
      Releasing owner [.said .getSelectionOwner (.ok current), .said (.destroyWindow owner) destroyed]
  | stuck (fault : XFault) :
      Releasing owner
        [.said .getSelectionOwner (.ok owner), .said (.setSelectionOwner none32) (.error fault)]
  | cleared (destroyed : Except XFault Unit) :
      Releasing owner
        [.said .getSelectionOwner (.ok owner), .said (.setSelectionOwner none32) (.ok ()),
          .said (.destroyWindow owner) destroyed]

inductive Release (owner : Window) : List Step → Prop
  | ungrabbed (fault : XFault) : Release owner [asked .grabServer (.error fault)]
  | grabbed {inside : List Step} (h : Releasing owner inside) (released : Except XFault Unit) :
      Release owner (asked .grabServer (.ok ()) :: (inside ++ [asked .ungrabServer released]))
  | synced {inside : List Step} (h : Releasing owner inside) (answer : Except XFault Unit) :
      Release owner (asked .grabServer (.ok ()) ::
        (inside ++ [asked .ungrabServer (.ok ()), asked .sync answer]))

/-! ## The programs speak the grammar -/

theorem moves_atoms {s s' : State} (h : Moves s s') : s'.observer.atoms = s.observer.atoms := by
  have hsettings : s'.observer.settings = s.observer.settings := by
    induction h with
    | refl => rfl
    | tail _ step ih =>
      rw [← ih]
      cases step with
      | refresh sample => exact (ticks_forward (refresh_ticks sample _)).2.settings
      | settle =>
        dsimp only
        unfold settle
        split <;> rfl
      | resubscribe kinds => rfl
      | drain after => rfl
  exact congrArg Settings.atoms hsettings

/-- What a program of an observer with these atoms appends. -/
abbrev Speaks {α : Type} (atoms : Atoms) (m : XM α) (F : Except Failure α → List Step → Prop) :
    Prop :=
  Writes (fun s : State => s.observer.atoms = atoms) m F

section Programs

variable {env : Outside} {α β : Type} {atoms : Atoms}

theorem Speaks.of_tells {A : Step → Prop} {m : XM α} {F : Except Failure α → List Step → Prop}
    {T : Except Failure α → List Step → State → Prop} (h : Tells Moves A (fun _ => True) m T)
    (hF : ∀ r added s, (∀ e ∈ added, A e) → T r added s → F r added) : Speaks atoms m F :=
  Writes.of_tells h (fun _ _ hmoves hs => (moves_atoms hmoves).trans hs) hF

/-- A request is one entry, with the answer that decides how it goes on. -/
def Requested (said : Except XFault α → Step) (r : Except Failure α) (added : List Step) : Prop :=
  (∃ a, r = .ok a ∧ added = [said (.ok a)]) ∨ ∃ e fault, r = .error e ∧ added = [said (.error fault)]

theorem reply_writes (said : Except XFault α → Step) {request : XM (Except XFault α)}
    (hrun : ∀ w : World, ∃ a, request w = (.ok a, ⟨w.state, w.trace ++ [said a]⟩))
    (onSend onReply : String) :
    Speaks atoms (reply onSend onReply request) (Requested said) := by
  intro w hw
  obtain ⟨a, ha⟩ := hrun w
  unfold reply
  rw [Prog.bind_ok ha]
  refine ⟨[said a], rfl, hw, ?_⟩
  cases a with
  | ok a => exact .inl ⟨a, rfl, rfl⟩
  | error fault =>
    cases fault with
    | send => exact .inr ⟨_, _, rfl, rfl⟩
    | reply => exact .inr ⟨_, _, rfl, rfl⟩

/-- A request and what follows its reply. -/
theorem reply_bind (said : Except XFault α → Step) {request : XM (Except XFault α)}
    {f : α → XM β} {G : Except Failure β → List Step → Prop}
    (hrun : ∀ w : World, ∃ a, request w = (.ok a, ⟨w.state, w.trace ++ [said a]⟩))
    {onSend onReply : String}
    (hok : ∀ a, Speaks atoms (f a) fun r more => G r (said (.ok a) :: more))
    (herr : ∀ e fault, G (.error e) [said (.error fault)]) :
    Speaks atoms (reply onSend onReply request >>= f) G := by
  refine Writes.bind (reply_writes said hrun onSend onReply) (fun a added h => ?_) fun e added h => ?_
  · rcases h with ⟨b, hb, rfl⟩ | ⟨_, _, h, -⟩
    · obtain rfl := Except.ok.inj hb
      exact hok a
    · simp at h
  · rcases h with ⟨_, h, -⟩ | ⟨_, fault, -, rfl⟩
    · simp at h
    · exact herr e fault

/-- A program under a grab: the grab fails, or it is released after the program. -/
theorem underServerGrab_writes {action : XM α} {F : Except Failure α → List Step → Prop}
    (h : Speaks atoms action F) :
    Speaks atoms (underServerGrab env action) fun r added =>
      (∃ fault e, added = [asked .grabServer (.error fault)] ∧ r = .error e) ∨
      ∃ inner inside released, F inner inside ∧ (∀ a, r = .ok a → inner = .ok a) ∧
        added = asked .grabServer (.ok ()) :: (inside ++ [asked .ungrabServer released]) := by
  intro w hw
  rcases underServerGrab_run env action w with ⟨fault, e, hrun⟩ | ⟨released, hrun⟩
  · rw [hrun]
    exact ⟨_, rfl, hw, .inl ⟨fault, e, rfl, rfl⟩⟩
  · obtain ⟨inside, htrace, hatoms, hF⟩ := h ⟨w.state, w.trace ++ [asked .grabServer (.ok ())]⟩ hw
    rw [hrun]
    refine ⟨asked .grabServer (.ok ()) :: (inside ++ [asked .ungrabServer released]), ?_, hatoms,
      .inr ⟨_, inside, released, hF, fun a ha => ?_, rfl⟩⟩
    · dsimp only
      rw [htrace]
      simp
    · revert ha
      generalize (action ⟨w.state, w.trace ++ [asked .grabServer (.ok ())]⟩).1 = inner
      generalize checked "cannot request an X11 server ungrab" "cannot release the X11 server grab"
        (released : Except XFault Unit) = freed
      intro ha
      unfold conclude at ha
      split at ha
      · exact ha
      · simp at ha
      · simp at ha

theorem requireXresClientIdentity_finds (window : Window) :
    Finds (requireXresClientIdentity env window) fun client added =>
      ClientOf window client added := by
  unfold requireXresClientIdentity
  refine Finds.bind (Finds.reply (asked .resQueryVersion) (fun _ => trivial)
    (fun _ => ⟨_, rfl⟩) _ _) fun _ _ _ => Finds.bind Finds.refuseIf fun _ _ _ => ?_
  refine Finds.bind (Finds.reply (asked (.resQueryClientIds window)) (fun _ => trivial)
    (fun _ => ⟨_, rfl⟩) _ _) fun ids added hids => ?_
  refine Finds.weaken (Finds.lift _) fun client more hclient => ⟨ids, ?_, ?_⟩
  · simp only [List.mem_append]
    exact .inr (.inr (.inl hids))
  · exact present_ok hclient

theorem ClientOf.mono {window : Window} {client : Nat} {entries entries' : List Step}
    (h : ClientOf window client entries) (hsub : entries ⊆ entries') :
    ClientOf window client entries' := by
  obtain ⟨ids, hids, hclient⟩ := h
  exact ⟨ids, hsub hids, hclient⟩

theorem sameXClient_finds (targetXid requestor : Window) :
    Finds (sameXClient env targetXid requestor) fun same added =>
      same = true → ∃ client, ClientOf targetXid client added ∧ ClientOf requestor client added := by
  unfold sameXClient
  refine Finds.bind (requireXresClientIdentity_finds targetXid) fun client added htarget => ?_
  refine Finds.bind (requireXresClientIdentity_finds requestor) fun client' added' hrequestor => ?_
  refine Finds.weaken (Finds.pure _) fun same more hsame hyes => ⟨client, ?_, ?_⟩
  · exact htarget.mono (List.subset_append_left _ _)
  · have hclient : client = client' := by simpa [hyes] using hsame
    rw [hclient]
    exact hrequestor.mono fun e he => by simp [he]

/-- A check that only looks, and what it finds. -/
theorem Finds.looks {m : XM α} {F : α → List Step → Prop} (hfinds : Finds m F)
    (hlooks : Utters Moves Looking m) :
    Speaks atoms m fun r added => (∀ e ∈ added, Looking e) ∧ ∀ a, r = .ok a → F a added := by
  unfold Finds Learns at hfinds
  exact Writes.and (Speaks.of_tells hlooks fun _ _ _ h _ => h)
    (Speaks.of_tells hfinds fun _ _ _ _ h => h)

/-- Checks that pass no grab, then the answer that they and what was `seen` before allow. -/
def Replies (t : Transfer) (request : SelectionRequestEvent) (seen : List Step)
    (r : Except Failure Bool) (added : List Step) : Prop :=
  ∃ checks acts, added = checks ++ acts ∧ (∀ e ∈ checks, Passive e ∧ Ungrabbing e) ∧
    (∀ e ∈ acts, Answering t request (seen ++ checks) e) ∧
    (r = .ok true → ∃ rest, acts = delivery t request ++ rest)

section Replies

variable {t : Transfer} {request : SelectionRequestEvent} {seen : List Step}

theorem Replies.checks {r : Except Failure Bool} {added : List Step}
    (h : ∀ e ∈ added, Passive e ∧ Ungrabbing e) (hr : r ≠ .ok true) :
    Replies t request seen r added :=
  ⟨added, [], by rw [List.append_nil], h, by simp, fun hyes => (hr hyes).elim⟩

theorem Replies.acts {r : Except Failure Bool} {added : List Step}
    (h : ∀ e ∈ added, Answering t request seen e)
    (hr : r = .ok true → ∃ rest, added = delivery t request ++ rest) :
    Replies t request seen r added :=
  ⟨[], added, rfl, by simp, by simpa using h, hr⟩

/-- A check goes on with what it found. -/
theorem Replies.after {m : XM α} {f : α → XM Bool} {F : α → List Step → Prop}
    (hm : Speaks atoms m fun r added => (∀ e ∈ added, Passive e ∧ Ungrabbing e) ∧
      ∀ a, r = .ok a → F a added)
    (hf : ∀ a added, F a added → Speaks atoms (f a) (Replies t request (seen ++ added))) :
    Speaks atoms (m >>= f) (Replies t request seen) := by
  refine Writes.bind hm (fun a added h => ?_) fun e added h => ?_
  · refine Writes.post (hf a added (h.2 a rfl)) fun r more hmore => ?_
    obtain ⟨checks, acts, rfl, hchecks, hacts, hr⟩ := hmore
    refine ⟨added ++ checks, acts, (List.append_assoc _ _ _).symm, fun e he => ?_, ?_, hr⟩
    · rcases List.mem_append.mp he with he | he
      · exact h.1 e he
      · exact hchecks e he
    · rwa [List.append_assoc] at hacts
  · exact Replies.checks h.1 (by simp)

theorem Replies.look {m : XM α} {f : α → XM Bool} {F : α → List Step → Prop}
    (hfinds : Finds m F) (hlooks : Utters Moves Looking m)
    (hf : ∀ a added, F a added → Speaks atoms (f a) (Replies t request (seen ++ added))) :
    Speaks atoms (m >>= f) (Replies t request seen) :=
  Replies.after (Writes.post (hfinds.looks hlooks) fun _ _ h =>
    ⟨fun e he => ⟨(h.1 e he).passive, (h.1 e he).ungrabbing⟩, h.2⟩) hf

/-- The notification and the synchronization that end every answer. -/
theorem notified_writes (t : Transfer) (seen : List Step) (property : Atom) (message : String)
    (written : Bool) :
    Speaks atoms (do
      notifySelection env request property
      synchronize env message
      pure written : XM Bool) fun r added => (∀ e ∈ added, Answering t request seen e) ∧
        (r = .ok true → written = true ∧ ∃ rest, added = .said (.notifySelection
          ⟨request.time, request.requestor, request.selection, request.target, property⟩)
            (.ok ()) :: rest) := by
  refine reply_bind (asked (.notifySelection _)) (fun _ => ⟨_, rfl⟩) (fun _ => ?_) fun e fault => ?_
  · refine reply_bind (asked .sync) (fun _ => ⟨_, rfl⟩) (fun _ => ?_) fun e fault => ?_
    · exact Writes.pure ⟨by simp [Answering], fun hr => ⟨Except.ok.inj hr, _, rfl⟩⟩
    · exact ⟨by simp [Answering], by simp⟩
  · exact ⟨by simp [Answering], by simp⟩

theorem refuseSelection_replies (message : String) :
    Speaks atoms (refuseSelection env request message) (Replies t request seen) :=
  Writes.post (notified_writes t seen none32 message false) fun _ _ h =>
    Replies.acts h.1 fun hr => absurd (h.2 hr).1 (by simp)

theorem publishTargets_replies (known : Atoms) :
    Speaks atoms (publishTargets env request known) (Replies t request seen) := by
  unfold publishTargets
  refine reply_bind (asked (.changeProperty ..)) (fun _ => ⟨_, rfl⟩) (fun _ => ?_) fun e fault => ?_
  · refine Writes.post (notified_writes t seen _ _ false) fun r more h => ?_
    refine Replies.acts (fun e he => ?_) fun hr => absurd (h.2 hr).1 (by simp)
    rcases List.mem_cons.mp he with rfl | he
    · rfl
    · exact h.1 e he
  · exact Replies.acts (by simp [Answering]) (by simp)

theorem deliverText_replies (hverified : Verified t request.requestor seen) :
    Speaks atoms (deliverText env request t.text) (Replies t request seen) := by
  unfold deliverText
  refine reply_bind (asked (.changeProperty ..)) (fun _ => ⟨_, rfl⟩) (fun _ => ?_) fun e fault => ?_
  · refine Writes.post (notified_writes t seen _ _ true) fun r more h => ?_
    refine Replies.acts (fun e he => ?_) fun hr => ?_
    · rcases List.mem_cons.mp he with rfl | he
      · exact ⟨rfl, rfl, hverified⟩
      · exact h.1 e he
    · obtain ⟨-, rest, rfl⟩ := h.2 hr
      exact ⟨rest, rfl⟩
  · refine Replies.acts (fun e he => ?_) (by simp)
    rw [List.mem_singleton.mp he]
    exact ⟨rfl, rfl, hverified⟩

theorem serveSelection_replies {xid : Window} {client : Nat} (hfresh : Fresh t.target xid seen)
    (hfocus : FocusOwned xid seen) (hacc : Accepted t.permit seen) (htarget : ClientOf xid client seen)
    (hrequestor : ClientOf request.requestor client seen) :
    Speaks atoms (serveSelection env request t.owner t.text) (Replies t request seen) := by
  unfold serveSelection selectionOwner
  refine Replies.look (Finds.reply (asked .getSelectionOwner) (fun _ => trivial)
    (fun _ => ⟨_, rfl⟩) _ _) (reply_utters (Utters.ask fun _ => trivial) _ _)
    fun current added howner => ?_
  refine Replies.look (Finds.this _) (this_quiet _) fun known added' _ => ?_
  have hsub : seen ⊆ seen ++ added ++ added' := fun e he => by simp [he]
  by_cases hcurrent : current = t.owner
  · subst hcurrent
    rw [if_neg (by simp)]
    split
    · exact publishTargets_replies known
    · split
      · refine deliverText_replies ⟨xid, client, hfresh.mono hsub, hfocus.mono hsub, hacc.mono hsub,
          htarget.mono hsub, hrequestor.mono hsub, ?_⟩
        simp [howner]
      · exact refuseSelection_replies _
  · rw [if_pos hcurrent]
    exact Writes.pure (Replies.checks (by simp) (by simp))

/-- Loading the gate is neither a look nor an action. -/
theorem accepts_checks (permit : SeatPermit) :
    Speaks atoms (accepts env permit) fun r added => (∀ e ∈ added, Passive e ∧ Ungrabbing e) ∧
      ∀ yes, r = .ok yes → yes = true → Accepted permit added := by
  unfold accepts
  refine Writes.bind (Writes.ask (F := fun r added => ∃ raw, r = .ok raw ∧ added = [asked .seatLoad raw])
    fun raw => ⟨raw, rfl, rfl⟩) (fun raw added h => ?_) fun e added h => ?_
  · obtain ⟨raw', heq, rfl⟩ := h
    obtain rfl := Except.ok.inj heq
    refine Writes.pure ⟨by simp [Passive, Ungrabbing], fun yes hr hyes => ⟨raw, by simp, ?_⟩⟩
    rw [Except.ok.inj hr]
    exact hyes
  · obtain ⟨_, h, -⟩ := h
    simp at h

theorem selectionAction_replies (t : Transfer) (request : SelectionRequestEvent) :
    Speaks atoms (selectionAction env t request) (Replies t request []) := by
  unfold selectionAction
  refine Replies.look (freshTarget_finds _) (freshTarget_looks _) fun target added hfresh => ?_
  refine Replies.look (requireFocusOwnedBy_finds _) (requireFocusOwnedBy_looks _)
    fun _ added₁ hfocus => ?_
  refine Replies.after (accepts_checks t.permit) fun yes added₂ hyes => ?_
  split
  · next hacc =>
    refine Replies.look (sameXClient_finds _ _) (sameXClient_looks _ _) fun same added₃ hsame => ?_
    split
    · next hyes' =>
      obtain ⟨client, htarget, hrequestor⟩ := hsame hyes'
      refine serveSelection_replies (hfresh.mono ?_) (hfocus.mono ?_) ((hyes hacc).mono ?_)
        (htarget.mono ?_) (hrequestor.mono ?_)
      all_goals
        intro e he
        simp [he]
    · exact refuseSelection_replies _
  · exact Writes.pure (Replies.checks (by simp) (by simp))

/-- A request is handled in one grab of its own. -/
theorem handleSelectionRequest_handles (t : Transfer) (request : SelectionRequestEvent) :
    Speaks atoms (handleSelectionRequest env t request) fun r added =>
      ∃ written, (∀ b, r = .ok b → b = written) ∧ Handling t request written added := by
  unfold handleSelectionRequest
  refine Writes.post (underServerGrab_writes (selectionAction_replies t request)) ?_
  rintro r added (⟨fault, e, rfl, rfl⟩ | ⟨inner, inside, released, hreplies, hr, rfl⟩)
  · exact ⟨false, by simp, .refused fault⟩
  · obtain ⟨checks, acts, rfl, hchecks, hacts, hwritten⟩ := hreplies
    refine ⟨decide (r = .ok true), fun b hb => ?_, .answered released hchecks (by simpa using hacts)
      fun hyes => hwritten (hr true (by simpa using hyes))⟩
    subst hb
    simp

end Replies

/-! ### The serving loop -/

section Loop

variable {t : Transfer} {clipboard : Atom}

theorem Serves.trans {s s' s'' : Serving} {trace trace' : List Step}
    (h : Serves t clipboard s trace s') (h' : Serves t clipboard s' trace' s'') :
    Serves t clipboard s (trace ++ trace') s'' := by
  induction h with
  | done s => exact h'
  | passive he _ ih => exact .passive he (ih h')
  | event other _ ih => exact .event other (ih h')
  | request own room handled _ ih =>
    rw [List.cons_append, List.append_assoc]
    exact .request own room handled (ih h')

theorem Serves.of_passive {s : Serving} {trace : List Step} (h : ∀ e ∈ trace, Passive e) :
    Serves t clipboard s trace s := by
  induction trace with
  | nil => exact .done s
  | cons e rest ih =>
    exact .passive (h e (List.mem_cons_self ..)) (ih fun e' he' => h e' (List.mem_cons_of_mem _ he'))

/-- What the loop has added when it stops: a service, and perhaps an event beyond a bound. -/
def Stops (t : Transfer) (clipboard : Atom) (s : Serving) (next : Serving → Prop)
    (added : List Step) : Prop :=
  ∃ service rest s', added = service ++ rest ∧ Serves t clipboard s service s' ∧ Unserved rest ∧
    next s'

theorem Stops.after {s s' : Serving} {next : Serving → Prop} {trace added : List Step}
    (h : Serves t clipboard s trace s') (h' : Stops t clipboard s' next added) :
    Stops t clipboard s next (trace ++ added) := by
  obtain ⟨service, rest, s'', rfl, hserves, hrest, hnext⟩ := h'
  exact ⟨trace ++ service, rest, s'', (List.append_assoc _ _ _).symm, h.trans hserves, hrest, hnext⟩

theorem Stops.here {s : Serving} {next : Serving → Prop} (h : next s) :
    Stops t clipboard s next [] :=
  ⟨[], [], s, rfl, .done s, .inl rfl, h⟩

theorem Stops.of_serves {s s' : Serving} {trace : List Step} (h : Serves t clipboard s trace s') :
    Stops t clipboard s (fun _ => True) trace :=
  ⟨trace, [], s', (List.append_nil _).symm, h, .inl rfl, trivial⟩

theorem Stops.beyond {s : Serving} {next : Serving → Prop} (event : XEvent) (h : next s) :
    Stops t clipboard s next [polled event] :=
  ⟨[], [polled event], s, rfl, .done s, .inr ⟨event, rfl⟩, h⟩

/-- If events are over, the loop goes on from the point it has reached. -/
def Served (t : Transfer) (clipboard : Atom) (s : Serving)
    (r : Except Failure (Option Serving)) (added : List Step) : Prop :=
  Stops t clipboard s (fun _ => True) added ∧
    ∀ s', r = .ok (some s') → Serves t clipboard s added s'

theorem Served.stopped {s : Serving} {r : Except Failure (Option Serving)} {added : List Step}
    (h : Stops t clipboard s (fun _ => True) added) (hr : ∀ s', r ≠ .ok (some s')) :
    Served t clipboard s r added :=
  ⟨h, fun s' hs' => (hr s' hs').elim⟩

theorem Served.idle {s : Serving} : Served t clipboard s (.ok (some s)) [] := by
  refine ⟨.here trivial, fun s' hs' => ?_⟩
  obtain rfl := Option.some.inj (Except.ok.inj hs')
  exact .done s

theorem Served.after {s s' : Serving} {r : Except Failure (Option Serving)}
    {trace added : List Step} (h : Serves t clipboard s trace s')
    (h' : Served t clipboard s' r added) : Served t clipboard s r (trace ++ added) :=
  ⟨h'.1.after h, fun _ hs => h.trans (h'.2 _ hs)⟩

/-- One event that is not a request of the owned selection. -/
theorem Serves.one_event {n k : Nat} {d : Bool} {event : XEvent} (other : ¬ Asks t clipboard event) :
    Serves t clipboard ⟨n + 1, k, d⟩ [polled event] ⟨n, k, d⟩ :=
  .event other (.done _)

theorem Serves.one_request {n k : Nat} {d written : Bool} {request : SelectionRequestEvent}
    {block : List Step} (own : Asks t clipboard (.selectionRequest request))
    (room : k < maxSelectionRequests) (handled : Handling t request written block) :
    Serves t clipboard ⟨n + 1, k, d⟩ (polled (.selectionRequest request) :: block)
      ⟨n, k + 1, d || written⟩ := by
  have hone := Serves.request own room handled (.done ⟨n, k + 1, d || written⟩)
  rwa [List.append_nil] at hone

/-- Asking for the next event: without one, and on a fault, nothing is taken. -/
theorem poll_serves {s : Serving} {f : Option XEvent → XM (Option Serving)}
    (hnone : Speaks atoms (f none) (Served t clipboard s))
    (hsome : ∀ event, Speaks atoms (f (some event)) fun r more =>
      Served t clipboard s r (polled event :: more)) (onSend onReply : String) :
    Speaks atoms (reply onSend onReply (Dialogue.ask env .pollForEvent) >>= f) (Served t clipboard s) := by
  refine reply_bind (asked .pollForEvent) (fun _ => ⟨_, rfl⟩) (fun pending => ?_) fun e fault => ?_
  · cases pending with
    | none =>
      have hnothing : Passive (asked .pollForEvent (.ok none)) := trivial
      exact Writes.post hnone fun _ _ h => h.after (.passive hnothing (.done s))
    | some event => exact hsome event
  · exact .stopped (.of_serves (.passive trivial (.done s))) (by simp)

theorem serveEvents_serves (t : Transfer) (clipboard : Atom) (events requests : Nat)
    (delivered : Bool) :
    Speaks atoms (serveEvents env t clipboard events requests delivered)
      (Served t clipboard ⟨events, requests, delivered⟩) := by
  induction events generalizing requests delivered with
  | zero =>
    unfold serveEvents
    refine poll_serves (Writes.pure Served.idle) (fun event => ?_) _ _
    exact Writes.pure (Served.stopped (.beyond event trivial) (by simp))
  | succ events ih =>
    unfold serveEvents
    refine poll_serves (Writes.pure Served.idle) (fun event => ?_) _ _
    -- an event that asks for nothing is taken and passed over
    have hpass (other : ¬ Asks t clipboard event) :
        Speaks atoms (serveEvents env t clipboard events requests delivered) fun r more =>
          Served t clipboard ⟨events + 1, requests, delivered⟩ r (polled event :: more) :=
      Writes.post (ih requests delivered) fun _ _ h => h.after (.one_event other)
    cases event with
    | selectionClear owner selection =>
      dsimp only
      split
      · exact Writes.pure (Served.stopped (.of_serves (.one_event id)) (by simp))
      · exact hpass id
    | other => exact hpass id
    | selectionRequest request =>
      dsimp only
      by_cases own : request.owner = t.owner ∧ request.selection = clipboard
      · rw [if_pos own]
        by_cases full : requests + 1 > maxSelectionRequests
        · rw [if_pos full]
          exact Writes.pure (Served.stopped (.beyond _ trivial) (by simp))
        · rw [if_neg full]
          have room : requests < maxSelectionRequests := by omega
          refine Writes.bind (handleSelectionRequest_handles t request)
            (fun written block h => ?_) fun e block h => ?_
          · obtain ⟨written', hwritten, handled⟩ := h
            obtain rfl := hwritten written rfl
            exact Writes.post (ih _ _) fun r more h => h.after (.one_request own room handled)
          · obtain ⟨written, -, handled⟩ := h
            exact Served.stopped (.of_serves (.one_request own room handled)) (by simp)
      · rw [if_neg own]
        exact hpass own

/-! ### The request -/

/-- A wider class of entries. -/
theorem utters_of_looks {A : Step → Prop} {m : XM α} (h : Utters Moves Looking m)
    (hA : ∀ e, Looking e → A e) : Utters Moves A m :=
  Tells.weaken h hA (fun _ => id) fun _ _ _ => id

theorem evidenceAction_passive (t : Transfer) :
    Utters Moves Passive (evidenceAction env t) := by
  have hlook {β : Type} {m : XM β} (h : Utters Moves Looking m) : Utters Moves Passive m :=
    utters_of_looks h fun _ => Looking.passive
  unfold evidenceAction
  refine Utters.bind (hlook (freshTarget_looks _)) fun target => ?_
  refine Utters.bind (hlook (requireFocusOwnedBy_looks _)) fun _ => ?_
  refine Utters.bind (Utters.bind (Utters.ask fun _ => trivial) fun _ => Utters.pure _) fun yes => ?_
  split
  · exact Utters.bind (hlook (selectionOwner_looks _)) fun _ => Utters.pure _
  · exact Utters.pure _

theorem transferEvidence_passive (t : Transfer) :
    Utters Moves Passive (transferEvidenceIsCurrent env t) :=
  Utters.bind (Utters.attempt (underServerGrab_utters (fun _ => trivial) (fun _ => trivial)
    (evidenceAction_passive t))) fun _ => Utters.pure _

/-- The reply that a wait ends with says that the text was delivered only if the service says so. -/
def Concludes (t : Transfer) (clipboard : Atom) (s : Serving) (r : Except Failure TextTransferReply)
    (added : List Step) : Prop :=
  Stops t clipboard s (fun s' => ∀ reply, r = .ok reply → reply.terminal = .delivered →
    s'.delivered = true) added

theorem Concludes.of_stops {s : Serving} {r : Except Failure TextTransferReply} {added : List Step}
    (h : Stops t clipboard s (fun _ => True) added)
    (hr : ∀ reply, r = .ok reply → reply.terminal ≠ .delivered) :
    Concludes t clipboard s r added := by
  obtain ⟨service, rest, s', hsplit, hserves, hrest, -⟩ := h
  exact ⟨service, rest, s', hsplit, hserves, hrest, fun reply h hd => (hr reply h hd).elim⟩

theorem transferReply_undelivered {target : TargetRequest} {bytes : Nat}
    {terminal : TextTransferTerminal} (h : terminal ≠ .delivered) (reply : TextTransferReply)
    (hr : (.ok (transferReply target bytes terminal) : Except Failure TextTransferReply) = .ok reply) :
    reply.terminal ≠ .delivered := by
  rw [← Except.ok.inj hr]
  exact h

theorem Concludes.after {m : XM TextTransferReply} {s s' : Serving} {trace : List Step}
    (h : Serves t clipboard s trace s') (hm : Speaks atoms m (Concludes t clipboard s')) :
    Speaks atoms m fun r more => Concludes t clipboard s r (trace ++ more) :=
  Writes.post hm fun _ _ hstops => Stops.after h hstops

/-- A step that takes no event, on the way to a conclusion. -/
theorem Concludes.passive {s : Serving} {m : XM α} {f : α → XM TextTransferReply}
    (hm : Utters Moves Passive m) (hf : ∀ a, Speaks atoms (f a) (Concludes t clipboard s)) :
    Speaks atoms (m >>= f) (Concludes t clipboard s) := by
  have hwrites : Speaks atoms m fun _ added => ∀ e ∈ added, Passive e :=
    Speaks.of_tells hm fun _ _ _ h _ => h
  refine Writes.bind hwrites (fun a added h => Concludes.after (.of_passive h) (hf a))
    fun e added h => ?_
  exact .of_stops (.of_serves (.of_passive h)) (by simp)

/-- One round of the wait, up to the decision whether there is another. -/
theorem waitRounds_round {bytes rounds : Nat} (s : Serving)
    (hnext : ∀ left, rounds = left + 1 → ∀ s',
      Speaks atoms (waitRounds env t clipboard bytes left s') (Concludes t clipboard s')) :
    Speaks atoms (waitRounds env t clipboard bytes rounds s) (Concludes t clipboard s) := by
  unfold waitRounds
  refine Writes.bind (serveEvents_serves t clipboard s.events s.requests s.delivered)
    (fun served added h => ?_) fun e added h => .of_stops h.1 (by simp)
  cases served with
  | none => exact Writes.pure (.of_stops (by simpa using h.1) (transferReply_undelivered (by simp)))
  | some serving =>
    refine Concludes.after (h.2 serving rfl) ?_
    refine Concludes.passive (transferEvidence_passive t) fun current => ?_
    by_cases hgone : current = false
    · rw [if_pos hgone]
      exact Writes.pure (.of_stops (.here trivial) (transferReply_undelivered (by simp)))
    · rw [if_neg hgone]
      refine Concludes.passive (Utters.ask fun _ => trivial) fun settled => ?_
      by_cases hdone : serving.delivered ∧ (settled = true ∨ rounds = 0)
      · rw [if_pos hdone]
        exact Writes.pure ⟨[], [], serving, rfl, .done _, .inl rfl, fun _ _ _ => hdone.1⟩
      · rw [if_neg hdone]
        cases rounds with
        | zero =>
          exact Writes.pure (.of_stops (.here trivial) (transferReply_undelivered (by simp)))
        | succ left =>
          exact Concludes.passive (reply_utters (Utters.ask fun _ => trivial) _ _) fun _ =>
            hnext left rfl serving

theorem waitRounds_concludes (t : Transfer) (clipboard : Atom) (bytes rounds : Nat) (s : Serving) :
    Speaks atoms (waitRounds env t clipboard bytes rounds s) (Concludes t clipboard s) := by
  induction rounds generalizing s with
  | zero => exact waitRounds_round s fun left h => absurd h.symm (Nat.succ_ne_zero left)
  | succ rounds ih =>
    refine waitRounds_round s fun left h s' => ?_
    obtain rfl := Nat.succ.inj h
    exact ih s'

/-- The service starts with every event left and no request taken. -/
def Serving.start : Serving := ⟨maxTransferEvents, 0, false⟩

theorem afterOffer_concludes (t : Transfer) (bytes : Nat) (offered : Except Failure Bool) :
    Speaks atoms (afterOffer env t bytes offered) (Concludes t atoms.clipboard .start) := by
  match offered with
  | .ok true =>
    unfold afterOffer waitForTransfer
    refine Concludes.passive (Utters.ask fun _ => trivial) fun deadline => ?_
    refine Writes.bind (F := fun r added => r = .ok atoms.clipboard ∧ added = [])
      (Writes.read (f := fun s : State => s.observer.atoms.clipboard)
        fun s hs => ⟨by rw [hs], rfl⟩) (fun clipboard added h => ?_) fun e added h => by simp at h
    obtain ⟨hclipboard, rfl⟩ := h
    obtain rfl := Except.ok.inj hclipboard
    match (deadline : Option Nat) with
    | none => exact Writes.fail (.of_stops (.here trivial) (by simp))
    | some rounds => exact waitRounds_concludes t _ bytes rounds .start
  | .ok false =>
    exact Writes.pure (.of_stops (.here trivial) (transferReply_undelivered (by simp)))
  | .error e => exact Writes.fail (.of_stops (.here trivial) (by simp))

/-- Nothing but the claim for the request's window is offered. -/
theorem pasteAction_offers (t : Transfer) :
    Utters Moves (Offering t.owner) (underServerGrab env (pasteAction env t)) := by
  have hlook {β : Type} {m : XM β} (h : Utters Moves Looking m) :
      Utters Moves (Offering t.owner) m := utters_of_looks h fun _ he => .inl he.passive
  have haccepts : Utters Moves (Offering t.owner) (accepts env t.permit) :=
    Utters.bind (Utters.ask fun _ => .inl trivial) fun _ => Utters.pure _
  refine underServerGrab_utters (fun _ => .inl trivial) (fun _ => .inl trivial) ?_
  unfold pasteAction
  refine Utters.bind (hlook (freshTarget_looks _)) fun target => ?_
  refine Utters.bind (hlook (requireFocusOwnedBy_looks _)) fun _ => ?_
  refine Utters.bind (hlook (requireXresClientIdentity_looks _)) fun _ => ?_
  refine Utters.bind haccepts fun yes => ?_
  split
  · refine Utters.bind ?_ fun _ => ?_
    · unfold claimTransferSelection
      refine Utters.bind (reply_utters (Utters.ask fun a => .inr ⟨a, rfl⟩) _ _) fun _ => ?_
      exact Utters.bind (hlook (selectionOwner_looks _)) fun _ => Utters.lift _
    · refine Utters.bind (hlook (resolveKey_looks _ _)) fun stroke => ?_
      unfold onlyIfAccepted
      refine Utters.bind haccepts fun yes => ?_
      split
      · exact Utters.bind (typeKey_utters (fun _ => .inl trivial) fun _ _ _ => .inl trivial)
          fun _ => Utters.pure _
      · exact Utters.pure _
  · exact Utters.pure _

theorem releaseSelection_releases (owner : Window) :
    Speaks atoms (releaseSelection env owner) fun _ added => Releasing owner added := by
  have hdestroy : Speaks atoms (reply "cannot destroy text-transfer owner window"
      "cannot destroy text-transfer owner window" (Dialogue.ask env (.destroyWindow owner)))
      fun _ added => ∃ answer, added = [asked (.destroyWindow owner) answer] := by
    refine Writes.post (reply_writes (asked (.destroyWindow owner)) (fun _ => ⟨_, rfl⟩) _ _) ?_
    rintro r added (⟨a, -, rfl⟩ | ⟨e, fault, -, rfl⟩)
    · exact ⟨_, rfl⟩
    · exact ⟨_, rfl⟩
  unfold releaseSelection selectionOwner
  refine reply_bind (asked .getSelectionOwner) (fun _ => ⟨_, rfl⟩) (fun current => ?_)
    fun e fault => .unknown fault
  by_cases hown : current = owner
  · subst hown
    rw [Prog.onlyIf, if_pos (by simp)]
    refine reply_bind (asked (.setSelectionOwner none32)) (fun _ => ⟨_, rfl⟩) (fun _ => ?_)
      fun e fault => .stuck fault
    refine Writes.post hdestroy ?_
    rintro r last ⟨answer, rfl⟩
    exact .cleared answer
  · rw [Prog.onlyIf, if_neg (by simpa using hown)]
    refine Writes.post (F := fun _ added => ∃ answer, added = [asked (.destroyWindow owner) answer])
      hdestroy ?_
    rintro r last ⟨answer, rfl⟩
    exact .lost hown answer

theorem releaseTransferOwner_releases (owner : Window) :
    Speaks atoms (releaseTransferOwner env owner) fun _ added => Release owner added := by
  unfold releaseTransferOwner
  refine reply_bind (asked .grabServer) (fun _ => ⟨_, rfl⟩) (fun _ => ?_)
    fun e fault => .ungrabbed fault
  refine Writes.attempt_bind (releaseSelection_releases owner) fun cleanup inside hinside => ?_
  refine Writes.bind (Writes.ask (F := fun r added => ∃ released, r = .ok released ∧
    added = [asked .ungrabServer released]) fun released => ⟨released, rfl, rfl⟩)
    (fun released added h => ?_) fun e added h => by simp at h
  obtain ⟨_, heq, rfl⟩ := h
  obtain rfl := Except.ok.inj heq
  match (released : Except XFault Unit), (cleanup : Except Failure Unit) with
  | .ok (), .ok () =>
    refine Writes.post (reply_writes (asked .sync) (fun _ => ⟨_, rfl⟩) _ _) ?_
    rintro r last (⟨a, -, rfl⟩ | ⟨e, fault, -, rfl⟩)
    · simpa using Release.synced hinside (.ok ())
    · simpa using Release.synced hinside (.error fault)
  | .ok (), .error e => exact Writes.fail (by simpa using Release.grabbed hinside (.ok ()))
  | .error .send, .ok () => exact Writes.fail (by simpa using Release.grabbed hinside (.error .send))
  | .error .reply, .ok () =>
    exact Writes.fail (by simpa using Release.grabbed hinside (.error .reply))
  | .error fault, .error e =>
    exact Writes.fail (by simpa using Release.grabbed hinside (.error fault))

/-- Before there is a window, at most its creation was refused. -/
def Unopened (e : Step) : Prop :=
  Passive e ∨ ∃ window fault, e = .said (.createWindow window) (.error fault)

/-- The window of a request, as its first two steps made it. -/
def opening (owner : Window) : List Step :=
  [.said .generateId (.ok owner), .said (.createWindow owner) (.ok ())]

theorem createTransferOwner_opens :
    Speaks atoms (createTransferOwner env) fun r added =>
      (∀ owner, r = .ok owner → added = opening owner) ∧
        (∀ e, r = .error e → ∀ entry ∈ added, Unopened entry) := by
  unfold createTransferOwner
  refine reply_bind (asked .generateId) (fun _ => ⟨_, rfl⟩) (fun owner => ?_) fun e fault => ?_
  · refine reply_bind (asked (.createWindow owner)) (fun _ => ⟨_, rfl⟩) (fun _ => ?_)
      fun e fault => ⟨by simp, ?_⟩
    · refine Writes.pure ⟨fun window h => ?_, by simp⟩
      rw [← Except.ok.inj h]
      rfl
    · intro _ _ entry hentry
      rcases List.mem_cons.mp hentry with rfl | hentry
      · exact .inl trivial
      · rw [List.mem_singleton.mp hentry]
        exact .inr ⟨owner, fault, rfl⟩
  · exact ⟨by simp, by simp [Unopened, Passive]⟩

/-- What the request works with, once it has its window. -/
def transferOf (request : TextInsertRequest) (permit : SeatPermit) (owner : Window) : Transfer :=
  ⟨owner, request.target, request.text.asStr.toUTF8.toList, permit⟩

/-- The whole trace of a request: no window, or a window that is opened, offered, served for and
    released. -/
inductive Inserts (request : TextInsertRequest) (permit : SeatPermit) (clipboard : Atom) :
    Except Failure TextTransferReply → List Step → Prop
  | unopened {e : Failure} {added : List Step} (h : ∀ entry ∈ added, Unopened entry) :
      Inserts request permit clipboard (.error e) added
  | opened {r : Except Failure TextTransferReply} (owner : Window)
      {offer service rest cleanup : List Step} {s : Serving}
      (offers : ∀ e ∈ offer, Offering owner e)
      (serves : Serves (transferOf request permit owner) clipboard .start service s)
      (unserved : Unserved rest)
      (delivered : ∀ reply, r = .ok reply → reply.terminal = .delivered → s.delivered = true)
      (release : Release owner cleanup) :
      Inserts request permit clipboard r (opening owner ++ (offer ++ (service ++ rest ++ cleanup)))

theorem conclude_ok {result : Except Failure α} {released : Except Failure Unit} {a : α}
    (h : conclude result released = .ok a) : result = .ok a := by
  unfold conclude at h
  split at h
  · exact h
  · simp at h
  · simp at h

theorem textInsert_inserts (request : TextInsertRequest) (permit : SeatPermit) :
    Speaks atoms (textInsert env request permit) (Inserts request permit atoms.clipboard) := by
  unfold textInsert
  refine Writes.bind (F := fun _ added => added = []) (Writes.lift rfl) (fun _ added h => ?_)
    fun e added h => .unopened (by simp [h])
  subst h
  refine Writes.bind createTransferOwner_opens (fun owner added h => ?_)
    fun e added h => .unopened (h.2 e rfl)
  obtain rfl := h.1 owner rfl
  have hoffers : Speaks atoms (underServerGrab env (pasteAction env (transferOf request permit owner)))
      fun _ offer => ∀ e ∈ offer, Offering owner e :=
    Speaks.of_tells (pasteAction_offers _) fun _ _ _ h _ => h
  refine Writes.attempt_bind hoffers fun offered offer hoffer => ?_
  refine Writes.attempt_bind (afterOffer_concludes (transferOf request permit owner) _ offered)
    fun result added hconcludes => ?_
  obtain ⟨service, rest, s, rfl, serves, unserved, hdelivered⟩ := hconcludes
  refine Writes.attempt_bind (releaseTransferOwner_releases owner)
    fun released cleanup release => Writes.lift ?_
  rw [List.append_nil]
  exact .opened owner hoffer serves unserved
    (fun reply hr => hdelivered reply (conclude_ok hr)) release

end Loop

end Programs

end AgentSeat.Provider
