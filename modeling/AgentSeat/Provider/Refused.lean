/-
  What a refused text transfer has done.

  Five codes say that nothing was sent. A transfer fails with one of them in three places: in the
  checks before it claims the selection, in the search of the paste key right after the claim, and in
  the target and focus checks of a request it serves. Only the first place is one where nothing was
  done yet.

  Main result: `refused_without_effect`. A transfer that fails with such a code, and not late, has
  claimed nothing, typed nothing and written nothing.
-/
import AgentSeat.Provider.Reported

namespace AgentSeat.Provider

open AgentSeat.Lib AgentSeat.Proto AgentSeat.X11 AgentSeat.Seat

/-- The codes that the protocol defines as nothing sent. -/
def NothingSent : ErrorCode → Prop
  | .refused | .noSuchClient | .stale | .unsupported | .invalidArgument => True
  | _ => False

instance : DecidablePred NothingSent
  | .refused | .noSuchClient | .stale | .unsupported | .invalidArgument =>
    inferInstanceAs (Decidable True)
  | .unavailable | .incompatibleRevision | .timedOut | .malformed | .tooLarge | .internal
  | .resyncRequired | .revoked | .sessionClosed => inferInstanceAs (Decidable False)

/-- Claims no selection, emits no event and writes no property. Giving the selection back to nobody
    is no claim. -/
def Effectless : Step → Prop
  | .said (.fakeInput _) _ | .said (.changeProperty ..) _ => False
  | .said (.setSelectionOwner window) _ => window = none32
  | _ => True

/-! ## Failures that say more -/

/-- A failure with another code. -/
def Sending (e : Failure) : Prop := ¬ NothingSent e.code

section Failures

variable {env : Outside} {α : Type}

theorem sending_checked {onSend onReply : String} {answer : Except XFault α} {e : Failure}
    (h : checked onSend onReply answer = .error e) : Sending e := by
  match answer with
  | .ok a => exact absurd h nofun
  | .error .send => exact Except.error.inj h ▸ id
  | .error .reply => exact Except.error.inj h ▸ id

theorem reply_throws {onSend onReply : String} {request : XM (Except XFault α)}
    (h : ∀ w, ∃ answer w', request w = (.ok answer, w')) :
    Prog.Throws Sending (reply onSend onReply request) := by
  intro w e he
  obtain ⟨answer, w', hrun⟩ := h w
  unfold reply at he
  rw [Prog.bind_ok hrun] at he
  exact sending_checked he

theorem refuse_throws {p : Prop} [Decidable p] (message : String) :
    Prog.Throws Sending (Prog.lift (refuseIf p (Failure.unavailable message)) : XM Unit) := by
  refine Prog.Throws.lift fun e he => ?_
  unfold refuseIf at he
  split at he
  · exact Except.error.inj he ▸ id
  · exact absurd he nofun

theorem present_throws (message : String) (o : Option α) :
    Prog.Throws Sending (Prog.lift (present message o) : XM α) := by
  refine Prog.Throws.lift fun e he => ?_
  cases o with
  | some a => exact absurd he nofun
  | none => exact Except.error.inj he ▸ id

theorem accepts_throws (permit : SeatPermit) : Prog.Throws Sending (accepts env permit) :=
  fun _ _ h => absurd h nofun

theorem conclude_throws {result : Except Failure α} {released : Except Failure Unit} {e : Failure}
    (h : conclude result released = .error e) : result = .error e ∨ released = .error e := by
  unfold conclude at h
  split at h
  · exact absurd h nofun
  · exact .inl h
  · exact .inr (by rw [Except.error.inj h])

theorem underServerGrab_throws {action : XM α} (h : Prog.Throws Sending action) :
    Prog.Throws Sending (underServerGrab env action) := by
  unfold underServerGrab
  refine Prog.Throws.bind (reply_throws fun _ => ⟨_, _, rfl⟩) fun _ => ?_
  refine Prog.Throws.attempt_bind h fun r hr => ?_
  intro w e he
  rcases conclude_throws he with he | he
  · exact hr e he
  · exact sending_checked he

theorem ask_throws {q : Question} : Prog.Throws Sending (Dialogue.ask env q : XM q.Answer) :=
  fun _ _ h => absurd h nofun

/-! ### Keys -/

theorem fakeInput_throws (event : XTestEvent) : Prog.Throws Sending (fakeInput env event) :=
  Prog.Throws.bind (reply_throws fun _ => ⟨_, _, rfl⟩) fun _ => reply_throws fun _ => ⟨_, _, rfl⟩

theorem bestEffortRelease_throws (kind : XTestKind) (detail : Nat) :
    Prog.Throws Sending (bestEffortRelease env kind detail) := by
  unfold bestEffortRelease
  refine Prog.Throws.bind ask_throws fun answer => ?_
  match (answer : Except XFault Unit) with
  | .error .send => exact Prog.Throws.pure ()
  | .error .reply => exact Prog.Throws.bind ask_throws fun _ => Prog.Throws.pure ()
  | .ok () => exact Prog.Throws.bind ask_throws fun _ => Prog.Throws.pure ()

theorem releaseEach_throws (keycodes : List Nat) : Prog.Throws Sending (releaseEach env keycodes) := by
  induction keycodes with
  | nil => exact Prog.Throws.pure ()
  | cons keycode rest ih => exact Prog.Throws.bind (bestEffortRelease_throws _ _) fun _ => ih

/-- A failed press or release is handed on after a cleanup. -/
theorem released_throws {m : XM Unit} {cleanup : Failure → XM α} {go : Unit → XM α}
    (hm : Prog.Throws Sending m) (hcleanup : ∀ e, Sending e → Prog.Throws Sending (cleanup e))
    (hgo : ∀ u, Prog.Throws Sending (go u)) :
    Prog.Throws Sending (Prog.attempt m >>= fun result => match result with
      | .ok u => go u
      | .error e => cleanup e) := by
  refine Prog.Throws.attempt_bind hm fun r hr => ?_
  cases r with
  | ok u => exact hgo u
  | error e => exact hcleanup e (hr e rfl)

theorem pressModifiers_throws (modifiers pressed : List Nat) :
    Prog.Throws Sending (pressModifiers env modifiers pressed) := by
  induction modifiers generalizing pressed with
  | nil => exact Prog.Throws.pure _
  | cons modifier rest ih =>
    exact released_throws (fakeInput_throws _)
      (fun e he => Prog.Throws.bind (releaseEach_throws _) fun _ => Prog.Throws.fail he)
      fun _ => ih _

theorem popModifiers_throws (modifiers : List Nat) :
    Prog.Throws Sending (popModifiers env modifiers) := by
  induction modifiers with
  | nil => exact Prog.Throws.pure _
  | cons modifier rest ih =>
    exact released_throws (fakeInput_throws _)
      (fun e he => Prog.Throws.bind (bestEffortRelease_throws _ _) fun _ =>
        Prog.Throws.bind (releaseEach_throws _) fun _ => Prog.Throws.fail he)
      fun _ => ih

theorem typeKey_throws (stroke : KeyStroke) : Prog.Throws Sending (typeKey env stroke) := by
  unfold typeKey
  refine Prog.Throws.bind (pressModifiers_throws _ _) fun pressed => ?_
  refine Prog.Throws.attempt_bind (fakeInput_throws _) fun down hdown => ?_
  cases down with
  | error e =>
    exact Prog.Throws.bind (releaseEach_throws _) fun _ => Prog.Throws.fail (hdown e rfl)
  | ok u =>
    refine Prog.Throws.attempt_bind (fakeInput_throws _) fun up hup => ?_
    cases up with
    | error e =>
      exact Prog.Throws.bind (bestEffortRelease_throws _ _) fun _ =>
        Prog.Throws.bind (releaseEach_throws _) fun _ => Prog.Throws.fail (hup e rfl)
    | ok u => exact popModifiers_throws _

/-! ### Selections -/

theorem selectionOwner_throws (message : String) :
    Prog.Throws Sending (selectionOwner env message) := reply_throws fun _ => ⟨_, _, rfl⟩

theorem claimTransferSelection_throws (owner : Window) :
    Prog.Throws Sending (claimTransferSelection env owner) :=
  Prog.Throws.bind (reply_throws fun _ => ⟨_, _, rfl⟩) fun _ =>
    Prog.Throws.bind (selectionOwner_throws _) fun _ => refuse_throws _

theorem requireXresClientIdentity_throws (window : Window) :
    Prog.Throws Sending (requireXresClientIdentity env window) :=
  Prog.Throws.bind (reply_throws fun _ => ⟨_, _, rfl⟩) fun _ =>
    Prog.Throws.bind (refuse_throws _) fun _ =>
      Prog.Throws.bind (reply_throws fun _ => ⟨_, _, rfl⟩) fun _ => present_throws _ _

theorem sameXClient_throws (targetXid requestor : Window) :
    Prog.Throws Sending (sameXClient env targetXid requestor) :=
  Prog.Throws.bind (requireXresClientIdentity_throws _) fun _ =>
    Prog.Throws.bind (requireXresClientIdentity_throws _) fun _ => Prog.Throws.pure _

/-- The notification and the synchronization that end every answer. -/
theorem notified_throws (request : SelectionRequestEvent) (property : Atom) (message : String)
    (written : Bool) :
    Prog.Throws Sending (do
      notifySelection env request property
      synchronize env message
      pure written : XM Bool) :=
  Prog.Throws.bind (reply_throws fun _ => ⟨_, _, rfl⟩) fun _ =>
    Prog.Throws.bind (reply_throws fun _ => ⟨_, _, rfl⟩) fun _ => Prog.Throws.pure _

theorem serveSelection_throws (request : SelectionRequestEvent) (owner : Window)
    (text : List UInt8) : Prog.Throws Sending (serveSelection env request owner text) := by
  unfold serveSelection
  refine Prog.Throws.bind (selectionOwner_throws _) fun current => ?_
  refine Prog.Throws.bind (Prog.Throws.read _) fun atoms => ?_
  split_ifs
  · exact Prog.Throws.pure _
  · exact Prog.Throws.bind (reply_throws fun _ => ⟨_, _, rfl⟩) fun _ => notified_throws _ _ _ _
  · exact Prog.Throws.bind (reply_throws fun _ => ⟨_, _, rfl⟩) fun _ => notified_throws _ _ _ _
  · exact notified_throws _ _ _ _

theorem createTransferOwner_throws : Prog.Throws Sending (createTransferOwner env) :=
  Prog.Throws.bind (reply_throws fun _ => ⟨_, _, rfl⟩) fun _ =>
    Prog.Throws.bind (reply_throws fun _ => ⟨_, _, rfl⟩) fun _ => Prog.Throws.pure _

theorem releaseTransferOwner_throws (owner : Window) :
    Prog.Throws Sending (releaseTransferOwner env owner) := by
  have hrelease : Prog.Throws Sending (releaseSelection env owner) :=
    Prog.Throws.bind (selectionOwner_throws _) fun _ =>
      Prog.Throws.bind (Prog.Throws.onlyIf (reply_throws fun _ => ⟨_, _, rfl⟩) _) fun _ =>
        reply_throws fun _ => ⟨_, _, rfl⟩
  unfold releaseTransferOwner
  refine Prog.Throws.bind (reply_throws fun _ => ⟨_, _, rfl⟩) fun _ => ?_
  refine Prog.Throws.attempt_bind hrelease fun cleanup hcleanup => ?_
  refine Prog.Throws.bind (fun _ _ h => absurd h nofun) fun released => ?_
  refine Prog.Throws.bind (Prog.Throws.lift fun e he => ?_) fun _ => reply_throws fun _ => ⟨_, _, rfl⟩
  rcases conclude_throws he with he | he
  · exact hcleanup e he
  · exact sending_checked he

end Failures

/-! ## Late refusals -/

/-- The target is there and has the focus: what is checked before a request is served. -/
def requireTarget (env : Outside) (target : TargetRequest) : XM Unit := do
  let target ← freshTarget env target
  requireFocusOwnedBy env target.xid

/-- The entries of a search for the paste key that failed. -/
def KeyMissing (e : Failure) (check : List Step) : Prop :=
  ∃ (env : Outside) (w : World), (resolveKey env .v [.control] w).1 = .error e ∧
    (resolveKey env .v [.control] w).2.trace = w.trace ++ check

/-- The entries of a check that did not find the target with the focus. -/
def TargetMissing (target : TargetRequest) (e : Failure) (check : List Step) : Prop :=
  ∃ (env : Outside) (w : World), (requireTarget env target w).1 = .error e ∧
    (requireTarget env target w).2.trace = w.trace ++ check

/-- After the selection was claimed, the paste key is not found, or the check of a served request
    does not find the target with the focus. -/
structure LateRefusal (t : Transfer) (clipboard : Atom) (said seen check rest : List Step)
    (e : Failure) : Prop where
  split : said = seen ++ (check ++ rest)
  claimed : .said (.setSelectionOwner t.owner) (.ok ()) ∈ seen
  code : NothingSent e.code
  place : KeyMissing e check ∨ TargetMissing t.target e check ∧ ∃ before request,
    Asks t clipboard (.selectionRequest request) ∧
    seen = before ++ [polled (.selectionRequest request), asked .grabServer (.ok ())]

theorem effectless_append {added more : List Step} (h : ∀ e ∈ added, Effectless e)
    (h' : ∀ e ∈ more, Effectless e) : ∀ e ∈ added ++ more, Effectless e := by
  intro e he
  rcases List.mem_append.mp he with he | he
  · exact h e he
  · exact h' e he

theorem Looking.effectless {e : Step} (h : Looking e) : Effectless e := by
  cases e with
  | said q a => cases q <;> trivial
  | mark m => trivial

theorem Release.effectless {owner : Window} {cleanup : List Step} (h : Release owner cleanup) :
    ∀ e ∈ cleanup, Effectless e := by
  have hinside {inside : List Step} (h : Releasing owner inside) : ∀ e ∈ inside, Effectless e := by
    cases h <;> simp [Effectless]
  cases h with
  | ungrabbed fault => simp [Effectless]
  | grabbed h released =>
    intro e he
    simp only [List.mem_cons, List.mem_append, List.not_mem_nil, or_false] at he
    rcases he with rfl | he | rfl
    · trivial
    · exact hinside h e he
    · trivial
  | synced h answer =>
    intro e he
    simp only [List.mem_cons, List.mem_append, List.not_mem_nil, or_false] at he
    rcases he with rfl | he | rfl | rfl
    · trivial
    · exact hinside h e he
    · trivial
    · trivial

section Programs

variable {env : Outside} {atoms : Atoms} {α : Type}

/-- A program that fails with another code only. -/
theorem Speaks.sending {m : XM α} {A : Step → Prop} (hm : Utters Moves A m)
    (hthrows : Prog.Throws Sending m) :
    Speaks atoms m fun r added => (∀ e ∈ added, A e) ∧ ∀ e, r = .error e → Sending e := by
  have hadded : Speaks atoms m fun _ added => ∀ e ∈ added, A e :=
    Speaks.of_tells hm fun _ _ _ h _ => h
  intro w hw
  obtain ⟨added, htrace, hatoms, hA⟩ := hadded w hw
  exact ⟨added, htrace, hatoms, hA, fun e he => hthrows w e he⟩

theorem reply_bind_sending {β : Type} (said : Except XFault α → Step)
    {request : XM (Except XFault α)} {f : α → XM β} {G : Except Failure β → List Step → Prop}
    (hrun : ∀ w : World, ∃ a, request w = (.ok a, ⟨w.state, w.trace ++ [said a]⟩))
    {onSend onReply : String}
    (hok : ∀ a, Speaks atoms (f a) fun r more => G r (said (.ok a) :: more))
    (herr : ∀ e fault, Sending e → G (.error e) [said (.error fault)]) :
    Speaks atoms (reply onSend onReply request >>= f) G := by
  have hthrows : Prog.Throws Sending (reply onSend onReply request) := reply_throws fun w => by
    obtain ⟨a, ha⟩ := hrun w
    exact ⟨_, _, ha⟩
  have hreply : Speaks atoms (reply onSend onReply request) fun r added =>
      Requested said r added ∧ ∀ e, r = .error e → Sending e := by
    intro w hw
    obtain ⟨added, htrace, hatoms, hrequested⟩ := reply_writes said hrun onSend onReply w hw
    exact ⟨added, htrace, hatoms, hrequested, hthrows w⟩
  refine Writes.bind hreply (fun a added h => ?_) fun e added h => ?_
  · rcases h.1 with ⟨b, hb, rfl⟩ | ⟨_, _, hb, -⟩
    · obtain rfl := Except.ok.inj hb
      exact hok a
    · exact absurd hb nofun
  · rcases h.1 with ⟨_, hb, -⟩ | ⟨_, fault, -, rfl⟩
    · exact absurd hb nofun
    · exact herr e fault (h.2 e rfl)

/-- Under a grab, what was done before a result or a failure with one of the five codes. -/
theorem underServerGrab_refused {action : XM α} {F : Except Failure α → List Step → Prop}
    (h : Speaks atoms action F) :
    Speaks atoms (underServerGrab env action) fun r added =>
      (∀ a, r = .ok a → ∃ inside released, F (.ok a) inside ∧
        added = asked .grabServer (.ok ()) :: (inside ++ [asked .ungrabServer released])) ∧
      ∀ e, r = .error e → NothingSent e.code → ∃ inside released, F (.error e) inside ∧
        added = asked .grabServer (.ok ()) :: (inside ++ [asked .ungrabServer released]) := by
  unfold underServerGrab
  refine reply_bind_sending (asked .grabServer) (fun _ => ⟨_, rfl⟩) (fun _ => ?_)
    fun e fault hsending => ⟨nofun, fun e' he' hcode => ?_⟩
  · refine Writes.attempt_bind h fun result inside hF => ?_
    refine Writes.bind (Writes.ask (F := fun r added => ∃ released, r = .ok released ∧
      added = [asked .ungrabServer released]) fun released => ⟨released, rfl, rfl⟩)
      (fun released added hasked => ?_) fun e added hasked => by simp at hasked
    obtain ⟨_, heq, rfl⟩ := hasked
    obtain rfl := Except.ok.inj heq
    refine Writes.lift ⟨fun a ha => ?_, fun e he hcode => ?_⟩
    · rw [conclude_ok ha] at hF
      exact ⟨inside, released, hF, by simp⟩
    · rcases conclude_throws he with hresult | hreleased
      · rw [hresult] at hF
        exact ⟨inside, released, hF, by simp⟩
      · exact absurd hcode (sending_checked hreleased)
  · exact absurd (Except.error.inj he' ▸ hcode) hsending

/-- The entries of the offer if it fails with one of the five codes. -/
def OfferRefused (t : Transfer) (r : Except Failure Bool) (added : List Step) : Prop :=
  (r = .ok true → .said (.setSelectionOwner t.owner) (.ok ()) ∈ added) ∧
  ∀ e, r = .error e → NothingSent e.code → (∀ x ∈ added, Effectless x) ∨ ∃ seen check,
    added = seen ++ check ∧ .said (.setSelectionOwner t.owner) (.ok ()) ∈ seen ∧ KeyMissing e check

/-- A look before the claim. -/
theorem OfferRefused.look {t : Transfer} {m : XM α} {f : α → XM Bool}
    (hm : Utters Moves Effectless m) (hf : ∀ a, Speaks atoms (f a) (OfferRefused t)) :
    Speaks atoms (m >>= f) (OfferRefused t) := by
  have hadded : Speaks atoms m fun _ added => ∀ e ∈ added, Effectless e :=
    Speaks.of_tells hm fun _ _ _ h _ => h
  refine Writes.bind hadded (fun a added h => ?_) fun e added h => ⟨nofun, fun _ _ _ => .inl h⟩
  refine Writes.post (hf a) fun r more hmore => ⟨fun hr => ?_, fun e he hcode => ?_⟩
  · exact List.mem_append_right _ (hmore.1 hr)
  · rcases hmore.2 e he hcode with hall | ⟨seen, check, rfl, hclaimed, hmissing⟩
    · exact .inl (effectless_append h hall)
    · exact .inr ⟨added ++ seen, check, (List.append_assoc _ _ _).symm,
        List.mem_append_right _ hclaimed, hmissing⟩

theorem claimTransferSelection_claims (owner : Window) :
    Speaks atoms (claimTransferSelection env owner) fun r added =>
      (r = .ok () → .said (.setSelectionOwner owner) (.ok ()) ∈ added) ∧
      ∀ e, r = .error e → Sending e := by
  have hclaims : Speaks atoms (claimTransferSelection env owner) fun r added =>
      r = .ok () → .said (.setSelectionOwner owner) (.ok ()) ∈ added := by
    unfold claimTransferSelection
    refine reply_bind (asked (.setSelectionOwner owner)) (fun _ => ⟨_, rfl⟩) (fun _ => ?_)
      fun e fault => nofun
    refine Speaks.of_tells (A := Looking) (T := fun _ _ _ => True) ?_
      fun r added s _ _ _ => List.mem_cons_self ..
    exact Utters.bind (selectionOwner_looks _) fun _ => Utters.lift _
  intro w hw
  obtain ⟨added, htrace, hatoms, hadded⟩ := hclaims w hw
  exact ⟨added, htrace, hatoms, hadded, claimTransferSelection_throws owner w⟩

theorem onlyIfAccepted_throws (permit : SeatPermit) {emission : XM Unit}
    (h : Prog.Throws Sending emission) : Prog.Throws Sending (onlyIfAccepted env permit emission) := by
  unfold onlyIfAccepted
  refine Prog.Throws.bind (accepts_throws permit) fun accepted => ?_
  split
  · exact Prog.Throws.bind h fun _ => Prog.Throws.pure _
  · exact Prog.Throws.pure _

theorem pasteAction_refused (t : Transfer) :
    Speaks atoms (pasteAction env t) (OfferRefused t) := by
  have hlook {β : Type} {m : XM β} (h : Utters Moves Looking m) : Utters Moves Effectless m :=
    utters_of_looks h fun _ => Looking.effectless
  have haccepts : Utters Moves Effectless (accepts env t.permit) :=
    Utters.bind (Utters.ask fun _ => trivial) fun _ => Utters.pure _
  unfold pasteAction
  refine OfferRefused.look (hlook (freshTarget_looks _)) fun target => ?_
  refine OfferRefused.look (hlook (requireFocusOwnedBy_looks _)) fun _ => ?_
  refine OfferRefused.look (hlook (requireXresClientIdentity_looks _)) fun _ => ?_
  refine OfferRefused.look haccepts fun accepted => ?_
  split
  · refine Writes.bind (claimTransferSelection_claims t.owner) (fun _ claim hclaim => ?_)
      fun e claim hclaim => ⟨nofun, fun e' he' hcode => ?_⟩
    · have hkey : Speaks atoms (resolveKey env .v [.control]) fun r check =>
          ∀ e, r = .error e → KeyMissing e check := by
        have hlooks : Speaks atoms (resolveKey env .v [.control]) fun _ added =>
            ∀ e ∈ added, Looking e :=
          Speaks.of_tells (resolveKey_looks _ _) fun _ _ _ h _ => h
        intro w hw
        obtain ⟨check, htrace, hatoms, -⟩ := hlooks w hw
        exact ⟨check, htrace, hatoms, fun e he => ⟨env, w, he, htrace⟩⟩
      refine Writes.bind hkey (fun stroke check _ => ?_) fun e check hmissing =>
        ⟨nofun, fun e' he' _ => .inr ⟨claim, check, rfl, hclaim.1 rfl, ?_⟩⟩
      · have hpassive : Utters Moves Passive (onlyIfAccepted env t.permit (typeKey env stroke)) := by
          unfold onlyIfAccepted
          refine Utters.bind (Utters.bind (Utters.ask fun _ => trivial) fun _ => Utters.pure _)
            fun accepted => ?_
          split
          · exact Utters.bind (typeKey_utters (fun _ => trivial) fun _ _ _ => trivial)
              fun _ => Utters.pure _
          · exact Utters.pure _
        refine Writes.post (Speaks.sending hpassive (onlyIfAccepted_throws _ (typeKey_throws _)))
          fun r typed htyped => ⟨fun _ => List.mem_append_left _ (hclaim.1 rfl), fun e he hcode => ?_⟩
        exact absurd hcode (htyped.2 e he)
      · obtain rfl := Except.error.inj he'
        exact hmissing e rfl
    · exact absurd (Except.error.inj he' ▸ hcode) (hclaim.2 e rfl)
  · exact Writes.pure ⟨nofun, nofun⟩

/-! ## Refusals while serving -/

theorem selectionAction_refused (t : Transfer) (request : SelectionRequestEvent) :
    Speaks atoms (selectionAction env t request) fun r added =>
      ∀ e, r = .error e → NothingSent e.code → TargetMissing t.target e added := by
  intro w hw
  obtain ⟨added, htrace, hatoms, -⟩ := selectionAction_replies t request w hw
  refine ⟨added, htrace, hatoms, fun e he hcode => ?_⟩
  rcases hrun : selectionAction env t request w with ⟨r, w'⟩
  rw [hrun] at he htrace
  obtain rfl : r = .error e := he
  -- what follows the two checks fails with other codes
  have hrest (target : Target) : Prog.Throws Sending (do
      let accepted ← accepts env t.permit
      if accepted then do
        let same ← sameXClient env target.xid request.requestor
        if same then serveSelection env request t.owner t.text
        else refuseSelection env request "cannot refuse an out-of-scope selection requestor"
      else pure false : XM Bool) := by
    refine Prog.Throws.bind (accepts_throws _) fun accepted => ?_
    split
    · refine Prog.Throws.bind (sameXClient_throws _ _) fun same => ?_
      split
      · exact serveSelection_throws _ _ _
      · exact notified_throws _ _ _ _
    · exact Prog.Throws.pure _
  refine ⟨env, w, ?_⟩
  unfold requireTarget
  rcases Prog.of_bind_error hrun with hfresh | ⟨target, w₁, hfresh, hrun⟩
  · rw [Prog.bind_error hfresh]
    exact ⟨rfl, htrace⟩
  · rw [Prog.bind_ok hfresh]
    rcases Prog.of_bind_error hrun with hfocus | ⟨_, w₂, -, hrun⟩
    · rw [hfocus]
      exact ⟨rfl, htrace⟩
    · exact absurd hcode (hrest target w₂ e (by rw [hrun]))

/-- The entries of a wait that fails with one of the five codes. -/
def WaitRefused (t : Transfer) (clipboard : Atom) {β : Type} (r : Except Failure β)
    (added : List Step) : Prop :=
  ∀ e, r = .error e → NothingSent e.code → ∃ before request check released,
    Asks t clipboard (.selectionRequest request) ∧ TargetMissing t.target e check ∧
    added = before ++ ([polled (.selectionRequest request), asked .grabServer (.ok ())] ++
      (check ++ [asked .ungrabServer released]))

section Waiting

variable {β : Type} {t : Transfer} {clipboard : Atom}

theorem WaitRefused.prepend {r : Except Failure β} {added : List Step}
    (h : WaitRefused t clipboard r added) (before : List Step) :
    WaitRefused t clipboard r (before ++ added) := by
  intro e he hcode
  obtain ⟨middle, request, check, released, own, hmissing, rfl⟩ := h e he hcode
  exact ⟨before ++ middle, request, check, released, own, hmissing, by simp⟩

theorem WaitRefused.bind {m : XM α} {f : α → XM β} (hm : Speaks atoms m (WaitRefused t clipboard))
    (hf : ∀ a, Speaks atoms (f a) (WaitRefused t clipboard)) :
    Speaks atoms (m >>= f) (WaitRefused t clipboard) := by
  refine Writes.bind hm (fun a added _ => ?_) fun e added h e' he' hcode => ?_
  · exact Writes.post (hf a) fun r more h => h.prepend added
  · obtain rfl := Except.error.inj he'
    exact h e rfl hcode

theorem WaitRefused.after {m : XM α} {f : α → XM β} {A : Step → Prop} (hm : Utters Moves A m)
    (hthrows : Prog.Throws Sending m)
    (hf : ∀ a, Speaks atoms (f a) (WaitRefused t clipboard)) :
    Speaks atoms (m >>= f) (WaitRefused t clipboard) :=
  WaitRefused.bind (Writes.post (Speaks.sending hm hthrows) fun _ _ h e he hcode =>
    absurd hcode (h.2 e he)) hf

theorem poll_refused {f : Option XEvent → XM β}
    (hf : ∀ pending, Speaks atoms (f pending) fun r more =>
      WaitRefused t clipboard r (asked .pollForEvent (.ok pending) :: more))
    {onSend onReply : String} :
    Speaks atoms (reply onSend onReply (Dialogue.ask env .pollForEvent) >>= f)
      (WaitRefused t clipboard) :=
  reply_bind_sending (asked .pollForEvent) (fun _ => ⟨_, rfl⟩) hf
    fun _ _ hsending _ he hcode => absurd (Except.error.inj he ▸ hcode) hsending

theorem serveEvents_refused (t : Transfer) (clipboard : Atom) (events requests : Nat)
    (delivered : Bool) :
    Speaks atoms (serveEvents env t clipboard events requests delivered)
      (WaitRefused t clipboard) := by
  have hend (served : Option Serving) {added : List Step} :
      WaitRefused t clipboard (.ok served) added := fun e he => by simp at he
  induction events generalizing requests delivered with
  | zero =>
    unfold serveEvents
    refine poll_refused fun pending => ?_
    cases pending with
    | none => exact Writes.pure (hend _)
    | some event => exact Writes.pure (hend _)
  | succ events ih =>
    unfold serveEvents
    refine poll_refused fun pending => ?_
    cases pending with
    | none => exact Writes.pure (hend _)
    | some event =>
      have hpass : Speaks atoms (serveEvents env t clipboard events requests delivered)
          fun r more => WaitRefused t clipboard r (polled event :: more) :=
        Writes.post (ih requests delivered) fun r more h => h.prepend [polled event]
      cases event with
      | selectionClear owner selection =>
        dsimp only
        split
        · exact Writes.pure (hend _)
        · exact hpass
      | other => exact hpass
      | selectionRequest request =>
        dsimp only
        by_cases own : request.owner = t.owner ∧ request.selection = clipboard
        · rw [if_pos own]
          by_cases full : requests + 1 > maxSelectionRequests
          · rw [if_pos full]
            exact Writes.pure (hend _)
          · rw [if_neg full]
            refine Writes.bind (underServerGrab_refused (selectionAction_refused t request))
              (fun written block _ => ?_) fun e block h e' he' hcode => ?_
            · exact Writes.post (ih _ _) fun r more h =>
                h.prepend (polled (.selectionRequest request) :: block)
            · obtain rfl := Except.error.inj he'
              obtain ⟨check, released, hmissing, rfl⟩ := h.2 e rfl hcode
              exact ⟨[], request, check, released, own, hmissing e rfl hcode, rfl⟩
        · rw [if_neg own]
          exact hpass

theorem transferEvidence_throws (t : Transfer) :
    Prog.Throws Sending (transferEvidenceIsCurrent env t) := fun _ _ h => absurd h nofun

/-- One round of the wait, up to the decision whether there is another. -/
theorem waitRounds_round_refused {bytes rounds : Nat} (s : Serving)
    (hnext : ∀ left, rounds = left + 1 → ∀ s',
      Speaks atoms (waitRounds env t clipboard bytes left s') (WaitRefused t clipboard)) :
    Speaks atoms (waitRounds env t clipboard bytes rounds s) (WaitRefused t clipboard) := by
  have hend (reply : TextTransferReply) :
      Speaks atoms (pure reply : XM TextTransferReply) (WaitRefused t clipboard) :=
    Writes.pure fun e he => by simp at he
  unfold waitRounds
  refine WaitRefused.bind (serveEvents_refused t clipboard _ _ _) fun served => ?_
  cases served with
  | none => exact hend _
  | some serving =>
    refine WaitRefused.after (transferEvidence_passive t) (transferEvidence_throws t)
      fun current => ?_
    split
    · exact hend _
    · refine WaitRefused.after (A := Passive) (Utters.ask fun _ => trivial)
        ask_throws fun settled => ?_
      split
      · exact hend _
      · cases rounds with
        | zero => exact hend _
        | succ left =>
          exact WaitRefused.after (A := Passive) (reply_utters (Utters.ask fun _ => trivial) _ _)
            (reply_throws fun _ => ⟨_, _, rfl⟩) fun _ => hnext left rfl serving

theorem waitRounds_refused (t : Transfer) (clipboard : Atom) (bytes rounds : Nat) (s : Serving) :
    Speaks atoms (waitRounds env t clipboard bytes rounds s) (WaitRefused t clipboard) := by
  induction rounds generalizing s with
  | zero => exact waitRounds_round_refused s fun left h => absurd h.symm (Nat.succ_ne_zero left)
  | succ rounds ih =>
    refine waitRounds_round_refused s fun left h s' => ?_
    obtain rfl := Nat.succ.inj h
    exact ih s'

theorem waitForTransfer_refused (t : Transfer) (bytes : Nat) :
    Speaks atoms (waitForTransfer env t bytes) (WaitRefused t atoms.clipboard) := by
  unfold waitForTransfer
  refine WaitRefused.after (A := Passive) (Utters.ask fun _ => trivial)
    ask_throws fun deadline => ?_
  refine Writes.bind (F := fun r added => r = .ok atoms.clipboard ∧ added = [])
    (Writes.read (f := fun s : State => s.observer.atoms.clipboard)
      fun s hs => ⟨by rw [hs], rfl⟩) (fun clipboard added h => ?_) fun e added h => by simp at h
  obtain ⟨hclipboard, rfl⟩ := h
  obtain rfl := Except.ok.inj hclipboard
  match (deadline : Option Nat) with
  | none =>
    refine Writes.fail fun e he hcode => ?_
    obtain rfl := Except.error.inj he
    exact hcode.elim
  | some rounds => exact waitRounds_refused t _ bytes rounds .start

/-- After the offer, a failure is the one of the offer or of the wait. -/
theorem afterOffer_refused (t : Transfer) (bytes : Nat) (offered : Except Failure Bool) :
    Speaks atoms (afterOffer env t bytes offered) fun r added =>
      (r = offered.map (fun _ => transferReply t.target bytes .interrupted) ∧ added = []) ∨
      (offered = .ok true ∧ WaitRefused t atoms.clipboard r added) := by
  match offered with
  | .ok true =>
    exact Writes.post (waitForTransfer_refused t bytes) fun _ _ h => .inr ⟨rfl, h⟩
  | .ok false => exact Writes.pure (.inl ⟨rfl, rfl⟩)
  | .error e => exact Writes.fail (.inl ⟨rfl, rfl⟩)

end Waiting

theorem releaseTransferOwner_sending (owner : Window) :
    Speaks atoms (releaseTransferOwner env owner) fun r cleanup =>
      Release owner cleanup ∧ ∀ e, r = .error e → Sending e := by
  intro w hw
  obtain ⟨cleanup, htrace, hatoms, release⟩ := releaseTransferOwner_releases owner w hw
  exact ⟨cleanup, htrace, hatoms, release, releaseTransferOwner_throws owner w⟩

/-- A request that fails with one of the five codes did nothing, or it failed late. -/
theorem textInsert_refused (request : TextInsertRequest) (permit : SeatPermit) :
    Speaks atoms (textInsert env request permit) fun r added => ∀ e, r = .error e →
      NothingSent e.code → (∀ x ∈ added, Effectless x) ∨ ∃ owner seen check rest,
        LateRefusal (transferOf request permit owner) atoms.clipboard added seen check rest e := by
  unfold textInsert
  refine Writes.bind (F := fun r added => added = [] ∧ ∀ e, r = .error e → Sending e)
    (Writes.lift ⟨rfl, fun e he => ?_⟩) (fun _ added h => ?_) fun e added h e' he' hcode => ?_
  · unfold refuseIf at he
    split at he
    · exact Except.error.inj he ▸ id
    · exact absurd he nofun
  · obtain ⟨rfl, -⟩ := h
    have hopens : Speaks atoms (createTransferOwner env) fun r added =>
        (∀ owner, r = .ok owner → added = opening owner) ∧ ∀ e, r = .error e → Sending e := by
      intro w hw
      obtain ⟨added, htrace, hatoms, hadded⟩ := createTransferOwner_opens w hw
      exact ⟨added, htrace, hatoms, hadded.1, createTransferOwner_throws w⟩
    refine Writes.bind hopens (fun owner added h => ?_) fun e added h e' he' hcode => ?_
    · obtain rfl := h.1 owner rfl
      refine Writes.attempt_bind
        (underServerGrab_refused (pasteAction_refused (transferOf request permit owner)))
        fun offered offer hoffer => ?_
      refine Writes.attempt_bind (afterOffer_refused (transferOf request permit owner) _ offered)
        fun result added hafter => ?_
      refine Writes.attempt_bind (releaseTransferOwner_sending owner)
        fun released cleanup hrelease => Writes.lift fun e he hcode => ?_
      obtain ⟨release, hsending⟩ := hrelease
      rcases conclude_throws he with hresult | hreleased
      · subst hresult
        rcases hafter with ⟨hmap, rfl⟩ | ⟨rfl, hwait⟩
        · -- the offer failed
          obtain rfl : offered = .error e := by
            cases offered with
            | ok b => exact absurd hmap nofun
            | error e' => rw [Except.error.inj hmap]
          obtain ⟨inside, freed, hrefused, rfl⟩ := hoffer.2 e rfl hcode
          rcases hrefused.2 e rfl hcode with hall | ⟨seen, check, rfl, hclaimed, hmissing⟩
          · refine .inl (effectless_append (List.forall_mem_nil _) (effectless_append (by simp [opening, Effectless])
              (effectless_append (fun x hx => ?_) ?_)))
            · simp only [List.mem_cons, List.mem_append, List.not_mem_nil, or_false] at hx
              rcases hx with rfl | hx | rfl
              · trivial
              · exact hall x hx
              · trivial
            · simpa using release.effectless
          · refine .inr ⟨owner, opening owner ++ (asked .grabServer (.ok ()) :: seen), check,
              [asked .ungrabServer freed] ++ cleanup, by simp,
              List.mem_append_right _ (List.mem_cons_of_mem _ hclaimed), hcode, .inl hmissing⟩
        · -- a request found the target gone
          obtain ⟨inside, freed, hclaims, rfl⟩ := hoffer.1 true rfl
          obtain ⟨before, asking, check, freed', own, hmissing, rfl⟩ := hwait e rfl hcode
          have hclaimed := hclaims.1 rfl
          refine .inr ⟨owner, opening owner ++ (asked .grabServer (.ok ()) ::
              (inside ++ [asked .ungrabServer freed])) ++ before ++
              [polled (.selectionRequest asking), asked .grabServer (.ok ())], check,
            [asked .ungrabServer freed'] ++ cleanup, by simp, ?_, hcode,
            .inr ⟨hmissing, _, asking, own, rfl⟩⟩
          simp [hclaimed]
      · exact absurd hcode (hsending e hreleased)
    · exact absurd (Except.error.inj he' ▸ hcode) (h.2 e rfl)
  · exact absurd (Except.error.inj he' ▸ hcode) (h.2 e rfl)

end Programs

/-- What was said during a request. -/
def insertSaid (env : Outside) (request : TextInsertRequest) (permit : SeatPermit) (w : World) :
    List Step := (textInsert env request permit w).2.trace.drop w.trace.length

/-- A transfer that fails with one of the five codes, and not late, has done nothing. -/
theorem refused_without_effect (env : Outside) (request : TextInsertRequest) (permit : SeatPermit)
    (w : World) (e : Failure) (h : (textInsert env request permit w).1 = .error e)
    (hcode : NothingSent e.code)
    (hlate : ∀ owner seen check rest e', ¬ LateRefusal (transferOf request permit owner)
      w.state.observer.atoms.clipboard (insertSaid env request permit w) seen check rest e') :
    ∀ x ∈ insertSaid env request permit w, Effectless x := by
  obtain ⟨added, htrace, -, hrefused⟩ := textInsert_refused request permit w rfl
  have hsaid : insertSaid env request permit w = added := by
    unfold insertSaid
    rw [htrace, List.drop_left]
  rw [hsaid] at hlate ⊢
  rcases hrefused e h hcode with hall | ⟨owner, seen, check, rest, late⟩
  · exact hall
  · exact absurd late (hlate owner seen check rest e)

/-! ## Two refusals -/

/-- The code of a failure. -/
def failureCode {α : Type} : Except Failure α → Option ErrorCode
  | .ok _ => none
  | .error e => some e.code

theorem of_failureCode {α : Type} {r : Except Failure α} {code : ErrorCode}
    (h : failureCode r = some code) : ∃ e, r = .error e ∧ e.code = code := by
  cases r with
  | ok a => exact absurd h nofun
  | error e => exact ⟨e, rfl, Option.some.inj h⟩

/-- The entry sets the owner of the selection. -/
def setsOwner : Step → Bool
  | .said (.setSelectionOwner _) _ => true
  | _ => false

/-- The paste desktop, while nobody owns the selection. -/
def unownedOutside : Outside := fun trace question =>
  match question with
  | .getSelectionOwner => .ok none32
  | question => pasteOutside pasteLayout [] trace question

/-- A request for a generation that the target does not have. -/
def staleInsert : TextInsertRequest := { pasteInsert with target := ⟨⟨1, Nat.one_ne_zero⟩, 7⟩ }

/-- A stale target is refused before anything is done. -/
theorem refused_stale_target :
    failureCode (textInsert unownedOutside staleInsert ⟨1⟩ pasteWorld).1 = some .stale ∧
      ∀ x ∈ insertSaid unownedOutside staleInsert ⟨1⟩ pasteWorld, Effectless x := by
  have hcode : failureCode (textInsert unownedOutside staleInsert ⟨1⟩ pasteWorld).1 =
      some .stale := by decide +kernel
  have hnone : (insertSaid unownedOutside staleInsert ⟨1⟩ pasteWorld).any setsOwner = false := by
    decide +kernel
  obtain ⟨e, herror, hstale⟩ := of_failureCode hcode
  refine ⟨hcode, refused_without_effect _ _ _ _ e herror (by rw [hstale]; trivial) ?_⟩
  intro owner seen check rest e' late
  have hmem : .said (.setSelectionOwner owner) (.ok ()) ∈
      insertSaid unownedOutside staleInsert ⟨1⟩ pasteWorld := by
    rw [late.split]
    exact List.mem_append_left _ late.claimed
  exact absurd (List.any_eq_true.mpr ⟨_, hmem, rfl⟩) (by rw [hnone]; decide)

/-- A layout with Control, but without `v`. -/
def controlLayout : XkbMapReply where
  minKeyCode := 8
  maxKeyCode := 9
  firstType := 0
  nTypes := 1
  totalTypes := 1
  firstKeySym := 8
  nKeySyms := 2
  typesRtrn := some [⟨0, 1, []⟩]
  symsRtrn := some [⟨fun _ => 0, 1, 1, ['x'.toNat]⟩, ⟨fun _ => 0, 1, 1, [xkControlL]⟩]
  modmapRtrn := some [⟨9, 4⟩]

/-- The entry claims the selection for the window of the request. -/
def claimsSelection : Step → Bool
  | .said (.setSelectionOwner window) (.ok _) => window == pasteOwner
  | _ => false

/-- The argument is called invalid after the selection was claimed. -/
theorem refused_after_claim :
    failureCode (textInsert (pasteOutside controlLayout []) pasteInsert ⟨1⟩ pasteWorld).1 =
        some .invalidArgument ∧ NothingSent .invalidArgument ∧
      .said (.setSelectionOwner pasteOwner) (.ok ()) ∈
        insertSaid (pasteOutside controlLayout []) pasteInsert ⟨1⟩ pasteWorld ∧
      ¬ Effectless (.said (.setSelectionOwner pasteOwner) (.ok ())) := by
  have hclaims : (insertSaid (pasteOutside controlLayout []) pasteInsert ⟨1⟩ pasteWorld).any
      claimsSelection = true := by decide +kernel
  refine ⟨by decide +kernel, trivial, ?_, (by decide : ¬ pasteOwner = none32)⟩
  obtain ⟨e, he, hclaim⟩ := List.any_eq_true.mp hclaims
  unfold claimsSelection at hclaim
  split at hclaim
  · obtain rfl := beq_iff_eq.mp hclaim
    exact he
  · exact absurd hclaim (by decide)

end AgentSeat.Provider
