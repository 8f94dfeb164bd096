/-
  What a text transfer reports.

  A reply of `text_insert` counts either all the bytes or none. `Account` follows the count through
  the serving loop: the loop knows of a delivery exactly if a text property was written, with its
  notification and synchronization, to a verified requestor. The reply forgets it on one kind of
  exit. After a delivery the loop serves on for a settling time, and a disturbance in that time (a
  lost selection, an event or a request beyond its bound, evidence that is gone) is reported as an
  interruption with no bytes delivered.

  Main result: `delivered_bytes_exact`. The reply is exact in every run but those that are disturbed
  after a delivery.
-/
import AgentSeat.Observer.Plain
import AgentSeat.Provider.Calls
import AgentSeat.Provider.Delivery

namespace AgentSeat.Provider

open AgentSeat.Lib AgentSeat.Proto AgentSeat.X11 AgentSeat.Seat

/-! ## Deliveries -/

/-- The text was written, told and synchronized in a grab that verified the requestor. -/
def Delivers (t : Transfer) (added : List Step) : Prop :=
  ∃ pre asking post, added = pre ++ (delivery t asking ++ asked .sync (.ok ()) :: post) ∧
    Guarded t asking.requestor t.text pre

section Delivers

variable {t : Transfer} {added more : List Step}

theorem Delivers.append (h : Delivers t added) (more : List Step) : Delivers t (added ++ more) := by
  obtain ⟨pre, asking, post, rfl, hguarded⟩ := h
  exact ⟨pre, asking, post ++ more, by simp, hguarded⟩

theorem Delivers.prepend (h : Delivers t added) (before : List Step) :
    Delivers t (before ++ added) := by
  obtain ⟨pre, asking, post, rfl, hguarded⟩ := h
  exact ⟨before ++ pre, asking, post, by simp, hguarded.prepend before⟩

theorem Delivers.not_wordless (h : Delivers t added) : ¬ ∀ e ∈ added, Wordless e := by
  obtain ⟨pre, asking, post, rfl, -⟩ := h
  intro hall
  have hwrite : wrote asking.requestor (answerProperty asking) asking.target t.text (.ok ()) ∈
      pre ++ (delivery t asking ++ asked .sync (.ok ()) :: post) := by
    simp [delivery]
  exact hall _ hwrite

end Delivers

theorem wordless_append {added more : List Step} (h : ∀ e ∈ added, Wordless e)
    (h' : ∀ e ∈ more, Wordless e) : ∀ e ∈ added ++ more, Wordless e := by
  intro e he
  rcases List.mem_append.mp he with he | he
  · exact h e he
  · exact h' e he

/-! ## One request -/

/-- The answer to a request: the text after checks that verify the requestor, or no text. -/
def Answered (t : Transfer) (request : SelectionRequestEvent) (seen : List Step)
    (r : Except Failure Bool) (added : List Step) : Prop :=
  (r = .ok true → ∃ checks, added = checks ++ (delivery t request ++ [asked .sync (.ok ())]) ∧
    (∀ e ∈ checks, Ungrabbing e) ∧ Verified t request.requestor (seen ++ checks)) ∧
  (r = .ok false → ∀ e ∈ added, Wordless e)

section Programs

variable {env : Outside} {α β : Type} {atoms : Atoms}

section Answered

variable {t : Transfer} {request : SelectionRequestEvent} {seen : List Step}

theorem Answered.failed {e : Failure} {added : List Step} :
    Answered t request seen (.error e) added := ⟨nofun, nofun⟩

theorem Answered.declined {r : Except Failure Bool} {added : List Step} (hr : r ≠ .ok true)
    (h : ∀ e ∈ added, Wordless e) : Answered t request seen r added :=
  ⟨fun hyes => absurd hyes hr, fun _ => h⟩

theorem Answered.after {m : XM α} {f : α → XM Bool} {F : α → List Step → Prop}
    (hm : Speaks atoms m fun r added => (∀ e ∈ added, Passive e ∧ Ungrabbing e) ∧
      ∀ a, r = .ok a → F a added)
    (hf : ∀ a added, F a added → Speaks atoms (f a) (Answered t request (seen ++ added))) :
    Speaks atoms (m >>= f) (Answered t request seen) := by
  refine Writes.bind hm (fun a added h => ?_) fun e added _ => Answered.failed
  refine Writes.post (hf a added (h.2 a rfl)) fun r more hmore => ⟨fun hr => ?_, fun hr => ?_⟩
  · obtain ⟨checks, rfl, hungrabbing, hverified⟩ := hmore.1 hr
    refine ⟨added ++ checks, (List.append_assoc _ _ _).symm, fun e he => ?_, ?_⟩
    · rcases List.mem_append.mp he with he | he
      · exact (h.1 e he).2
      · exact hungrabbing e he
    · rwa [List.append_assoc] at hverified
  · exact wordless_append (fun e he => (h.1 e he).1.wordless) (hmore.2 hr)

theorem Answered.look {m : XM α} {f : α → XM Bool} {F : α → List Step → Prop}
    (hfinds : Finds m F) (hlooks : Utters Moves Looking m)
    (hf : ∀ a added, F a added → Speaks atoms (f a) (Answered t request (seen ++ added))) :
    Speaks atoms (m >>= f) (Answered t request seen) :=
  Answered.after (Writes.post (hfinds.looks hlooks) fun _ _ h =>
    ⟨fun e he => ⟨(h.1 e he).passive, (h.1 e he).ungrabbing⟩, h.2⟩) hf

/-- The notification and the synchronization, if both are accepted. -/
theorem notified_synced (property : Atom) (message : String) (written : Bool) :
    Speaks atoms (do
      notifySelection env request property
      synchronize env message
      pure written : XM Bool) fun r added => (∀ e ∈ added, Wordless e) ∧ (∀ yes, r = .ok yes →
        yes = written ∧ added = [.said (.notifySelection ⟨request.time, request.requestor,
          request.selection, request.target, property⟩) (.ok ()), asked .sync (.ok ())]) := by
  refine reply_bind (asked (.notifySelection _)) (fun _ => ⟨_, rfl⟩) (fun _ => ?_) fun e fault => ?_
  · refine reply_bind (asked .sync) (fun _ => ⟨_, rfl⟩) (fun _ => ?_) fun e fault => ?_
    · exact Writes.pure ⟨by simp [Wordless], fun yes hr => ⟨(Except.ok.inj hr).symm, rfl⟩⟩
    · exact ⟨by simp [Wordless], by simp⟩
  · exact ⟨by simp [Wordless], by simp⟩

theorem refuseSelection_answered (message : String) :
    Speaks atoms (refuseSelection env request message) (Answered t request seen) := by
  refine Writes.post (notified_synced none32 message false) fun r added h => ?_
  exact Answered.declined (fun hr => absurd (h.2 true hr).1 (by decide)) h.1

theorem publishTargets_answered (known : Atoms) :
    Speaks atoms (publishTargets env request known) (Answered t request seen) := by
  unfold publishTargets
  refine reply_bind (asked (.changeProperty ..)) (fun _ => ⟨_, rfl⟩) (fun _ => ?_)
    fun e fault => Answered.failed
  refine Writes.post (notified_synced _ _ false) fun r more h => ?_
  refine Answered.declined (fun hr => absurd (h.2 true hr).1 (by decide)) fun e he => ?_
  rcases List.mem_cons.mp he with rfl | he
  · trivial
  · exact h.1 e he

theorem deliverText_answered (hverified : Verified t request.requestor seen) :
    Speaks atoms (deliverText env request t.text) (Answered t request seen) := by
  unfold deliverText
  refine reply_bind (asked (.changeProperty ..)) (fun _ => ⟨_, rfl⟩) (fun _ => ?_)
    fun e fault => Answered.failed
  refine Writes.post (notified_synced _ _ true) fun r more h => ⟨fun hr => ?_, fun hr => ?_⟩
  · obtain ⟨-, rfl⟩ := h.2 true hr
    exact ⟨[], rfl, List.forall_mem_nil _, by rwa [List.append_nil]⟩
  · exact absurd (h.2 false hr).1 (by decide)

theorem serveSelection_answered {xid : Window} {client : Nat} (hfresh : Fresh t.target xid seen)
    (hfocus : FocusOwned xid seen) (hacc : Accepted t.permit seen) (htarget : ClientOf xid client seen)
    (hrequestor : ClientOf request.requestor client seen) :
    Speaks atoms (serveSelection env request t.owner t.text) (Answered t request seen) := by
  unfold serveSelection selectionOwner
  refine Answered.look (Finds.reply (asked .getSelectionOwner) (fun _ => trivial)
    (fun _ => ⟨_, rfl⟩) _ _) (reply_utters (Utters.ask fun _ => trivial) _ _)
    fun current added howner => ?_
  refine Answered.look (Finds.this _) (this_quiet _) fun known added' _ => ?_
  have hsub : seen ⊆ seen ++ added ++ added' := fun e he => by simp [he]
  by_cases hcurrent : current = t.owner
  · subst hcurrent
    rw [if_neg (by simp)]
    split
    · exact publishTargets_answered known
    · split
      · refine deliverText_answered ⟨xid, client, hfresh.mono hsub, hfocus.mono hsub,
          hacc.mono hsub, htarget.mono hsub, hrequestor.mono hsub, ?_⟩
        simp [howner]
      · exact refuseSelection_answered _
  · rw [if_pos hcurrent]
    exact Writes.pure (Answered.declined (by simp) (by simp))

theorem selectionAction_answered (t : Transfer) (request : SelectionRequestEvent) :
    Speaks atoms (selectionAction env t request) (Answered t request []) := by
  unfold selectionAction
  refine Answered.look (freshTarget_finds _) (freshTarget_looks _) fun target added hfresh => ?_
  refine Answered.look (requireFocusOwnedBy_finds _) (requireFocusOwnedBy_looks _)
    fun _ added₁ hfocus => ?_
  refine Answered.after (accepts_checks t.permit) fun yes added₂ hyes => ?_
  split
  · next hacc =>
    refine Answered.look (sameXClient_finds _ _) (sameXClient_looks _ _) fun same added₃ hsame => ?_
    split
    · next hyes' =>
      obtain ⟨client, htarget, hrequestor⟩ := hsame hyes'
      refine serveSelection_answered (hfresh.mono ?_) (hfocus.mono ?_) ((hyes hacc).mono ?_)
        (htarget.mono ?_) (hrequestor.mono ?_)
      all_goals
        intro e he
        simp [he]
    · exact refuseSelection_answered _
  · exact Writes.pure (Answered.declined (by simp) (by simp))

/-- A request that was answered delivered the text exactly if the answer says so. -/
theorem handleSelectionRequest_answered (t : Transfer) (request : SelectionRequestEvent) :
    Speaks atoms (handleSelectionRequest env t request) fun r added =>
      (r = .ok true → Delivers t added) ∧ (r = .ok false → ∀ e ∈ added, Wordless e) := by
  unfold handleSelectionRequest
  refine Writes.post (underServerGrab_writes (selectionAction_answered t request)) ?_
  rintro r added (⟨fault, e, rfl, rfl⟩ | ⟨inner, inside, released, hanswered, hr, rfl⟩)
  · exact ⟨nofun, nofun⟩
  · refine ⟨fun hyes => ?_, fun hno => ?_⟩
    · obtain ⟨checks, rfl, hungrabbing, hverified⟩ := hanswered.1 (hr true hyes)
      refine ⟨asked .grabServer (.ok ()) :: checks, request, [asked .ungrabServer released], ?_,
        rfl, [], checks, rfl, hungrabbing, hverified⟩
      simp
    · intro x hx
      rcases List.mem_cons.mp hx with rfl | hx
      · trivial
      · exact wordless_append (hanswered.2 (hr false hno)) (by simp [Wordless]) x hx

end Answered

/-! ## The serving loop -/

/-- What the loop knows after the entries: how many events it may still take, how many requests it
    took, and whether the text was delivered. -/
structure Account (t : Transfer) (clipboard : Atom) (s : Serving) (added : List Step)
    (s' : Serving) : Prop where
  events : s'.events + (taken added).length = s.events
  requests : s.requests + (taken added).countP (Asks t clipboard ·) = s'.requests
  kept : s.delivered = true → s'.delivered = true
  told : s'.delivered = true → s.delivered = true ∨ Delivers t added
  untold : s'.delivered = false → ∀ e ∈ added, Wordless e

section Loop

variable {t : Transfer} {clipboard : Atom} {s s' s'' : Serving} {added more : List Step}

theorem Account.trans (h : Account t clipboard s added s') (h' : Account t clipboard s' more s'') :
    Account t clipboard s (added ++ more) s'' := by
  have hevents := h.events
  have hevents' := h'.events
  have hrequests := h.requests
  have hrequests' := h'.requests
  refine ⟨?_, ?_, fun hs => h'.kept (h.kept hs), fun hs => ?_, fun hs => ?_⟩
  · rw [taken_append, List.length_append]
    omega
  · rw [taken_append, List.countP_append]
    omega
  · rcases h'.told hs with hs | hmore
    · rcases h.told hs with hs | hadded
      · exact .inl hs
      · exact .inr (hadded.append more)
    · exact .inr (hmore.prepend added)
  · refine wordless_append (h.untold ?_) (h'.untold hs)
    cases hd : s'.delivered with
    | false => rfl
    | true => rw [h'.kept hd] at hs; exact hs

theorem Account.passive (h : ∀ e ∈ added, Passive e) : Account t clipboard s added s := by
  have htaken := taken_passive h
  refine ⟨?_, ?_, id, .inl, fun _ e he => (h e he).wordless⟩
  · rw [htaken]
    rfl
  · rw [htaken]
    rfl

theorem Account.event {n k : Nat} {d : Bool} {event : XEvent} (other : ¬ Asks t clipboard event) :
    Account t clipboard ⟨n + 1, k, d⟩ [polled event] ⟨n, k, d⟩ := by
  have htaken : taken [polled event] = [event] := rfl
  refine ⟨by rw [htaken]; rfl, ?_, id, .inl, by simp [Wordless]⟩
  rw [htaken, List.countP_cons_of_neg (by simpa using other)]
  rfl

/-- A request that was handled; its block takes no further event. -/
theorem Account.request {n k : Nat} {d written : Bool} {request : SelectionRequestEvent}
    {block : List Step} (own : Asks t clipboard (.selectionRequest request))
    (htaken : taken block = []) (hyes : written = true → Delivers t block)
    (hno : written = false → ∀ e ∈ block, Wordless e) :
    Account t clipboard ⟨n + 1, k, d⟩ (polled (.selectionRequest request) :: block)
      ⟨n, k + 1, d || written⟩ := by
  have hall : taken (polled (.selectionRequest request) :: block) = [.selectionRequest request] := by
    rw [← List.singleton_append, taken_append, htaken]
    rfl
  refine ⟨by rw [hall]; rfl, ?_, fun hd => ?_, fun hd => ?_, fun hd => ?_⟩
  · rw [hall, List.countP_cons_of_pos (by simpa using own)]
    rfl
  · dsimp only at hd ⊢
    rw [hd, Bool.true_or]
  · rcases Bool.or_eq_true .. ▸ hd with hd | hd
    · exact .inl hd
    · exact .inr ((hyes hd).prepend [polled (.selectionRequest request)])
  · obtain ⟨-, hwritten⟩ := Bool.or_eq_false_iff.mp hd
    intro e he
    rcases List.mem_cons.mp he with rfl | he
    · trivial
    · exact hno hwritten e he

/-- An event that stops the loop: the selection is lost, or a bound is passed. -/
def Halting (t : Transfer) (clipboard : Atom) (s : Serving) (event : XEvent) : Prop :=
  event = .selectionClear t.owner clipboard ∨ s.events = 0 ∨
    Asks t clipboard event ∧ maxSelectionRequests ≤ s.requests

def Accounted (t : Transfer) (clipboard : Atom) (s : Serving)
    (r : Except Failure (Option Serving)) (added : List Step) : Prop :=
  (∀ s', r = .ok (some s') → Account t clipboard s added s') ∧
  (r = .ok none → ∃ seen event s', added = seen ++ [polled event] ∧
    Account t clipboard s seen s' ∧ Halting t clipboard s' event)

theorem Accounted.failed {e : Failure} : Accounted t clipboard s (.error e) added := ⟨nofun, nofun⟩

theorem Accounted.idle : Accounted t clipboard s (.ok (some s)) [] := by
  refine ⟨fun s' hs' => ?_, nofun⟩
  obtain rfl := Option.some.inj (Except.ok.inj hs')
  exact .passive (List.forall_mem_nil _)

theorem Accounted.halted {event : XEvent} (h : Halting t clipboard s event) :
    Accounted t clipboard s (.ok none) [polled event] :=
  ⟨nofun, fun _ => ⟨[], event, s, rfl, .passive (List.forall_mem_nil _), h⟩⟩

theorem Accounted.after {r : Except Failure (Option Serving)}
    (h' : Accounted t clipboard s' r more) (h : Account t clipboard s added s') : Accounted t clipboard s r (added ++ more) := by
  refine ⟨fun s'' hs => h.trans (h'.1 s'' hs), fun hr => ?_⟩
  obtain ⟨seen, event, s'', rfl, haccount, hhalting⟩ := h'.2 hr
  exact ⟨added ++ seen, event, s'', (List.append_assoc _ _ _).symm, h.trans haccount, hhalting⟩

theorem poll_accounted {f : Option XEvent → XM (Option Serving)}
    (hnone : Speaks atoms (f none) (Accounted t clipboard s))
    (hsome : ∀ event, Speaks atoms (f (some event)) fun r more =>
      Accounted t clipboard s r (polled event :: more)) (onSend onReply : String) :
    Speaks atoms (reply onSend onReply (Dialogue.ask env .pollForEvent) >>= f)
      (Accounted t clipboard s) := by
  refine reply_bind (asked .pollForEvent) (fun _ => ⟨_, rfl⟩) (fun pending => ?_)
    fun e fault => Accounted.failed
  cases pending with
  | none =>
    have hnothing : ∀ e ∈ [asked .pollForEvent (.ok none)], Passive e := by simp [Passive]
    exact Writes.post hnone fun _ _ h => h.after (.passive hnothing)
  | some event => exact hsome event

theorem serveEvents_accounted (t : Transfer) (clipboard : Atom) (events requests : Nat)
    (delivered : Bool) :
    Speaks atoms (serveEvents env t clipboard events requests delivered)
      (Accounted t clipboard ⟨events, requests, delivered⟩) := by
  induction events generalizing requests delivered with
  | zero =>
    unfold serveEvents
    refine poll_accounted (Writes.pure Accounted.idle) (fun event => ?_) _ _
    exact Writes.pure (Accounted.halted (.inr (.inl rfl)))
  | succ events ih =>
    unfold serveEvents
    refine poll_accounted (Writes.pure Accounted.idle) (fun event => ?_) _ _
    have hpass (other : ¬ Asks t clipboard event) :
        Speaks atoms (serveEvents env t clipboard events requests delivered) fun r more =>
          Accounted t clipboard ⟨events + 1, requests, delivered⟩ r (polled event :: more) :=
      Writes.post (ih requests delivered) fun _ _ h => h.after (.event other)
    cases event with
    | selectionClear owner selection =>
      dsimp only
      split
      · next hown =>
        obtain ⟨rfl, rfl⟩ := hown
        exact Writes.pure (Accounted.halted (.inl rfl))
      · exact hpass id
    | other => exact hpass id
    | selectionRequest request =>
      dsimp only
      by_cases own : request.owner = t.owner ∧ request.selection = clipboard
      · rw [if_pos own]
        by_cases full : requests + 1 > maxSelectionRequests
        · rw [if_pos full]
          exact Writes.pure (Accounted.halted (.inr (.inr ⟨own, Nat.le_of_lt_succ full⟩)))
        · rw [if_neg full]
          refine Writes.bind (Writes.and (handleSelectionRequest_handles t request)
            (handleSelectionRequest_answered t request)) (fun written block h => ?_)
            fun e block _ => Accounted.failed
          obtain ⟨⟨written', -, handled⟩, hyes, hno⟩ := h
          refine Writes.post (ih _ _) fun r more hmore => ?_
          have haccount : Account t clipboard ⟨events + 1, requests, delivered⟩
              (polled (.selectionRequest request) :: block)
              ⟨events, requests + 1, delivered || written⟩ :=
            .request own handled.taken (fun h => hyes (by rw [h])) fun h => hno (by rw [h])
          exact hmore.after haccount
      · rw [if_neg own]
        exact hpass own

/-! ## The reply -/

/-- The entries of a check that found the evidence gone. -/
def Lapsed (t : Transfer) (check : List Step) : Prop :=
  ∃ (env : Outside) (w : World), (transferEvidenceIsCurrent env t w).1 = .ok false ∧
    (transferEvidenceIsCurrent env t w).2.trace = w.trace ++ check

/-- How a reply stands to what was done for it. -/
inductive Concluded (t : Transfer) (clipboard : Atom) (bytes : Nat) (s : Serving) :
    TextTransferReply → List Step → Prop
  | undelivered {terminal : TextTransferTerminal} {s' : Serving} {added : List Step}
      (hterminal : terminal ≠ .delivered) (h : Account t clipboard s added s')
      (hno : s'.delivered = false) :
      Concluded t clipboard bytes s (transferReply t.target bytes terminal) added
  | halted {s' : Serving} {seen : List Step} {event : XEvent} (h : Account t clipboard s seen s')
      (halting : Halting t clipboard s' event) :
      Concluded t clipboard bytes s (transferReply t.target bytes .interrupted)
        (seen ++ [polled event])
  | lapsed {s' : Serving} {seen check : List Step} (h : Account t clipboard s seen s')
      (hlapsed : Lapsed t check) :
      Concluded t clipboard bytes s (transferReply t.target bytes .interrupted) (seen ++ check)
  | delivered {s' : Serving} {seen : List Step} {settled : Bool} (h : Account t clipboard s seen s')
      (hyes : s'.delivered = true) :
      Concluded t clipboard bytes s ⟨t.target, bytes, bytes, .delivered⟩
        (seen ++ [asked .settled settled])

theorem Concluded.after {bytes : Nat} {reply : TextTransferReply}
    (h : Account t clipboard s added s') (h' : Concluded t clipboard bytes s' reply more) :
    Concluded t clipboard bytes s reply (added ++ more) := by
  cases h' with
  | undelivered hterminal haccount hno => exact .undelivered hterminal (h.trans haccount) hno
  | halted haccount halting =>
    rw [← List.append_assoc]
    exact .halted (h.trans haccount) halting
  | lapsed haccount hlapsed =>
    rw [← List.append_assoc]
    exact .lapsed (h.trans haccount) hlapsed
  | delivered haccount hyes =>
    rw [← List.append_assoc]
    exact .delivered (h.trans haccount) hyes

/-- What a wait appended, if it ended in a reply. -/
abbrev Waited (t : Transfer) (clipboard : Atom) (bytes : Nat) (s : Serving)
    (r : Except Failure TextTransferReply) (added : List Step) : Prop :=
  ∀ reply, r = .ok reply → Concluded t clipboard bytes s reply added

theorem Waited.failed {bytes : Nat} {e : Failure} :
    Waited t clipboard bytes s (.error e) added := fun _ hr => absurd hr nofun

theorem Waited.passive {bytes : Nat} {m : XM α} {f : α → XM TextTransferReply}
    (hm : Utters Moves Passive m) (hf : ∀ a, Speaks atoms (f a) (Waited t clipboard bytes s)) :
    Speaks atoms (m >>= f) (Waited t clipboard bytes s) := by
  have hwrites : Speaks atoms m fun _ added => ∀ e ∈ added, Passive e :=
    Speaks.of_tells hm fun _ _ _ h _ => h
  refine Writes.bind hwrites (fun a added h => ?_) fun e added _ => Waited.failed
  exact Writes.post (hf a) fun r more hwaited reply hr => (hwaited reply hr).after (.passive h)

theorem transferEvidence_lapses (t : Transfer) :
    Speaks atoms (transferEvidenceIsCurrent env t) fun r added =>
      (∀ e ∈ added, Passive e) ∧ (r = .ok false → Lapsed t added) := by
  have hpassive : Speaks atoms (transferEvidenceIsCurrent env t) fun _ added =>
      ∀ e ∈ added, Passive e :=
    Speaks.of_tells (transferEvidence_passive t) fun _ _ _ h _ => h
  intro w hw
  obtain ⟨added, htrace, hatoms, hadded⟩ := hpassive w hw
  exact ⟨added, htrace, hatoms, hadded, fun hr => ⟨env, w, hr, htrace⟩⟩

/-- One round of the wait, up to the decision whether there is another. -/
theorem waitRounds_waited {bytes rounds : Nat} (s : Serving)
    (hnext : ∀ left, rounds = left + 1 → ∀ s',
      Speaks atoms (waitRounds env t clipboard bytes left s') (Waited t clipboard bytes s')) :
    Speaks atoms (waitRounds env t clipboard bytes rounds s) (Waited t clipboard bytes s) := by
  unfold waitRounds
  refine Writes.bind (serveEvents_accounted t clipboard s.events s.requests s.delivered)
    (fun served added h => ?_) fun e added _ => Waited.failed
  cases served with
  | none =>
    obtain ⟨seen, event, s', rfl, haccount, halting⟩ := h.2 rfl
    refine Writes.pure fun reply hr => ?_
    rw [List.append_nil, ← Except.ok.inj hr]
    exact .halted haccount halting
  | some serving =>
    have haccount := h.1 serving rfl
    refine Writes.post (F := Waited t clipboard bytes serving) ?_
      fun r more hwaited reply hr => (hwaited reply hr).after haccount
    refine Writes.bind (transferEvidence_lapses t) (fun current check hcheck => ?_)
      fun e added _ => Waited.failed
    by_cases hgone : current = false
    · subst hgone
      rw [if_pos rfl]
      refine Writes.pure fun reply hr => ?_
      rw [List.append_nil, ← Except.ok.inj hr]
      exact @Concluded.lapsed t clipboard bytes serving serving [] check
        (.passive (List.forall_mem_nil _)) (hcheck.2 rfl)
    · rw [if_neg hgone]
      refine Writes.post (F := Waited t clipboard bytes serving) ?_
        fun r more hwaited reply hr => (hwaited reply hr).after (.passive hcheck.1)
      refine Writes.bind (Writes.ask (F := fun r added => ∃ settled, r = .ok settled ∧
        added = [asked .settled settled]) fun settled => ⟨settled, rfl, rfl⟩)
        (fun settled added hasked => ?_) fun e added _ => Waited.failed
      obtain ⟨settled', heq, rfl⟩ := hasked
      obtain rfl := Except.ok.inj heq
      have hclock : ∀ e ∈ [asked .settled settled], Passive e := by simp [Passive]
      by_cases hdone : serving.delivered ∧ (settled = true ∨ rounds = 0)
      · rw [if_pos hdone]
        refine Writes.pure fun reply hr => ?_
        rw [List.append_nil, ← Except.ok.inj hr]
        exact @Concluded.delivered t clipboard bytes serving serving [] settled
          (.passive (List.forall_mem_nil _)) hdone.1
      · rw [if_neg hdone]
        cases rounds with
        | zero =>
          have hno : serving.delivered = false := by simpa using hdone
          refine Writes.pure fun reply hr => ?_
          rw [← Except.ok.inj hr]
          exact .undelivered (by decide) (.passive (by simp [Passive])) hno
        | succ left =>
          refine Writes.post (F := Waited t clipboard bytes serving) ?_
            fun r more hwaited reply hr => (hwaited reply hr).after (.passive hclock)
          exact Waited.passive (reply_utters (Utters.ask fun _ => trivial) _ _) fun _ =>
            hnext left rfl serving

theorem waitRounds_concluded (t : Transfer) (clipboard : Atom) (bytes rounds : Nat) (s : Serving) :
    Speaks atoms (waitRounds env t clipboard bytes rounds s) (Waited t clipboard bytes s) := by
  induction rounds generalizing s with
  | zero => exact waitRounds_waited s fun left h => absurd h.symm (Nat.succ_ne_zero left)
  | succ rounds ih =>
    refine waitRounds_waited s fun left h s' => ?_
    obtain rfl := Nat.succ.inj h
    exact ih s'

theorem afterOffer_concluded (t : Transfer) (bytes : Nat) (offered : Except Failure Bool) :
    Speaks atoms (afterOffer env t bytes offered) (Waited t atoms.clipboard bytes .start) := by
  match offered with
  | .ok true =>
    unfold afterOffer waitForTransfer
    refine Waited.passive (Utters.ask fun _ => trivial) fun deadline => ?_
    refine Writes.bind (F := fun r added => r = .ok atoms.clipboard ∧ added = [])
      (Writes.read (f := fun s : State => s.observer.atoms.clipboard)
        fun s hs => ⟨by rw [hs], rfl⟩) (fun clipboard added h => ?_) fun e added h => by simp at h
    obtain ⟨hclipboard, rfl⟩ := h
    obtain rfl := Except.ok.inj hclipboard
    match (deadline : Option Nat) with
    | none => exact Writes.fail nofun
    | some rounds => exact waitRounds_concluded t _ bytes rounds .start
  | .ok false =>
    refine Writes.pure fun reply hr => ?_
    rw [← Except.ok.inj hr]
    exact .undelivered (by decide) (.passive (List.forall_mem_nil _)) rfl
  | .error e => exact Writes.fail nofun

/-- Entries that take no event and write no text leave the account as it is. -/
theorem Account.aside (htaken : taken added = []) (h : ∀ e ∈ added, Wordless e) :
    Account t clipboard s added s := by
  refine ⟨?_, ?_, id, .inl, fun _ => h⟩
  · rw [htaken]
    rfl
  · rw [htaken]
    rfl

theorem Offering.taken {owner : Window} (h : ∀ e ∈ added, Offering owner e) : taken added = [] := by
  refine List.filterMap_eq_nil_iff.mpr fun e he => ?_
  split
  · next event =>
    rcases h _ he with hpassive | ⟨answer, heq⟩
    · exact hpassive.elim
    · cases heq
  · rfl

/-- A reply is concluded from what was done before the release. -/
theorem textInsert_concluded (request : TextInsertRequest) (permit : SeatPermit) :
    Speaks atoms (textInsert env request permit) fun r added => ∀ reply, r = .ok reply →
      ∃ owner front cleanup, added = front ++ cleanup ∧
        .said (.createWindow owner) (.ok ()) ∈ front ∧ Release owner cleanup ∧
        Concluded (transferOf request permit owner) atoms.clipboard request.text.asStr.utf8ByteSize
          .start reply front := by
  unfold textInsert
  refine Writes.bind (F := fun _ added => added = []) (Writes.lift rfl) (fun _ added h => ?_)
    fun e added _ reply hr => absurd hr nofun
  subst h
  refine Writes.bind createTransferOwner_opens (fun owner added h => ?_)
    fun e added _ reply hr => absurd hr nofun
  obtain rfl := h.1 owner rfl
  have hopening : Account (transferOf request permit owner) atoms.clipboard .start (opening owner)
      .start := .aside rfl (by simp [opening, Wordless])
  have hoffers : Speaks atoms (underServerGrab env (pasteAction env (transferOf request permit owner)))
      fun _ offer => ∀ e ∈ offer, Offering owner e :=
    Speaks.of_tells (pasteAction_offers _) fun _ _ _ h _ => h
  refine Writes.attempt_bind hoffers fun offered offer hoffer => ?_
  have hoffered : Account (transferOf request permit owner) atoms.clipboard .start offer .start :=
    .aside (Offering.taken hoffer) fun e he => (hoffer e he).wordless
  refine Writes.attempt_bind (afterOffer_concluded (transferOf request permit owner) _ offered)
    fun result added hwaited => ?_
  refine Writes.attempt_bind (releaseTransferOwner_releases owner)
    fun released cleanup release => Writes.lift fun reply hr => ?_
  refine ⟨owner, opening owner ++ (offer ++ added), cleanup, ?_, ?_, release, ?_⟩
  · simp
  · simp [opening]
  · exact ((hwaited reply (conclude_ok hr)).after hoffered).after hopening

end Loop

end Programs

/-! ## Disturbances -/

/-- What breaks a wait off after the entries `seen`. -/
inductive Disturbs (t : Transfer) (clipboard : Atom) (seen : List Step) : List Step → Prop
  | cleared : Disturbs t clipboard seen [polled (.selectionClear t.owner clipboard)]
  | events {event : XEvent} (full : (taken seen).length = maxTransferEvents) :
      Disturbs t clipboard seen [polled event]
  | requests {event : XEvent} (own : Asks t clipboard event)
      (full : maxSelectionRequests ≤ (taken seen).countP (Asks t clipboard ·)) :
      Disturbs t clipboard seen [polled event]
  | lapsed {check : List Step} (h : Lapsed t check) : Disturbs t clipboard seen check

/-- The reply counts all the bytes if the text reached a requestor, and none otherwise; if it does
    not say delivered, no text was written. -/
structure ExactReply (t : Transfer) (bytes : Nat) (reply : TextTransferReply) (added : List Step) :
    Prop where
  all : Delivers t added → reply.deliveredBytes = bytes
  none : ¬ Delivers t added → reply.deliveredBytes = 0
  honest : reply.terminal ≠ .delivered → ∀ e ∈ added, Wordless e

section Disturbances

variable {t : Transfer} {clipboard : Atom} {seen last : List Step}

theorem Lapsed.passive {check : List Step} (h : Lapsed t check) : ∀ e ∈ check, Passive e := by
  obtain ⟨env, w, -, htrace⟩ := h
  obtain ⟨added, hadded, hpassive, -⟩ := @transferEvidence_passive env t w trivial
  rw [hadded] at htrace
  obtain rfl := List.append_cancel_left htrace
  exact hpassive

/-- The last entry of a check is that of its grab. -/
theorem Lapsed.last_entry {check : List Step} (h : Lapsed t check) :
    ∃ init answer, check = init ++ [asked .grabServer answer] ∨
      check = init ++ [asked .ungrabServer answer] := by
  obtain ⟨env, w, -, htrace⟩ := h
  have hspec : Speaks w.state.observer.atoms (underServerGrab env (evidenceAction env t))
      fun _ added => (∃ fault, added = [asked .grabServer (.error fault)]) ∨ ∃ inside released,
        added = asked .grabServer (.ok ()) :: (inside ++ [asked .ungrabServer released]) := by
    refine Writes.post (underServerGrab_writes (F := fun _ _ => True)
      (Speaks.of_tells (evidenceAction_passive t) fun _ _ _ _ _ => trivial)) ?_
    rintro r added (⟨fault, e, rfl, -⟩ | ⟨inner, inside, released, -, -, rfl⟩)
    · exact .inl ⟨fault, rfl⟩
    · exact .inr ⟨inside, released, rfl⟩
  obtain ⟨added, hadded, -, hshape⟩ := hspec w rfl
  have hsame : (transferEvidenceIsCurrent env t w).2.trace =
      (underServerGrab env (evidenceAction env t) w).2.trace := rfl
  rw [hsame, hadded] at htrace
  obtain rfl := List.append_cancel_left htrace
  rcases hshape with ⟨fault, rfl⟩ | ⟨inside, released, rfl⟩
  · exact ⟨[], _, .inl rfl⟩
  · exact ⟨asked .grabServer (.ok ()) :: inside, released, .inr rfl⟩

theorem Disturbs.not_clock {settled : Bool} {front : List Step}
    (h : Disturbs t clipboard seen last) : seen ++ last ≠ front ++ [asked .settled settled] := by
  intro heq
  have hlast (init : List Step) (e : Step) (hsplit : last = init ++ [e]) :
      e = asked .settled settled := by
    rw [hsplit, ← List.append_assoc] at heq
    exact List.singleton_inj.mp (List.append_inj_right' heq rfl)
  cases h with
  | cleared => exact absurd (hlast [] _ rfl) nofun
  | events => exact absurd (hlast [] _ rfl) nofun
  | requests => exact absurd (hlast [] _ rfl) nofun
  | lapsed hlapsed =>
    obtain ⟨init, answer, hcheck | hcheck⟩ := hlapsed.last_entry
    · exact absurd (hlast init _ hcheck) nofun
    · exact absurd (hlast init _ hcheck) nofun

theorem Halting.disturbs {s : Serving} {event : XEvent} (h : Halting t clipboard s event)
    (account : Account t clipboard .start seen s) : Disturbs t clipboard seen [polled event] := by
  have hevents := account.events
  have hrequests := account.requests
  have hstart : Serving.start.events = maxTransferEvents := rfl
  have hnone : Serving.start.requests = 0 := rfl
  rcases h with rfl | hfull | ⟨own, hfull⟩
  · exact .cleared
  · exact .events (by omega)
  · exact .requests own (by omega)

/-- From the start on, text was delivered or none was written. -/
theorem Account.delivers_or {s : Serving} (h : Account t clipboard .start seen s) :
    Delivers t seen ∨ ∀ e ∈ seen, Wordless e := by
  cases hd : s.delivered with
  | false => exact .inr (h.untold hd)
  | true =>
    rcases h.told hd with hstart | hdelivers
    · exact absurd hstart (by decide)
    · exact .inl hdelivers

theorem Concluded.delivers_or {bytes : Nat} {reply : TextTransferReply} {added : List Step}
    (h : Concluded t clipboard bytes .start reply added) :
    Delivers t added ∨ ∀ e ∈ added, Wordless e := by
  have hmore {s : Serving} {seen last : List Step} (account : Account t clipboard .start seen s)
      (hlast : ∀ e ∈ last, Wordless e) :
      Delivers t (seen ++ last) ∨ ∀ e ∈ seen ++ last, Wordless e := by
    rcases account.delivers_or with hdelivers | hwordless
    · exact .inl (hdelivers.append last)
    · exact .inr (wordless_append hwordless hlast)
  cases h with
  | undelivered hterminal account hno => exact .inr (account.untold hno)
  | halted account halting => exact hmore account (by simp [Wordless])
  | lapsed account hlapsed => exact hmore account fun e he => (hlapsed.passive e he).wordless
  | delivered account hyes => exact hmore account (by simp [Wordless])

end Disturbances

/-- Not a grab. -/
def Ungrabbed : Step → Prop
  | .said .grabServer _ => False
  | _ => True

theorem Release.grab_first {owner : Window} {cleanup : List Step} (h : Release owner cleanup) :
    ∃ answer rest, cleanup = asked .grabServer answer :: rest ∧ ∀ e ∈ rest, Ungrabbed e := by
  have hinside {inside : List Step} (h : Releasing owner inside) : ∀ e ∈ inside, Ungrabbed e := by
    cases h <;> simp [Ungrabbed]
  cases h with
  | ungrabbed fault => exact ⟨_, [], rfl, List.forall_mem_nil _⟩
  | @grabbed inside h released =>
    refine ⟨_, _, rfl, fun e he => ?_⟩
    rcases List.mem_append.mp he with he | he
    · exact hinside h e he
    · rw [List.mem_singleton.mp he]
      trivial
  | @synced inside h answer =>
    refine ⟨_, _, rfl, fun e he => ?_⟩
    simp only [List.mem_append, List.mem_cons, List.not_mem_nil, or_false] at he
    rcases he with he | rfl | rfl
    · exact hinside h e he
    · trivial
    · trivial

/-- The release starts at the last grab of a trace. -/
theorem Release.front_unique {owner owner' : Window} {front front' cleanup cleanup' : List Step}
    (h : Release owner cleanup) (h' : Release owner' cleanup')
    (heq : front ++ cleanup = front' ++ cleanup') : front = front' := by
  have hno {owner owner' : Window} {mid cleanup cleanup' : List Step} (h : Release owner cleanup)
      (h' : Release owner' cleanup') (hsplit : cleanup = mid ++ cleanup') : mid = [] := by
    obtain ⟨answer, rest, rfl, hrest⟩ := h.grab_first
    obtain ⟨answer', rest', rfl, -⟩ := h'.grab_first
    cases mid with
    | nil => rfl
    | cons e mid =>
      obtain ⟨-, hsplit⟩ := List.cons.inj hsplit
      exact (hrest (asked .grabServer answer') (by simp [hsplit])).elim
  rcases List.append_eq_append_iff.mp heq with ⟨mid, hfront, hcleanup⟩ | ⟨mid, hfront, hcleanup⟩
  · rw [hfront, hno h h' hcleanup, List.append_nil]
  · rw [hfront, hno h' h hcleanup, List.append_nil]

/-- A layout with Control and `v`. -/
def pasteLayout : XkbMapReply where
  minKeyCode := 8
  maxKeyCode := 9
  firstType := 0
  nTypes := 1
  totalTypes := 1
  firstKeySym := 8
  nKeySyms := 2
  typesRtrn := some [⟨0, 1, []⟩]
  symsRtrn := some [⟨fun _ => 0, 1, 1, ['v'.toNat]⟩, ⟨fun _ => 0, 1, 1, [xkControlL]⟩]
  modmapRtrn := some [⟨9, 4⟩]

def pasteOwner : Window := 70
def pasteTarget : Window := 10

/-- A desktop with one focused window, all of whose windows belong to one client, that grants every
    request and sends the given events. -/
def pasteOutside (layout : XkbMapReply) (events : List XEvent) : Outside := fun trace question =>
  match question with
  | .sample => plainSample 0 [⟨pasteTarget, 0, 20⟩] pasteTarget
  | .samples => (plainSample 0 [⟨pasteTarget, 0, 20⟩] pasteTarget, [])
  | .desktop => plainDesktop 0 [⟨pasteTarget, 0, 20⟩] pasteTarget
  | .rounds => (0 : Nat)
  | .transferRounds => some (2 : Nat)
  | .settled => true
  | .seatLoad => (1 : Nat)
  | .grabServer | .ungrabServer | .flush | .sync | .sendMessage .. | .fakeInput _
  | .createWindow _ | .destroyWindow _ | .setSelectionOwner _ | .changeProperty ..
  | .notifySelection _ | .pollStream => .ok ()
  | .getInputFocus => .ok pasteTarget
  | .generateId | .getSelectionOwner => .ok pasteOwner
  | .queryTree _ => .ok ⟨plainRoot, []⟩
  | .getWindowAttributes _ => .ok true
  | .getGeometry _ => .ok ⟨20, 10⟩
  | .translateCoordinates _ _ x y => .ok (x, y)
  | .shapeGetRectangles _ => .ok []
  | .xkbUseExtension => .ok true
  | .xkbGetState => .ok ⟨0, 0, 0, 0, 0, 0, 0⟩
  | .xkbGetMap => .ok layout
  | .resQueryVersion => .ok (1, 2)
  | .resQueryClientIds _ => .ok [⟨5, clientXidMask, []⟩]
  | .pollForEvent => .ok events[(taken trace).length]?
  | .readPixels .. | .encodeCapture _ => .error (Failure.unavailable "there are no pixels")
  | .connect => .ok (plainRoot, plainAtoms)
  | .listApplications _ | .launch _ => .error ⟨.unavailable, .never, "there is no launcher"⟩

/-- The target asks for the text. -/
def pasteRequest : XEvent :=
  .selectionRequest ⟨0, pasteOwner, pasteTarget, plainAtoms.clipboard, plainAtoms.utf8, 90⟩

/-- Another client takes the selection. -/
def pasteLoss : XEvent := .selectionClear pasteOwner plainAtoms.clipboard

def pasteInsert : TextInsertRequest := ⟨⟨⟨1, Nat.one_ne_zero⟩, 0⟩, ⟨"hi", by decide⟩⟩

def pasteWorld : World := ⟨freshObserver plainRoot plainAtoms ⟨.allWorkspaces, false⟩ [], []⟩

/-- The count and the ending of a reply. -/
def counted : Except Failure TextTransferReply → Option (Nat × TextTransferTerminal)
  | .ok reply => some (reply.deliveredBytes, reply.terminal)
  | .error _ => none

theorem of_counted {r : Except Failure TextTransferReply} {count : Nat}
    {terminal : TextTransferTerminal} (h : counted r = some (count, terminal)) :
    ∃ reply, r = .ok reply ∧ reply.deliveredBytes = count ∧ reply.terminal = terminal := by
  cases r with
  | ok reply =>
    obtain ⟨hcount, hterminal⟩ := Prod.mk.inj (Option.some.inj h)
    exact ⟨reply, rfl, hcount, hterminal⟩
  | error e => exact absurd h nofun

/-- The entry writes text. -/
def writesText : Step → Bool
  | .said (.changeProperty _ _ _ (.bytes _)) _ => true
  | _ => false

end AgentSeat.Provider
