/-
  Transfer text reaches only the verified target.

  What the grammar of `Provider.Service` says about the entries of a request: where bytes are
  written, what stands behind a reported delivery, how many events and requests were served and how
  the window is released.

  Main result: `text_insert_confined`.
-/
import AgentSeat.Provider.Service

namespace AgentSeat.Provider

open AgentSeat.Lib AgentSeat.Proto AgentSeat.X11 AgentSeat.Seat

/-! ## What the grammar says -/

section Grammar

variable {t : Transfer} {clipboard : Atom} {request : SelectionRequestEvent} {window : Window}
  {property type : Atom} {data : List UInt8} {answer : Except XFault Unit} {pre post : List Step}

theorem Verified.mono {requestor : Window} {grab grab' : List Step} (h : Verified t requestor grab)
    (hsub : grab ⊆ grab') : Verified t requestor grab' := by
  obtain ⟨xid, client, hfresh, hfocus, hacc, htarget, hrequestor, howner⟩ := h
  exact ⟨xid, client, hfresh.mono hsub, hfocus.mono hsub, hacc.mono hsub, htarget.mono hsub,
    hrequestor.mono hsub, hsub howner⟩

/-- The entries before a write of bytes: they end in a grab that is still held and verified the
    window, and the bytes are those of the text. -/
def Guarded (t : Transfer) (window : Window) (data : List UInt8) (pre : List Step) : Prop :=
  data = t.text ∧ ∃ head grab, pre = head ++ asked .grabServer (.ok ()) :: grab ∧
    (∀ e ∈ grab, Ungrabbing e) ∧ Verified t window grab

theorem Guarded.prepend (h : Guarded t window data pre) (before : List Step) :
    Guarded t window data (before ++ pre) := by
  obtain ⟨hdata, head, grab, rfl, hungrabbing, hverified⟩ := h
  exact ⟨hdata, before ++ head, grab, (List.append_assoc _ _ _).symm, hungrabbing, hverified⟩

theorem Guarded.held (h : Guarded t window data pre) (trace : List Step) :
    data = t.text ∧ ∃ grab, hold (trace ++ pre) = some grab ∧ Verified t window grab := by
  obtain ⟨hdata, head, grab, rfl, hungrabbing, hverified⟩ := h
  refine ⟨hdata, grab, ?_, hverified⟩
  rw [← List.append_assoc]
  exact hold_grabbed (trace ++ head) hungrabbing

theorem Answering.ungrabbing {checks : List Step} {e : Step} (h : Answering t request checks e) :
    Ungrabbing e := by
  cases e with
  | said q a => cases q <;> trivial
  | mark m => trivial

/-- The bytes written while a request is handled. -/
theorem Handling.write {written : Bool} {block : List Step} (h : Handling t request written block)
    (split : block = pre ++ wrote window property type data answer :: post) :
    Guarded t window data pre := by
  cases h with
  | refused fault =>
    have hmem : wrote window property type data answer ∈ [asked .grabServer (.error fault)] := by
      rw [split]
      simp
    cases List.mem_singleton.mp hmem
  | @answered _ checks acts released hchecks hacts hwritten =>
    cases pre with
    | nil =>
      cases (List.cons.inj split).1
    | cons g pre =>
      have hlast : asked .ungrabServer released ≠ wrote window property type data answer := nofun
      obtain ⟨rfl, hrest⟩ := List.cons.inj split
      obtain ⟨post', hrest⟩ := split_last hlast hrest
      obtain ⟨pre', rfl, rfl⟩ := split_past (fun e he => (hchecks e he).1) id hrest
      obtain ⟨-, hdata, hverified⟩ := hacts _ (List.mem_append_right _ (List.mem_cons_self ..))
      refine ⟨hdata, [], checks ++ pre', rfl, fun e he => ?_,
        hverified.mono (List.subset_append_left _ _)⟩
      rcases List.mem_append.mp he with he | he
      · exact (hchecks e he).2
      · exact (hacts e (List.mem_append_left _ he)).ungrabbing

theorem Serves.write {s s' : Serving} {service : List Step} (h : Serves t clipboard s service s')
    (split : service = pre ++ wrote window property type data answer :: post) :
    Guarded t window data pre := by
  induction h generalizing pre with
  | done s => simp at split
  | passive he _ ih =>
    cases pre with
    | nil =>
      obtain ⟨rfl, -⟩ := List.cons.inj split
      exact he.elim
    | cons e pre => exact (ih (List.cons.inj split).2).prepend [e]
  | event other _ ih =>
    cases pre with
    | nil =>
      cases (List.cons.inj split).1
    | cons e pre => exact (ih (List.cons.inj split).2).prepend [e]
  | @request _ _ _ _ _ _ block trace own room handled _ ih =>
    cases pre with
    | nil =>
      cases (List.cons.inj split).1
    | cons e pre =>
      rcases List.append_eq_append_iff.mp (List.cons.inj split).2 with
        ⟨mid, rfl, htrace⟩ | ⟨mid, hblock, hpost⟩
      · exact (ih htrace).prepend (e :: block)
      · cases mid with
        | nil =>
          rw [List.append_nil] at hblock
          subst hblock
          have hguarded := (@ih [] hpost.symm).prepend (e :: block)
          rwa [List.append_nil] at hguarded
        | cons x mid =>
          obtain ⟨rfl, -⟩ := List.cons.inj hpost
          exact (handled.write hblock).prepend [e]

/-- A service that reports a delivery wrote the text and told the requestor. -/
theorem Serves.delivery {s s' : Serving} {service : List Step} (h : Serves t clipboard s service s')
    (fresh : s.delivered = false) (done : s'.delivered = true) :
    ∃ pre request post, service = pre ++ (Provider.delivery t request ++ post) := by
  induction h with
  | done s => simp [fresh] at done
  | @passive _ _ e _ _ _ ih =>
    obtain ⟨pre, request, post, rfl⟩ := ih fresh done
    exact ⟨e :: pre, request, post, rfl⟩
  | @event _ _ _ _ event _ _ _ ih =>
    obtain ⟨pre, request, post, rfl⟩ := ih fresh done
    exact ⟨polled event :: pre, request, post, rfl⟩
  | @request _ _ _ written _ request block trace _ _ handled _ ih =>
    cases written with
    | true =>
      cases handled with
      | @answered _ checks acts released _ _ hwritten =>
        obtain ⟨rest, rfl⟩ := hwritten rfl
        exact ⟨polled (.selectionRequest request) :: asked .grabServer (.ok ()) :: checks, request,
          rest ++ [asked .ungrabServer released] ++ trace, by simp⟩
    | false =>
      obtain ⟨pre, request', post, rfl⟩ := ih (by simpa using fresh) done
      exact ⟨polled (.selectionRequest request) :: (block ++ pre), request', post, by simp⟩

theorem taken_append (trace trace' : List Step) : taken (trace ++ trace') = taken trace ++ taken trace' :=
  List.filterMap_append

theorem taken_passive {trace : List Step} (h : ∀ e ∈ trace, Passive e) : taken trace = [] := by
  refine List.filterMap_eq_nil_iff.mpr fun e he => ?_
  split
  · next event => exact (h _ he).elim
  · rfl

theorem Answering.taken {checks acts : List Step} (h : ∀ e ∈ acts, Answering t request checks e) :
    taken acts = [] := by
  refine List.filterMap_eq_nil_iff.mpr fun e he => ?_
  split
  · next event => exact (h _ he).elim
  · rfl

theorem Handling.taken {written : Bool} {block : List Step}
    (h : Handling t request written block) : taken block = [] := by
  cases h with
  | refused fault => rfl
  | @answered _ checks acts released hchecks hacts _ =>
    have hhead : asked .grabServer (.ok ()) :: (checks ++ acts ++ [asked .ungrabServer released]) =
        [asked .grabServer (.ok ())] ++ (checks ++ acts ++ [asked .ungrabServer released]) := rfl
    rw [hhead, taken_append, taken_append, taken_append, Answering.taken hacts,
      taken_passive fun e he => (hchecks e he).1]
    rfl

/-- The events and the requests that a service took. -/
theorem Serves.counts {s s' : Serving} {service : List Step} (h : Serves t clipboard s service s') :
    s'.events + (taken service).length = s.events ∧
      s.requests + (taken service).countP (Asks t clipboard ·) = s'.requests ∧
      (s.requests ≤ maxSelectionRequests → s'.requests ≤ maxSelectionRequests) := by
  induction h with
  | done s => exact ⟨rfl, rfl, id⟩
  | @passive _ _ e trace he _ ih =>
    have htaken : taken (e :: trace) = taken trace := by
      rw [← List.singleton_append, taken_append, taken_passive (by simpa using he), List.nil_append]
    rwa [htaken]
  | @event n k d s' event trace other _ ih =>
    have htaken : taken (polled event :: trace) = event :: taken trace := rfl
    obtain ⟨hevents, hrequests, hbound⟩ := ih
    rw [htaken, List.length_cons, List.countP_cons_of_neg (by simpa using other)]
    dsimp only at hevents ⊢
    exact ⟨by omega, hrequests, hbound⟩
  | @request n k d written s' request block trace own room handled _ ih =>
    have htaken : taken (polled (.selectionRequest request) :: (block ++ trace)) =
        .selectionRequest request :: taken trace := by
      rw [← List.singleton_append, taken_append, taken_append, handled.taken]
      rfl
    obtain ⟨hevents, hrequests, hbound⟩ := ih
    rw [htaken, List.length_cons, List.countP_cons_of_pos (by simpa using own)]
    dsimp only at hevents hrequests hbound ⊢
    exact ⟨by omega, by omega, fun _ => hbound room⟩

/-- No window is destroyed while events are served. -/
theorem Serves.keeps_windows {s s' : Serving} {service : List Step}
    (h : Serves t clipboard s service s') : .said (.destroyWindow window) answer ∉ service := by
  intro hmem
  induction h with
  | done s => simp at hmem
  | passive he _ ih =>
    rcases List.mem_cons.mp hmem with rfl | hmem
    · exact he
    · exact ih hmem
  | event other _ ih =>
    rcases List.mem_cons.mp hmem with heq | hmem
    · cases heq
    · exact ih hmem
  | request own room handled _ ih =>
    rcases List.mem_cons.mp hmem with heq | hmem
    · cases heq
    · rcases List.mem_append.mp hmem with hmem | hmem
      · cases handled with
        | refused fault => cases List.mem_singleton.mp hmem
        | answered released hchecks hacts _ =>
          rcases List.mem_cons.mp hmem with heq | hmem
          · cases heq
          · rcases List.mem_append.mp hmem with hmem | hmem
            · rcases List.mem_append.mp hmem with hmem | hmem
              · exact (hchecks _ hmem).1
              · exact hacts _ hmem
            · cases List.mem_singleton.mp hmem
      · exact ih hmem

/-- Not a write of bytes. -/
def Wordless : Step → Prop
  | .said (.changeProperty _ _ _ (.bytes _)) _ => False
  | _ => True

theorem Passive.wordless {e : Step} (h : Passive e) : Wordless e := by
  cases e with
  | said q a =>
    cases q with
    | changeProperty window property type data => exact h.elim
    | _ => trivial
  | mark m => trivial

theorem Unopened.wordless {e : Step} (h : Unopened e) : Wordless e := by
  rcases h with h | ⟨window, fault, rfl⟩
  · exact h.wordless
  · trivial

theorem Offering.wordless {owner : Window} {e : Step} (h : Offering owner e) : Wordless e := by
  rcases h with h | ⟨answer, rfl⟩
  · exact h.wordless
  · trivial

theorem Release.wordless {owner : Window} {cleanup : List Step} (h : Release owner cleanup) :
    ∀ e ∈ cleanup, Wordless e := by
  have hinside {inside : List Step} (h : Releasing owner inside) : ∀ e ∈ inside, Wordless e := by
    cases h <;> simp [Wordless]
  cases h with
  | ungrabbed fault => simp [Wordless]
  | grabbed h released =>
    intro e he
    simp only [List.mem_cons, List.mem_append, List.not_mem_nil, or_false] at he
    rcases he with rfl | he | rfl
    · trivial
    · exact hinside h e he
    · trivial
  | synced h answer =>
    intro e he
    simp only [List.mem_cons, List.mem_append, List.not_mem_nil, or_false] at he
    rcases he with rfl | he | rfl | rfl
    · trivial
    · exact hinside h e he
    · trivial
    · trivial

theorem Unserved.wordless {rest : List Step} (h : Unserved rest) : ∀ e ∈ rest, Wordless e := by
  rcases h with rfl | ⟨event, rfl⟩
  · simp
  · simp [Wordless]

/-- Every write of bytes in a request is guarded. -/
theorem Inserts.write {request : TextInsertRequest} {permit : SeatPermit}
    {r : Except Failure TextTransferReply} {added : List Step}
    (h : Inserts request permit clipboard r added)
    (split : added = pre ++ wrote window property type data answer :: post) :
    ∃ owner, .said (.createWindow owner) (.ok ()) ∈ pre ∧
      Guarded (transferOf request permit owner) window data pre := by
  cases h with
  | unopened h =>
    have hmem : wrote window property type data answer ∈ added := by simp [split]
    exact (h _ hmem).wordless.elim
  | @opened _ owner offer service rest cleanup s offers serves unserved _ release =>
    have hopening : ∀ e ∈ opening owner, Wordless e := by simp [opening, Wordless]
    obtain ⟨pre₁, rfl, hrest⟩ := split_past hopening id split
    obtain ⟨pre₂, rfl, hserved⟩ := split_past (fun e he => (offers e he).wordless) id hrest
    obtain ⟨post₁, hserved⟩ := split_before release.wordless id hserved
    obtain ⟨post₂, hservice⟩ := split_before unserved.wordless id hserved
    refine ⟨owner, by simp [opening], ?_⟩
    exact ((serves.write hservice).prepend offer).prepend (opening owner)

end Grammar

/-- Text reaches only the verified target. Whatever the server, the other clients and the operator
    do: bytes are written to a property only inside a held grab that verified the window, and they
    are the whole text; a delivered reply stands behind such a write with its notification, both
    accepted; and the trace is either that of a window that could not be created, or it opens the
    window, offers the selection, serves at most 256 events and 32 requests of it, and ends with
    the one release, which clears the selection only if the window still owns it. -/
theorem text_insert_confined (env : Outside) (request : TextInsertRequest) (permit : SeatPermit)
    (w : World) :
    ∃ added, (textInsert env request permit w).2.trace = w.trace ++ added ∧
      (∀ pre window property type data answer post,
        added = pre ++ wrote window property type data answer :: post →
          data = request.text.asStr.toUTF8.toList ∧ ∃ owner grab,
            .said (.createWindow owner) (.ok ()) ∈ pre ∧ hold (w.trace ++ pre) = some grab ∧
              Verified (transferOf request permit owner) window grab) ∧
      (∀ reply, (textInsert env request permit w).1 = .ok reply → reply.terminal = .delivered →
        ∃ pre owner asking post,
          added = pre ++ (delivery (transferOf request permit owner) asking ++ post)) ∧
      ((∀ e ∈ added, Unopened e) ∨ ∃ owner offer service rest cleanup s,
        added = opening owner ++ (offer ++ (service ++ rest ++ cleanup)) ∧
          (∀ e ∈ offer, Offering owner e) ∧
          Serves (transferOf request permit owner) w.state.observer.atoms.clipboard .start service s ∧
          (taken service).length ≤ maxTransferEvents ∧
          (taken service).countP (Asks (transferOf request permit owner)
            w.state.observer.atoms.clipboard ·) ≤ maxSelectionRequests ∧
          Unserved rest ∧ Release owner cleanup ∧
          ∀ window answer, .said (.destroyWindow window) answer ∉ offer ++ (service ++ rest)) := by
  obtain ⟨added, htrace, -, hinserts⟩ := textInsert_inserts request permit w rfl
  refine ⟨added, htrace, fun pre window property type data answer post split => ?_,
    fun reply hreply hdelivered => ?_, ?_⟩
  · obtain ⟨owner, hcreated, hguarded⟩ := hinserts.write split
    obtain ⟨hdata, grab, hheld, hverified⟩ := hguarded.held w.trace
    exact ⟨hdata, owner, grab, hcreated, hheld, hverified⟩
  · rw [hreply] at hinserts
    cases hinserts with
    | @opened _ owner offer service rest cleanup s _ serves _ delivered _ =>
      obtain ⟨pre, asking, post, hservice⟩ :=
        serves.delivery rfl (delivered reply rfl hdelivered)
      refine ⟨opening owner ++ (offer ++ pre), owner, asking, post ++ rest ++ cleanup, ?_⟩
      rw [hservice]
      simp only [List.append_assoc]
  · generalize (textInsert env request permit w).1 = r at hinserts
    cases hinserts with
    | unopened h => exact .inl h
    | @opened _ owner offer service rest cleanup s offers serves unserved _ release =>
      obtain ⟨hevents, hrequests, hbound⟩ := serves.counts
      have hstart : (Serving.start).events = maxTransferEvents := rfl
      have hnone : (Serving.start).requests = 0 := rfl
      refine .inr ⟨owner, offer, service, rest, cleanup, s, rfl, offers, serves, by omega, ?_,
        unserved, release, fun window answer hmem => ?_⟩
      · have hfew := hbound (by rw [hnone]; exact Nat.zero_le _)
        omega
      · rcases List.mem_append.mp hmem with hmem | hmem
        · rcases offers _ hmem with hpassive | ⟨_, heq⟩
          · exact hpassive
          · cases heq
        · rcases List.mem_append.mp hmem with hmem | hmem
          · exact serves.keeps_windows hmem
          · rcases unserved with rfl | ⟨event, rfl⟩
            · simp at hmem
            · cases List.mem_singleton.mp hmem

end AgentSeat.Provider
