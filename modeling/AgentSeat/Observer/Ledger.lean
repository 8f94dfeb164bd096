/-
  The ledger of redirected windows.

  Between two requests of a refresh windows come and go, and the server may give the XID of a
  destroyed window to a new one. A run is made of creations, destructions, refreshes that begin, and
  answers that arrive.

  The ledger is kept by XID, and nothing tells the observer of a destruction. So it is exact in the
  runs that reuse no XID it still records, and in no others (`ledger_exact_iff_unreused`).
-/
import AgentSeat.Observer.Requests
import AgentSeat.Observer.Reuse

namespace AgentSeat.X11

open AgentSeat.Lib AgentSeat.Proto

/-! ## Runs -/

/-- A server, how often this provider holds the bearer of an XID redirected there, and its observer.
    While a refresh is under way `ledger` is what it has recorded so far, `pending` what it still
    asks, and `scope` what its scan found; `state` is what it comes to. -/
structure Compositing where
  server : XServer
  held : Window → Nat
  state : State
  ledger : List Window
  pending : List Issued
  scope : List Window

inductive Turn where
  | create (xid : Window)
  | destroy (xid : Window)
  | refresh (sample : Sample)
  | answer

/-- What a granted request does at the server; a failing one does nothing. -/
def Issued.granted (held : Window → Nat) : Issued → Window → Nat
  | .redirected window (.ok _) => fun w => if w = window then held w + 1 else held w
  | .unredirected window (.ok _) => fun w => if w = window then held w - 1 else held w
  | .inspected _ _ | .redirected _ _ | .unredirected _ _ => held

/-- A destroyed window takes its redirections with it. -/
def Compositing.step (d : Compositing) : Turn → Compositing
  | .create xid => { d with server := d.server.create xid }
  | .destroy xid =>
    { d with server := d.server.destroy xid, held := fun w => if w = xid then 0 else d.held w }
  | .refresh sample =>
    { d with
      state := (X11.refresh sample d.state).2
      pending := requests sample d.state.observer
      scope := scopedWindows sample d.state.observer }
  | .answer =>
    match d.pending with
    | [] => d
    | issued :: rest =>
      { d with held := issued.granted d.held, ledger := recorded d.ledger issued, pending := rest }

def Compositing.after (d : Compositing) (turns : List Turn) : Compositing :=
  turns.foldl Compositing.step d

/-- No window, and an observer that has just connected. -/
def Connection.compositing (c : Connection) : Compositing where
  server := ⟨fun _ => none, 0⟩
  held := fun _ => 0
  state := (c.run []).state
  ledger := []
  pending := []
  scope := []

/-- An answer the server can give now: it grants a request only about a window that exists, an
    unredirection only when there is something to take back, and reports a bad window only where
    there is none. Any request may fail. -/
def Compositing.Honest (d : Compositing) : Issued → Prop
  | .inspected window (.ok _) => d.server.live window ≠ none
  | .inspected window (.error .badWindow) => d.server.live window = none
  | .unredirected window (.ok _) => 0 < d.held window
  | .redirected window (.ok _) => d.server.live window ≠ none
  | .inspected _ _ | .unredirected _ _ | .redirected _ _ => True

/-- A turn that can be taken: a refresh begins when none is under way. -/
def Compositing.Possible (d : Compositing) : Turn → Prop
  | .create _ | .destroy _ => True
  | .refresh _ => d.pending = []
  | .answer => ∀ issued ∈ d.pending.head?, d.Honest issued

def Compositing.AllPossible (d : Compositing) : List Turn → Prop
  | [] => True
  | turn :: rest => d.Possible turn ∧ (d.step turn).AllPossible rest

/-- The turn does not give a new window an XID that the ledger records. -/
def Compositing.Unreused (d : Compositing) : Turn → Prop
  | .create xid => d.server.live xid = none → xid ∉ d.ledger
  | .destroy _ | .refresh _ | .answer => True

def Compositing.AllUnreused (d : Compositing) : List Turn → Prop
  | [] => True
  | turn :: rest => d.Unreused turn ∧ (d.step turn).AllUnreused rest

/-- The X requests of a refresh made of `sample` do not fail: the scan succeeds on windows that
    exist, Composite is there, and the server grants what it can grant as it stands. -/
structure Compositing.Healthy (d : Compositing) (sample : Sample) : Prop where
  scans : ∃ raw, scan sample.desktop d.state.observer.root d.state.observer.atoms
    d.state.observer.scope d.state.observer.showTitles = .ok raw
  ready : compositeReady sample.composite d.state.observer = true
  scope : ∀ w ∈ scopedWindows sample d.state.observer, d.server.live w ≠ none
  present : ∀ w, d.server.live w ≠ none → sample.composite.windowAttributes w = .ok ()
  absent : ∀ w, d.server.live w = none → sample.composite.windowAttributes w = .error .badWindow
  unredirect : ∀ w, 0 < d.held w → sample.composite.unredirect w = .ok ()
  redirect : ∀ w, d.server.live w ≠ none → sample.composite.redirect w = .ok ()

/-- The ledger is exact at this point of a run. -/
structure Compositing.Exact (d : Compositing) : Prop where
  /-- Of the existing windows, those recorded are those held redirected. -/
  recorded : ∀ w, d.server.live w ≠ none → (w ∈ d.ledger ↔ 0 < d.held w)
  once : ∀ w, d.held w ≤ 1
  existing : ∀ w, 0 < d.held w → d.server.live w ≠ none
  /-- A redirection that is about to be sent is of a window in scope that is not held. -/
  redirects : ∀ w answer rest, d.pending = .redirected w answer :: rest →
    w ∈ d.scope ∧ d.held w = 0
  /-- An unredirection that is about to be sent is of a held window, unless that has vanished. -/
  unredirects : ∀ w answer rest, d.pending = .unredirected w answer :: rest →
    (0 < d.held w ↔ d.server.live w ≠ none)
  /-- Dropping the observer takes back every redirection, and no other that exists. -/
  dropped : d.pending = [] → ∀ c,
    (∀ w, 0 < d.held w → .unredirected w (c.unredirect w) ∈ d.state.observer.drop c) ∧
    ∀ issued ∈ d.state.observer.drop c, ∃ w, issued = .unredirected w (c.unredirect w) ∧
      (0 < d.held w ↔ d.server.live w ≠ none)
  /-- A refresh whose requests do not fail succeeds, as long as its counters have room. -/
  repeatable : d.pending = [] → ∀ sample, d.Healthy sample →
    (X11.refresh sample d.state).1 = .ok () ∨ .exhausted ∈ (X11.refresh sample d.state).2.notes

/-! ### The invariant -/

/-- Redirections and records agree, what the refresh still asks is due, and its answers write the
    ledger it leaves. -/
structure Compositing.Inv (d : Compositing) : Prop where
  recorded : ∀ w, d.server.live w ≠ none → (w ∈ d.ledger ↔ 0 < d.held w)
  once : ∀ w, d.held w ≤ 1
  existing : ∀ w, 0 < d.held w → d.server.live w ≠ none
  nodup : d.ledger.Nodup
  due : AllDue d.scope d.ledger d.pending
  written : d.pending.foldl X11.recorded d.ledger = d.state.observer.redirectedClients

theorem XServer.live_create (x : XServer) (xid w : Window) (h : (x.create xid).live w ≠ none) :
    x.live w ≠ none ∨ w = xid ∧ x.live xid = none := by
  unfold XServer.create at h
  cases hx : x.live xid with
  | some n =>
    rw [hx] at h
    exact .inl h
  | none =>
    rw [hx] at h
    by_cases hw : w = xid
    · exact .inr ⟨hw, rfl⟩
    · exact .inl (by simpa [hw] using h)

theorem XServer.create_keeps (x : XServer) (xid : Window) {w : Window} (h : x.live w ≠ none) :
    (x.create xid).live w ≠ none := by
  unfold XServer.create
  cases hx : x.live xid with
  | some n => exact h
  | none =>
    have hw : w ≠ xid := by
      rintro rfl
      exact h hx
    simpa [hw] using h

namespace Compositing

variable {d : Compositing}

theorem Inv.create (inv : d.Inv) {xid : Window} (h : d.Unreused (.create xid)) :
    (d.step (.create xid)).Inv := by
  refine ⟨fun w hw => ?_, inv.once, fun w hw => ?_, inv.nodup, inv.due, inv.written⟩
  · rcases d.server.live_create xid w hw with hw | ⟨rfl, hnone⟩
    · exact inv.recorded w hw
    · refine iff_of_false (h hnone) fun hheld => inv.existing w hheld hnone
  · exact d.server.create_keeps xid (inv.existing w hw)

theorem Inv.destroy (inv : d.Inv) (xid : Window) : (d.step (.destroy xid)).Inv := by
  refine ⟨fun w hw => ?_, fun w => ?_, fun w hw => ?_, inv.nodup, inv.due, inv.written⟩
  · have hne : w ≠ xid := by
      rintro rfl
      simp [step, XServer.destroy] at hw
    simp only [step, XServer.destroy, if_neg hne] at hw ⊢
    exact inv.recorded w hw
  · simp only [step]
    split
    · exact Nat.zero_le 1
    · exact inv.once w
  · by_cases hne : w = xid
    · simp [step, hne] at hw
    · simp only [step, XServer.destroy, if_neg hne] at hw ⊢
      exact inv.existing w hw

theorem Inv.refresh (inv : d.Inv) (idle : d.pending = []) (sample : Sample) :
    (d.step (.refresh sample)).Inv := by
  have hwritten : d.ledger = d.state.observer.redirectedClients := by
    have h := inv.written
    rwa [idle] at h
  refine ⟨inv.recorded, inv.once, inv.existing, inv.nodup, ?_, ?_⟩
  · simp only [step]
    rw [hwritten]
    exact requests_due sample (hwritten ▸ inv.nodup)
  · simp only [step]
    rw [hwritten]
    exact (refresh_ledger sample d.state).symm

/-- Redirecting a window that is not recorded. -/
theorem Inv.redirected (inv : d.Inv) {window : Window} (honest : d.server.live window ≠ none)
    (new : window ∉ d.ledger) (w : Window) :
    (d.server.live w ≠ none → (w ∈ d.ledger ++ [window] ↔
      0 < if w = window then d.held w + 1 else d.held w)) ∧
    (if w = window then d.held w + 1 else d.held w) ≤ 1 ∧
    (0 < (if w = window then d.held w + 1 else d.held w) → d.server.live w ≠ none) := by
  by_cases hw : w = window
  · subst hw
    have hfree : ¬ 0 < d.held w := fun h => new ((inv.recorded w honest).mpr h)
    rw [if_pos rfl]
    exact ⟨fun _ => iff_of_true (by simp) (Nat.succ_pos _), by omega, fun _ => honest⟩
  · rw [if_neg hw]
    refine ⟨fun hlive => ?_, inv.once w, inv.existing w⟩
    rw [List.mem_append, List.mem_singleton, or_iff_left hw]
    exact inv.recorded w hlive

/-- Taking back the redirection of a window. -/
theorem Inv.unredirected (inv : d.Inv) (window w : Window) :
    (d.server.live w ≠ none → (w ∈ d.ledger.erase window ↔
      0 < if w = window then d.held w - 1 else d.held w)) ∧
    (if w = window then d.held w - 1 else d.held w) ≤ 1 ∧
    (0 < (if w = window then d.held w - 1 else d.held w) → d.server.live w ≠ none) := by
  have honce := inv.once w
  by_cases hw : w = window
  · subst hw
    rw [if_pos rfl]
    exact ⟨fun _ => iff_of_false inv.nodup.not_mem_erase (by omega), by omega, fun h => absurd h (by omega)⟩
  · rw [if_neg hw]
    refine ⟨fun hlive => ?_, honce, inv.existing w⟩
    rw [List.mem_erase_of_ne hw]
    exact inv.recorded w hlive

theorem Inv.answer (inv : d.Inv) (possible : d.Possible .answer) : (d.step .answer).Inv := by
  rcases hpending : d.pending with _ | ⟨issued, rest⟩
  · simpa only [step, hpending] using inv
  · have hhonest : d.Honest issued := possible issued (by rw [hpending]; rfl)
    have hdue := inv.due
    have hwritten := inv.written
    rw [hpending] at hdue hwritten
    have hkept : ∀ w, (d.server.live w ≠ none → (w ∈ X11.recorded d.ledger issued ↔
        0 < issued.granted d.held w)) ∧ issued.granted d.held w ≤ 1 ∧
        (0 < issued.granted d.held w → d.server.live w ≠ none) := by
      intro w
      have hsame : (d.server.live w ≠ none → (w ∈ d.ledger ↔ 0 < d.held w)) ∧ d.held w ≤ 1 ∧
          (0 < d.held w → d.server.live w ≠ none) :=
        ⟨inv.recorded w, inv.once w, inv.existing w⟩
      cases issued with
      | inspected window answer =>
        rcases answer with fault | _
        · rcases fault with _ | _ | _
          · exact hsame
          · refine ⟨fun hlive => ?_, hsame.2⟩
            have hne : w ≠ window := by
              rintro rfl
              exact hlive hhonest
            rw [show X11.recorded d.ledger (.inspected window (.error .badWindow)) =
              d.ledger.erase window from rfl, List.mem_erase_of_ne hne]
            exact hsame.1 hlive
          · exact hsame
        · exact hsame
      | unredirected window answer =>
        rcases answer with fault | _
        · exact hsame
        · exact inv.unredirected window w
      | redirected window answer =>
        rcases answer with fault | _
        · exact hsame
        · exact inv.redirected hhonest hdue.1.2 w
    simp only [step, hpending]
    exact ⟨fun w => (hkept w).1, fun w => (hkept w).2.1, fun w => (hkept w).2.2,
      hdue.1.nodup inv.nodup, hdue.2, hwritten⟩

theorem Inv.step (inv : d.Inv) {turn : Turn} (possible : d.Possible turn)
    (unreused : d.Unreused turn) : (d.step turn).Inv := by
  cases turn with
  | create xid => exact inv.create unreused
  | destroy xid => exact inv.destroy xid
  | refresh sample => exact inv.refresh possible sample
  | answer => exact inv.answer possible

theorem Inv.repeatable (inv : d.Inv) (idle : d.pending = []) {sample : Sample}
    (healthy : d.Healthy sample) :
    (X11.refresh sample d.state).1 = .ok () ∨
      .exhausted ∈ (X11.refresh sample d.state).2.notes := by
  obtain ⟨raw, hscan⟩ := healthy.scans
  have hledger : d.ledger = d.state.observer.redirectedClients := by
    have h := inv.written
    rwa [idle] at h
  have hscope : scopedWindows sample d.state.observer = raw.clients.map RawClient.xid := by
    simp only [scopedWindows, hscan]
  refine refresh_ok hscan ?_
  cases d.state.observer.captureEnabled with
  | false => rfl
  | true =>
    refine reconcileCaptureTargets_ok healthy.ready (fun w hw => ?_) fun w hw => ?_
    · rw [← hledger] at hw
      by_cases hlive : d.server.live w = none
      · exact .inl (healthy.absent w hlive)
      · exact .inr ⟨healthy.present w hlive, healthy.unredirect w ((inv.recorded w hlive).mp hw)⟩
    · exact healthy.redirect w (healthy.scope w (hscope ▸ hw))

theorem Inv.exact (inv : d.Inv) : d.Exact := by
  have hknown : ∀ w ∈ d.ledger, 0 < d.held w ↔ d.server.live w ≠ none :=
    fun w hw => ⟨inv.existing w, fun hlive => (inv.recorded w hlive).mp hw⟩
  refine ⟨inv.recorded, inv.once, inv.existing, fun w answer rest h => ?_, fun w answer rest h => ?_,
    fun idle c => ?_, fun idle sample healthy => inv.repeatable idle healthy⟩
  · have hdue := inv.due
    rw [h] at hdue
    refine ⟨hdue.1.1, Nat.eq_zero_of_not_pos fun hheld => hdue.1.2 ?_⟩
    exact (inv.recorded w (inv.existing w hheld)).mpr hheld
  · have hdue := inv.due
    rw [h] at hdue
    exact hknown w hdue.1
  · have hledger : d.ledger = d.state.observer.redirectedClients := by
      have h := inv.written
      rwa [idle] at h
    have hmem (w : Window) : w ∈ c.order d.state.observer.redirectedClients ↔ w ∈ d.ledger := by
      rw [(c.order_perm _).mem_iff, hledger]
    refine ⟨fun w hw => ?_, fun issued hissued => ?_⟩
    · exact List.mem_map.mpr ⟨w, (hmem w).mpr ((inv.recorded w (inv.existing w hw)).mpr hw), rfl⟩
    · obtain ⟨w, hw, rfl⟩ := List.mem_map.mp hissued
      exact ⟨w, rfl, hknown w ((hmem w).mp hw)⟩

/-- Up to every point of a run that reuses no recorded XID. -/
theorem Inv.after (inv : d.Inv) {turns done : List Turn} (possible : d.AllPossible turns)
    (unreused : d.AllUnreused turns) (h : done <+: turns) : (d.after done).Inv := by
  induction turns generalizing d done with
  | nil =>
    rw [List.prefix_nil.mp h]
    exact inv
  | cons turn rest ih =>
    rcases List.prefix_cons_iff.mp h with rfl | ⟨later, rfl, hlater⟩
    · exact inv
    · exact ih (inv.step possible.1 unreused.1) possible.2 unreused.2 hlater

/-- A reuse of a recorded XID is seen at once: the ledger names a window that is not held. -/
theorem Exact.unreused (exact : d.Exact) {turn : Turn} (next : (d.step turn).Exact) :
    d.Unreused turn := by
  cases turn with
  | create xid =>
    intro hnone hmem
    have hlive : (d.server.create xid).live xid ≠ none := by
      simp [XServer.create, hnone]
    exact exact.existing xid ((next.recorded xid hlive).mp hmem) hnone
  | destroy xid | refresh sample | answer => trivial

theorem allUnreused_of_exact {turns : List Turn}
    (h : ∀ done, done <+: turns → (d.after done).Exact) : d.AllUnreused turns := by
  induction turns generalizing d with
  | nil => trivial
  | cons turn rest ih =>
    refine ⟨(h [] List.nil_prefix).unreused (h [turn] ⟨rest, rfl⟩), ih fun done hdone => ?_⟩
    exact h (turn :: done) ((List.prefix_cons_inj turn).mpr hdone)

end Compositing

theorem Connection.compositing_inv (c : Connection) : c.compositing.Inv :=
  ⟨fun _ h => absurd rfl h, fun _ => Nat.zero_le 1, fun _ h => absurd h (Nat.lt_irrefl 0),
    List.nodup_nil, trivial, rfl⟩

/-- The ledger is exact at every point of a run, whatever fails and whenever windows come and go, if
    and only if no new window of the run gets an XID the ledger records. -/
theorem ledger_exact_iff_unreused (c : Connection) (turns : List Turn)
    (possible : c.compositing.AllPossible turns) :
    (∀ done, done <+: turns → (c.compositing.after done).Exact) ↔
      c.compositing.AllUnreused turns :=
  ⟨Compositing.allUnreused_of_exact, fun unreused _ h =>
    (c.compositing_inv.after possible unreused h).exact⟩

/-- Composite 0.4 on a server that grants whatever it is asked. -/
def grantingComposite : Composite where
  queryVersion := .ok (0, 4)
  windowAttributes _ := .ok ()
  unredirect _ := .ok ()
  redirect _ := .ok ()
  order windows := windows
  order_perm _ := List.Perm.refl _

/-- The window 10 is in scope and the server redirects it. -/
def tenRedirected : Sample := ⟨plainDesktop 0 [⟨10, 0, 5⟩] 0, grantingComposite⟩

/-- Nothing is in scope, and what was is destroyed. -/
def nothingLeft : Sample :=
  ⟨plainDesktop 0 [] 0, { grantingComposite with windowAttributes := fun _ => .error .badWindow }⟩

/-- Nothing is in scope, and the server finds nothing to take back. -/
def nothingHeld : Sample :=
  ⟨plainDesktop 0 [] 0, { grantingComposite with unredirect := fun _ => .error .reply }⟩

/-- An observer of all workspaces with capture. -/
def capturingConnection : Connection := { plainConnection with captureEnabled := true }

/-- A refresh sees that the window is gone before its XID is used again. -/
def seenReuse : List Turn :=
  [.create 10, .refresh tenRedirected, .answer, .destroy 10, .refresh nothingLeft, .answer,
    .create 10, .refresh tenRedirected, .answer]

theorem ledger_exact_seenReuse :
    capturingConnection.compositing.AllPossible seenReuse ∧
    (capturingConnection.compositing.after seenReuse).held 10 = 1 ∧
    ∀ done, done <+: seenReuse → (capturingConnection.compositing.after done).Exact := by
  have possible : capturingConnection.compositing.AllPossible seenReuse := by
    refine ⟨trivial, rfl, ?_, trivial, rfl, ?_, trivial, rfl, ?_, trivial⟩
    · rintro _ ⟨⟩
      exact Option.some_ne_none 0
    · rintro _ ⟨⟩
      rfl
    · rintro _ ⟨⟩
      exact Option.some_ne_none 1
  refine ⟨possible, by decide, ?_⟩
  refine (ledger_exact_iff_unreused capturingConnection seenReuse possible).mpr ?_
  exact ⟨fun _ => by decide, trivial, trivial, trivial, trivial, trivial, fun _ => by decide,
    trivial, trivial, trivial⟩

/-- The XID of a recorded window is used again between two refreshes. -/
def unseenReuse : List Turn :=
  [.create 10, .refresh tenRedirected, .answer, .destroy 10, .create 10]

/-- The ledger then names a window that was never redirected; a refresh that finds it out of scope
    asks to take its redirection back, the server refuses, and the refresh fails. -/
theorem ledger_names_unheld :
    capturingConnection.compositing.AllPossible
      (unseenReuse ++ [.refresh nothingHeld, .answer, .answer]) ∧
    (capturingConnection.compositing.after unseenReuse).ledger = [10] ∧
    (capturingConnection.compositing.after unseenReuse).server.live 10 = some 1 ∧
    (capturingConnection.compositing.after unseenReuse).held 10 = 0 ∧
    ¬ (capturingConnection.compositing.after unseenReuse).Exact ∧
    (∃ rest, (capturingConnection.compositing.after
      (unseenReuse ++ [.refresh nothingHeld, .answer])).pending =
        .unredirected 10 (.error .reply) :: rest) ∧
    (refresh nothingHeld (capturingConnection.compositing.after unseenReuse).state).1 =
      .error (Failure.unavailable "cannot unredirect a departing target") := by
  have hledger : (capturingConnection.compositing.after unseenReuse).ledger = [10] := by decide
  have hlive : (capturingConnection.compositing.after unseenReuse).server.live 10 = some 1 := by
    decide
  have hheld : (capturingConnection.compositing.after unseenReuse).held 10 = 0 := by decide
  refine ⟨⟨trivial, rfl, ?_, trivial, trivial, rfl, ?_, ?_, trivial⟩, hledger, hlive, hheld,
    fun exact => ?_, ⟨[], rfl⟩, rfl⟩
  · rintro _ ⟨⟩
    exact Option.some_ne_none 0
  · rintro _ ⟨⟩
    exact Option.some_ne_none 1
  · rintro _ ⟨⟩
    trivial
  · have hmem : 10 ∈ (capturingConnection.compositing.after unseenReuse).ledger := by
      rw [hledger]
      exact List.mem_singleton_self 10
    have hpos := (exact.recorded 10 (by rw [hlive]; exact Option.some_ne_none 1)).mp hmem
    rw [hheld] at hpos
    exact absurd hpos (Nat.lt_irrefl 0)

end AgentSeat.X11
