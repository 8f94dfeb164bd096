/-
  The requests of one refresh to the windows it captures.

  `reconcile_capture_targets` sends its requests one by one and records each success at once; a
  failure ends the refresh where it stands. `requests` lists what a refresh sends, with the answers
  of its sample. `refresh_ledger` says that the ledger a refresh leaves is the one these answers
  write, and `requests_due` of which windows each is.
-/
import AgentSeat.Observer.Diff
import Mathlib.Data.List.Dedup

namespace AgentSeat.X11

open AgentSeat.Lib AgentSeat.Proto

/-! ## The requests of a refresh -/

/-- A request of `reconcile_capture_targets` and the answer it got. -/
inductive Issued where
  | inspected (window : Window) (answer : Except AttributesFault Unit)
  | unredirected (window : Window) (answer : Except XFault Unit)
  | redirected (window : Window) (answer : Except XFault Unit)

/-- The requests about departing windows; `next` follows when none of them failed. -/
def departing (c : Composite) (next : List Issued) : List Window → List Issued
  | [] => next
  | window :: rest =>
    .inspected window (c.windowAttributes window) ::
      match c.windowAttributes window with
      | .ok _ =>
        .unredirected window (c.unredirect window) ::
          match c.unredirect window with
          | .ok _ => departing c next rest
          | .error _ => []
      | .error .badWindow => departing c next rest
      | .error .send | .error .other => []

def arriving (c : Composite) : List Window → List Issued
  | [] => []
  | window :: rest =>
    .redirected window (c.redirect window) ::
      match c.redirect window with
      | .ok _ => arriving c rest
      | .error _ => []

/-- The requests that bring the ledger from `held` to `clients`. -/
def reconciling (c : Composite) (held clients : List Window) : List Issued :=
  let leaving := c.order (held.filter fun window => window ∉ clients)
  departing c (arriving c (c.order (clients.dedup.filter fun window => window ∉ held.diff leaving)))
    leaving

/-- Composite is known to be there, or the version query of this refresh shows it. -/
def compositeReady (c : Composite) (o : Observer) : Bool :=
  o.captureExtensionChecked || match c.queryVersion with
    | .ok version => !(version.1 ≠ compositeMajor ∨ version.2 < requiredCompositeMinor)
    | .error _ => false

/-- The windows in scope in the scan of a refresh; none when the scan failed. -/
def scopedWindows (sample : Sample) (o : Observer) : List Window :=
  match scan sample.desktop o.root o.atoms o.scope o.showTitles with
  | .ok raw => raw.clients.map RawClient.xid
  | .error _ => []

/-- What one refresh asks of windows, in order. -/
def requests (sample : Sample) (o : Observer) : List Issued :=
  match scan sample.desktop o.root o.atoms o.scope o.showTitles with
  | .ok raw =>
    if o.captureEnabled && compositeReady sample.composite o then
      reconciling sample.composite o.redirectedClients (raw.clients.map RawClient.xid)
    else []
  | .error _ => []

/-- What an answer does to the ledger. -/
def recorded (ledger : List Window) : Issued → List Window
  | .inspected window (.error .badWindow) => ledger.erase window
  | .unredirected window (.ok _) => ledger.erase window
  | .redirected window (.ok _) => ledger ++ [window]
  | .inspected _ _ | .unredirected _ _ | .redirected _ _ => ledger

/-- The requests of `Drop for Observer`; nobody waits for their answers. -/
def Observer.drop (o : Observer) (c : Composite) : List Issued :=
  (c.order o.redirectedClients).map fun window => .unredirected window (c.unredirect window)

/-! ## A refresh writes what its answers say -/

section Written

variable (c : Composite)

/-- The inspection and the unredirection of one departing window. -/
theorem unredirectDeparting_cons (window : Window) (rest : List Window) (s : State) :
    (∃ e, unredirectDeparting c (window :: rest) s = (.error e, s) ∧
      ∀ next, (departing c next (window :: rest)).foldl recorded s.observer.redirectedClients =
        s.observer.redirectedClients) ∨
    ∃ s₁, s₁.observer.redirectedClients = s.observer.redirectedClients.erase window ∧
      unredirectDeparting c (window :: rest) s = unredirectDeparting c rest s₁ ∧
      ∀ next, (departing c next (window :: rest)).foldl recorded s.observer.redirectedClients =
        (departing c next rest).foldl recorded s₁.observer.redirectedClients := by
  rw [unredirectDeparting]
  have herased : ∃ s₁ : State,
      s₁.observer.redirectedClients = s.observer.redirectedClients.erase window ∧
      (modify (fun o => { o with redirectedClients := o.redirectedClients.erase window }) >>=
        fun _ => unredirectDeparting c rest : ObserverM Unit) s = unredirectDeparting c rest s₁ :=
    ⟨_, rfl, rfl⟩
  obtain ⟨s₁, hs₁, hgo⟩ := herased
  rcases hattr : c.windowAttributes window with fault | _
  · rcases fault with _ | _ | _
    · exact .inl ⟨_, rfl, fun next => by simp only [departing, hattr, List.foldl, recorded]⟩
    · refine .inr ⟨s₁, hs₁, hgo, fun next => ?_⟩
      simp only [departing, hattr, List.foldl_cons, recorded, hs₁]
    · exact .inl ⟨_, rfl, fun next => by simp only [departing, hattr, List.foldl, recorded]⟩
  · rcases hun : c.unredirect window with fault | _
    · rcases fault with _ | _
      · exact .inl ⟨_, rfl, fun next => by simp only [departing, hattr, hun, List.foldl, recorded]⟩
      · exact .inl ⟨_, rfl, fun next => by simp only [departing, hattr, hun, List.foldl, recorded]⟩
    · refine .inr ⟨s₁, hs₁, hgo, fun next => ?_⟩
      simp only [departing, hattr, hun, List.foldl_cons, recorded, hs₁]

/-- A walk over departing windows writes its answers, and `next` comes to act on what it left when
    it reached the end. -/
theorem unredirectDeparting_written (windows : List Window) (next : List Issued) (s : State) :
    (∃ e, (unredirectDeparting c windows s).1 = .error e ∧
      (departing c next windows).foldl recorded s.observer.redirectedClients =
        (unredirectDeparting c windows s).2.observer.redirectedClients) ∨
    (unredirectDeparting c windows s).1 = .ok () ∧
      (unredirectDeparting c windows s).2.observer.redirectedClients =
        s.observer.redirectedClients.diff windows ∧
      (departing c next windows).foldl recorded s.observer.redirectedClients =
        next.foldl recorded (unredirectDeparting c windows s).2.observer.redirectedClients := by
  induction windows generalizing s with
  | nil => exact .inr ⟨rfl, rfl, rfl⟩
  | cons window rest ih =>
    rcases unredirectDeparting_cons c window rest s with ⟨e, hrun, hwrite⟩ | ⟨s₁, hs₁, hrun, hwrite⟩
    · rw [hrun, hwrite]
      exact .inl ⟨e, rfl, rfl⟩
    · rw [hrun, hwrite, List.diff_cons, ← hs₁]
      exact ih s₁

theorem redirectArriving_written (windows : List Window) (s : State) :
    (arriving c windows).foldl recorded s.observer.redirectedClients =
      (redirectArriving c windows s).2.observer.redirectedClients := by
  induction windows generalizing s with
  | nil => rfl
  | cons window rest ih =>
    rw [arriving, redirectArriving]
    rcases h : c.redirect window with fault | _
    · rcases fault with _ | _ <;> rfl
    · exact ih { s with observer :=
        { s.observer with redirectedClients := s.observer.redirectedClients ++ [window] } }

/-- The version check moves on exactly when Composite is ready, and leaves the ledger alone. -/
theorem requireCompositeCapture_ready (s : State) :
    (requireCompositeCapture c s).2.observer.redirectedClients = s.observer.redirectedClients ∧
    ((requireCompositeCapture c s).1 = .ok () ∧ compositeReady c s.observer = true ∨
      ∃ e, (requireCompositeCapture c s).1 = .error e ∧ compositeReady c s.observer = false) := by
  unfold requireCompositeCapture self
  rw [Prog.read_bind]
  by_cases known : s.observer.captureExtensionChecked = true
  · rw [if_pos known]
    exact ⟨rfl, .inl ⟨rfl, by simp [compositeReady, known]⟩⟩
  · rw [if_neg known]
    rcases hq : c.queryVersion with fault | version
    · rcases fault with _ | _ <;> exact ⟨rfl, .inr ⟨_, rfl, by simp [compositeReady, known, hq]⟩⟩
    · by_cases old : version.1 ≠ compositeMajor ∨ version.2 < requiredCompositeMinor
      · have hrefuse : refuseIf (version.1 ≠ compositeMajor ∨ version.2 < requiredCompositeMinor)
            (Failure.unsupported "X Composite 0.2 or newer is required for obscured capture") =
              .error (Failure.unsupported
                "X Composite 0.2 or newer is required for obscured capture") := by
          simp [refuseIf, old]
        rw [Prog.lift_ok_bind, hrefuse]
        exact ⟨rfl, .inr ⟨_, rfl, by simp [compositeReady, known, hq, old]⟩⟩
      · have hpass : refuseIf (version.1 ≠ compositeMajor ∨ version.2 < requiredCompositeMinor)
            (Failure.unsupported "X Composite 0.2 or newer is required for obscured capture") =
              .ok () := by
          simp [refuseIf, old]
        rw [Prog.lift_ok_bind, hpass]
        exact ⟨rfl, .inl ⟨rfl, by simp [compositeReady, known, hq, old]⟩⟩

theorem reconcileCaptureTargets_written (clients : List Window) (s : State) :
    (reconcileCaptureTargets c clients s).2.observer.redirectedClients =
      (if compositeReady c s.observer then reconciling c s.observer.redirectedClients clients
        else []).foldl recorded s.observer.redirectedClients := by
  obtain ⟨hkept, hready⟩ := requireCompositeCapture_ready c s
  rcases hrun : requireCompositeCapture c s with ⟨r, s₁⟩
  rw [hrun] at hkept hready
  dsimp only at hkept hready
  rcases hready with ⟨rfl, hready⟩ | ⟨e, rfl, hready⟩
  · rw [hready, if_pos rfl, reconcileCaptureTargets, Prog.bind_ok hrun, self, Prog.read_bind, hkept]
    simp only [reconciling]
    generalize c.order (s.observer.redirectedClients.filter fun window => window ∉ clients) = leaving
    rcases unredirectDeparting_written c leaving (arriving c (c.order (clients.dedup.filter fun window =>
        window ∉ s.observer.redirectedClients.diff leaving))) s₁ with ⟨e, herr, hw⟩ | ⟨hok, hdiff, hw⟩
    · rcases hdep : unredirectDeparting c leaving s₁ with ⟨r, s₂⟩
      rw [hdep, hkept] at hw
      rw [hdep] at herr
      dsimp only at herr hw
      subst herr
      rw [Prog.bind_error hdep, hw]
    · rcases hdep : unredirectDeparting c leaving s₁ with ⟨r, s₂⟩
      rw [hdep, hkept] at hdiff hw
      rw [hdep] at hok
      dsimp only at hok hdiff hw
      subst hok
      rw [Prog.bind_ok hdep, hw, hdiff, ← hdiff]
      exact (redirectArriving_written c _ s₂).symm
  · rw [hready, reconcileCaptureTargets, Prog.bind_error hrun]
    exact hkept

end Written

/-- The ledger is the same. -/
def SameLedger (s s' : State) : Prop :=
  s'.observer.redirectedClients = s.observer.redirectedClients

theorem SameLedger.refl (s : State) : SameLedger s s := rfl

theorem SameLedger.trans (a b c : State) (h : SameLedger a b) (h' : SameLedger b c) :
    SameLedger a c :=
  Eq.trans h' h

section Walk

variable {α β : Type}

theorem SameLedger.bind {m : ObserverM α} {f : α → ObserverM β} (hm : Prog.Keeps SameLedger m)
    (hf : ∀ a, Prog.Keeps SameLedger (f a)) : Prog.Keeps SameLedger (m >>= f) :=
  Prog.Keeps.bind SameLedger.trans hm hf

theorem SameLedger.silent {m : ObserverM α} (h : ∀ s, (m s).2 = s) : Prog.Keeps SameLedger m := by
  intro s
  rw [h s]
  rfl

end Walk

theorem enqueue_ledger (o : Observer) (event : Event) :
    (enqueue o event).redirectedClients = o.redirectedClients := by
  unfold enqueue
  split
  · rfl
  split
  · rfl
  · rfl

theorem pushEvent_ledger (event : Event) : Prog.Keeps SameLedger (pushEvent event) := by
  refine SameLedger.bind (SameLedger.silent fun _ => rfl) fun prior => ?_
  cases checkedSucc prior with
  | none => exact fun s => rfl
  | some sequence =>
    refine SameLedger.bind (SameLedger.silent fun _ => rfl) fun _ =>
      SameLedger.bind (fun s => ?_) fun _ s => rfl
    exact enqueue_ledger { s.observer with sequence := sequence } event

theorem pushIf_ledger (changed : Bool) (event : Event) :
    Prog.Keeps SameLedger (pushIf changed event) :=
  Prog.Keeps.onlyIf SameLedger.refl (pushEvent_ledger event) changed

theorem allocateClient_ledger : Prog.Keeps SameLedger allocateClient := by
  refine SameLedger.bind (SameLedger.silent fun _ => rfl) fun next => ?_
  by_cases h : next ≠ 0
  · rw [dif_pos h]
    cases checkedSucc next with
    | none => exact fun s => rfl
    | some following => exact fun s => rfl
  · rw [dif_neg h]
    exact fun s => rfl

theorem initialClients_ledger (clients : List RawClient) :
    Prog.Keeps SameLedger (initialClients clients) := by
  induction clients with
  | nil => exact fun s => rfl
  | cons client rest ih =>
    exact SameLedger.bind allocateClient_ledger fun id =>
      SameLedger.bind (SameLedger.silent fun _ => rfl) fun _ =>
        SameLedger.bind ih fun _ s => rfl

theorem pushRemoved_ledger (current : List Window) (clients : List ClientRecord) :
    Prog.Keeps SameLedger (pushRemoved current clients) := by
  induction clients with
  | nil => exact fun s => rfl
  | cons client rest ih => exact SameLedger.bind (pushIf_ledger _ _) fun _ => ih

theorem diffClient_ledger (previous : List ClientRecord) (client : RawClient) :
    Prog.Keeps SameLedger (diffClient previous client) := by
  unfold diffClient
  split
  · refine SameLedger.bind (SameLedger.silent fun _ => rfl) fun unchanged => ?_
    split
    · exact fun s => rfl
    split
    · exact fun s => rfl
    · exact SameLedger.bind (SameLedger.silent fun _ => rfl) fun _ =>
        SameLedger.bind (pushEvent_ledger _) fun _ s => rfl
  · exact SameLedger.bind allocateClient_ledger fun _ =>
      SameLedger.bind (SameLedger.silent fun _ => rfl) fun _ =>
        SameLedger.bind (pushEvent_ledger _) fun _ s => rfl

theorem diffClients_ledger (previous : List ClientRecord) (clients : List RawClient) :
    Prog.Keeps SameLedger (diffClients previous clients) := by
  induction clients with
  | nil => exact fun s => rfl
  | cons client rest ih =>
    exact SameLedger.bind (diffClient_ledger _ _) fun _ => SameLedger.bind ih fun _ s => rfl

theorem absorb_ledger (raw : RawDesktop) : Prog.Keeps SameLedger (absorb raw) := by
  refine SameLedger.bind (SameLedger.silent fun _ => rfl) fun previous =>
    SameLedger.bind (fun s => rfl) fun _ => SameLedger.bind ?_ fun _ s => rfl
  cases previous with
  | none => exact SameLedger.bind (initialClients_ledger _) fun _ s => rfl
  | some previous =>
    exact SameLedger.bind (pushRemoved_ledger _ _) fun _ =>
      SameLedger.bind (diffClients_ledger _ _) fun _ => SameLedger.bind (pushIf_ledger _ _) fun _ =>
        SameLedger.bind (pushIf_ledger _ _) fun _ s => rfl

/-- The ledger a refresh leaves, also one that fails, is the one its answers write. -/
theorem refresh_ledger (sample : Sample) (s : State) :
    (refresh sample s).2.observer.redirectedClients =
      (requests sample s.observer).foldl recorded s.observer.redirectedClients := by
  unfold refresh self requests
  rw [Prog.read_bind, id]
  cases hscan : scan sample.desktop s.observer.root s.observer.atoms s.observer.scope
      s.observer.showTitles with
  | error e => rfl
  | ok raw =>
    rw [Prog.lift_ok_bind]
    have hkept : ∀ s₁, (absorb raw s₁).2.observer.redirectedClients =
        s₁.observer.redirectedClients := absorb_ledger raw
    cases hcapture : s.observer.captureEnabled with
    | false => exact hkept s
    | true =>
      have hwritten := reconcileCaptureTargets_written sample.composite
        (raw.clients.map RawClient.xid) s
      rcases hrec : reconcileCaptureTargets sample.composite (raw.clients.map RawClient.xid) s with
        ⟨r, s₁⟩
      rw [hrec] at hwritten
      rw [Prog.onlyIf, if_pos rfl]
      cases r with
      | error e => rw [Prog.bind_error hrec, hwritten, Bool.true_and]
      | ok u => rw [Prog.bind_ok hrec, hkept, hwritten, Bool.true_and]

/-! ## What is asked, and of which windows -/

/-- A request is due: it is about a recorded window, or redirects one in scope that is not. -/
def Issued.Due (scope ledger : List Window) : Issued → Prop
  | .inspected window _ | .unredirected window _ => window ∈ ledger
  | .redirected window _ => window ∈ scope ∧ window ∉ ledger

/-- Each request is due when it is sent, the ledger being what the answers before it wrote. -/
def AllDue (scope : List Window) : List Window → List Issued → Prop
  | _, [] => True
  | ledger, issued :: rest => issued.Due scope ledger ∧ AllDue scope (recorded ledger issued) rest

section Due

variable {scope ledger : List Window}

theorem Issued.Due.nodup {issued : Issued} (due : issued.Due scope ledger) (nodup : ledger.Nodup) :
    (recorded ledger issued).Nodup := by
  cases issued with
  | inspected window answer =>
    rcases answer with fault | _
    · rcases fault with _ | _ | _
      · exact nodup
      · exact nodup.erase window
      · exact nodup
    · exact nodup
  | unredirected window answer =>
    rcases answer with fault | _
    · exact nodup
    · exact nodup.erase window
  | redirected window answer =>
    rcases answer with fault | _
    · exact nodup
    · refine List.nodup_append.mpr ⟨nodup, List.nodup_singleton _, fun a ha b hb => ?_⟩
      rw [List.mem_singleton.mp hb]
      exact fun h => due.2 (h ▸ ha)

variable (c : Composite)

theorem arriving_due (nodup : ledger.Nodup) {windows : List Window} (distinct : windows.Nodup)
    (admitted : windows ⊆ scope) (new : ∀ w ∈ windows, w ∉ ledger) :
    AllDue scope ledger (arriving c windows) := by
  induction windows generalizing ledger with
  | nil => trivial
  | cons window rest ih =>
    have hdue : (Issued.redirected window (c.redirect window)).Due scope ledger :=
      ⟨admitted List.mem_cons_self, new window List.mem_cons_self⟩
    have hnodup := hdue.nodup nodup
    rw [arriving]
    refine ⟨hdue, ?_⟩
    rcases h : c.redirect window with fault | _
    · trivial
    · rw [h] at hnodup
      refine ih hnodup distinct.of_cons (fun w hw => admitted (List.mem_cons_of_mem _ hw)) ?_
      intro w hw hmem
      rcases List.mem_append.mp hmem with hmem | hmem
      · exact new w (List.mem_cons_of_mem _ hw) hmem
      · rw [List.mem_singleton.mp hmem] at hw
        exact (List.nodup_cons.mp distinct).1 hw

theorem departing_due (nodup : ledger.Nodup) {windows : List Window} (distinct : windows.Nodup)
    (known : windows ⊆ ledger) {next : List Issued}
    (following : AllDue scope (ledger.diff windows) next) :
    AllDue scope ledger (departing c next windows) := by
  induction windows generalizing ledger with
  | nil => exact following
  | cons window rest ih =>
    have hmem : window ∈ ledger := known List.mem_cons_self
    have hgone : AllDue scope (ledger.erase window) (departing c next rest) := by
      refine ih (nodup.erase window) distinct.of_cons (fun w hw => ?_) ?_
      · refine (nodup.mem_erase_iff).mpr ⟨?_, known (List.mem_cons_of_mem _ hw)⟩
        rintro rfl
        exact (List.nodup_cons.mp distinct).1 hw
      · rwa [List.diff_cons] at following
    rw [departing]
    refine ⟨hmem, ?_⟩
    rcases hattr : c.windowAttributes window with fault | _
    · rcases fault with _ | _ | _
      · trivial
      · exact hgone
      · trivial
    · refine ⟨hmem, ?_⟩
      rcases hun : c.unredirect window with fault | _
      · trivial
      · exact hgone

theorem reconciling_due (nodup : ledger.Nodup) :
    AllDue scope ledger (reconciling c ledger scope) := by
  have hperm := c.order_perm (ledger.filter fun window => window ∉ scope)
  refine departing_due c nodup (hperm.nodup_iff.mpr (nodup.filter _)) ?_ ?_
  · exact fun w hw => (List.mem_filter.mp (hperm.mem_iff.mp hw)).1
  · generalize c.order (ledger.filter fun window => window ∉ scope) = leaving
    have hadd := c.order_perm (scope.dedup.filter fun window => window ∉ ledger.diff leaving)
    refine arriving_due c nodup.diff (hadd.nodup_iff.mpr ((List.nodup_dedup _).filter _)) ?_ ?_
    · exact fun w hw => List.mem_dedup.mp (List.mem_filter.mp (hadd.mem_iff.mp hw)).1
    · exact fun w hw => of_decide_eq_true (List.mem_filter.mp (hadd.mem_iff.mp hw)).2

end Due

theorem requests_due (sample : Sample) {o : Observer} (nodup : o.redirectedClients.Nodup) :
    AllDue (scopedWindows sample o) o.redirectedClients (requests sample o) := by
  unfold requests scopedWindows
  cases scan sample.desktop o.root o.atoms o.scope o.showTitles with
  | error e => trivial
  | ok raw =>
    dsimp only
    split
    · exact reconciling_due sample.composite nodup
    · trivial

/-! ## A refresh whose requests do not fail -/

theorem unredirectDeparting_ok {c : Composite} {windows : List Window}
    (answers : ∀ w ∈ windows, c.windowAttributes w = .error .badWindow ∨
      c.windowAttributes w = .ok () ∧ c.unredirect w = .ok ()) (s : State) :
    (unredirectDeparting c windows s).1 = .ok () := by
  induction windows generalizing s with
  | nil => rfl
  | cons window rest ih =>
    rw [unredirectDeparting]
    rcases answers window List.mem_cons_self with hgone | ⟨hthere, hgranted⟩
    · rw [hgone]
      exact ih (fun w hw => answers w (List.mem_cons_of_mem _ hw)) _
    · rw [hthere, hgranted]
      exact ih (fun w hw => answers w (List.mem_cons_of_mem _ hw)) _

theorem redirectArriving_ok {c : Composite} {windows : List Window}
    (answers : ∀ w ∈ windows, c.redirect w = .ok ()) (s : State) :
    (redirectArriving c windows s).1 = .ok () := by
  induction windows generalizing s with
  | nil => rfl
  | cons window rest ih =>
    rw [redirectArriving, answers window List.mem_cons_self]
    exact ih (fun w hw => answers w (List.mem_cons_of_mem _ hw)) _

theorem reconcileCaptureTargets_ok {c : Composite} {clients : List Window} {s : State}
    (ready : compositeReady c s.observer = true)
    (leaving : ∀ w ∈ s.observer.redirectedClients, c.windowAttributes w = .error .badWindow ∨
      c.windowAttributes w = .ok () ∧ c.unredirect w = .ok ())
    (coming : ∀ w ∈ clients, c.redirect w = .ok ()) :
    (reconcileCaptureTargets c clients s).1 = .ok () := by
  obtain ⟨hkept, hready⟩ := requireCompositeCapture_ready c s
  rcases hrun : requireCompositeCapture c s with ⟨r, s₁⟩
  rw [hrun] at hkept hready
  have hok : r = .ok () := by
    rcases hready with ⟨h, -⟩ | ⟨e, -, h⟩
    · exact h
    · rw [ready] at h
      exact absurd h (by decide)
  subst hok
  have hperm := c.order_perm (s.observer.redirectedClients.filter fun window => window ∉ clients)
  have hdep := unredirectDeparting_ok (fun w hw =>
    leaving w (List.mem_filter.mp (hperm.mem_iff.mp hw)).1) s₁
  rcases hdeparted : unredirectDeparting c
    (c.order (s.observer.redirectedClients.filter fun window => window ∉ clients)) s₁ with ⟨r, s₂⟩
  rw [hdeparted] at hdep
  dsimp only at hkept hdep
  subst hdep
  rw [reconcileCaptureTargets, Prog.bind_ok hrun, self, Prog.read_bind, hkept,
    Prog.bind_ok hdeparted]
  have hadd := c.order_perm (clients.dedup.filter fun window =>
    window ∉ s₂.observer.redirectedClients)
  exact redirectArriving_ok (fun w hw =>
    coming w (List.mem_dedup.mp (List.mem_filter.mp (hadd.mem_iff.mp hw)).1)) s₂

/-- When its capture part succeeds, a refresh fails only because a counter ran out. -/
theorem refresh_ok {sample : Sample} {s : State} {raw : RawDesktop}
    (hscan : scan sample.desktop s.observer.root s.observer.atoms s.observer.scope
      s.observer.showTitles = .ok raw)
    (hcapture : (Prog.onlyIf s.observer.captureEnabled (reconcileCaptureTargets sample.composite
      (raw.clients.map RawClient.xid)) s).1 = .ok ()) :
    (refresh sample s).1 = .ok () ∨ .exhausted ∈ (refresh sample s).2.notes := by
  unfold refresh self
  rw [Prog.read_bind, id, hscan, Prog.lift_ok_bind]
  rcases hrec : Prog.onlyIf s.observer.captureEnabled (reconcileCaptureTargets sample.composite
    (raw.clients.map RawClient.xid)) s with ⟨r, s₁⟩
  rw [hrec] at hcapture
  dsimp only at hcapture
  subst hcapture
  rw [Prog.bind_ok hrec]
  have key := absorb_yields s₁ (scan_wf hscan)
  unfold Yields at key
  rcases h : absorb raw s₁ with ⟨r, s'⟩
  rw [h] at key
  cases r with
  | ok u => exact .inl rfl
  | error e => exact .inr key

end AgentSeat.X11
