/-
  The calls in terms of the refreshes they make: one specification per call, and the rule by which
  an invariant of refreshes becomes one of whole runs.
-/
import AgentSeat.Observer.Diff

namespace AgentSeat.X11

open AgentSeat.Lib AgentSeat.Proto

/-! ## Snapshot and subscription -/

/-- Every model of a successful refresh can be published. -/
theorem snapshotOf_ok {m : Model} (wf : m.WF) (sequence : Nat) :
    ∃ snap, snapshotOf sequence m = .ok snap ∧ snap.sequence = sequence ∧
      snap.currentWorkspace = m.currentWorkspace ∧ snap.workspaces.asSlice = m.workspaces ∧
      snap.clients.asSlice = m.clients.map ClientRecord.descriptor ∧ snap.active = m.active := by
  have hclients : (m.clients.map ClientRecord.descriptor).length ≤ maxClients := by
    rw [List.length_map]
    exact wf.clients_le
  refine ⟨⟨sequence, m.currentWorkspace, ⟨m.workspaces, wf.workspaces_le⟩,
    ⟨m.clients.map ClientRecord.descriptor, hclients⟩, m.active⟩, ?_, rfl, rfl, rfl, rfl, rfl⟩
  simp only [snapshotOf, BoundedList.new_of_le wf.workspaces_le, BoundedList.new_of_le hclients]

theorem RefreshSpec.model_ok {s s' : State} {u : Unit} (h : RefreshSpec s s' (.ok u)) :
    ∃ m, s'.observer.model = some m ∧ m.WF := by
  cases h with
  | first m fresh absent model start nextClient sequence notes => exact ⟨m, model, start.wf⟩
  | next p m events fresh added present model diff nextClient sequence notes pushes numbers =>
    exact ⟨m, model, diff.wf⟩

theorem snapshot_spec (sample : Sample) (s : State) :
    (∃ e, (refresh sample s).1 = .error e ∧
      snapshot sample s = (.error e, (refresh sample s).2)) ∨
    ∃ m snap, (refresh sample s).1 = .ok () ∧ (refresh sample s).2.observer.model = some m ∧
      snapshotOf (refresh sample s).2.observer.sequence m = .ok snap ∧
      snapshot sample s =
        (.ok snap, ⟨settle (refresh sample s).2.observer, (refresh sample s).2.notes⟩) := by
  have hspec := refresh_spec sample s
  rcases hr : refresh sample s with ⟨r, s₁⟩
  rw [hr] at hspec
  cases r with
  | error e => exact .inl ⟨e, rfl, Prog.bind_error hr⟩
  | ok u =>
    obtain ⟨m, hm, wf⟩ := hspec.model_ok
    obtain ⟨snap, hsnap, -⟩ := snapshotOf_ok wf s₁.observer.sequence
    refine .inr ⟨m, snap, rfl, hm, hsnap, ?_⟩
    have hmodel : (settle s₁.observer).model = some m := by
      unfold settle
      split <;> exact hm
    have hseq : (settle s₁.observer).sequence = s₁.observer.sequence := by
      unfold settle
      split <;> rfl
    unfold snapshot
    rw [Prog.bind_ok hr]
    change currentSnapshot ⟨settle s₁.observer, s₁.notes⟩ = _
    unfold currentSnapshot self
    rw [Prog.read_bind, id, hmodel, hseq]
    change (snapshotOf s₁.observer.sequence m, _) = _
    rw [hsnap]

theorem subscribe_spec (kinds : List EventKind) (sample : Sample) (s : State) :
    (∃ e, (refresh sample s).1 = .error e ∧
      subscribe kinds sample s = (.error e, (refresh sample s).2)) ∨
    ((refresh sample s).1 = .ok () ∧
      subscribe kinds sample s = (.ok ⟨(refresh sample s).2.observer.sequence⟩,
        ⟨resubscribe kinds (refresh sample s).2.observer, (refresh sample s).2.notes⟩)) := by
  rcases hr : refresh sample s with ⟨r, s₁⟩
  cases r with
  | error e => exact .inl ⟨e, rfl, Prog.bind_error hr⟩
  | ok u => exact .inr ⟨rfl, Prog.bind_ok hr⟩

/-! ## Polling -/

/-- Refreshes one after another, up to the first failure. -/
def refreshAll : List Sample → ObserverM Unit
  | [] => pure ()
  | sample :: rest => do
    refresh sample
    refreshAll rest

section PollWait

variable {after : Nat} {sample : Sample} {rest : List Sample} {s s₁ : State}

theorem pollWait_failed {e : Failure} (h : refresh sample s = (.error e, s₁)) :
    pollWait after sample rest s = (.error e, s₁) := by
  unfold pollWait
  exact Prog.bind_error h

theorem pollWait_pending {u : Unit} (h : refresh sample s = (.ok u, s₁))
    (pending : s₁.observer.resyncRequired = true) :
    pollWait after sample rest s = (.error (Failure.resync s₁.observer.sequence), s₁) := by
  unfold pollWait
  rw [Prog.bind_ok h]
  simp only [Prog.bind_run, self, Prog.read, id, pending, refuseIf, Prog.lift, if_true]

theorem pollWait_next {u : Unit} (h : refresh sample s = (.ok u, s₁))
    (settled : s₁.observer.resyncRequired = false) :
    pollWait after sample rest s =
      match rest with
      | [] => (.ok (), s₁)
      | next :: rest' =>
        if ready after s₁.observer.events then (.ok (), s₁) else pollWait after next rest' s₁ := by
  rw [pollWait, Prog.bind_ok h]
  simp only [Prog.bind_run, self, Prog.read, id, settled, refuseIf, Prog.lift,
    Bool.false_eq_true, if_false]
  cases rest with
  | nil => rfl
  | cons next rest' =>
    by_cases hready : ready after s₁.observer.events = true
    · simp only [if_pos hready]
      rfl
    · simp only [if_neg hready]

/-- The sampling loop ends in one of three ways: one of its refreshes failed, a resynchronization
    is pending, or it is done and none is. -/
inductive PollWaitSpec (s : State) (samples : List Sample) (s' : State) : Except Failure Unit → Prop
  | failed (e : Failure) (k : Nat) (h : (refreshAll (samples.take k) s).1 = .error e) :
      PollWaitSpec s samples s' (.error e)
  | pending (h : s'.observer.resyncRequired = true) :
      PollWaitSpec s samples s' (.error (Failure.resync s'.observer.sequence))
  | done (u : Unit) (h : s'.observer.resyncRequired = false) : PollWaitSpec s samples s' (.ok u)

theorem PollWaitSpec.later {u : Unit} {samples : List Sample} {s' : State}
    {r : Except Failure Unit} (h : refresh sample s = (.ok u, s₁))
    (spec : PollWaitSpec s₁ samples s' r) : PollWaitSpec s (sample :: samples) s' r := by
  cases spec with
  | failed e k hk =>
    refine .failed e (k + 1) ?_
    rw [List.take_succ_cons, refreshAll, Prog.bind_ok h]
    exact hk
  | pending hp => exact .pending hp
  | done u hp => exact .done u hp

theorem PollWaitSpec.error {samples : List Sample} {s' : State} {e : Failure}
    (spec : PollWaitSpec s samples s' (.error e)) :
    (∃ n, e = Failure.resync n) ∨ ∃ k, (refreshAll (samples.take k) s).1 = .error e := by
  generalize hr : Except.error e = r at spec
  cases spec with
  | failed _ k h => exact .inr ⟨k, h⟩
  | pending h =>
    rw [Except.error.injEq] at hr
    exact .inl ⟨_, hr⟩
  | done u h => simp at hr

theorem pollWait_spec (after : Nat) (sample : Sample) (rest : List Sample) (s : State) :
    PollWaitSpec s (sample :: rest) (pollWait after sample rest s).2
      (pollWait after sample rest s).1 := by
  induction rest generalizing sample s with
  | nil =>
    rcases hr : refresh sample s with ⟨r, s₁⟩
    cases r with
    | error e =>
      rw [pollWait_failed hr]
      exact .failed e 1 (congrArg Prod.fst (Prog.bind_error hr))
    | ok u =>
      cases hp : s₁.observer.resyncRequired with
      | true =>
        rw [pollWait_pending hr hp]
        exact .pending hp
      | false =>
        rw [pollWait_next hr hp]
        exact .done () hp
  | cons next rest ih =>
    rcases hr : refresh sample s with ⟨r, s₁⟩
    cases r with
    | error e =>
      rw [pollWait_failed hr]
      exact .failed e 1 (congrArg Prod.fst (Prog.bind_error hr))
    | ok u =>
      cases hp : s₁.observer.resyncRequired with
      | true =>
        rw [pollWait_pending hr hp]
        exact .pending hp
      | false =>
        rw [pollWait_next hr hp]
        dsimp only
        split
        · exact .done () hp
        · exact (ih next s₁).later hr

end PollWait

/-- What a poll does: it is refused on the spot, or it drains, samples and cuts a page. -/
inductive PollSpec (after limit : Nat) (sample : Sample) (rest : List Sample) (s : State) :
    Except Failure EventBatch × State → Prop
  | unsubscribed (e : Failure) (h : s.observer.subscribed = false) :
      PollSpec after limit sample rest s (.error e, s)
  | outside (h : after < s.observer.retainedAfter ∨ s.observer.sequence < after) :
      PollSpec after limit sample rest s (.error (Failure.resync s.observer.sequence), s)
  | stopped (e : Failure) (s' : State)
      (h : pollWait after sample rest ⟨drain after s.observer, s.notes⟩ = (.error e, s')) :
      PollSpec after limit sample rest s (.error e, s')
  | paged (s' : State) (subscribed : s.observer.subscribed = true)
      (retained : s.observer.retainedAfter ≤ after) (reached : after ≤ s.observer.sequence)
      (h : pollWait after sample rest ⟨drain after s.observer, s.notes⟩ = (.ok (), s')) :
      PollSpec after limit sample rest s (page after limit s'.observer, s')

theorem poll_spec (after limit : Nat) (sample : Sample) (rest : List Sample) (s : State) :
    PollSpec after limit sample rest s (poll after limit sample rest s) := by
  unfold poll self
  rw [Prog.read_bind, id]
  cases hs : s.observer.subscribed with
  | false => exact .unsubscribed _ hs
  | true =>
    rw [refuseIf, if_neg (by simp), Prog.lift_ok_bind]
    by_cases hc : after < s.observer.retainedAfter ∨ after > s.observer.sequence
    · rw [refuseIf, if_pos hc]
      exact .outside hc
    · rw [refuseIf, if_neg hc, Prog.lift_ok_bind]
      unfold modify
      rw [Prog.update_bind]
      rcases hw : pollWait after sample rest ⟨drain after s.observer, s.notes⟩ with ⟨r, s'⟩
      cases r with
      | error e =>
        rw [Prog.bind_error hw]
        exact .stopped e s' hw
      | ok u =>
        rw [Prog.bind_ok hw, Prog.read_bind]
        exact .paged s' hs (by omega) (by omega) hw

/-! ## From refreshes to runs -/

section Keeps

variable {R : State → State → Prop}

/-- The sampling loop moves the state as its refreshes do. -/
theorem pollWait_keeps (refl : ∀ s, R s s) (trans : ∀ a b c, R a b → R b c → R a c)
    (hrefresh : ∀ sample, Prog.Keeps R (refresh sample)) (after : Nat) (sample : Sample)
    (rest : List Sample) : Prog.Keeps R (pollWait after sample rest) := by
  induction rest generalizing sample with
  | nil =>
    unfold pollWait
    exact Prog.Keeps.bind trans (hrefresh sample) fun _ => Prog.Keeps.bind trans
      (Prog.Keeps.read refl _) fun _ => Prog.Keeps.bind trans (Prog.Keeps.lift refl _) fun _ =>
        Prog.Keeps.pure refl _
  | cons next rest ih =>
    unfold pollWait
    refine Prog.Keeps.bind trans (hrefresh sample) fun _ => Prog.Keeps.bind trans
      (Prog.Keeps.read refl _) fun o => Prog.Keeps.bind trans (Prog.Keeps.lift refl _) fun _ => ?_
    dsimp only
    split
    · exact Prog.Keeps.pure refl _
    · exact ih next

/-- A call moves the state as refreshes, settling, resubscribing and draining do. -/
theorem Op.exec_keeps (refl : ∀ s, R s s) (trans : ∀ a b c, R a b → R b c → R a c)
    (hrefresh : ∀ sample, Prog.Keeps R (X11.refresh sample))
    (hsettle : ∀ s : State, R s ⟨settle s.observer, s.notes⟩)
    (hresubscribe : ∀ kinds (s : State), R s ⟨resubscribe kinds s.observer, s.notes⟩)
    (hdrain : ∀ after (s : State), R s ⟨drain after s.observer, s.notes⟩) (op : Op) (s : State) :
    R s (op.exec s).2 := by
  cases op with
  | snapshot sample =>
    have h := hrefresh sample s
    change R s (X11.snapshot sample s).2
    rcases snapshot_spec sample s with ⟨e, -, hs⟩ | ⟨m, snap, -, -, -, hs⟩
    · rw [hs]
      exact h
    · rw [hs]
      exact trans _ _ _ h (hsettle _)
  | subscribe kinds sample =>
    have h := hrefresh sample s
    change R s (X11.subscribe kinds sample s).2
    rcases subscribe_spec kinds sample s with ⟨e, -, hs⟩ | ⟨-, hs⟩
    · rw [hs]
      exact h
    · rw [hs]
      exact trans _ _ _ h (hresubscribe kinds _)
  | poll after limit sample rest =>
    have hwait := pollWait_keeps refl trans hrefresh after sample rest
      ⟨drain after s.observer, s.notes⟩
    change R s (X11.poll after limit sample rest s).2
    have hspec := poll_spec after limit sample rest s
    generalize X11.poll after limit sample rest s = result at hspec
    cases hspec with
    | unsubscribed e h | outside h => exact refl s
    | stopped e s' h | paged s' subscribed retained reached h =>
      rw [h] at hwait
      exact trans _ _ _ (hdrain after s) hwait
  | refresh sample => exact hrefresh sample s

theorem settle_sameModel (s : State) : SameModel s ⟨settle s.observer, s.notes⟩ := by
  unfold settle
  split
  · exact ⟨rfl, rfl, rfl, rfl⟩
  · exact SameModel.refl _

/-- The rule for relations that do not look at the queue. -/
theorem Op.exec_keeps_model (refl : ∀ s, R s s) (trans : ∀ a b c, R a b → R b c → R a c)
    (hrefresh : ∀ sample, Prog.Keeps R (X11.refresh sample))
    (hqueue : ∀ s o, SameModel s ⟨o, s.notes⟩ → R s ⟨o, s.notes⟩) (op : Op) (s : State) :
    R s (op.exec s).2 :=
  Op.exec_keeps refl trans hrefresh (fun s => hqueue s _ (settle_sameModel s))
    (fun _ s => hqueue s _ ⟨rfl, rfl, rfl, rfl⟩) (fun _ s => hqueue s _ ⟨rfl, rfl, rfl, rfl⟩) op s

end Keeps

/-- What every refresh keeps and no change of the queue alone touches holds all along a run. -/
theorem Connection.run_invariant {P : State → Prop} (c : Connection)
    (start : P (c.run []).state) (hrefresh : ∀ sample s, P s → P (refresh sample s).2)
    (hqueue : ∀ s o, SameModel s ⟨o, s.notes⟩ → P s → P ⟨o, s.notes⟩) (ops : List Op) :
    P (c.run ops).state := by
  refine Run.after_induction (P := fun r => P r.state) (fun r op h => ?_) start ops
  exact Op.exec_keeps_model (R := fun s s' => P s → P s') (fun _ => id) (fun _ _ _ h h' => h' ∘ h)
    (fun sample s => hrefresh sample s) hqueue op r.state h

end AgentSeat.X11
