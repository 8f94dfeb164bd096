/-
  The event queue against the ideal log.

  The ideal log of a subscription is every event that got a number since the latest successful
  `subscribe`, kept for ever and filtered to the subscribed kinds. The queue of the observer is
  popped on acknowledgement, cleared on overflow and cleared again when a pending
  resynchronization ends. `LogInv` says what of the ideal log it still holds; every tick of a
  refresh and every call keeps it.

  Main result:
  * `eventLog_exact`: pages are exact, a repeated poll repeats its page, an overflow is reported by
    every poll until the next snapshot or subscription, and nothing before that point comes back.
-/
import AgentSeat.Lib.Log
import AgentSeat.Observer.Plain
import AgentSeat.Observer.Steps

namespace AgentSeat.X11

open AgentSeat.Lib AgentSeat.Proto Relation

/-! ## The ideal log -/

/-- The events of the subscribed kinds since the note `mark`. -/
def logSince (s : State) (mark : Nat) : List EventEnvelope :=
  (journal (s.notes.drop mark)).filter fun e => wanted s.observer.subscribedKinds e.event

/-- The unbounded log of the current subscription. -/
def Run.idealLog (r : Run) : List EventEnvelope := logSince r.state r.subscribedAt

/-- Since the note `mark` an event of a subscribed kind met a full queue. -/
def overflowedSince (s : State) (mark : Nat) : Prop :=
  ∃ a, .pushed a ∈ s.notes.drop mark ∧ a.retained = maxEvents ∧
    wanted s.observer.subscribedKinds a.envelope.event = true

/-- An event arrived at a full queue, and no snapshot or subscription succeeded since. -/
def Run.Overflowed (r : Run) : Prop := overflowedSince r.state r.settledAt

/-- What the queue holds of the ideal log, between any two calls and inside a refresh. -/
structure LogInv (s : State) (subscribedAt settledAt : Nat) : Prop where
  marks : subscribedAt ≤ settledAt ∧ settledAt ≤ s.notes.length
  ascending : Ascending EventEnvelope.sequence (journal s.notes)
  numbers_le : ∀ e ∈ journal s.notes, e.sequence ≤ s.observer.sequence
  before : ∀ e ∈ journal (s.notes.take subscribedAt), e.sequence ≤ s.observer.retainedAfter
  retained_le : s.observer.retainedAfter ≤ s.observer.sequence
  queue_le : s.observer.events.length ≤ maxEvents
  queue : s.observer.subscribed = true → s.observer.resyncRequired = false →
    s.observer.events =
      since EventEnvelope.sequence s.observer.retainedAfter (logSince s subscribedAt)
  cleared : s.observer.resyncRequired = true → s.observer.events = []
  pending : s.observer.resyncRequired = true ↔ overflowedSince s settledAt
  idle : s.observer.subscribed = false →
    s.observer.events = [] ∧ s.observer.resyncRequired = false

theorem logInv_start (root : Window) (atoms : Atoms) (scope : ClientScope)
    (showTitles captureEnabled : Bool) :
    LogInv ⟨connected root atoms scope showTitles captureEnabled, []⟩ 0 0 where
  marks := ⟨Nat.le_refl _, Nat.le_refl _⟩
  ascending := List.Pairwise.nil
  numbers_le := by simp [journal]
  before := by simp [journal]
  retained_le := Nat.le_refl _
  queue_le := Nat.zero_le _
  queue h := by simp [connected] at h
  cleared _ := rfl
  pending := by simp [connected, overflowedSince]
  idle _ := ⟨rfl, rfl⟩

/-! ## A refresh keeps the invariant -/

section Ticks

variable {s s' : State} {subscribedAt settledAt mark : Nat}

theorem journal_pushed (a : Arrival) : journal [.pushed a] = [a.envelope] := rfl

theorem journal_silent {n : Note} (silent : ∀ a, n ≠ .pushed a) : journal [n] = [] := by
  cases n with
  | pushed a => exact absurd rfl (silent a)
  | refreshed _ _ | exhausted => rfl

theorem LogInv.sameQueue (inv : LogInv s subscribedAt settledAt) {o : Observer}
    (same : SameQueue s.observer o) : LogInv ⟨o, s.notes⟩ subscribedAt settledAt := by
  obtain ⟨-, hq, hs, hk, he, hr, hp⟩ := same
  have hlog (mark : Nat) : logSince ⟨o, s.notes⟩ mark = logSince s mark := by
    simp only [logSince, hk]
  have hover : overflowedSince ⟨o, s.notes⟩ settledAt ↔ overflowedSince s settledAt := by
    simp only [overflowedSince, hk]
  constructor
  · exact inv.marks
  · exact inv.ascending
  · simpa only [hq] using inv.numbers_le
  · simpa only [hr] using inv.before
  · simpa only [hq, hr] using inv.retained_le
  · simpa only [he] using inv.queue_le
  · simpa only [hs, hp, he, hr, hlog] using inv.queue
  · simpa only [hp, he] using inv.cleared
  · rw [hover, ← inv.pending]
    simp only [hp]
  · simpa only [hs, he, hp] using inv.idle

theorem LogInv.silent (inv : LogInv s subscribedAt settledAt) {n : Note}
    (silent : ∀ a, n ≠ .pushed a) :
    LogInv ⟨s.observer, s.notes ++ [n]⟩ subscribedAt settledAt := by
  have hjournal : journal (s.notes ++ [n]) = journal s.notes := by
    rw [journal_append, journal_silent silent, List.append_nil]
  have hdrop (mark : Nat) (h : mark ≤ s.notes.length) :
      (s.notes ++ [n]).drop mark = s.notes.drop mark ++ [n] := List.drop_append_of_le_length h
  have hlog : logSince ⟨s.observer, s.notes ++ [n]⟩ subscribedAt = logSince s subscribedAt := by
    unfold logSince
    rw [hdrop _ (Nat.le_trans inv.marks.1 inv.marks.2), journal_append, journal_silent silent,
      List.append_nil]
  have hover : overflowedSince ⟨s.observer, s.notes ++ [n]⟩ settledAt ↔
      overflowedSince s settledAt := by
    unfold overflowedSince
    rw [hdrop _ inv.marks.2]
    refine exists_congr fun a => and_congr_left fun _ => ?_
    simp [(silent a).symm]
  constructor
  · have := inv.marks
    simp only [List.length_append]
    omega
  · rw [hjournal]
    exact inv.ascending
  · rw [hjournal]
    exact inv.numbers_le
  · rw [List.take_append_of_le_length (Nat.le_trans inv.marks.1 inv.marks.2)]
    exact inv.before
  · exact inv.retained_le
  · exact inv.queue_le
  · rw [hlog]
    exact inv.queue
  · exact inv.cleared
  · rw [hover]
    exact inv.pending
  · exact inv.idle

theorem numberedPush_kinds (s : State) (event : Event) :
    (numberedPush s event).observer.subscribedKinds = s.observer.subscribedKinds := by
  simp only [numberedPush, enqueue]
  split
  · rfl
  · split <;> rfl

/-- A push adds its event to the ideal log if the kind is wanted. -/
theorem logSince_push (s : State) (event : Event) (h : mark ≤ s.notes.length) :
    logSince (numberedPush s event) mark = logSince s mark ++
      (if wanted s.observer.subscribedKinds event then [⟨s.observer.sequence + 1, event⟩]
        else []) := by
  unfold logSince
  rw [numberedPush_kinds]
  simp only [numberedPush, List.drop_append_of_le_length h, journal_append, journal_pushed,
    List.filter_append, List.filter_singleton, cond_eq_ite]

/-- A push is the overflow it meets, or leaves the account of overflows as it was. -/
theorem overflowedSince_push (s : State) (event : Event) (h : mark ≤ s.notes.length) :
    overflowedSince (numberedPush s event) mark ↔ overflowedSince s mark ∨
      (s.observer.events.length = maxEvents ∧
        wanted s.observer.subscribedKinds event = true) := by
  unfold overflowedSince
  rw [numberedPush_kinds]
  simp only [numberedPush, List.drop_append_of_le_length h, List.mem_append, List.mem_singleton,
    Note.pushed.injEq, or_and_right, exists_or]
  refine or_congr Iff.rfl ?_
  simp

/-- The three things a push can do to the queue. -/
theorem enqueue_cases (o : Observer) (event : Event) :
    ((o.subscribed = false ∨ o.resyncRequired = true ∨ wanted o.subscribedKinds event = false) ∧
      enqueue o event = o) ∨
    (o.subscribed = true ∧ o.resyncRequired = false ∧ wanted o.subscribedKinds event = true ∧
      ((o.events.length = maxEvents ∧
        enqueue o event = { o with events := [], resyncRequired := true }) ∨
       (o.events.length ≠ maxEvents ∧
        enqueue o event = { o with events := o.events ++ [⟨o.sequence, event⟩] }))) := by
  unfold enqueue
  by_cases drop : (!o.subscribed || o.resyncRequired || !wanted o.subscribedKinds event) = true
  · rw [if_pos drop]
    left
    simpa [or_assoc] using drop
  · rw [if_neg drop]
    right
    simp only [Bool.or_eq_true, Bool.not_eq_true', not_or, Bool.not_eq_false,
      Bool.not_eq_true] at drop
    obtain ⟨⟨hs, hr⟩, hw⟩ := drop
    refine ⟨hs, hr, hw, ?_⟩
    by_cases full : o.events.length = maxEvents
    · exact .inl ⟨full, if_pos full⟩
    · exact .inr ⟨full, if_neg full⟩

theorem LogInv.push (inv : LogInv s subscribedAt settledAt) (event : Event) :
    LogInv (numberedPush s event) subscribedAt settledAt := by
  obtain ⟨hmark, hsettled⟩ := inv.marks
  have hlog := logSince_push s event (Nat.le_trans hmark hsettled)
  have hover := overflowedSince_push s event hsettled
  have hnotes : journal (numberedPush s event).notes =
      journal s.notes ++ [⟨s.observer.sequence + 1, event⟩] := by
    simp only [numberedPush, journal_append, journal_pushed]
  have hseq : (numberedPush s event).observer.sequence = s.observer.sequence + 1 :=
    enqueue_sequence _ event
  have hmarks : subscribedAt ≤ settledAt ∧ settledAt ≤ (numberedPush s event).notes.length := by
    simp only [numberedPush, List.length_append]
    omega
  have hasc : Ascending EventEnvelope.sequence (journal (numberedPush s event).notes) := by
    rw [hnotes]
    refine inv.ascending.append (by simp [Ascending]) fun a ha b hb => ?_
    have := inv.numbers_le a ha
    rw [List.mem_singleton] at hb
    subst hb
    simp only
    omega
  have hle : ∀ e ∈ journal (numberedPush s event).notes,
      e.sequence ≤ (numberedPush s event).observer.sequence := by
    intro e he
    rw [hseq]
    rw [hnotes, List.mem_append, List.mem_singleton] at he
    rcases he with he | rfl
    · have := inv.numbers_le e he
      omega
    · simp
  have hret := inv.retained_le
  have hbefore : ∀ e ∈ journal ((numberedPush s event).notes.take subscribedAt),
      e.sequence ≤ s.observer.retainedAfter := by
    simp only [numberedPush, List.take_append_of_le_length (Nat.le_trans hmark hsettled)]
    exact inv.before
  rcases enqueue_cases { s.observer with sequence := s.observer.sequence + 1 } event with
    ⟨hdrop, heq⟩ | ⟨hs, hr, hw, ⟨full, heq⟩ | ⟨room, heq⟩⟩
  · -- dropped: nobody subscribed, a resynchronization is pending, or the kind is not wanted
    replace heq : (numberedPush s event).observer =
      { s.observer with sequence := s.observer.sequence + 1 } := heq
    refine ⟨hmarks, hasc, hle, ?_, ?_, ?_, ?_, ?_, ?_, ?_⟩
    · rw [heq]
      exact hbefore
    · rw [heq]
      exact Nat.le_succ_of_le hret
    · rw [heq]
      exact inv.queue_le
    · rw [hlog, heq]
      intro hs hr
      rcases hdrop with h | h | h
      · simp_all
      · simp_all
      · simpa [show wanted s.observer.subscribedKinds event = false from h] using inv.queue hs hr
    · rw [heq]
      exact inv.cleared
    · rw [hover, heq, ← inv.pending]
      refine ⟨.inl, fun h => h.resolve_right ?_⟩
      rintro ⟨hfull, hw⟩
      have hne : s.observer.events ≠ [] := by
        intro h
        simp [h, maxEvents] at hfull
      rcases hdrop with h | h | h
      · exact hne (inv.idle h).1
      · exact hne (inv.cleared h)
      · simp_all
    · rw [heq]
      exact inv.idle
  · -- overflow: the queue is given up and the loss is recorded
    replace heq : (numberedPush s event).observer =
      { s.observer with
        sequence := s.observer.sequence + 1, events := [], resyncRequired := true } := heq
    refine ⟨hmarks, hasc, hle, ?_, ?_, ?_, ?_, ?_, ?_, ?_⟩
    · rw [heq]
      exact hbefore
    · rw [heq]
      exact Nat.le_succ_of_le hret
    · rw [heq]
      exact Nat.zero_le _
    · rw [heq]
      simp
    · rw [heq]
      simp
    · rw [hover, heq]
      simpa using .inr ⟨full, hw⟩
    · rw [heq]
      intro h
      simp_all
  · -- queued
    replace heq : (numberedPush s event).observer =
      { s.observer with
        sequence := s.observer.sequence + 1
        events := s.observer.events ++ [⟨s.observer.sequence + 1, event⟩] } := heq
    replace hw : wanted s.observer.subscribedKinds event = true := hw
    have hlen := inv.queue_le
    refine ⟨hmarks, hasc, hle, ?_, ?_, ?_, ?_, ?_, ?_, ?_⟩
    · rw [heq]
      exact hbefore
    · rw [heq]
      exact Nat.le_succ_of_le hret
    · rw [heq]
      simp only [List.length_append, List.length_singleton]
      exact Nat.lt_of_le_of_ne hlen room
    · rw [hlog, heq, if_pos hw]
      intro hs hr
      change s.observer.events ++ _ = _
      have hnew : ∀ e ∈ [EventEnvelope.mk (s.observer.sequence + 1) event],
          s.observer.retainedAfter < e.sequence := by
        simpa using Nat.lt_succ_of_le hret
      rw [since_append, ← inv.queue hs hr]
      exact congrArg _ (since_eq_self hnew).symm
    · rw [heq]
      intro h
      simp_all
    · rw [hover, heq, ← inv.pending]
      refine ⟨.inl, fun h => h.resolve_right ?_⟩
      rintro ⟨hfull, -⟩
      exact room hfull
    · rw [heq]
      intro h
      simp_all

/-- What holds before a refresh holds after it, whatever became of the refresh. -/
theorem LogInv.ticks (inv : LogInv s subscribedAt settledAt) (h : Ticks s s') :
    LogInv s' subscribedAt settledAt := by
  induction h with
  | refl => exact inv
  | tail _ tick ih =>
    cases tick with
    | push event room => exact ih.push event
    | frame o same => exact ih.sameQueue same
    | note n silent => exact ih.silent silent

/-- Numbers only grow, and what is new in the journal has new numbers. -/
structure Forward (s s' : State) : Prop where
  sequence : s.observer.sequence ≤ s'.observer.sequence
  notes : ∃ added, s'.notes = s.notes ++ added ∧
    ∀ e ∈ journal added, s.observer.sequence < e.sequence

theorem Forward.refl (s : State) : Forward s s := ⟨Nat.le_refl _, [], by simp [journal]⟩

theorem Forward.trans {s₁ : State} (h : Forward s s₁) (h' : Forward s₁ s') : Forward s s' := by
  obtain ⟨hq, added, ha, hj⟩ := h
  obtain ⟨hq', added', ha', hj'⟩ := h'
  refine ⟨Nat.le_trans hq hq', added ++ added', by rw [ha', ha, List.append_assoc], ?_⟩
  intro e he
  rw [journal_append, List.mem_append] at he
  rcases he with he | he
  · exact hj e he
  · exact Nat.lt_of_le_of_lt hq (hj' e he)

/-- The settings, the subscription and the point it is retained from are the same. -/
structure SameTerms (s s' : State) : Prop where
  settings : s'.observer.settings = s.observer.settings
  subscribed : s'.observer.subscribed = s.observer.subscribed
  kinds : s'.observer.subscribedKinds = s.observer.subscribedKinds
  retainedAfter : s'.observer.retainedAfter = s.observer.retainedAfter

theorem numberedPush_forward (s : State) (event : Event) : Forward s (numberedPush s event) := by
  refine ⟨?_, _, rfl, ?_⟩
  · change _ ≤ (enqueue _ event).sequence
    rw [enqueue_sequence]
    exact Nat.le_succ _
  · simp [journal_pushed]

theorem numberedPush_sameTerms (s : State) (event : Event) :
    SameTerms s (numberedPush s event) := by
  rcases enqueue_cases { s.observer with sequence := s.observer.sequence + 1 } event with
    ⟨-, heq⟩ | ⟨-, -, -, ⟨-, heq⟩ | ⟨-, heq⟩⟩ <;>
  · have ho : (numberedPush s event).observer = _ := heq
    constructor <;> rw [ho]
    rfl

theorem ticks_forward (h : Ticks s s') : Forward s s' ∧ SameTerms s s' := by
  induction h with
  | refl => exact ⟨Forward.refl s, rfl, rfl, rfl, rfl⟩
  | @tail s₁ s₂ _ tick ih =>
    have step : Forward s₁ s₂ ∧ SameTerms s₁ s₂ := by
      cases tick with
      | push event room =>
        exact ⟨numberedPush_forward s₁ event, numberedPush_sameTerms s₁ event⟩
      | frame o same =>
        exact ⟨⟨Nat.le_of_eq same.sequence.symm, [], by simp [journal]⟩, same.settings,
          same.subscribed, same.subscribedKinds, same.retainedAfter⟩
      | note n silent =>
        refine ⟨⟨Nat.le_refl _, [n], rfl, ?_⟩, rfl, rfl, rfl, rfl⟩
        simp [journal_silent silent]
    exact ⟨ih.1.trans step.1, step.2.settings.trans ih.2.settings,
      step.2.subscribed.trans ih.2.subscribed, step.2.kinds.trans ih.2.kinds,
      step.2.retainedAfter.trans ih.2.retainedAfter⟩

end Ticks

/-! ## The calls keep the invariant -/

section Calls

variable {s s' : State} {subscribedAt settledAt : Nat}

/-- Acknowledging pops exactly the events up to the point it then retains from. -/
theorem acknowledge_spec (after : Nat) {queue : List EventEnvelope} {retainedAfter : Nat}
    (asc : Ascending EventEnvelope.sequence queue)
    (hlt : ∀ e ∈ queue, retainedAfter < e.sequence) :
    (acknowledge after queue retainedAfter).1 =
      since EventEnvelope.sequence (acknowledge after queue retainedAfter).2 queue ∧
    retainedAfter ≤ (acknowledge after queue retainedAfter).2 ∧
    (retainedAfter ≤ after → (acknowledge after queue retainedAfter).2 ≤ after) ∧
    ((acknowledge after queue retainedAfter).2 = retainedAfter ∨
      ∃ e ∈ queue, (acknowledge after queue retainedAfter).2 = e.sequence) := by
  induction queue generalizing retainedAfter with
  | nil => simp [acknowledge, since]
  | cons e rest ih =>
    obtain ⟨hhead, hrest⟩ := List.pairwise_cons.mp asc
    have hpos := hlt e (by simp)
    unfold acknowledge
    split
    · next hack =>
      obtain ⟨hq, hge, hle, horigin⟩ := ih hrest hhead
      refine ⟨?_, by omega, fun _ => hle hack, .inr ?_⟩
      · rw [hq]
        simp only [since, List.filter_cons]
        rw [if_neg (by simpa using hge)]
      · rcases horigin with h | ⟨e', he', h⟩
        · exact ⟨e, by simp, h⟩
        · exact ⟨e', by simp [he'], h⟩
    · next hkeep =>
      exact ⟨(since_eq_self hlt).symm, Nat.le_refl _, id, .inl rfl⟩

theorem logSince_sublist (s : State) (mark : Nat) : (logSince s mark).Sublist (journal s.notes) :=
  List.filter_sublist.trans ((List.drop_sublist mark s.notes).filterMap _)

/-- The queue is ascending, and all of it is past the point it is retained from. -/
theorem LogInv.queue_numbers (inv : LogInv s subscribedAt settledAt) :
    Ascending EventEnvelope.sequence s.observer.events ∧
      ∀ e ∈ s.observer.events, s.observer.retainedAfter < e.sequence ∧
        e.sequence ≤ s.observer.sequence := by
  cases hs : s.observer.subscribed with
  | false =>
    rw [(inv.idle hs).1]
    simp [Ascending]
  | true =>
    cases hr : s.observer.resyncRequired with
    | true =>
      rw [inv.cleared hr]
      simp [Ascending]
    | false =>
      have hsub := logSince_sublist s subscribedAt
      rw [inv.queue hs hr]
      refine ⟨(inv.ascending.sublist hsub).since, fun e he => ?_⟩
      obtain ⟨hlog, hlt⟩ := mem_since.mp he
      exact ⟨hlt, inv.numbers_le e (hsub.subset hlog)⟩

theorem LogInv.drain (inv : LogInv s subscribedAt settledAt) (after : Nat) :
    LogInv ⟨drain after s.observer, s.notes⟩ subscribedAt settledAt := by
  obtain ⟨hasc, hnum⟩ := inv.queue_numbers
  obtain ⟨hq, hge, -, horigin⟩ := acknowledge_spec after hasc fun e he => (hnum e he).1
  have hnil : s.observer.events = [] →
      (acknowledge after s.observer.events s.observer.retainedAfter).1 = [] := by
    intro h
    rw [h]
    rfl
  refine ⟨inv.marks, inv.ascending, inv.numbers_le, ?_, ?_, ?_, ?_, ?_, inv.pending, ?_⟩
  · exact fun e he => Nat.le_trans (inv.before e he) hge
  · rcases horigin with h | ⟨e, he, h⟩
    · exact Nat.le_trans (Nat.le_of_eq h) inv.retained_le
    · exact Nat.le_trans (Nat.le_of_eq h) (hnum e he).2
  · refine Nat.le_trans ?_ inv.queue_le
    change (acknowledge _ _ _).1.length ≤ _
    rw [hq]
    exact List.length_filter_le _ _
  · intro hs hr
    change (acknowledge _ _ _).1 = since _ (acknowledge _ _ _).2 (logSince s subscribedAt)
    rw [hq]
    nth_rewrite 2 [inv.queue hs hr]
    exact since_since hge
  · exact fun hr => hnil (inv.cleared hr)
  · exact fun hs => ⟨hnil (inv.idle hs).1, (inv.idle hs).2⟩

/-- With nothing noted after the mark there is no overflow after it. -/
theorem not_overflowedSince_now (o : Observer) (notes : List Note) :
    ¬ overflowedSince ⟨o, notes⟩ notes.length := by
  simp [overflowedSince]

theorem LogInv.settle (inv : LogInv s subscribedAt settledAt) :
    LogInv ⟨settle s.observer, s.notes⟩ subscribedAt s.notes.length := by
  have hmarks : subscribedAt ≤ s.notes.length ∧ s.notes.length ≤ s.notes.length :=
    ⟨Nat.le_trans inv.marks.1 inv.marks.2, Nat.le_refl _⟩
  have hnone : ¬ overflowedSince ⟨X11.settle s.observer, s.notes⟩ s.notes.length :=
    not_overflowedSince_now _ _
  cases hr : s.observer.resyncRequired with
  | false =>
    have heq : X11.settle s.observer = s.observer := by simp [X11.settle, hr]
    rw [heq] at hnone ⊢
    refine ⟨hmarks, inv.ascending, inv.numbers_le, inv.before, inv.retained_le, inv.queue_le,
      inv.queue, inv.cleared, ?_, inv.idle⟩
    simp [hr, hnone]
  | true =>
    have heq : X11.settle s.observer = { s.observer with
        events := [], retainedAfter := s.observer.sequence, resyncRequired := false } := by
      simp [X11.settle, hr]
    rw [heq] at hnone ⊢
    refine ⟨hmarks, inv.ascending, inv.numbers_le, ?_, Nat.le_refl _, Nat.zero_le _, ?_, ?_, ?_,
      ?_⟩
    · exact fun e he => Nat.le_trans (inv.before e he) inv.retained_le
    · intro _ _
      refine (since_eq_nil fun e he => ?_).symm
      exact inv.numbers_le e ((logSince_sublist _ _).subset he)
    · simp
    · simp [hnone]
    · simp

theorem LogInv.resubscribe (inv : LogInv s subscribedAt settledAt) (kinds : List EventKind) :
    LogInv ⟨resubscribe kinds s.observer, s.notes⟩ s.notes.length s.notes.length := by
  refine ⟨⟨Nat.le_refl _, Nat.le_refl _⟩, inv.ascending, inv.numbers_le, ?_, Nat.le_refl _,
    Nat.zero_le _, ?_, ?_, ?_, ?_⟩
  · rw [List.take_length]
    exact inv.numbers_le
  · intro _ _
    simp [logSince, journal, X11.resubscribe, since]
  · simp [X11.resubscribe]
  · simp [X11.resubscribe, not_overflowedSince_now]
  · simp [X11.resubscribe]

/-- The part of a poll after its cursor was accepted. -/
theorem LogInv.pollWait (inv : LogInv s subscribedAt settledAt) (after : Nat) (sample : Sample)
    (rest : List Sample) :
    LogInv (pollWait after sample rest ⟨X11.drain after s.observer, s.notes⟩).2
      subscribedAt settledAt ∧
    Ticks ⟨X11.drain after s.observer, s.notes⟩
      (pollWait after sample rest ⟨X11.drain after s.observer, s.notes⟩).2 := by
  have h := pollWait_keeps (fun _ => .refl) (fun _ _ _ h h' => h.trans h') refresh_ticks after
    sample rest ⟨X11.drain after s.observer, s.notes⟩
  exact ⟨(inv.drain after).ticks h, h⟩

/-- A page is the first part of what the ideal log has after the cursor. -/
theorem LogInv.poll_page (inv : LogInv s subscribedAt settledAt) {after limit : Nat}
    {sample : Sample} {rest : List Sample} {batch : EventBatch}
    (h : poll after limit sample rest s = (.ok batch, s')) :
    batch.events.asSlice =
        (since EventEnvelope.sequence after (logSince s' subscribedAt)).take limit ∧
      batch.cursor =
        batch.events.asSlice.getLast?.elim s'.observer.sequence EventEnvelope.sequence ∧
      s'.observer.resyncRequired = false ∧ s.observer.retainedAfter ≤ after ∧
      s'.observer.retainedAfter ≤ after := by
  have hspec := poll_spec after limit sample rest s
  rw [h] at hspec
  generalize hres : (Except.ok batch, s') = result at hspec
  cases hspec with
  | unsubscribed | outside | stopped => simp at hres
  | paged s₁ hsub hret hreached hw =>
    simp only [Prod.mk.injEq] at hres
    obtain ⟨hpage, rfl⟩ := hres
    obtain ⟨inv', hticks⟩ := inv.pollWait after sample rest
    have hwait := pollWait_spec after sample rest ⟨X11.drain after s.observer, s.notes⟩
    rw [hw] at inv' hticks hwait
    obtain ⟨-, same⟩ := ticks_forward hticks
    cases hwait with
    | done _ hr =>
      obtain ⟨hasc, hnum⟩ := inv.queue_numbers
      obtain ⟨-, -, hle, -⟩ := acknowledge_spec after hasc fun e he => (hnum e he).1
      have hafter : s'.observer.retainedAfter ≤ after := by
        rw [same.retainedAfter]
        exact hle hret
      have hqueue := inv'.queue (same.subscribed.trans hsub) hr
      have hfilter : since EventEnvelope.sequence after s'.observer.events =
          since EventEnvelope.sequence after (logSince s' subscribedAt) := by
        rw [hqueue]
        exact since_since hafter
      simp only [page] at hpage
      cases hnew : (BoundedList.new ((s'.observer.events.filter
          fun event => after < event.sequence).take limit) :
          Except BoundError (BoundedList EventEnvelope maxEvents)) with
      | error e =>
        rw [hnew] at hpage
        simp at hpage
      | ok events =>
        rw [hnew] at hpage
        simp only [Except.ok.injEq] at hpage
        subst hpage
        have hevents := BoundedList.new_eq_ok.mp hnew
        refine ⟨?_, ?_, hr, hret, hafter⟩
        · rw [← hevents, ← hfilter]
          rfl
        · rw [← hevents]

/-- A page leaves out nothing of the ideal log up to its cursor. -/
theorem LogInv.poll_cursor (inv : LogInv s subscribedAt settledAt)
    (inv' : LogInv s' subscribedAt settledAt) {after limit : Nat} {sample : Sample}
    {rest : List Sample} {batch : EventBatch} (one : 1 ≤ limit)
    (h : poll after limit sample rest s = (.ok batch, s')) :
    batch.cursor ≤ s'.observer.sequence ∧
    ∀ e ∈ logSince s' subscribedAt, after < e.sequence → e.sequence ≤ batch.cursor →
      e ∈ batch.events.asSlice := by
  obtain ⟨hevents, hcursor, -⟩ := inv.poll_page h
  have hasc := (inv'.ascending.sublist (logSince_sublist s' subscribedAt)).since (c := after)
  cases hlast : batch.events.asSlice.getLast? with
  | none =>
    rw [hlast] at hcursor
    refine ⟨Nat.le_of_eq hcursor, fun e he hafter _ => ?_⟩
    have hnil := List.getLast?_eq_none_iff.mp hlast
    rw [hnil, eq_comm, List.take_eq_nil_iff] at hevents
    rcases hevents with h0 | hempty
    · omega
    · have := mem_since.mpr ⟨he, hafter⟩
      rw [hempty] at this
      simp at this
  | some last =>
    rw [hlast] at hcursor
    have hmem := List.mem_of_getLast? hlast
    rw [hevents] at hmem
    have hlog := (mem_since.mp (List.mem_of_mem_take hmem)).1
    refine ⟨?_, fun e he hafter hle => ?_⟩
    · rw [hcursor]
      exact inv'.numbers_le last ((logSince_sublist _ _).subset hlog)
    · rw [hcursor] at hle
      rw [hevents]
      exact hasc.mem_take (mem_since.mpr ⟨he, hafter⟩) hmem hle

end Calls

/-! ## Runs -/

/-- The reply to one more call. -/
def Run.reply (r : Run) (op : Op) : OpReply := (op.exec r.state).1

def Run.LogInv (r : Run) : Prop := X11.LogInv r.state r.subscribedAt r.settledAt

/-- `r'` is later than `r` in a run: numbers and notes grow, the queue never goes back, and the
    subscription is the same or newer than everything noted at `r`. -/
structure Later (r r' : Run) : Prop where
  forward : Forward r.state r'.state
  retained : r.state.observer.retainedAfter ≤ r'.state.observer.retainedAfter
  terms : (r'.subscribedAt = r.subscribedAt ∧
      r'.state.observer.subscribedKinds = r.state.observer.subscribedKinds) ∨
    r.state.notes.length ≤ r'.subscribedAt

theorem Forward.length_le {s s' : State} (h : Forward s s') : s.notes.length ≤ s'.notes.length := by
  obtain ⟨-, added, ha, -⟩ := h
  rw [ha, List.length_append]
  exact Nat.le_add_right _ _

theorem Later.refl (r : Run) : Later r r := ⟨Forward.refl _, Nat.le_refl _, .inl ⟨rfl, rfl⟩⟩

theorem Later.trans {r r₁ r₂ : Run} (h : Later r r₁) (h' : Later r₁ r₂) : Later r r₂ := by
  refine ⟨h.forward.trans h'.forward, Nat.le_trans h.retained h'.retained, ?_⟩
  rcases h'.terms with ⟨hm', hk'⟩ | hm'
  · rcases h.terms with ⟨hm, hk⟩ | hm
    · exact .inl ⟨hm'.trans hm, hk'.trans hk⟩
    · exact .inr (by omega)
  · exact .inr (Nat.le_trans h.forward.length_le hm')

theorem refresh_logInv {s : State} {m n : Nat} (inv : LogInv s m n) (sample : Sample) :
    LogInv (refresh sample s).2 m n ∧ Forward s (refresh sample s).2 ∧
      SameTerms s (refresh sample s).2 :=
  ⟨inv.ticks (refresh_ticks sample s), ticks_forward (refresh_ticks sample s)⟩

theorem settle_moves {s : State} {m n : Nat} (inv : LogInv s m n) :
    s.observer.retainedAfter ≤ (settle s.observer).retainedAfter ∧
      (settle s.observer).sequence = s.observer.sequence ∧
      (settle s.observer).subscribedKinds = s.observer.subscribedKinds := by
  unfold settle
  split
  · exact ⟨inv.retained_le, rfl, rfl⟩
  · exact ⟨Nat.le_refl _, rfl, rfl⟩

theorem Run.LogInv.snapshot {r : Run} (inv : r.LogInv) (sample : Sample) :
    (r.step (.snapshot sample)).LogInv ∧ Later r (r.step (.snapshot sample)) := by
  obtain ⟨hinv, hfwd, hsame⟩ := refresh_logInv inv sample
  rcases snapshot_spec sample r.state with ⟨e, -, hs⟩ | ⟨m, snap, -, -, -, hs⟩
  · have hstep : r.step (.snapshot sample) = { r with
        state := (refresh sample r.state).2
        replies := r.replies ++ [.snapshot (.error e)] } := by
      simp only [Run.step, Op.exec, hs]
    rw [hstep]
    exact ⟨hinv, hfwd, Nat.le_of_eq hsame.retainedAfter.symm, .inl ⟨rfl, hsame.kinds⟩⟩
  · have hstep : r.step (.snapshot sample) = { r with
        state := ⟨settle (refresh sample r.state).2.observer, (refresh sample r.state).2.notes⟩
        replies := r.replies ++ [.snapshot (.ok snap)]
        settledAt := (refresh sample r.state).2.notes.length } := by
      simp only [Run.step, Op.exec, hs]
    rw [hstep]
    obtain ⟨hret, hseq, hkinds⟩ := settle_moves hinv
    refine ⟨hinv.settle, ⟨?_, hfwd.notes⟩, ?_, .inl ⟨rfl, hkinds.trans hsame.kinds⟩⟩
    · exact Nat.le_trans hfwd.sequence (Nat.le_of_eq hseq.symm)
    · exact Nat.le_trans (Nat.le_of_eq hsame.retainedAfter.symm) hret

theorem Run.LogInv.subscribe {r : Run} (inv : r.LogInv) (kinds : List EventKind)
    (sample : Sample) :
    (r.step (.subscribe kinds sample)).LogInv ∧ Later r (r.step (.subscribe kinds sample)) := by
  obtain ⟨hinv, hfwd, hsame⟩ := refresh_logInv inv sample
  rcases subscribe_spec kinds sample r.state with ⟨e, -, hs⟩ | ⟨-, hs⟩
  · have hstep : r.step (.subscribe kinds sample) = { r with
        state := (refresh sample r.state).2
        replies := r.replies ++ [.subscribed (.error e)] } := by
      simp only [Run.step, Op.exec, hs]
    rw [hstep]
    exact ⟨hinv, hfwd, Nat.le_of_eq hsame.retainedAfter.symm, .inl ⟨rfl, hsame.kinds⟩⟩
  · have hstep : r.step (.subscribe kinds sample) = {
        state := ⟨resubscribe kinds (refresh sample r.state).2.observer,
          (refresh sample r.state).2.notes⟩
        replies := r.replies ++
          [.subscribed (.ok ⟨(refresh sample r.state).2.observer.sequence⟩)]
        subscribedAt := (refresh sample r.state).2.notes.length
        settledAt := (refresh sample r.state).2.notes.length } := by
      simp only [Run.step, Op.exec, hs]
    rw [hstep]
    refine ⟨hinv.resubscribe kinds, ⟨hfwd.sequence, hfwd.notes⟩, ?_, .inr hfwd.length_le⟩
    exact Nat.le_trans inv.retained_le hfwd.sequence

theorem Run.LogInv.poll {r : Run} (inv : r.LogInv) (after limit : Nat) (sample : Sample)
    (rest : List Sample) :
    (r.step (.poll after limit sample rest)).LogInv ∧
      Later r (r.step (.poll after limit sample rest)) ∧
      (r.step (.poll after limit sample rest)).state.observer.subscribedKinds =
        r.state.observer.subscribedKinds := by
  have hstep : r.step (.poll after limit sample rest) = { r with
      state := (X11.poll after limit sample rest r.state).2
      replies := r.replies ++ [.events (X11.poll after limit sample rest r.state).1] } := rfl
  rw [hstep]
  obtain ⟨hinv, hticks⟩ := inv.pollWait after sample rest
  obtain ⟨hfwd, hsame⟩ := ticks_forward hticks
  obtain ⟨hasc, hnum⟩ := inv.queue_numbers
  obtain ⟨-, hge, -, -⟩ := acknowledge_spec after hasc fun e he => (hnum e he).1
  have hret := Nat.le_trans hge (Nat.le_of_eq hsame.retainedAfter.symm)
  have hspec := poll_spec after limit sample rest r.state
  generalize X11.poll after limit sample rest r.state = result at hspec
  cases hspec with
  | unsubscribed e h | outside h =>
    exact ⟨inv, ⟨Forward.refl _, Nat.le_refl _, .inl ⟨rfl, rfl⟩⟩, rfl⟩
  | stopped e s' h =>
    rw [h] at hinv hfwd hsame hret
    exact ⟨hinv, ⟨⟨hfwd.sequence, hfwd.notes⟩, hret, .inl ⟨rfl, hsame.kinds⟩⟩, hsame.kinds⟩
  | paged s' subscribed retained reached h =>
    rw [h] at hinv hfwd hsame hret
    exact ⟨hinv, ⟨⟨hfwd.sequence, hfwd.notes⟩, hret, .inl ⟨rfl, hsame.kinds⟩⟩, hsame.kinds⟩

/-- One call keeps the invariant and moves the run on. -/
theorem Run.LogInv.step {r : Run} (inv : r.LogInv) (op : Op) :
    (r.step op).LogInv ∧ Later r (r.step op) := by
  cases op with
  | snapshot sample => exact inv.snapshot sample
  | subscribe kinds sample => exact inv.subscribe kinds sample
  | poll after limit sample rest =>
    obtain ⟨hinv, hlater, -⟩ := inv.poll after limit sample rest
    exact ⟨hinv, hlater⟩
  | refresh sample =>
    obtain ⟨hinv, hfwd, hsame⟩ := refresh_logInv inv sample
    exact ⟨hinv, hfwd, Nat.le_of_eq hsame.retainedAfter.symm, .inl ⟨rfl, hsame.kinds⟩⟩

theorem Run.LogInv.after {r : Run} (inv : r.LogInv) (ops : List Op) :
    (r.after ops).LogInv ∧ Later r (r.after ops) := by
  refine Run.after_induction (P := fun r' => r'.LogInv ∧ Later r r') (fun r' op h => ?_)
    ⟨inv, Later.refl r⟩ ops
  obtain ⟨hinv, hlater⟩ := h.1.step op
  exact ⟨hinv, h.2.trans hlater⟩

theorem Connection.run_logInv (c : Connection) (ops : List Op) : (c.run ops).LogInv :=
  (Run.LogInv.after (r := Run.start _) (logInv_start ..) ops).1

theorem Connection.run_later (c : Connection) (ops more : List Op) :
    Later (c.run ops) (c.run (ops ++ more)) := by
  have h := (c.run_logInv ops).after more
  unfold Connection.run at h ⊢
  rw [Run.after_append]
  exact h.2

/-- Nothing enters an ideal log below a number the run has passed. -/
theorem Later.mem_idealLog {r r' : Run} (h : Later r r') (inv : r.LogInv) {e : EventEnvelope}
    (he : e ∈ r'.idealLog) (hle : e.sequence ≤ r.state.observer.sequence) : e ∈ r.idealLog := by
  obtain ⟨-, added, hnotes, hnew⟩ := h.forward
  unfold Run.idealLog logSince at he ⊢
  rw [List.mem_filter] at he ⊢
  obtain ⟨hj, hw⟩ := he
  have hold (hx : e ∈ journal added) : False := by
    have := hnew e hx
    omega
  rcases h.terms with ⟨hm, hk⟩ | hm
  · rw [hk] at hw
    refine ⟨?_, hw⟩
    rw [hm, hnotes, List.drop_append_of_le_length (Nat.le_trans inv.marks.1 inv.marks.2),
      journal_append, List.mem_append] at hj
    exact hj.resolve_right hold
  · rw [hnotes, List.drop_append, List.drop_of_length_le hm, List.nil_append] at hj
    exact (hold (((List.drop_sublist _ added).filterMap _).subset hj)).elim

/-- A call that ends what came before it: a subscription, or a snapshot that found an overflow. -/
def Run.SettledBy (r : Run) (op : Op) : Prop :=
  (∃ subscription, r.reply op = .subscribed (.ok subscription)) ∨
    ((∃ snap, r.reply op = .snapshot (.ok snap)) ∧ overflowedSince (r.step op).state r.settledAt)

/-- Such a call retains nothing up to the sequence it returns. -/
theorem Run.SettledBy.retained {r : Run} {op : Op} (h : r.SettledBy op) (inv : r.LogInv) :
    (r.step op).state.observer.retainedAfter = (r.step op).state.observer.sequence := by
  rcases h with ⟨subscription, h⟩ | ⟨⟨snap, h⟩, hover⟩
  · cases op with
    | subscribe kinds sample =>
      rcases subscribe_spec kinds sample r.state with ⟨e, -, hs⟩ | ⟨-, hs⟩
      · simp [Run.reply, Op.exec, hs] at h
      · simp only [Run.step, Op.exec, hs, resubscribe]
    | snapshot _ | poll _ _ _ _ | refresh _ => simp [Run.reply, Op.exec] at h
  · cases op with
    | snapshot sample =>
      rcases snapshot_spec sample r.state with ⟨e, -, hs⟩ | ⟨m, snap', -, -, -, hs⟩
      · simp [Run.reply, Op.exec, hs] at h
      · obtain ⟨hinv, -, -⟩ := refresh_logInv inv sample
        simp only [Run.step, Op.exec, hs] at hover ⊢
        have hpending : (refresh sample r.state).2.observer.resyncRequired = true := by
          rw [hinv.pending]
          unfold overflowedSince at hover ⊢
          rw [(settle_moves hinv).2.2] at hover
          exact hover
        simp only [settle, hpending, if_true]
    | subscribe _ _ | poll _ _ _ _ | refresh _ => simp [Run.reply, Op.exec] at h

theorem Run.poll_ok {r : Run} {after limit : Nat} {sample : Sample} {rest : List Sample}
    {batch : EventBatch}
    (h : r.reply (.poll after limit sample rest) = .events (.ok batch)) :
    X11.poll after limit sample rest r.state =
      (.ok batch, (r.step (.poll after limit sample rest)).state) := by
  simp only [Run.reply, Op.exec, OpReply.events.injEq] at h
  exact Prod.ext h rfl

/-- A poll that ends with a resynchronization pending failed. -/
theorem poll_pending {s : State} {m n : Nat} (inv : LogInv s m n) {after limit : Nat}
    {sample : Sample} {rest : List Sample}
    (pending : (poll after limit sample rest s).2.observer.resyncRequired = true) :
    ∃ e, (poll after limit sample rest s).1 = .error e ∧
      ((∃ n, e = Failure.resync n) ∨
        ∃ k, (refreshAll ((sample :: rest).take k) ⟨drain after s.observer, s.notes⟩).1 =
          .error e) := by
  have hspec := poll_spec after limit sample rest s
  generalize poll after limit sample rest s = result at hspec pending
  cases hspec with
  | unsubscribed e h =>
    rw [(inv.idle h).2] at pending
    simp at pending
  | outside h => exact ⟨_, rfl, .inl ⟨_, rfl⟩⟩
  | stopped e s' h =>
    have hwait := pollWait_spec after sample rest ⟨drain after s.observer, s.notes⟩
    rw [h] at hwait
    exact ⟨e, rfl, hwait.error⟩
  | paged s' subscribed retained reached h =>
    have hwait := pollWait_spec after sample rest ⟨drain after s.observer, s.notes⟩
    rw [h] at hwait
    cases hwait with
    | done u hr =>
      rw [hr] at pending
      simp at pending

/-- The ideal log of a subscription only grows while polls are made. -/
theorem Run.LogInv.idealLog_poll {r : Run} (inv : r.LogInv) (after limit : Nat)
    (sample : Sample) (rest : List Sample) :
    r.idealLog <+: (r.step (.poll after limit sample rest)).idealLog := by
  obtain ⟨-, hlater, hkinds⟩ := inv.poll after limit sample rest
  obtain ⟨-, added, hnotes, -⟩ := hlater.forward
  unfold Run.idealLog logSince
  rw [hkinds, hnotes]
  change _ <+: List.filter _ (journal ((r.state.notes ++ added).drop r.subscribedAt))
  rw [List.drop_append_of_le_length (Nat.le_trans inv.marks.1 inv.marks.2), journal_append,
    List.filter_append]
  exact List.prefix_append _ _

/-- Event-log exactness. After any run, for a poll with any cursor and any clock:
    a page is the first part of the ideal log after the cursor, and no event of the ideal log up to
    the returned cursor is missing from it, then or ever after; the same poll made again extends the
    page; once an event met a full queue the poll fails; and a page holds nothing from before the
    call that ended an overflow. -/
theorem eventLog_exact (c : Connection) (ops : List Op) (after limit : Nat) (sample : Sample)
    (rest : List Sample) (one : 1 ≤ limit) :
    (∀ batch, (c.run ops).reply (.poll after limit sample rest) = .events (.ok batch) →
      batch.events.asSlice = (since EventEnvelope.sequence after
        (c.run (ops ++ [.poll after limit sample rest])).idealLog).take limit ∧
      (∀ more, ∀ e ∈ (c.run (ops ++ [.poll after limit sample rest] ++ more)).idealLog,
        after < e.sequence → e.sequence ≤ batch.cursor → e ∈ batch.events.asSlice) ∧
      (∀ sample' rest' batch',
        (c.run (ops ++ [.poll after limit sample rest])).reply
            (.poll after limit sample' rest') = .events (.ok batch') →
          batch.events.asSlice <+: batch'.events.asSlice) ∧
      (∀ before op more, ops = before ++ [op] ++ more → (c.run before).SettledBy op →
        ∀ e ∈ batch.events.asSlice,
          (c.run (before ++ [op])).state.observer.sequence < e.sequence)) ∧
    ((c.run (ops ++ [.poll after limit sample rest])).Overflowed →
      ∃ e, (c.run ops).reply (.poll after limit sample rest) = .events (.error e) ∧
        ((∃ n, e = Failure.resync n) ∨
          ∃ k, (refreshAll ((sample :: rest).take k)
            ⟨drain after (c.run ops).state.observer, (c.run ops).state.notes⟩).1 = .error e)) := by
  have inv := c.run_logInv ops
  have hsnoc := c.run_snoc ops (.poll after limit sample rest)
  refine ⟨fun batch hreply => ?_, fun hover => ?_⟩
  · have hpoll := Run.poll_ok hreply
    obtain ⟨hpage, -, -, hretained, -⟩ := inv.poll_page hpoll
    rw [hsnoc]
    refine ⟨hpage, ?_, ?_, ?_⟩
    · intro more e he hafter hle
      obtain ⟨hinv', -, -⟩ := inv.poll after limit sample rest
      obtain ⟨hcursor, hall⟩ := inv.poll_cursor hinv' one hpoll
      have hlater := c.run_later (ops ++ [.poll after limit sample rest]) more
      rw [hsnoc] at hlater
      exact hall e (hlater.mem_idealLog hinv' he (Nat.le_trans hle hcursor)) hafter hle
    · intro sample' rest' batch' hreply'
      obtain ⟨hinv', -, -⟩ := inv.poll after limit sample rest
      obtain ⟨hpage', -⟩ := hinv'.poll_page (Run.poll_ok hreply')
      rw [hpage, hpage']
      exact List.prefix_take_iff.mpr ⟨(List.take_prefix _ _).trans
        (since_extends (hinv'.idealLog_poll after limit sample' rest')), List.length_take_le _ _⟩
    · rintro before op more rfl hsettled e he
      have hpoint := hsettled.retained (c.run_logInv before)
      rw [← c.run_snoc] at hpoint
      have hlater := c.run_later (before ++ [op]) more
      rw [hpage] at he
      have hafter := (mem_since.mp (List.mem_of_mem_take he)).2
      have hret := hlater.retained
      omega
  · rw [hsnoc] at hover
    obtain ⟨hinv', -, -⟩ := inv.poll after limit sample rest
    have hpending := hinv'.pending.mpr hover
    obtain ⟨e, he, hcause⟩ := poll_pending inv hpending
    exact ⟨e, by simp only [Run.reply, Op.exec, he], hcause⟩

/-- A run in which a window appears between a subscription and a poll. -/
theorem eventLog_exact_appearance :
    ∃ batch, (plainConnection.run [.subscribe [] (plainSample 0 [] 0)]).reply
        (.poll 0 1 (plainSample 0 [⟨10, 0, 5⟩] 10) []) = .events (.ok batch) ∧
      batch.events.asSlice = (since EventEnvelope.sequence 0 (plainConnection.run
        [.subscribe [] (plainSample 0 [] 0),
          .poll 0 1 (plainSample 0 [⟨10, 0, 5⟩] 10) []]).idealLog).take 1 ∧
      batch.events.asSlice.length = 1 := by
  have hreply : ∃ batch, (plainConnection.run [.subscribe [] (plainSample 0 [] 0)]).reply
      (.poll 0 1 (plainSample 0 [⟨10, 0, 5⟩] 10) []) = .events (.ok batch) ∧
      batch.events.asSlice.length = 1 := ⟨_, rfl, by decide⟩
  obtain ⟨batch, h, hlen⟩ := hreply
  have hexact := eventLog_exact plainConnection [.subscribe [] (plainSample 0 [] 0)] 0 1
    (plainSample 0 [⟨10, 0, 5⟩] 10) [] (by decide)
  exact ⟨batch, h, (hexact.1 batch h).1, hlen⟩

end AgentSeat.X11
