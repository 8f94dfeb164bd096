/-
  The operator's seat gate (`seat.rs`) under any number of threads.

  The gate is one atomic 64-bit word. Each load, store and compare-exchange is one step; between
  two of them a thread only computes on its own copies, so a thread is described by the atomic
  operation it is about to make and the copies that operation uses (`Pc`). A run is any sequence of
  moves: a thread starts a call, or makes its next atomic step.

  Main result:
  * `gate_revokes_for_ever`: the word never decreases, permits are issued only while the gate is
    enabled, a permit that was refused once is refused ever after, a transition that reports success
    took effect at one of its own steps, disabling never fails, and nothing is issued after the
    terminal state.
-/
import AgentSeat.Proto.Message

namespace AgentSeat.Seat

open AgentSeat.Proto

def disabledTerminal : Nat := u64Max

def isEnabled (raw : Nat) : Bool := raw ≠ disabledTerminal ∧ raw % 2 = 1

structure SeatPermit where
  raw : Nat
  deriving DecidableEq

structure SeatStatus where
  enabled : Bool
  generation : Nat
  deriving DecidableEq

def SeatStatus.fromRaw (raw : Nat) : SeatStatus := ⟨isEnabled raw, raw / 2⟩

/-- `accepts` against the word it loads. -/
def accepts (raw : Nat) (permit : SeatPermit) : Bool := raw = permit.raw ∧ isEnabled permit.raw

/-- `permit` from the word it loads. -/
def permitOf (raw : Nat) : Option SeatPermit := if isEnabled raw then some ⟨raw⟩ else none

/-! ## Threads -/

inductive Call where
  | permit
  | accepts (permit : SeatPermit)
  | status
  | setEnabled (enabled : Bool)
  deriving DecidableEq

inductive Reply where
  | permit (result : Option SeatPermit)
  | accepts (permit : SeatPermit) (result : Bool)
  | status (result : SeatStatus)
  | setEnabled (enabled : Bool) (result : Except String SeatStatus)

/-- The atomic operation a thread is about to make. -/
inductive Pc where
  | idle
  | load (call : Call)
  | store (enabled : Bool) (result : Except String SeatStatus)
  | exchange (enabled : Bool) (current next : Nat)

def exhausted : String := "seat transition space is exhausted; restart the provider"

/-- The body of the loop of `set_enabled` up to its next atomic operation, for the copy `current`
    of the word. -/
def attempt (enabled : Bool) (current : Nat) : Pc × Option Reply :=
  if (SeatStatus.fromRaw current).enabled = enabled then
    (.idle, some (.setEnabled enabled (.ok (SeatStatus.fromRaw current))))
  else
    match checkedSucc current with
    | none =>
      (.store enabled (if enabled then .error exhausted
        else .ok (SeatStatus.fromRaw disabledTerminal)), none)
    | some next =>
      if next = disabledTerminal then (.store enabled (.error exhausted), none)
      else (.exchange enabled current next, none)

/-- One atomic operation on the word: the word after it, where the thread stands then, and the
    reply if the call returned. -/
def operate (raw : Nat) : Pc → Nat × Pc × Option Reply
  | .idle => (raw, .idle, none)
  | .load .permit => (raw, .idle, some (.permit (permitOf raw)))
  | .load (.accepts permit) => (raw, .idle, some (.accepts permit (accepts raw permit)))
  | .load .status => (raw, .idle, some (.status (SeatStatus.fromRaw raw)))
  | .load (.setEnabled enabled) => (raw, attempt enabled raw)
  | .store enabled result => (disabledTerminal, .idle, some (.setEnabled enabled result))
  | .exchange enabled current next =>
    if raw = current then
      (next, .idle, some (.setEnabled enabled (.ok (SeatStatus.fromRaw next))))
    else (raw, attempt enabled raw)

/-! ## Runs -/

section Runs

variable {ι : Type} [DecidableEq ι]

structure System (ι : Type) where
  raw : Nat
  pc : ι → Pc

/-- A thread starts a call, or makes its next atomic step. -/
inductive Move (ι : Type) where
  | invoke (thread : ι) (call : Call)
  | act (thread : ι)

/-- What one move did: the word before and after it, and the reply if a call returned. -/
structure Event (ι : Type) where
  thread : ι
  before : Nat
  after : Nat
  reply : Option Reply

def System.set (s : System ι) (raw : Nat) (thread : ι) (pc : Pc) : System ι :=
  ⟨raw, fun t => if t = thread then pc else s.pc t⟩

def System.step (s : System ι) : Move ι → System ι × Event ι
  | .invoke thread call =>
    match s.pc thread with
    | .idle => (s.set s.raw thread (.load call), ⟨thread, s.raw, s.raw, none⟩)
    | _ => (s, ⟨thread, s.raw, s.raw, none⟩)
  | .act thread =>
    (s.set (operate s.raw (s.pc thread)).1 thread (operate s.raw (s.pc thread)).2.1,
      ⟨thread, s.raw, (operate s.raw (s.pc thread)).1, (operate s.raw (s.pc thread)).2.2⟩)

/-- The state a run ends in and everything that happened on the way. -/
def System.run (s : System ι) : List (Move ι) → System ι × List (Event ι)
  | [] => (s, [])
  | move :: rest =>
    (((s.step move).1.run rest).1, (s.step move).2 :: ((s.step move).1.run rest).2)

/-- A gate that no thread is using. -/
def System.atRest (raw : Nat) : System ι := ⟨raw, fun _ => .idle⟩

/-- `SeatGate::new`. -/
def System.new : System ι := System.atRest 0

end Runs

/-! ## One step -/

theorem isEnabled_iff {raw : Nat} : isEnabled raw = true ↔ raw ≠ disabledTerminal ∧ raw % 2 = 1 := by
  simp [isEnabled]

theorem isEnabled_terminal : isEnabled disabledTerminal = false := by decide

/-- The successor that a compare-exchange writes has the flag that was asked for. -/
theorem isEnabled_succ {enabled : Bool} {current : Nat} (h : isEnabled current ≠ enabled)
    (room : current + 1 ≠ disabledTerminal) (lt : current < u64Max) :
    isEnabled (current + 1) = enabled := by
  have hcur : current ≠ disabledTerminal := by
    unfold disabledTerminal
    omega
  cases enabled with
  | true =>
    rw [Ne, isEnabled_iff] at h
    rw [isEnabled_iff]
    exact ⟨room, by omega⟩
  | false =>
    rw [Ne, Bool.not_eq_false, isEnabled_iff] at h
    rw [← Bool.not_eq_true, isEnabled_iff]
    omega

/-- A disabling never runs into the terminal value: the values it starts from are odd. -/
theorem enabled_succ_ne_terminal {current : Nat} (h : isEnabled current = true) :
    current + 1 ≠ disabledTerminal := by
  rw [isEnabled_iff] at h
  unfold disabledTerminal u64Max
  omega

/-- What a thread's copies are worth. -/
def Pc.Sound (raw : Nat) : Pc → Prop
  | .idle | .load _ => True
  | .store enabled result => enabled = true ∧ result = .error exhausted
  | .exchange enabled current next =>
    next = current + 1 ∧ current < u64Max ∧ next ≠ disabledTerminal ∧
      isEnabled current ≠ enabled ∧ current ≤ raw

/-- What a reply says about the word around the step that gave it. -/
def Reply.Sound (before after : Nat) : Reply → Prop
  | .permit result => after = before ∧ result = permitOf before
  | .accepts p result => after = before ∧ result = Seat.accepts before p
  | .status result => after = before ∧ result = SeatStatus.fromRaw before
  | .setEnabled enabled result =>
    (∀ status, result = .ok status → status = SeatStatus.fromRaw after ∧ isEnabled after = enabled) ∧
      (enabled = false → ∃ status, result = .ok status)

theorem attempt_sound (enabled : Bool) {raw : Nat} (h : raw ≤ u64Max) :
    (attempt enabled raw).1.Sound raw ∧
      ∀ reply, (attempt enabled raw).2 = some reply → reply.Sound raw raw := by
  unfold attempt
  by_cases same : (SeatStatus.fromRaw raw).enabled = enabled
  · rw [if_pos same]
    refine ⟨trivial, fun reply hr => ?_⟩
    rw [Option.some.injEq] at hr
    subst hr
    refine ⟨fun status hs => ?_, fun _ => ⟨_, rfl⟩⟩
    rw [Except.ok.injEq] at hs
    exact ⟨hs.symm, same⟩
  · rw [if_neg same]
    replace same : isEnabled raw ≠ enabled := same
    cases hnext : checkedSucc raw with
    | none =>
      -- only the terminal value has no successor, and disabling returns there at once
      refine ⟨?_, by simp⟩
      have hfull : ¬ raw < u64Max := by
        intro hlt
        simp [checkedSucc, hlt] at hnext
      have hterm : raw = disabledTerminal := by
        unfold disabledTerminal
        omega
      rw [hterm, isEnabled_terminal] at same
      cases enabled with
      | true => exact ⟨rfl, rfl⟩
      | false => exact absurd rfl same
    | some next =>
      obtain ⟨hlt, rfl⟩ := checkedSucc_eq_some.mp hnext
      dsimp only
      split
      · next hterm =>
        refine ⟨?_, by simp⟩
        cases enabled with
        | true => exact ⟨rfl, rfl⟩
        | false =>
          rw [Ne, Bool.not_eq_false] at same
          exact absurd hterm (enabled_succ_ne_terminal same)
      · next hterm => exact ⟨⟨rfl, hlt, hterm, same, Nat.le_refl _⟩, by simp⟩

theorem operate_sound {raw : Nat} {pc : Pc} (bound : raw ≤ u64Max) (h : pc.Sound raw) :
    raw ≤ (operate raw pc).1 ∧ (operate raw pc).1 ≤ u64Max ∧
      (operate raw pc).2.1.Sound (operate raw pc).1 ∧
      ∀ reply, (operate raw pc).2.2 = some reply → reply.Sound raw (operate raw pc).1 := by
  cases pc with
  | idle => exact ⟨Nat.le_refl _, bound, trivial, by simp [operate]⟩
  | load call =>
    cases call with
    | permit | accepts permit | status =>
      refine ⟨Nat.le_refl _, bound, trivial, fun reply hr => ?_⟩
      simp only [operate, Option.some.injEq] at hr
      subst hr
      exact ⟨rfl, rfl⟩
    | setEnabled enabled =>
      obtain ⟨hpc, hreply⟩ := attempt_sound enabled bound
      exact ⟨Nat.le_refl _, bound, hpc, hreply⟩
  | store enabled result =>
    obtain ⟨rfl, rfl⟩ := h
    refine ⟨bound, Nat.le_refl _, trivial, fun reply hr => ?_⟩
    simp only [operate, Option.some.injEq] at hr
    subst hr
    exact ⟨by simp, by simp⟩
  | exchange enabled current next =>
    obtain ⟨rfl, hlt, hterm, hflag, hle⟩ := h
    by_cases hit : raw = current
    · subst hit
      simp only [operate, if_true]
      refine ⟨Nat.le_succ _, hlt, trivial, fun reply hr => ?_⟩
      rw [Option.some.injEq] at hr
      subst hr
      refine ⟨fun status hs => ?_, fun _ => ⟨_, rfl⟩⟩
      rw [Except.ok.injEq] at hs
      exact ⟨hs.symm, isEnabled_succ hflag hterm hlt⟩
    · simp only [operate, if_neg hit]
      obtain ⟨hpc, hreply⟩ := attempt_sound enabled bound
      exact ⟨Nat.le_refl _, bound, hpc, hreply⟩

/-! ## Every run -/

section Runs

variable {ι : Type} [DecidableEq ι]

structure System.Inv (s : System ι) : Prop where
  bound : s.raw ≤ u64Max
  sound : ∀ t, (s.pc t).Sound s.raw

/-- A move of the word and the reply that came with it. -/
structure Event.Sound (e : Event ι) : Prop where
  mono : e.before ≤ e.after
  bound : e.after ≤ u64Max
  reply : ∀ reply, e.reply = some reply → reply.Sound e.before e.after

/-- A thread's copies stay sound when others move the word on. -/
theorem Pc.Sound.mono {pc : Pc} {raw raw' : Nat} (h : pc.Sound raw) (hle : raw ≤ raw') :
    pc.Sound raw' := by
  cases pc with
  | idle | load call | store enabled result => exact h
  | exchange enabled current next =>
    obtain ⟨hn, hlt, hterm, hflag, hcur⟩ := h
    exact ⟨hn, hlt, hterm, hflag, Nat.le_trans hcur hle⟩

theorem System.Inv.set {s : System ι} (inv : s.Inv) {raw : Nat} {thread : ι} {pc : Pc}
    (hle : s.raw ≤ raw) (bound : raw ≤ u64Max) (h : pc.Sound raw) :
    (s.set raw thread pc).Inv := by
  refine ⟨bound, fun t => ?_⟩
  simp only [System.set]
  split
  · exact h
  · exact (inv.sound t).mono hle

theorem System.step_sound {s : System ι} (inv : s.Inv) (move : Move ι) :
    (s.step move).1.Inv ∧ (s.step move).2.Sound ∧ (s.step move).2.before = s.raw ∧
      (s.step move).2.after = (s.step move).1.raw := by
  cases move with
  | invoke thread call =>
    cases hpc : s.pc thread with
    | idle =>
      have hload : (Pc.load call).Sound s.raw := trivial
      simp only [System.step, hpc]
      exact ⟨inv.set (Nat.le_refl _) inv.bound hload, ⟨Nat.le_refl _, inv.bound, by simp⟩,
        trivial, rfl⟩
    | load _ | store _ _ | exchange _ _ _ =>
      simp only [System.step, hpc]
      exact ⟨inv, ⟨Nat.le_refl _, inv.bound, by simp⟩, trivial, trivial⟩
  | act thread =>
    obtain ⟨hle, hbound, hpc, hreply⟩ := operate_sound inv.bound (inv.sound thread)
    exact ⟨inv.set hle hbound hpc, ⟨hle, hbound, hreply⟩, rfl, rfl⟩

theorem System.run_inv {s : System ι} (inv : s.Inv) (moves : List (Move ι)) :
    (s.run moves).1.Inv ∧ s.raw ≤ (s.run moves).1.raw := by
  induction moves generalizing s with
  | nil => exact ⟨inv, Nat.le_refl _⟩
  | cons move rest ih =>
    obtain ⟨hinv, hsound, hbefore, hafter⟩ := System.step_sound inv move
    obtain ⟨hrest, hle⟩ := ih hinv
    have hmono := hsound.mono
    rw [hbefore, hafter] at hmono
    exact ⟨hrest, Nat.le_trans hmono hle⟩

theorem System.run_append (s : System ι) (moves more : List (Move ι)) :
    (s.run (moves ++ more)).1 = ((s.run moves).1.run more).1 := by
  induction moves generalizing s with
  | nil => rfl
  | cons move rest ih => exact ih _

/-- Events are sound, and the word between them only grows. -/
theorem System.run_sound {s : System ι} (inv : s.Inv) (moves : List (Move ι)) :
    (∀ e ∈ (s.run moves).2, e.Sound ∧ s.raw ≤ e.before) ∧
      (s.run moves).2.Pairwise fun e e' => e.after ≤ e'.before := by
  induction moves generalizing s with
  | nil => simp [System.run]
  | cons move rest ih =>
    obtain ⟨hinv, hsound, hbefore, hafter⟩ := System.step_sound inv move
    obtain ⟨hall, hpair⟩ := ih hinv
    have hmono := hsound.mono
    rw [hbefore, hafter] at hmono
    simp only [System.run, List.mem_cons, List.pairwise_cons]
    refine ⟨?_, fun e he => ?_, hpair⟩
    · rintro e (rfl | he)
      · exact ⟨hsound, Nat.le_of_eq hbefore.symm⟩
      · exact ⟨(hall e he).1, Nat.le_trans hmono (hall e he).2⟩
    · rw [hafter]
      exact (hall e he).2

omit [DecidableEq ι] in
theorem System.atRest_inv {raw : Nat} (h : raw ≤ u64Max) : (System.atRest raw : System ι).Inv :=
  ⟨h, fun _ => trivial⟩

/-- The gate, from any word at rest, under any interleaving of any threads:
    the word never decreases along the run; a permit is issued only at an enabled word, and is that
    word; once an issued permit was refused it is refused at every later check; a `set_enabled` that
    returns a status did so at a step of its own after which the gate has that status and the flag
    that was asked for; disabling never returns an error; and once the word is terminal no permit is
    issued. -/
theorem gate_revokes_for_ever (raw : Nat) (bound : raw ≤ u64Max) (moves : List (Move ι)) :
    (∀ e ∈ ((System.atRest raw).run moves).2, raw ≤ e.before ∧ e.before ≤ e.after) ∧
    (((System.atRest raw).run moves).2.Pairwise fun e e' => e.after ≤ e'.before) ∧
    (∀ e ∈ ((System.atRest raw).run moves).2, ∀ p, e.reply = some (.permit (some p)) →
      isEnabled e.before = true ∧ e.after = e.before ∧ p.raw = e.before) ∧
    (∀ issue check later p again, [issue, check, later].Sublist ((System.atRest raw).run moves).2 →
      issue.reply = some (.permit (some p)) → check.reply = some (.accepts p false) →
      later.reply = some (.accepts p again) → again = false) ∧
    (∀ e ∈ ((System.atRest raw).run moves).2, ∀ enabled status,
      e.reply = some (.setEnabled enabled (.ok status)) →
        status = SeatStatus.fromRaw e.after ∧ isEnabled e.after = enabled) ∧
    (∀ e ∈ ((System.atRest raw).run moves).2, ∀ error,
      e.reply ≠ some (.setEnabled false (.error error))) ∧
    (∀ e e', [e, e'].Sublist ((System.atRest raw).run moves).2 → e.after = disabledTerminal →
      ∀ p, e'.reply ≠ some (.permit (some p))) := by
  obtain ⟨hall, hpair⟩ := System.run_sound (System.atRest_inv (ι := ι) bound) moves
  have issued (e : Event ι) (he : e ∈ ((System.atRest raw).run moves).2) (p : SeatPermit)
      (hr : e.reply = some (.permit (some p))) :
      isEnabled e.before = true ∧ e.after = e.before ∧ p.raw = e.before := by
    obtain ⟨hafter, hp⟩ := (hall e he).1.reply _ hr
    unfold permitOf at hp
    split at hp
    · next hen =>
      rw [Option.some.injEq] at hp
      exact ⟨hen, hafter, by rw [hp]⟩
    · simp at hp
  refine ⟨fun e he => ⟨(hall e he).2, (hall e he).1.mono⟩, hpair, issued, ?_, ?_, ?_, ?_⟩
  · intro issue check later p again hsub hissue hcheck hlater
    have hmem {e : Event ι} (he : e ∈ [issue, check, later]) := hsub.subset he
    have horder := hpair.sublist hsub
    simp only [List.pairwise_cons, List.mem_cons, forall_eq_or_imp] at horder
    obtain ⟨hen, hstay, hp⟩ := issued issue (hmem (by simp)) p hissue
    obtain ⟨hstay', hrefused⟩ := (hall check (hmem (by simp))).1.reply _ hcheck
    obtain ⟨-, hagain⟩ := (hall later (hmem (by simp))).1.reply _ hlater
    rw [← hp] at hen
    -- the refusal shows that the word has left the permit behind
    have hpast : p.raw < check.before := by
      have hne : check.before ≠ p.raw := by
        intro heq
        simp [accepts, heq, hen] at hrefused
      have := horder.1.1
      omega
    have hlt : p.raw < later.before := by
      have := horder.2.1.1
      omega
    rw [hagain]
    simp only [accepts, decide_eq_false_iff_not]
    omega
  · intro e he enabled status hr
    exact ((hall e he).1.reply _ hr).1 status rfl
  · intro e he error hr
    obtain ⟨status, hs⟩ := ((hall e he).1.reply _ hr).2 rfl
    simp at hs
  · intro e e' hsub hterm p hr
    have he' : e' ∈ ((System.atRest raw).run moves).2 := hsub.subset (by simp)
    have horder := hpair.sublist hsub
    simp only [List.pairwise_cons, List.mem_singleton, forall_eq] at horder
    obtain ⟨hen, -, -⟩ := issued e' he' p hr
    obtain ⟨hmono, hbound, -⟩ := (hall e' he').1
    rw [isEnabled_iff] at hen
    unfold disabledTerminal at hterm hen
    omega

/-- Two threads: one opens the gate, takes a permit and checks it again after the other closed and
    reopened the gate. -/
theorem gate_revokes_for_ever_reopened :
    ((System.atRest 0 : System Bool).run [.invoke true (.setEnabled true), .act true, .act true,
      .invoke true .permit, .act true, .invoke false (.setEnabled false), .act false, .act false,
      .invoke false (.setEnabled true), .act false, .act false,
      .invoke true (.accepts ⟨1⟩), .act true]).1.raw = 3 ∧
    ∀ e ∈ ((System.atRest 0 : System Bool).run [.invoke true (.setEnabled true), .act true,
      .act true, .invoke true .permit, .act true, .invoke false (.setEnabled false), .act false,
      .act false, .invoke false (.setEnabled true), .act false, .act false,
      .invoke true (.accepts ⟨1⟩), .act true]).2, 0 ≤ e.before ∧ e.before ≤ e.after :=
  ⟨by decide, (gate_revokes_for_ever 0 (by decide) _).1⟩

end Runs

end AgentSeat.Seat
