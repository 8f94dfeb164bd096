/-
  What a policy replacement leaves behind when nobody else writes.

  Any of the file-system steps may fail, several of them in one call. A call ends in one of four ways:
  target and recovery file are as they were; the candidate is on the target and the expected policy is
  the recovery policy; the candidate is on the target, the expected policy stays at the staging path,
  and the error names that path; or so without naming it, when the look of a rollback fails. Only the
  last one is not what a caller is promised.

  Main result:
  * `policy_kept_iff`: a call keeps the expected policy as promised exactly if the look of a rollback
    does not fail, or the recovery file was the expected policy from the start.
-/
import AgentSeat.Policy.Edits

namespace AgentSeat.Policy

open AgentSeat.Lib

/-- Nobody else writes to the directory. -/
def Alone (env : Surroundings) : Prop :=
  ∀ trace step held, Moment.saves (env trace (.moment step held)) = []

/-! ## The failing look -/

/-- The look of a rollback failed with this error. -/
def LookFailed (trace : List Step) (error : String) : Prop :=
  ∃ held m, .said (.moment .inspectReplacement held) m ∈ trace ∧ Moment.fault m = some error

/-- No look of a rollback failed. -/
def noLook : String → Prop := fun _ => False

theorem lookFailed_nil : LookFailed [] = noLook := by
  funext error
  simp [LookFailed, noLook]

theorem lookFailed_append {trace more : List Step} :
    LookFailed (trace ++ more) = fun e => LookFailed trace e ∨ LookFailed more e := by
  funext error
  apply propext
  constructor
  · rintro ⟨held, m, hm, hfault⟩
    rcases List.mem_append.mp hm with hm | hm
    · exact .inl ⟨held, m, hm, hfault⟩
    · exact .inr ⟨held, m, hm, hfault⟩
  · rintro (⟨held, m, hm, hfault⟩ | ⟨held, m, hm, hfault⟩)
    · exact ⟨held, m, List.mem_append_left _ hm, hfault⟩
    · exact ⟨held, m, List.mem_append_right _ hm, hfault⟩

theorem lookFailed_append_quiet {trace more : List Step} (h : LookFailed trace = noLook) :
    LookFailed (trace ++ more) = LookFailed more := by
  rw [lookFailed_append, h]
  funext error
  simp [noLook]

theorem lookFailed_append_of_quiet {trace more : List Step} (h : LookFailed more = noLook) :
    LookFailed (trace ++ more) = LookFailed trace := by
  rw [lookFailed_append, h]
  funext error
  simp [noLook]

/-- What a program returns from a disk, which looks of it failed, and the disk it leaves. -/
def Leaves {α : Type} (d : Disk) (m : RM α) (F : Except String α → (String → Prop) → Disk → Prop) :
    Prop :=
  Does d m fun r added d' => F r (LookFailed added) d'

namespace Leaves

variable {α β : Type} {d : Disk} {F K : Except String α → (String → Prop) → Disk → Prop}
  {G : Except String β → (String → Prop) → Disk → Prop}

theorem post {m : RM α} (h : Leaves d m F) (hF : ∀ r failed d', F r failed d' → K r failed d') :
    Leaves d m K :=
  Does.post h fun _ _ _ => hF _ _ _

theorem lift {r : Except String α} (h : F r noLook d) : Leaves d (Prog.lift r) F :=
  Does.lift (lookFailed_nil ▸ h)

theorem pure {a : α} (h : F (.ok a) noLook d) : Leaves d (Pure.pure a : RM α) F := lift h

theorem fail {e : String} (h : F (.error e) noLook d) : Leaves d (Prog.fail e : RM α) F := lift h

theorem onDisk {f : Disk → Disk} {F : Except String Unit → (String → Prop) → Disk → Prop}
    (h : F (.ok ()) noLook (f d)) : Leaves d (Policy.onDisk f) F :=
  Does.update (lookFailed_nil ▸ h)

/-- A first part that succeeds has no failed look. -/
theorem bind {m : RM α} {f : α → RM β} (hm : Leaves d m F)
    (hf : ∀ a failed d', F (.ok a) failed d' → failed = noLook ∧ Leaves d' (f a) G)
    (herr : ∀ e failed d', F (.error e) failed d' → G (.error e) failed d') :
    Leaves d (m >>= f) G := by
  refine Does.bind hm (fun a added d' hF => ?_) fun e added d' hF => herr e _ d' hF
  obtain ⟨hquiet, hrest⟩ := hf a _ d' hF
  refine Does.post hrest fun r more d'' hG => ?_
  rw [lookFailed_append_quiet hquiet]
  exact hG

theorem read_bind {γ : Type} {g : Disk → γ} {f : γ → RM β} (h : Leaves d (f (g d)) G) :
    Leaves d ((Prog.read fun w => g w.state) >>= f) G := h

theorem onDisk_bind {g : Disk → Disk} {f : Unit → RM β} (h : Leaves (g d) (f ()) G) :
    Leaves d (Policy.onDisk g >>= f) G := h

/-- A program whose failure the caller inspects. -/
theorem attempt_bind {m : RM α} {f : Except String α → RM β} (hm : Leaves d m F)
    (hf : ∀ r failed d', F r failed d' → Leaves d' (f r) fun r' failed' d'' =>
      G r' (fun e => failed e ∨ failed' e) d'') : Leaves d (Prog.attempt m >>= f) G := by
  have hattempt : Does d (Prog.attempt m : RM (Except String α)) fun r added d' =>
      ∃ r₀, r = .ok r₀ ∧ F r₀ (LookFailed added) d' :=
    Does.attempt hm fun r added d' h => ⟨r, rfl, h⟩
  refine Does.bind hattempt (fun r added d' h => ?_) fun e added d' h => by simp at h
  obtain ⟨r₀, heq, hF⟩ := h
  obtain rfl := Except.ok.inj heq
  refine Does.post (hf r _ d' hF) fun r' more d'' hG => ?_
  rw [lookFailed_append]
  exact hG

/-- The caller inspects a failure with which no look failed. -/
theorem attempt_bind_quiet {m : RM α} {f : Except String α → RM β} (hm : Leaves d m F)
    (hf : ∀ r failed d', F r failed d' → failed = noLook ∧ Leaves d' (f r) G) :
    Leaves d (Prog.attempt m >>= f) G := by
  refine attempt_bind hm fun r failed d' hF => ?_
  obtain ⟨hquiet, hrest⟩ := hf r failed d' hF
  refine hrest.post fun r' failed' d'' hG => ?_
  have hsame : (fun e => failed e ∨ failed' e) = failed' := by
    funext e
    simp [hquiet, noLook]
  rw [hsame]
  exact hG

end Leaves

/-! ## Steps without editors -/

/-- A step that leaves the disk alone and is not a failing look, with what its result says. -/
def Stays {α : Type} (d : Disk) (m : RM α) (P : Except String α → Prop) : Prop :=
  Leaves d m fun r failed d' => d' = d ∧ failed = noLook ∧ P r

theorem Stays.bind {α β : Type} {d : Disk} {m : RM α} {f : α → RM β}
    {P : Except String α → Prop} {G : Except String β → (String → Prop) → Disk → Prop}
    (hm : Stays d m P) (hf : ∀ a, P (.ok a) → Leaves d (f a) G)
    (herr : ∀ e, P (.error e) → G (.error e) noLook d) : Leaves d (m >>= f) G := by
  refine Leaves.bind hm (fun a failed d' h => ?_) fun e failed d' h => ?_
  · obtain ⟨rfl, hquiet, hP⟩ := h
    exact ⟨hquiet, hf a hP⟩
  · obtain ⟨rfl, rfl, hP⟩ := h
    exact herr e hP

/-- A step that happens as a whole or not at all. -/
def Moves (d : Disk) (m : RM Unit) (f : Disk → Disk) : Prop :=
  Leaves d m fun r failed d' =>
    failed = noLook ∧ ((r = .ok () ∧ d' = f d) ∨ ∃ e, r = .error e ∧ d' = d)

/-- A slot holds the file of a snapshot. -/
def Holds (slot : Option Placed) (snap : PolicySnapshot) : Prop :=
  ∃ p, slot = some p ∧ p.file.inode = snap.inode ∧ p.file.text = some snap.source

/-- The two files that a caller knows of. -/
structure Untouched (before after : Disk) : Prop where
  target : after.target = before.target
  backup : after.backup = before.backup

theorem Untouched.refl (d : Disk) : Untouched d d := ⟨rfl, rfl⟩

theorem Untouched.trans {d d' d'' : Disk} (h : Untouched d d') (h' : Untouched d' d'') :
    Untouched d d'' :=
  ⟨h'.target.trans h.target, h'.backup.trans h.backup⟩

section Steps

variable {env : Surroundings} (alone : Alone env) {d : Disk}

/-- A question other than the look of a rollback. -/
theorem ask_stays {q : Question} (h : ∀ held, q ≠ .moment .inspectReplacement held) :
    Leaves d (Dialogue.ask env q) fun _ failed d' => d' = d ∧ failed = noLook := by
  refine Does.ask fun answer => ⟨rfl, ?_⟩
  funext error
  simp only [LookFailed, noLook, eq_iff_iff, iff_false]
  rintro ⟨held, m, hm, -⟩
  have hsaid := List.mem_singleton.mp hm
  cases hsaid
  exact h held rfl

include alone

/-- A moment without editors. -/
theorem moment_alone (step : FsStep) : Does d (moment env step) fun r added d' =>
    d' = d ∧ ∃ m, added = [.said (.moment step d.held) m] ∧
      ((Moment.fault m = none ∧ r = .ok ()) ∨ ∃ e, Moment.fault m = some e ∧ r = .error e) := by
  intro trace
  refine ⟨[.said (.moment step d.held) (env trace (.moment step d.held))], ?_⟩
  rw [moment_run]
  dsimp only
  rw [alone trace step d.held]
  refine ⟨rfl, rfl, _, rfl, ?_⟩
  cases hfault : (env trace (.moment step d.held) : Moment d.held).fault with
  | none => exact .inl ⟨rfl, rfl⟩
  | some e => exact .inr ⟨e, rfl, rfl⟩

theorem moment_stays {step : FsStep} (h : step ≠ .inspectReplacement) :
    Stays d (moment env step) fun _ => True := by
  unfold Stays Leaves
  refine Does.post (moment_alone alone step) fun r added d' hrun => ?_
  obtain ⟨hd, m, hadded, -⟩ := hrun
  refine ⟨hd, ?_, trivial⟩
  rw [hadded]
  funext error
  simp only [LookFailed, noLook, eq_iff_iff, iff_false]
  rintro ⟨held, m', hm, -⟩
  have hsaid := List.mem_singleton.mp hm
  cases hsaid
  exact h rfl

/-- A look of a rollback fails with an error of the file system. -/
theorem moment_look_leaves : Leaves d (moment env .inspectReplacement) fun r failed d' =>
    d' = d ∧ ((r = .ok () ∧ failed = noLook) ∨ ∃ e, r = .error e ∧ failed = (· = e)) := by
  refine Does.post (moment_alone alone .inspectReplacement) fun r added d' hrun => ?_
  obtain ⟨hd, m, hadded, hr⟩ := hrun
  refine ⟨hd, ?_⟩
  have hlook (e : String) : LookFailed added e ↔ m.fault = some e := by
    rw [hadded]
    constructor
    · rintro ⟨held, m', hm, hfault⟩
      have hsaid := List.mem_singleton.mp hm
      cases hsaid
      exact hfault
    · exact fun hfault => ⟨_, m, List.mem_singleton_self _, hfault⟩
  rcases hr with ⟨hfault, hr⟩ | ⟨error, hfault, hr⟩
  · refine .inl ⟨hr, ?_⟩
    funext e
    simp [hlook, hfault, noLook]
  · refine .inr ⟨error, hr, ?_⟩
    funext e
    rw [propext (hlook e), hfault]
    simp [eq_comm]

theorem momentOr_stays {step : FsStep} (h : step ≠ .inspectReplacement)
    (failed : String → String) : Stays d (momentOr env step failed) fun _ => True := by
  refine Leaves.attempt_bind_quiet (moment_stays alone h) fun r failed d' hrun => ?_
  obtain ⟨rfl, hquiet, -⟩ := hrun
  exact ⟨hquiet, Leaves.lift ⟨rfl, rfl, trivial⟩⟩

theorem lookUp_stays {step : FsStep} (h : step ≠ .inspectReplacement)
    (slot : Disk → Option Placed) (failed : String → String) :
    Stays d (lookUp env step slot failed) fun r =>
      ∀ f, r = .ok f → ∃ p, slot d = some p ∧ p.file = f := by
  refine (momentOr_stays alone h failed).bind (fun _ _ => Leaves.read_bind ?_)
    fun e _ => ⟨rfl, rfl, fun f hf => by simp at hf⟩
  cases hslot : slot d with
  | some p =>
    refine Leaves.pure ⟨rfl, rfl, fun f hf => ⟨p, rfl, ?_⟩⟩
    exact Except.ok.inj hf
  | none => exact Leaves.fail ⟨rfl, rfl, fun f hf => by simp at hf⟩

theorem readPolicy_stays (uid : Nat) (validateSource : String → Except String Unit) (path : String)
    (slot : Disk → Option Placed) {inspect opened : FsStep} (hi : inspect ≠ .inspectReplacement)
    (ho : opened ≠ .inspectReplacement) :
    Stays d (readPolicy env uid validateSource path slot inspect opened) fun r =>
      ∀ snap, r = .ok snap → Holds (slot d) snap := by
  have hfailed (e : String) (snap : PolicySnapshot) (h : Except.error e = .ok snap) :
      Holds (slot d) snap := by simp at h
  refine (lookUp_stays alone hi slot _).bind (fun inspected _ => ?_)
    fun e _ => ⟨rfl, rfl, hfailed e⟩
  split
  · refine (lookUp_stays alone ho slot _).bind (fun file hfile => ?_)
      fun e _ => ⟨rfl, rfl, hfailed e⟩
    refine Leaves.lift ⟨rfl, rfl, fun snap hsnap => ?_⟩
    obtain ⟨p, hp, rfl⟩ := hfile file rfl
    obtain ⟨hinode, htext⟩ := checkFile_ok hsnap
    exact ⟨p, hp, hinode.symm, htext⟩
  · exact Leaves.fail ⟨rfl, rfl, hfailed _⟩

theorem checkRecoveryTarget_stays (uid : Nat) (path : String) :
    Stays d (checkRecoveryTarget env uid path) fun _ => True := by
  refine (momentOr_stays alone (by decide) _).bind (fun _ _ => Leaves.read_bind ?_)
    fun e _ => ⟨rfl, rfl, trivial⟩
  cases d.backup with
  | none => exact Leaves.pure ⟨rfl, rfl, trivial⟩
  | some placed =>
    dsimp only
    split
    · exact Leaves.fail ⟨rfl, rfl, trivial⟩
    · exact Leaves.pure ⟨rfl, rfl, trivial⟩

theorem exchange_moves {step : FsStep} (h : step ≠ .inspectReplacement)
    (left right : Disk → Option Placed) (swap : Disk → Disk) :
    Moves d (exchange env step left right swap) swap := by
  refine (moment_stays alone h).bind (fun _ _ => ?_) fun e _ => ⟨rfl, .inr ⟨e, rfl, rfl⟩⟩
  refine Leaves.read_bind (g := fun d => (left d).isSome && (right d).isSome) ?_
  split
  · exact Leaves.onDisk ⟨rfl, .inl ⟨rfl, rfl⟩⟩
  · exact Leaves.fail ⟨rfl, .inr ⟨_, rfl, rfl⟩⟩

theorem renameToBackup_moves {step : FsStep} (h : step ≠ .inspectReplacement) :
    Moves d (renameToBackup env step) swapBackup := by
  refine (moment_stays alone h).bind (fun _ _ => ?_) fun e _ => ⟨rfl, .inr ⟨e, rfl, rfl⟩⟩
  refine Leaves.read_bind (g := fun d => (d.staging, d.backup)) ?_
  dsimp only
  split
  · exact Leaves.fail ⟨rfl, .inr ⟨_, rfl, rfl⟩⟩
  · split
    · exact Leaves.fail ⟨rfl, .inr ⟨_, rfl, rfl⟩⟩
    · exact Leaves.onDisk ⟨rfl, .inl ⟨rfl, rfl⟩⟩

omit alone in
theorem unlink_leaves : Leaves d unlink fun _ failed d' => failed = noLook ∧ Untouched d d' := by
  intro trace
  unfold unlink Prog.update
  dsimp only
  cases d.staging with
  | none => exact ⟨[], (List.append_nil _).symm, lookFailed_nil, Untouched.refl d⟩
  | some placed =>
    refine ⟨[.mark (.removed placed)], rfl, ?_, ⟨rfl, rfl⟩⟩
    funext error
    simp [LookFailed, noLook]

theorem cleanup_leaves {step : FsStep} (h : step ≠ .inspectReplacement) :
    Leaves d (cleanup env step) fun r failed d' =>
      r = .ok () ∧ failed = noLook ∧ Untouched d d' := by
  have hinner : Leaves d (do
      moment env step
      unlink : RM Unit) fun _ failed d' => failed = noLook ∧ Untouched d d' :=
    (moment_stays alone h).bind (fun _ _ => unlink_leaves) fun _ _ => ⟨rfl, Untouched.refl d⟩
  refine Leaves.attempt_bind_quiet hinner fun r failed d' hrun => ?_
  exact ⟨hrun.1, Leaves.pure ⟨rfl, rfl, hrun.2⟩⟩

/-! ## Staging -/

/-- The slot holds the complete candidate, in the file that the call holds open. -/
def Candidate (temporary : TemporaryPolicy) (candidate : String) (slot : Option Placed) : Prop :=
  ∃ p, slot = some p ∧ p.file.regular = true ∧ p.file.inode = temporary.inode ∧
    p.file.text = some candidate

/-- The candidate waits at the staging path. -/
structure Prepared (temporary : TemporaryPolicy) (candidate : String) (before d : Disk) : Prop
    extends Untouched before d where
  staging : Candidate temporary candidate d.staging
  path : d.stagingPath = temporary.path

/-- A staging file was made, or nothing happened to the two files. -/
def Prepares (candidate : String) (before : Disk) (r : Except String TemporaryPolicy)
    (failed : String → Prop) (d : Disk) : Prop :=
  failed = noLook ∧ Untouched before d ∧
    ∀ temporary, r = .ok temporary → Prepared temporary candidate before d

omit alone in
theorem Prepares.error {candidate : String} {before d : Disk} (h : Untouched before d) (e : String) :
    Prepares candidate before (.error e) noLook d :=
  ⟨rfl, h, fun temporary hok => by simp at hok⟩

theorem fillStaged_prepares (uid : Nat) (candidate path : String) (inode : Inode) :
    Leaves (stage uid path inode d) (fillStaged env candidate path inode)
      (Prepares candidate d) := by
  have huntouched : Untouched d (stage uid path inode d) := ⟨rfl, rfl⟩
  refine (momentOr_stays alone (by decide) _).bind (fun _ _ => ?_)
    fun e _ => Prepares.error huntouched e
  refine Leaves.attempt_bind_quiet (moment_stays alone (by decide)) fun r failed d' hrun => ?_
  obtain ⟨rfl, hquiet, -⟩ := hrun
  refine ⟨hquiet, ?_⟩
  cases r with
  | ok u =>
    refine Leaves.onDisk_bind (Leaves.pure ⟨rfl, ⟨rfl, rfl⟩, fun temporary hok => ?_⟩)
    rw [← Except.ok.inj hok]
    exact ⟨⟨rfl, rfl⟩, ⟨_, rfl, rfl, rfl, rfl⟩, rfl⟩
  | error e =>
    refine Leaves.bind (ask_stays (by simp)) (fun left failed d' h => ⟨h.2, ?_⟩)
      fun e' failed d' h => by rw [h.1, h.2]; exact Prepares.error huntouched e'
    rw [h.1]
    refine Leaves.onDisk_bind (Leaves.bind (cleanup_leaves alone (by decide))
      (fun _ failed d'' hclean => ⟨hclean.2.1, Leaves.fail ?_⟩)
      fun e' failed d'' hclean => by simp at hclean)
    have huntouched' : Untouched d d'' := ⟨hclean.2.2.target, hclean.2.2.backup⟩
    exact Prepares.error huntouched' _

theorem createAttempts_prepares (uid : Nat) (candidate : String) (left : Nat) :
    Leaves d (createAttempts env uid candidate left) (Prepares candidate d) := by
  induction left with
  | zero => exact Leaves.fail (Prepares.error (Untouched.refl d) _)
  | succ left ih =>
    refine Leaves.bind (ask_stays (by simp)) (fun path failed d' h => ⟨h.2, ?_⟩)
      fun e failed d' h => by rw [h.1, h.2]; exact Prepares.error (Untouched.refl d) e
    rw [h.1]
    refine (momentOr_stays alone (by decide) _).bind (fun _ _ => ?_)
      fun e _ => Prepares.error (Untouched.refl d) e
    refine Leaves.read_bind (g := Disk.inodes) ?_
    refine Leaves.bind (ask_stays (by simp)) (fun creation failed d' h => ⟨h.2, ?_⟩)
      fun e failed d' h => by rw [h.1, h.2]; exact Prepares.error (Untouched.refl d) e
    rw [h.1]
    cases creation.inode with
    | none => exact ih
    | some inode => exact Leaves.onDisk_bind (fillStaged_prepares alone uid candidate path inode)

theorem createTemporary_prepares (uid : Nat) (candidate : String) :
    Leaves d (createTemporary env uid candidate) (Prepares candidate d) := by
  refine Leaves.bind (createAttempts_prepares alone uid candidate transactionAttempts)
    (fun temporary failed d' h => ⟨h.1, ?_⟩) fun e failed d' h => ?_
  · refine Leaves.onDisk_bind (Leaves.pure ⟨rfl, ⟨h.2.1.target, h.2.1.backup⟩, fun t hok => ?_⟩)
    obtain ⟨⟨htarget, hbackup⟩, hstaging, hpath⟩ := h.2.2 temporary rfl
    rw [← Except.ok.inj hok]
    exact ⟨⟨htarget, hbackup⟩, hstaging, hpath⟩
  · rw [h.1]
    exact Prepares.error h.2.1 e

/-! ## Rolling back -/

/-- The candidate took the place of what was on the target, which waits at the staging path. -/
structure Exchanged (temporary : TemporaryPolicy) (candidate : String) (before d : Disk) : Prop where
  target : Candidate temporary candidate d.target
  staging : d.staging = before.target
  backup : d.backup = before.backup
  path : d.stagingPath = temporary.path

omit alone in
theorem Prepared.exchanged {temporary : TemporaryPolicy} {candidate : String} {before : Disk}
    (h : Prepared temporary candidate before d) :
    Exchanged temporary candidate before (swapTarget d) :=
  ⟨h.staging, h.target, h.backup, h.path⟩

/-- The error of a rollback whose look failed. -/
def lookError (error : String) : String := "cannot inspect replacement during rollback: " ++ error

/-- How a rollback ends: everything is back, the error names the staging path, or its look failed. -/
def RollsBack (temporary : TemporaryPolicy) (before d : Disk) (r : Except String Unit)
    (failed : String → Prop) (d' : Disk) : Prop :=
  (r = .ok () ∧ failed = noLook ∧ Untouched before d') ∨
  ∃ e, r = .error e ∧ d' = d ∧
    ((failed = noLook ∧ Names e temporary.path) ∨ ∃ error, e = lookError error ∧ failed = (· = error))

theorem rollbackExchange_ends {temporary : TemporaryPolicy} {candidate : String} {before : Disk}
    (target : String) (h : Exchanged temporary candidate before d) :
    Leaves d (rollbackExchange env temporary target) (RollsBack temporary before d) := by
  have hlook : Leaves d (lookUp env .inspectReplacement Disk.target lookError) fun r failed d' =>
      d' = d ∧ ((∃ p, d.target = some p ∧ r = .ok p.file ∧ failed = noLook) ∨
        ∃ error, r = .error (lookError error) ∧ failed = (· = error)) := by
    have hmoment : Leaves d (momentOr env .inspectReplacement lookError) fun r failed d' =>
        d' = d ∧ ((r = .ok () ∧ failed = noLook) ∨
          ∃ error, r = .error (lookError error) ∧ failed = (· = error)) := by
      refine Leaves.attempt_bind (moment_look_leaves alone) fun r failed d' hrun => ?_
      obtain ⟨rfl, hr⟩ := hrun
      refine Leaves.lift ⟨rfl, ?_⟩
      rcases hr with ⟨rfl, rfl⟩ | ⟨error, rfl, rfl⟩
      · exact .inl ⟨rfl, by funext e; simp [noLook]⟩
      · exact .inr ⟨error, rfl, by simp [noLook]⟩
    refine Leaves.bind hmoment (fun u failed d' hrun => ?_) fun e failed d' hrun => ?_
    · obtain ⟨rfl, hr⟩ := hrun
      rcases hr with ⟨-, rfl⟩ | ⟨error, hbad, -⟩
      · refine ⟨rfl, Leaves.read_bind (g := Disk.target) ?_⟩
        obtain ⟨p, hp, -⟩ := h.target
        rw [hp]
        exact Leaves.pure ⟨rfl, .inl ⟨p, rfl, rfl, rfl⟩⟩
      · simp at hbad
    · obtain ⟨rfl, hr⟩ := hrun
      rcases hr with ⟨hbad, -⟩ | ⟨error, he, hfailed⟩
      · simp at hbad
      · exact ⟨rfl, .inr ⟨error, by rw [Except.error.inj he], hfailed⟩⟩
  unfold rollbackExchange
  refine Leaves.bind hlook (fun file failed d' hrun => ?_) fun e failed d' hrun => ?_
  · obtain ⟨rfl, ⟨p, hp, hfile, rfl⟩ | ⟨error, hbad, -⟩⟩ := hrun
    · refine ⟨rfl, ?_⟩
      obtain ⟨q, hq, hregular, hinode, -⟩ := h.target
      obtain rfl := Option.some.inj (hp.symm.trans hq)
      obtain rfl := Except.ok.inj hfile
      rw [if_neg (by simp [hregular, hinode])]
      refine Leaves.attempt_bind_quiet (exchange_moves alone (by decide) _ _ _)
        fun r failed d'' hrun => ⟨hrun.1, ?_⟩
      rcases hrun.2 with ⟨rfl, rfl⟩ | ⟨e, rfl, rfl⟩
      · exact Leaves.lift (.inl ⟨rfl, rfl, ⟨h.staging, h.backup⟩⟩)
      · refine Leaves.lift (.inr ⟨_, rfl, rfl, .inl ⟨rfl, ?_⟩⟩)
        exact ⟨_, ": " ++ e, by rw [← String.append_assoc]⟩
    · simp at hbad
  · obtain ⟨rfl, ⟨p, -, hbad, -⟩ | ⟨error, he, hfailed⟩⟩ := hrun
    · simp at hbad
    · exact .inr ⟨e, rfl, rfl, .inr ⟨error, Except.error.inj he, hfailed⟩⟩

end Steps

/-! ## The four ends of a call -/

/-- A slot holds a policy with this text. -/
def Carries (slot : Option Placed) (text : String) : Prop :=
  ∃ p, slot = some p ∧ p.file.text = some text

theorem Candidate.carries {temporary : TemporaryPolicy} {candidate : String} {slot : Option Placed}
    (h : Candidate temporary candidate slot) : Carries slot candidate := by
  obtain ⟨p, hp, -, -, htext⟩ := h
  exact ⟨p, hp, htext⟩

/-- How a call on the expected policy ends: the result, the failed looks, and the disk. -/
inductive Outcome (expected : PolicySnapshot) (candidate : String) (before : Disk) :
    Except String PolicySnapshot → (String → Prop) → Disk → Prop
  | unchanged (e : String) {d : Disk} (untouched : Untouched before d) :
      Outcome expected candidate before (.error e) noLook d
  | installed (r : Except String PolicySnapshot) {d : Disk} (target : Carries d.target candidate)
      (backup : Holds d.backup expected) : Outcome expected candidate before r noLook d
  | preserved {e : String} {d : Disk} (target : Carries d.target candidate)
      (staging : Holds d.staging expected) (backup : d.backup = before.backup)
      (kept : d.removeOnDrop = false) (named : Names e d.stagingPath) :
      Outcome expected candidate before (.error e) noLook d
  | unnamed (error : String) {d : Disk} (target : Carries d.target candidate)
      (staging : Holds d.staging expected) (backup : d.backup = before.backup)
      (kept : d.removeOnDrop = false) :
      Outcome expected candidate before (.error (lookError error)) (· = error) d

section Ends

variable {env : Surroundings} (alone : Alone env) (uid : Nat)
  (validateSource : String → Except String Unit) {expected : PolicySnapshot} {candidate : String}
  {temporary : TemporaryPolicy} {before d : Disk}

include alone

/-- A call that ends with a rollback. -/
theorem rollback_outcome (target message : String) (fresh : Holds before.target expected)
    (h : Exchanged temporary candidate before d) :
    Leaves d (do
      rollbackOrPreserve env temporary target
      Prog.fail message : RM PolicySnapshot) (Outcome expected candidate before) := by
  have hroll : Leaves d (rollbackOrPreserve env temporary target) fun r failed d' =>
      (r = .ok () ∧ failed = noLook ∧ Untouched before d') ∨
      ∃ e, r = .error e ∧ Outcome expected candidate before (.error e) failed d' := by
    refine Leaves.attempt_bind (rollbackExchange_ends alone target h) fun r failed d' hrun => ?_
    rcases hrun with ⟨rfl, rfl, huntouched⟩ | ⟨e, rfl, rfl, hwhy⟩
    · exact Leaves.pure (.inl ⟨rfl, by funext e; simp [noLook], huntouched⟩)
    · have hstaging : Holds d'.staging expected := by
        rw [h.staging]
        exact fresh
      refine Leaves.onDisk_bind (Leaves.fail (.inr ⟨e, rfl, ?_⟩))
      have hfailed : (fun e => failed e ∨ noLook e) = failed := by
        funext e
        simp [noLook]
      rw [hfailed]
      rcases hwhy with ⟨rfl, hnames⟩ | ⟨error, rfl, rfl⟩
      · rw [← h.path] at hnames
        exact .preserved h.target.carries hstaging h.backup rfl hnames
      · exact .unnamed error h.target.carries hstaging h.backup rfl
  refine Leaves.bind hroll (fun u failed d' hrun => ?_) fun e failed d' hrun => ?_
  · rcases hrun with ⟨-, rfl, huntouched⟩ | ⟨e, hbad, -⟩
    · exact ⟨rfl, Leaves.fail (.unchanged message huntouched)⟩
    · simp at hbad
  · rcases hrun with ⟨hbad, -⟩ | ⟨e', he, houtcome⟩
    · simp at hbad
    · rw [Except.error.inj he]
      exact houtcome

/-- Nothing that follows the second exchange takes the candidate or the expected policy away. -/
structure Installed (expected : PolicySnapshot) (candidate : String) (d : Disk) : Prop where
  target : Carries d.target candidate
  backup : Holds d.backup expected

omit alone in
theorem Installed.of_untouched {d' : Disk} (h : Installed expected candidate d)
    (untouched : Untouched d d') : Installed expected candidate d' :=
  ⟨untouched.target ▸ h.target, untouched.backup ▸ h.backup⟩

omit alone in
theorem Installed.outcome (h : Installed expected candidate d) (r : Except String PolicySnapshot) :
    Outcome expected candidate before r noLook d :=
  .installed r h.target h.backup

theorem secureBackup_installed (path : String) (h : Installed expected candidate d) :
    Leaves d (secureBackup env path) fun _ failed d' =>
      failed = noLook ∧ Installed expected candidate d' := by
  refine (momentOr_stays alone (by decide) _).bind (fun _ _ => ?_) fun _ _ => ⟨rfl, h⟩
  refine Leaves.read_bind (g := Disk.backup) ?_
  obtain ⟨p, hp, hinode, htext⟩ := h.backup
  rw [hp]
  exact Leaves.onDisk ⟨rfl, h.target, ⟨_, rfl, hinode, htext⟩⟩

/-- The second exchange and what follows it. -/
theorem retainDisplaced_outcome (backupExists : Bool) (fresh : Holds before.target expected)
    (h : Exchanged temporary candidate before d) :
    Leaves d (retainDisplaced env uid validateSource expected temporary backupExists)
      (Outcome expected candidate before) := by
  have hmoves : Moves d (if backupExists then exchange env .retain Disk.staging Disk.backup swapBackup
      else renameToBackup env .retain) swapBackup := by
    split
    · exact exchange_moves alone (by decide) _ _ _
    · exact renameToBackup_moves alone (by decide)
  unfold retainDisplaced
  refine Leaves.attempt_bind_quiet hmoves fun r failed d' hrun => ⟨hrun.1, ?_⟩
  rcases hrun.2 with ⟨rfl, rfl⟩ | ⟨e, rfl, rfl⟩
  · have hinstalled : Installed expected candidate (swapBackup d) := by
      refine ⟨h.target.carries, ?_⟩
      change Holds d.staging expected
      rw [h.staging]
      exact fresh
    refine Leaves.bind (secureBackup_installed alone _ hinstalled)
      (fun u failed d' hsecured => ⟨hsecured.1, ?_⟩) fun e failed d' hsecured => by
        rw [hsecured.1]
        exact hsecured.2.outcome _
    refine Leaves.bind (cleanup_leaves alone (by decide))
      (fun u failed d'' hcleaned => ⟨hcleaned.2.1, ?_⟩) fun e failed d'' hcleaned => by
        simp at hcleaned
    have hend := hsecured.2.of_untouched hcleaned.2.2
    refine (momentOr_stays alone (by decide) _).bind (fun _ _ => ?_) fun e _ => hend.outcome _
    refine Leaves.post (readPolicy_stays alone uid validateSource _ _ (by decide) (by decide)) ?_
    intro r failed d₃ hread
    rw [hread.1, hread.2.1]
    exact hend.outcome r
  · exact rollback_outcome alone _ _ fresh h

theorem judgeDisplaced_outcome (backupExists : Bool) (fresh : Holds before.target expected)
    (h : Exchanged temporary candidate before d) :
    Leaves d (judgeDisplaced env uid validateSource expected temporary backupExists)
      (Outcome expected candidate before) := by
  unfold judgeDisplaced
  refine Leaves.attempt_bind_quiet
    (readPolicy_stays alone uid validateSource _ _ (by decide) (by decide)) fun r failed d' hrun => ?_
  obtain ⟨rfl, hquiet, -⟩ := hrun
  refine ⟨hquiet, ?_⟩
  cases r with
  | error e => exact rollback_outcome alone _ _ fresh h
  | ok snapshot =>
    dsimp only
    split
    · exact retainDisplaced_outcome alone uid validateSource backupExists fresh h
    · exact rollback_outcome alone _ _ fresh h

theorem install_outcome (backupExists : Bool) (fresh : Holds before.target expected)
    (h : Prepared temporary candidate before d) :
    Leaves d (install env uid validateSource expected temporary backupExists)
      (Outcome expected candidate before) := by
  refine (momentOr_stays alone (by decide) _).bind (fun _ _ => ?_)
    fun e _ => .unchanged e h.toUntouched
  refine Leaves.attempt_bind_quiet (exchange_moves alone (by decide) _ _ _)
    fun r failed d' hrun => ⟨hrun.1, ?_⟩
  rcases hrun.2 with ⟨rfl, rfl⟩ | ⟨e, rfl, rfl⟩
  · have hjudged := judgeDisplaced_outcome alone uid validateSource backupExists fresh h.exchanged
    refine Does.lift_bind (fun _ _ => Does.read_bind (Does.write_bind (Does.post hjudged ?_)))
      fun e hbad => by simp [Except.mapError] at hbad
    intro r added d' houtcome
    have hmark : LookFailed (.mark (.committed (swapTarget d).staging) :: added) = LookFailed added := by
      funext error
      simp [LookFailed]
    rw [hmark]
    exact houtcome
  · exact Leaves.fail (.unchanged _ h.toUntouched)

/-- The destructor only removes a staging file that was not preserved. -/
theorem dropTemporary_outcome {r : Except String PolicySnapshot} {failed : String → Prop}
    (h : Outcome expected candidate before r failed d) :
    Leaves d (dropTemporary env) fun u failed' d' =>
      u = .ok () ∧ failed' = noLook ∧ Outcome expected candidate before r failed d' := by
  have hclean := @cleanup_leaves env alone d .drop (by decide)
  refine Leaves.read_bind (g := Disk.removeOnDrop) ?_
  cases hremove : d.removeOnDrop with
  | false => exact Leaves.pure ⟨rfl, rfl, h⟩
  | true =>
    refine Leaves.post hclean fun u failed' d' hrun => ⟨hrun.1, hrun.2.1, ?_⟩
    cases h with
    | unchanged e untouched => exact .unchanged e (untouched.trans hrun.2.2)
    | installed r target backup =>
      exact (Installed.of_untouched ⟨target, backup⟩ hrun.2.2).outcome r
    | preserved target staging backup kept named => simp [kept] at hremove
    | unnamed error target staging backup kept => simp [kept] at hremove

/-- A call either leaves both files as they were, or the candidate is valid, the target held the
    expected policy, and the call ends as an `Outcome` says. -/
theorem replacePolicy_outcome (differs : candidate ≠ expected.source) :
    Leaves d (replacePolicy env uid validateSource expected candidate) fun r failed d' =>
      Outcome expected candidate d r failed d' ∧ (failed = noLook ∧ Untouched d d' ∨
        validateSource candidate = .ok () ∧ Holds d.target expected) := by
  have hunchanged (e : String) : Outcome expected candidate d (.error e) noLook d ∧
      (noLook = noLook ∧ Untouched d d ∨
        validateSource candidate = .ok () ∧ Holds d.target expected) :=
    ⟨.unchanged e (Untouched.refl d), .inl ⟨rfl, Untouched.refl d⟩⟩
  unfold replacePolicy
  refine Stays.bind (P := fun r => r = .ok () → validateSource candidate = .ok ())
    (Leaves.lift ⟨rfl, rfl, fun hok => ?_⟩) (fun u hvalid => ?_) fun e _ => hunchanged e
  · cases hv : validateSource candidate with
    | ok u => rfl
    | error e => simp [hv, Except.mapError] at hok
  refine (momentOr_stays alone (by decide) _).bind (fun _ _ => ?_) fun e _ => hunchanged e
  refine (readPolicy_stays alone uid validateSource _ _ (by decide) (by decide)).bind
    (fun current hcurrent => ?_) fun e _ => hunchanged e
  by_cases hsame : sameSnapshot expected current = true
  · rw [if_pos hsame]
    simp only [sameSnapshot, Bool.and_eq_true, decide_eq_true_eq] at hsame
    obtain ⟨p, hp, hinode, htext⟩ := hcurrent current rfl
    have fresh : Holds d.target expected :=
      ⟨p, hp, hinode.trans hsame.1.symm, by rw [htext, hsame.2]⟩
    rw [if_neg (by rw [← hsame.2]; exact differs)]
    refine (checkRecoveryTarget_stays alone uid _).bind (fun backupExists _ => ?_)
      fun e _ => hunchanged e
    refine Leaves.bind (createTemporary_prepares alone uid candidate)
      (fun temporary failed d' hprepares => ⟨hprepares.1, ?_⟩) fun e failed d' hprepares => ?_
    · refine Leaves.attempt_bind (install_outcome alone uid validateSource backupExists fresh
        (hprepares.2.2 temporary rfl)) fun r failed d' houtcome => ?_
      refine Leaves.bind (dropTemporary_outcome alone houtcome)
        (fun u failed' d'' hdropped => ⟨hdropped.2.1, Leaves.lift ?_⟩)
        fun e failed' d'' hdropped => by simp at hdropped
      have hfailed : (fun e => failed e ∨ noLook e) = failed := by
        funext e
        simp [noLook]
      rw [hfailed]
      exact ⟨hdropped.2.2, .inr ⟨hvalid rfl, fresh⟩⟩
    · rw [hprepares.1]
      exact ⟨.unchanged e hprepares.2.1, .inl ⟨rfl, hprepares.2.1⟩⟩
  · rw [if_neg hsame]
    exact Leaves.fail (hunchanged _)

end Ends

/-! ## What a caller is promised -/

/-- The expected policy is never lost, and the target is never anything but the expected policy or the
    complete candidate. -/
structure PolicyKept (validateSource : String → Except String Unit) (expected : PolicySnapshot)
    (candidate : String) (before : Disk) (r : Except String PolicySnapshot) (after : Disk) : Prop where
  saved : ∀ snap, r = .ok snap → Carries after.target candidate ∧ Holds after.backup expected
  /-- After a failure both files are as before, or the candidate is on the target and the expected
      policy is the recovery policy or waits at a staging path that the error names. -/
  refused : ∀ e, r = .error e → Untouched before after ∨ (Carries after.target candidate ∧
    (Holds after.backup expected ∨ (Holds after.staging expected ∧ Names e after.stagingPath)))
  guarded : ¬ Holds before.target expected ∨ validateSource candidate ≠ .ok () →
    Untouched before after

theorem Outcome.kept_iff {validateSource : String → Except String Unit} {expected : PolicySnapshot}
    {candidate : String} {before d : Disk} {r : Except String PolicySnapshot}
    {failed : String → Prop} (differs : candidate ≠ expected.source)
    (h : Outcome expected candidate before r failed d)
    (hguard : failed = noLook ∧ Untouched before d ∨
      validateSource candidate = .ok () ∧ Holds before.target expected) :
    PolicyKept validateSource expected candidate before r d ↔
      (∀ error, failed error → Names (lookError error) d.stagingPath) ∨
        Holds before.backup expected := by
  have hguarded : ¬ Holds before.target expected ∨ validateSource candidate ≠ .ok () →
      Untouched before d := by
    intro hstale
    rcases hguard with ⟨-, huntouched⟩ | ⟨hvalid, hfresh⟩
    · exact huntouched
    · rcases hstale with hstale | hinvalid
      · exact (hstale hfresh).elim
      · exact (hinvalid hvalid).elim
  have hquiet : (∀ error, noLook error → Names (lookError error) d.stagingPath) ∨
      Holds before.backup expected := .inl fun error hno => hno.elim
  cases h with
  | unchanged e untouched =>
    exact ⟨fun _ => hquiet, fun _ => ⟨fun snap hok => by simp at hok, fun _ _ => .inl untouched,
      hguarded⟩⟩
  | installed r target backup =>
    exact ⟨fun _ => hquiet, fun _ => ⟨fun _ _ => ⟨target, backup⟩,
      fun _ _ => .inr ⟨target, .inl backup⟩, hguarded⟩⟩
  | preserved target staging backup kept named =>
    refine ⟨fun _ => hquiet, fun _ => ⟨fun snap hok => by simp at hok, fun e he => ?_, hguarded⟩⟩
    rw [← Except.error.inj he]
    exact .inr ⟨target, .inr ⟨staging, named⟩⟩
  | unnamed error target staging backup kept =>
    constructor
    · intro hkept
      rcases hkept.refused _ rfl with huntouched | ⟨-, hbackup | ⟨-, hnames⟩⟩
      · -- the target cannot hold both policies
        rcases hguard with ⟨hnone, -⟩ | ⟨-, q, hq, -, hsource⟩
        · have hlook := congrFun hnone error
          simp [noLook] at hlook
        · obtain ⟨p, hp, htext⟩ := target
          rw [huntouched.target, hq] at hp
          rw [← Option.some.inj hp, hsource] at htext
          exact (differs (Option.some.inj htext).symm).elim
      · rw [backup] at hbackup
        exact .inr hbackup
      · exact .inl fun error' he => he ▸ hnames
    · rintro (hnamed | hbackup)
      · refine ⟨fun snap hok => by simp at hok, fun e he => ?_, hguarded⟩
        rw [← Except.error.inj he]
        exact .inr ⟨target, .inr ⟨staging, hnamed error rfl⟩⟩
      · refine ⟨fun snap hok => by simp at hok, fun e _ => ?_, hguarded⟩
        rw [← backup] at hbackup
        exact .inr ⟨target, .inl hbackup⟩

/-- For every choice of the steps that fail: a call keeps the expected policy as promised if and only
    if no look of a rollback fails, its error text aside, or the recovery file was the expected
    policy before the call. -/
theorem policy_kept_iff (env : Surroundings) (uid : Nat)
    (validateSource : String → Except String Unit) (expected : PolicySnapshot) (candidate : String)
    (target backup : Option PolicyFile) (alone : Alone env) (differs : candidate ≠ expected.source) :
    PolicyKept validateSource expected candidate (opening target backup).state
        (replacePolicy env uid validateSource expected candidate (opening target backup)).1
        (replacePolicy env uid validateSource expected candidate (opening target backup)).2.state ↔
      (∀ error, LookFailed (replacePolicy env uid validateSource expected candidate
          (opening target backup)).2.trace error → Names (lookError error) (replacePolicy env uid
            validateSource expected candidate (opening target backup)).2.state.stagingPath) ∨
        Holds (opening target backup).state.backup expected := by
  obtain ⟨added, htrace, houtcome, hguard⟩ := @replacePolicy_outcome env alone uid validateSource
    expected candidate (opening target backup).state differs []
  rw [List.nil_append] at htrace
  rw [← htrace] at houtcome hguard
  exact houtcome.kept_iff differs hguard

/-! ## Two calls on a failing file system -/

/-- A file system on which given steps fail, and no editors. -/
def failing (faults : FsStep → Option String) : Surroundings := fun trace question =>
  match question with
  | .moment step _ => ⟨[], by simp, faults step⟩
  | question => editing (fun _ => []) trace question

theorem failing_alone (faults : FsStep → Option String) : Alone (failing faults) :=
  fun _ _ _ => rfl

/-- A call that found `enabled = false`, wants `enabled = true`, and has no recovery file yet. -/
def failingCall (faults : FsStep → Option String) : Except String PolicySnapshot × World :=
  replacePolicy (failing faults) 1000 (fun _ => .ok ())
    ⟨"/home/config.toml", "enabled = false", ⟨1, 1⟩⟩ "enabled = true"
    (opening (some (policyFile 1 "enabled = false")) none)

/-- The displaced policy cannot be opened. -/
def oneFault : FsStep → Option String
  | .openDisplaced => some "Cannot allocate memory (os error 12)"
  | _ => none

/-- With a single failing step the rollback works. -/
theorem policy_kept_rollback :
    PolicyKept (fun _ => .ok ()) ⟨"/home/config.toml", "enabled = false", ⟨1, 1⟩⟩ "enabled = true"
      (opening (some (policyFile 1 "enabled = false")) none).state
      (failingCall oneFault).1 (failingCall oneFault).2.state := by
  refine (policy_kept_iff _ _ _ _ _ _ _ (failing_alone oneFault) (by decide)).mpr (.inl ?_)
  rintro error ⟨held, m, hm, hfault⟩
  have hcalm : (failingCall oneFault).2.trace.all calm = true := by decide +kernel
  have hnone := (undisturbed_of_calm hcalm).2 held m hm
  rw [hnone] at hfault
  simp at hfault

/-- The displaced policy cannot be opened, and then the rollback cannot look at the target. -/
def twoFaults : FsStep → Option String
  | .openDisplaced => some "Cannot allocate memory (os error 12)"
  | .inspectReplacement => some "Cannot allocate memory (os error 12)"
  | _ => none

/-- The candidate is on the target, the expected policy is at the staging path, and the error does not
    say where that is. -/
theorem preserved_unnamed :
    ¬ PolicyKept (fun _ => .ok ()) ⟨"/home/config.toml", "enabled = false", ⟨1, 1⟩⟩ "enabled = true"
      (opening (some (policyFile 1 "enabled = false")) none).state
      (failingCall twoFaults).1 (failingCall twoFaults).2.state := by
  intro kept
  have herror : (failingCall twoFaults).1 = .error ("cannot inspect replacement during rollback: " ++
      "Cannot allocate memory (os error 12)") := by decide +kernel
  have htarget : (failingCall twoFaults).2.state.target ≠
      some ⟨policyFile 1 "enabled = false", .before⟩ := by decide +kernel
  have hbackup : (failingCall twoFaults).2.state.backup = none := by decide +kernel
  have hpath : (failingCall twoFaults).2.state.stagingPath = "/home/.agent-seat-config.1.1.tmp" := by
    decide +kernel
  rcases kept.refused _ herror with huntouched | ⟨-, ⟨p, hp, -⟩ | ⟨-, before, after, hnames⟩⟩
  · exact htarget huntouched.target
  · rw [hbackup] at hp
    simp at hp
  · -- the path starts with a slash, and the message has none
    rw [hpath] at hnames
    have hslash := congrArg (fun text => '/' ∈ text.toList) hnames
    simp at hslash

end AgentSeat.Policy
