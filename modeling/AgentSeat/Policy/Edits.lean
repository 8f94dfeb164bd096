/-
  What becomes of the files that other editors save while a policy is replaced.

  A save lands on the target and a step of the call only moves files between the target, the staging
  path and the recovery path, so a saved file can get lost in one way: the call removes its staging
  file while a saved file is there. The destructor runs after a rollback that worked, and then the
  staging path holds what the rollback took from the target. The rollback has looked at the target
  before and found the candidate; a save between that look and the exchange is removed.

  Main result:
  * `edits_survive`: with no save between the look and the exchange of a rollback, and no failure of
    that look, every file saved during the call is accounted for when the call returns.
-/
import AgentSeat.Policy.Replace

namespace AgentSeat.Policy

open AgentSeat.Lib

/-! ## What is said about a run -/

def At (slot : Option Placed) (save : Nat) : Prop := ∃ p, slot = some p ∧ p.origin = .editor save

/-- A later save replaced the file on the target. -/
def Superseded (trace : List Step) (save : Nat) : Prop :=
  ∃ later p, .mark (.saved later (some p)) ∈ trace ∧ p.origin = .editor save

/-- Every file that was saved is somewhere, or was superseded. -/
def Kept (w : World) : Prop :=
  ∀ save < w.state.saves, Superseded w.trace save ∨ At w.state.target save ∨
    At w.state.staging save ∨ At w.state.backup save

/-- The call removed no file that an editor saved. -/
def Spared (trace : List Step) : Prop :=
  ∀ p, .mark (.removed p) ∈ trace → ∀ save, p.origin ≠ .editor save

def Names (message path : String) : Prop := ∃ before after, message = before ++ path ++ after

/-- Nothing is saved between the look of a rollback and its exchange, and the look works. -/
def Undisturbed (trace : List Step) : Prop :=
  (∀ held m, .said (.moment .rollback held) m ∈ trace → Moment.saves m = []) ∧
    ∀ held m, .said (.moment .inspectReplacement held) m ∈ trace → Moment.fault m = none

theorem Undisturbed.of_extends {trace trace' : List Step} (h : Undisturbed trace')
    (extends' : trace <+: trace') : Undisturbed trace :=
  ⟨fun held m hm => h.1 held m (extends'.subset hm), fun held m hm => h.2 held m (extends'.subset hm)⟩

/-! ## Steps that only let the editors save -/

/-- Between two moments only editors acted. -/
structure Arrives (w w' : World) : Prop where
  staging : w'.state.staging = w.state.staging
  backup : w'.state.backup = w.state.backup
  held : w'.state.held = w.state.held
  path : w'.state.stagingPath = w.state.stagingPath
  removeOnDrop : w'.state.removeOnDrop = w.state.removeOnDrop
  target : w'.state.target = w.state.target ∨ ∃ p save, w'.state.target = some p ∧
    p.origin = .editor save ∧ some p.file.inode ≠ w.state.held
  grown : w.trace <+: w'.trace
  kept : Kept w → Kept w'
  spared : Spared w.trace → Spared w'.trace

theorem Arrives.refl (w : World) : Arrives w w :=
  ⟨rfl, rfl, rfl, rfl, rfl, .inl rfl, List.prefix_refl _, id, id⟩

theorem Arrives.trans {w w' w'' : World} (h : Arrives w w') (h' : Arrives w' w'') :
    Arrives w w'' := by
  refine ⟨h'.staging.trans h.staging, h'.backup.trans h.backup, h'.held.trans h.held,
    h'.path.trans h.path, h'.removeOnDrop.trans h.removeOnDrop, ?_, h.grown.trans h'.grown,
    h'.kept ∘ h.kept, h'.spared ∘ h.spared⟩
  rcases h'.target with hsame | ⟨p, save, hp, horigin, hinode⟩
  · rw [hsame]
    exact h.target
  · rw [h.held] at hinode
    exact .inr ⟨p, save, hp, horigin, hinode⟩

theorem Arrives.bind {α β : Type} {m : RM α} {f : α → RM β} (hm : Prog.Keeps Arrives m)
    (hf : ∀ a, Prog.Keeps Arrives (f a)) : Prog.Keeps Arrives (m >>= f) :=
  Prog.Keeps.bind (fun _ _ _ h h' => h.trans h') hm hf

/-- Entries that are neither saves nor removals. -/
theorem Arrives.silent (w : World) {more : List Step}
    (h : ∀ p, .mark (.removed p) ∉ more) : Arrives w ⟨w.state, w.trace ++ more⟩ := by
  refine ⟨rfl, rfl, rfl, rfl, rfl, .inl rfl, List.prefix_append _ _, ?_, ?_⟩
  · intro kept save hsave
    rcases kept save hsave with ⟨later, p, hp, horigin⟩ | hplace
    · exact .inl ⟨later, p, List.mem_append_left _ hp, horigin⟩
    · exact .inr hplace
  · intro spared p hp
    rcases List.mem_append.mp hp with hp | hp
    · exact spared p hp
    · exact (h p hp).elim

theorem save_arrives (file : PolicyFile) (w : World) (h : some file.inode ≠ w.state.held) :
    Arrives w (save file w).2 := by
  refine ⟨rfl, rfl, rfl, rfl, rfl, .inr ⟨_, w.state.saves, rfl, rfl, h⟩, List.prefix_append _ _,
    ?_, ?_⟩
  · intro kept number hnumber
    -- the file that was on the target is superseded by this save
    change number < w.state.saves + 1 at hnumber
    by_cases hnew : number = w.state.saves
    · exact .inr (.inl ⟨_, rfl, by rw [hnew]⟩)
    · rcases kept number (by omega) with ⟨later, p, hp, horigin⟩ | ⟨p, hp, horigin⟩ | hplace
      · exact .inl ⟨later, p, List.mem_append_left _ hp, horigin⟩
      · refine .inl ⟨w.state.saves, p, ?_, horigin⟩
        rw [← hp]
        exact List.mem_append_right _ (.head _)
      · exact .inr (.inr hplace)
  · intro spared p hp
    have hold : .mark (.removed p) ∈ w.trace := by
      simpa [save, Prog.update] using hp
    exact spared p hold

theorem arrive_arrives (files : List PolicyFile) (w : World)
    (h : ∀ f ∈ files, some f.inode ≠ w.state.held) : Arrives w (arrive files w).2 := by
  induction files generalizing w with
  | nil => exact Arrives.refl w
  | cons file rest ih =>
    have hfirst := save_arrives file w (h file (List.mem_cons_self ..))
    have hrest := ih (save file w).2 fun f hf => by
      rw [hfirst.held]
      exact h f (List.mem_cons_of_mem _ hf)
    exact hfirst.trans hrest

theorem arrive_ok (files : List PolicyFile) (w : World) : (arrive files w).1 = .ok () := by
  induction files generalizing w with
  | nil => rfl
  | cons file rest ih => exact ih (save file w).2

section Steps

variable (env : Surroundings)

/-- A moment: what the environment says, the saves, and whether the step fails. -/
theorem moment_run (step : FsStep) (w : World) :
    moment env step w =
      ((match (env w.trace (.moment step w.state.held) : Moment w.state.held).fault with
        | some error => .error error
        | none => .ok ()),
      (arrive (env w.trace (.moment step w.state.held) : Moment w.state.held).saves ⟨w.state,
        w.trace ++ [.said (.moment step w.state.held) (env w.trace (.moment step w.state.held))]⟩).2) := by
  have hask : moment env step w = (do
      arrive (env w.trace (.moment step w.state.held) : Moment w.state.held).saves
      match (env w.trace (.moment step w.state.held) : Moment w.state.held).fault with
      | some error => Prog.fail error
      | none => pure () : RM Unit) ⟨w.state, w.trace ++ [.said (.moment step w.state.held)
        (env w.trace (.moment step w.state.held))]⟩ := rfl
  rw [hask, Prog.bind_ok (Prod.ext (arrive_ok _ _) rfl)]
  cases (env w.trace (.moment step w.state.held) : Moment w.state.held).fault with
  | some error => rfl
  | none => rfl

theorem moment_arrives (step : FsStep) : Prog.Keeps Arrives (moment env step) := by
  intro w
  rw [moment_run]
  have hsaid := @Arrives.silent w [.said (.moment step w.state.held)
    (env w.trace (.moment step w.state.held))] (by simp)
  refine hsaid.trans (arrive_arrives _ _ fun f hf => ?_)
  exact (env w.trace (.moment step w.state.held) : Moment w.state.held).lawful f hf

theorem momentOr_arrives (step : FsStep) (failed : String → String) :
    Prog.Keeps Arrives (momentOr env step failed) :=
  Arrives.bind (Prog.Keeps.attempt (moment_arrives env step))
    fun _ => Prog.Keeps.lift Arrives.refl _

theorem lookUp_arrives (step : FsStep) (slot : Disk → Option Placed) (failed : String → String) :
    Prog.Keeps Arrives (lookUp env step slot failed) := by
  refine Arrives.bind (momentOr_arrives env step failed) fun _ => ?_
  refine Arrives.bind (Prog.Keeps.read Arrives.refl _) fun placed => ?_
  cases placed with
  | some p => exact Prog.Keeps.pure Arrives.refl _
  | none => exact Prog.Keeps.fail Arrives.refl _

theorem readPolicy_arrives (uid : Nat) (validateSource : String → Except String Unit)
    (path : String) (slot : Disk → Option Placed) (inspect opened : FsStep) :
    Prog.Keeps Arrives (readPolicy env uid validateSource path slot inspect opened) := by
  refine Arrives.bind (lookUp_arrives env inspect slot _)
    fun inspected => ?_
  split
  · exact Arrives.bind (lookUp_arrives env opened slot _)
      fun _ => Prog.Keeps.lift Arrives.refl _
  · exact Prog.Keeps.fail Arrives.refl _

theorem checkRecoveryTarget_arrives (uid : Nat) (path : String) :
    Prog.Keeps Arrives (checkRecoveryTarget env uid path) := by
  refine Arrives.bind (momentOr_arrives env _ _) fun _ => ?_
  refine Arrives.bind (Prog.Keeps.read Arrives.refl _) fun backup => ?_
  cases backup with
  | none => exact Prog.Keeps.pure Arrives.refl _
  | some placed =>
    dsimp only
    split
    · exact Prog.Keeps.fail Arrives.refl _
    · exact Prog.Keeps.pure Arrives.refl _

theorem moment_said (step : FsStep) (w : World) :
    .said (.moment step w.state.held) (env w.trace (.moment step w.state.held)) ∈
      (moment env step w).2.trace := by
  rw [moment_run]
  refine (arrive_arrives _ _ ?_).grown.subset (List.mem_append_right _ (.head _))
  exact (env w.trace (.moment step w.state.held) : Moment w.state.held).lawful

/-- Nothing was saved at an undisturbed exchange of a rollback. -/
theorem moment_rollback (w : World) (h : Undisturbed (moment env .rollback w).2.trace) :
    (moment env .rollback w).2.state = w.state := by
  have hnone := h.1 _ _ (moment_said env .rollback w)
  rw [moment_run, hnone]
  rfl

/-- An undisturbed look of a rollback works. -/
theorem moment_look (w : World) (h : Undisturbed (moment env .inspectReplacement w).2.trace) :
    (moment env .inspectReplacement w).1 = .ok () := by
  have hnone := h.2 _ _ (moment_said env .inspectReplacement w)
  rw [moment_run, hnone]

/-- A look that fails found nothing, or the step failed. -/
theorem lookUp_spec (step : FsStep) (slot : Disk → Option Placed) (failed : String → String)
    (w : World) :
    (∃ p, slot (moment env step w).2.state = some p ∧
      lookUp env step slot failed w = (.ok p.file, (moment env step w).2)) ∨
    (∃ error, lookUp env step slot failed w = (.error error, (moment env step w).2)) ∧
      (slot (moment env step w).2.state = none ∨ (moment env step w).1 ≠ .ok ()) := by
  rcases hmoment : moment env step w with ⟨r, w₁⟩
  have hor : momentOr env step failed w = (r.mapError failed, w₁) := by
    rw [momentOr, Prog.attempt_bind hmoment]
    rfl
  cases r with
  | error e => exact .inr ⟨⟨_, Prog.bind_error hor⟩, .inr (by simp)⟩
  | ok u =>
    rw [lookUp, Prog.bind_ok hor, Prog.read_bind]
    cases hslot : slot w₁.state with
    | some p => exact .inl ⟨p, rfl, rfl⟩
    | none => exact .inr ⟨⟨_, rfl⟩, .inl rfl⟩

/-- An exchange happens as a whole or not at all. -/
theorem exchange_spec (step : FsStep) (left right : Disk → Option Placed) (swap : Disk → Disk)
    (w : World) :
    (∃ error, exchange env step left right swap w = (.error error, (moment env step w).2)) ∨
    (left (moment env step w).2.state).isSome ∧ (right (moment env step w).2.state).isSome ∧
      exchange env step left right swap w =
        (.ok (), ⟨swap (moment env step w).2.state, (moment env step w).2.trace⟩) := by
  unfold exchange
  rcases hmoment : moment env step w with ⟨r, w₁⟩
  cases r with
  | error e => exact .inl ⟨e, Prog.bind_error hmoment⟩
  | ok u =>
    rw [Prog.bind_ok hmoment, Prog.read_bind]
    dsimp only
    by_cases hboth : ((left w₁.state).isSome && (right w₁.state).isSome) = true
    · rw [if_pos hboth]
      rw [Bool.and_eq_true] at hboth
      exact .inr ⟨hboth.1, hboth.2, rfl⟩
    · rw [if_neg hboth]
      exact .inl ⟨_, rfl⟩

/-- The contents of a file that was read. -/
theorem checkFile_ok {uid : Nat} {validateSource : String → Except String Unit} {path : String}
    {inspected file : PolicyFile} {snap : PolicySnapshot}
    (h : checkFile uid validateSource path inspected file = .ok snap) :
    snap.inode = file.inode ∧ file.text = some snap.source := by
  unfold checkFile at h
  split at h
  · simp at h
  · split at h
    · simp at h
    · split at h
      · simp at h
      · split at h
        · simp at h
        · next source htext =>
          split at h
          · simp at h
          · rw [Except.ok.injEq] at h
            rw [← h]
            exact ⟨rfl, htext⟩

end Steps

/-! ## The phases of a call -/

/-- No file that an editor saved during the call. -/
def Unedited (slot : Option Placed) : Prop := ∀ p, slot = some p → ∀ save, p.origin ≠ .editor save

structure Safe (w : World) : Prop where
  kept : Kept w
  spared : Spared w.trace

/-- Before the exchange with the target: the staging path holds at most the candidate. -/
structure Ready (w : World) : Prop extends Safe w where
  staging : Unedited w.state.staging
  backup : Unedited w.state.backup

/-- The candidate is staged. -/
structure Staged (temporary : TemporaryPolicy) (w : World) : Prop extends Ready w where
  held : w.state.held = some temporary.inode
  candidate : ∃ file, w.state.staging = some ⟨file, .staged⟩
  path : w.state.stagingPath = temporary.path

/-- After the exchange: a file on the target with the inode of the candidate is the candidate. -/
structure Committed (temporary : TemporaryPolicy) (w : World) : Prop extends Safe w where
  present : w.state.target.isSome
  target : ∀ p, w.state.target = some p → p.file.inode = temporary.inode → p.origin = .staged
  backup : Unedited w.state.backup
  held : w.state.held = some temporary.inode
  path : w.state.stagingPath = temporary.path

theorem Arrives.safe {w w' : World} (h : Arrives w w') (safe : Safe w) : Safe w' :=
  ⟨h.kept safe.kept, h.spared safe.spared⟩

theorem Arrives.present {w w' : World} (h : Arrives w w') (present : w.state.target.isSome) :
    w'.state.target.isSome := by
  rcases h.target with hsame | ⟨p, save, hp, -⟩
  · rw [hsame]
    exact present
  · rw [hp]
    rfl

theorem Arrives.ready {w w' : World} (h : Arrives w w') (ready : Ready w) : Ready w' :=
  ⟨h.safe ready.toSafe, h.staging ▸ ready.staging, h.backup ▸ ready.backup⟩

theorem Arrives.staged {w w' : World} {temporary : TemporaryPolicy} (h : Arrives w w')
    (staged : Staged temporary w) : Staged temporary w' :=
  ⟨h.ready staged.toReady, h.held.trans staged.held, by rw [h.staging]; exact staged.candidate,
    h.path.trans staged.path⟩

theorem Arrives.committed {w w' : World} {temporary : TemporaryPolicy} (h : Arrives w w')
    (committed : Committed temporary w) : Committed temporary w' := by
  refine ⟨h.safe committed.toSafe, h.present committed.present, ?_, h.backup ▸ committed.backup,
    h.held.trans committed.held, h.path.trans committed.path⟩
  intro p hp hinode
  rcases h.target with hsame | ⟨q, save, hq, -, hne⟩
  · exact committed.target p (hsame ▸ hp) hinode
  · have hpq : p = q := Option.some.inj (hp.symm.trans hq)
    rw [committed.held, ← hpq, hinode] at hne
    exact (hne rfl).elim

theorem Safe.swapTarget {w : World} (safe : Safe w) : Safe ⟨Policy.swapTarget w.state, w.trace⟩ := by
  refine ⟨fun save hsave => ?_, safe.spared⟩
  rcases safe.kept save hsave with h | h | h | h
  · exact .inl h
  · exact .inr (.inr (.inl h))
  · exact .inr (.inl h)
  · exact .inr (.inr (.inr h))

theorem Safe.swapBackup {w : World} (safe : Safe w) : Safe ⟨Policy.swapBackup w.state, w.trace⟩ := by
  refine ⟨fun save hsave => ?_, safe.spared⟩
  rcases safe.kept save hsave with h | h | h | h
  · exact .inl h
  · exact .inr (.inl h)
  · exact .inr (.inr (.inr h))
  · exact .inr (.inr (.inl h))

theorem unlink_run (w : World) :
    (w.state.staging = none ∧ (unlink w).2 = w) ∨ ∃ placed, w.state.staging = some placed ∧
      (unlink w).2 = ⟨{ w.state with staging := none }, w.trace ++ [.mark (.removed placed)]⟩ := by
  unfold unlink Prog.update
  cases hstaging : w.state.staging with
  | none => exact .inl ⟨rfl, by simp only [hstaging]⟩
  | some placed => exact .inr ⟨placed, rfl, by simp only [hstaging]⟩

/-- Removing a staging file that no editor saved. -/
theorem Safe.unlink {w : World} (safe : Safe w) (unedited : Unedited w.state.staging) :
    Safe (Policy.unlink w).2 ∧ Unedited (Policy.unlink w).2.state.staging := by
  rcases unlink_run w with ⟨hstaging, hrun⟩ | ⟨placed, hstaging, hrun⟩
  · rw [hrun]
    exact ⟨safe, unedited⟩
  · rw [hrun]
    refine ⟨⟨fun save hsave => ?_, fun p hp => ?_⟩, by simp [Unedited]⟩
    · rcases safe.kept save hsave with ⟨later, p, hp, horigin⟩ | h | ⟨p, hp, horigin⟩ | h
      · exact .inl ⟨later, p, List.mem_append_left _ hp, horigin⟩
      · exact .inr (.inl h)
      · exact (unedited p hp save horigin).elim
      · exact .inr (.inr (.inr h))
    · rcases List.mem_append.mp hp with hp | hp
      · exact safe.spared p hp
      · have hremoved : p = placed := by simpa using hp
        rw [hremoved]
        exact unedited placed hstaging

/-- The staging path can be removed without loss. -/
structure Clean (w : World) : Prop extends Safe w where
  staging : Unedited w.state.staging

theorem Arrives.clean {w w' : World} (h : Arrives w w') (clean : Clean w) : Clean w' :=
  ⟨h.safe clean.toSafe, h.staging ▸ clean.staging⟩

/-- Every saved file is accounted for if the call ends with this result in this state. -/
def Accounted {α : Type} (r : Except String α) (w : World) : Prop :=
  Undisturbed w.trace → Safe w ∧ (Unedited w.state.staging ∨ w.state.removeOnDrop = false ∧
    ∃ error, r = .error error ∧ Names error w.state.stagingPath)

theorem Clean.accounted {α : Type} {w : World} (clean : Clean w) (r : Except String α) :
    Accounted r w :=
  fun _ => ⟨clean.toSafe, .inl clean.staging⟩

section Phases

variable (env : Surroundings) (uid : Nat) (validateSource : String → Except String Unit)

theorem cleanup_clean (step : FsStep) {w : World} (clean : Clean w) :
    Clean (cleanup env step w).2 := by
  have hrun : (cleanup env step w).2 = (((do
      moment env step
      unlink) : RM Unit) w).2 := rfl
  have harrives := moment_arrives env step w
  rw [hrun, Prog.bind_run]
  rcases hmoment : moment env step w with ⟨r, w₁⟩
  rw [hmoment] at harrives
  have hclean := harrives.clean clean
  cases r with
  | error e => exact hclean
  | ok u =>
    obtain ⟨hsafe, hstaging⟩ := hclean.toSafe.unlink hclean.staging
    exact ⟨hsafe, hstaging⟩

/-- A call only adds to the trace. -/
def Grows (w w' : World) : Prop := w.trace <+: w'.trace

theorem Grows.refl (w : World) : Grows w w := List.prefix_refl _

theorem grows_of_arrives {α : Type} {m : RM α} (h : Prog.Keeps Arrives m) : Prog.Keeps Grows m :=
  fun w => (h w).grown

theorem Grows.bind {α β : Type} {m : RM α} {f : α → RM β} (hm : Prog.Keeps Grows m)
    (hf : ∀ a, Prog.Keeps Grows (f a)) : Prog.Keeps Grows (m >>= f) := by
  refine Prog.Keeps.bind ?_ hm hf
  intro _ _ _ h h'
  exact List.IsPrefix.trans h h'

theorem onDisk_grows (f : Disk → Disk) : Prog.Keeps Grows (onDisk f) := fun w => Grows.refl w

theorem unlink_grows : Prog.Keeps Grows unlink := by
  intro w
  rcases unlink_run w with ⟨-, hrun⟩ | ⟨placed, -, hrun⟩
  · rw [hrun]
    exact List.prefix_refl _
  · rw [hrun]
    exact List.prefix_append _ _

theorem cleanup_grows (step : FsStep) : Prog.Keeps Grows (cleanup env step) :=
  Grows.bind (Prog.Keeps.attempt
    (Grows.bind (grows_of_arrives (moment_arrives env step)) fun _ => unlink_grows))
    fun _ => Prog.Keeps.pure Grows.refl _

theorem exchange_grows (step : FsStep) (left right : Disk → Option Placed) (swap : Disk → Disk) :
    Prog.Keeps Grows (exchange env step left right swap) := by
  refine Grows.bind (grows_of_arrives (moment_arrives env step)) fun _ => ?_
  refine Grows.bind (Prog.Keeps.read Grows.refl _) fun both => ?_
  split
  · exact onDisk_grows swap
  · exact Prog.Keeps.fail Grows.refl _

theorem renameToBackup_grows (step : FsStep) : Prog.Keeps Grows (renameToBackup env step) := by
  refine Grows.bind (grows_of_arrives (moment_arrives env step)) fun _ => ?_
  refine Grows.bind (Prog.Keeps.read Grows.refl _) fun paths => ?_
  dsimp only
  split
  · exact Prog.Keeps.fail Grows.refl _
  · split
    · exact Prog.Keeps.fail Grows.refl _
    · exact onDisk_grows _

theorem rollbackOrPreserve_grows (temporary : TemporaryPolicy) (target : String) :
    Prog.Keeps Grows (rollbackOrPreserve env temporary target) := by
  refine Grows.bind (Prog.Keeps.attempt ?_) fun result => ?_
  · refine Grows.bind (grows_of_arrives (lookUp_arrives env _ _ _)) fun replacement => ?_
    split
    · exact Prog.Keeps.fail Grows.refl _
    · exact Grows.bind (Prog.Keeps.attempt (exchange_grows env _ _ _ _)) fun _ =>
        Prog.Keeps.lift Grows.refl _
  · cases result with
    | ok u => exact Prog.Keeps.pure Grows.refl _
    | error e => exact Grows.bind (onDisk_grows _) fun _ => Prog.Keeps.fail Grows.refl _

theorem secureBackup_grows (path : String) : Prog.Keeps Grows (secureBackup env path) := by
  refine Grows.bind (grows_of_arrives (momentOr_arrives env _ _)) fun _ => ?_
  refine Grows.bind (Prog.Keeps.read Grows.refl _) fun backup => ?_
  cases backup with
  | none => exact Prog.Keeps.fail Grows.refl _
  | some placed => exact onDisk_grows _

theorem retainDisplaced_grows (expected : PolicySnapshot) (temporary : TemporaryPolicy)
    (backupExists : Bool) :
    Prog.Keeps Grows (retainDisplaced env uid validateSource expected temporary backupExists) := by
  refine Grows.bind (Prog.Keeps.attempt ?_) fun retained => ?_
  · split
    · exact exchange_grows env _ _ _ _
    · exact renameToBackup_grows env _
  · cases retained with
    | error e =>
      exact Grows.bind (rollbackOrPreserve_grows env _ _) fun _ => Prog.Keeps.fail Grows.refl _
    | ok u =>
      refine Grows.bind (secureBackup_grows env _) fun _ => ?_
      refine Grows.bind (cleanup_grows env _) fun _ => ?_
      refine Grows.bind (grows_of_arrives (momentOr_arrives env _ _)) fun _ => ?_
      exact grows_of_arrives (readPolicy_arrives env uid validateSource _ _ _ _)

/-! ### Staging -/

theorem Ready.stage {w : World} (ready : Ready w) (path : String) (inode : Inode) :
    Staged ⟨path, inode⟩ ⟨Policy.stage uid path inode w.state, w.trace⟩ := by
  refine ⟨⟨⟨fun save hsave => ?_, ready.spared⟩, ?_, ready.backup⟩, rfl, ⟨_, rfl⟩, rfl⟩
  · rcases ready.kept save hsave with h | h | ⟨p, hp, horigin⟩ | h
    · exact .inl h
    · exact .inr (.inl h)
    · exact (ready.staging p hp save horigin).elim
    · exact .inr (.inr (.inr h))
  · simp [Unedited, Policy.stage]

/-- What is written to the staging file does not change where it came from. -/
theorem Staged.fill {temporary : TemporaryPolicy} {w : World} (staged : Staged temporary w)
    (size : Nat) (text : Option String) :
    Staged temporary ⟨Policy.fill size text w.state, w.trace⟩ := by
  obtain ⟨file, hstaging⟩ := staged.candidate
  have hfilled : (Policy.fill size text w.state).staging =
      some ⟨{ file with size := size, text := text }, .staged⟩ := by
    simp [Policy.fill, hstaging]
  refine ⟨⟨⟨fun save hsave => ?_, staged.spared⟩, ?_, staged.backup⟩, staged.held,
    ⟨_, hfilled⟩, staged.path⟩
  · rcases staged.kept save hsave with h | h | ⟨p, hp, horigin⟩ | h
    · exact .inl h
    · exact .inr (.inl h)
    · exact (staged.staging p hp save horigin).elim
    · exact .inr (.inr (.inr h))
  · intro p hp save
    rw [hfilled] at hp
    rw [← Option.some.inj hp]
    simp

/-- A staging file was made, or nothing is lost. -/
def Stages (r : Except String TemporaryPolicy) (w : World) : Prop :=
  match r with
  | .ok temporary => Staged temporary w
  | .error _ => Clean w

theorem fillStaged_stages (candidate : String) {path : String} {inode : Inode} {w : World}
    (staged : Staged ⟨path, inode⟩ w) :
    Stages (fillStaged env candidate path inode w).1 (fillStaged env candidate path inode w).2 := by
  unfold fillStaged
  have hsecure := momentOr_arrives env .secure (fun error =>
    "cannot secure staged policy " ++ path ++ ": " ++ error) w
  rcases hrun : momentOr env .secure (fun error =>
    "cannot secure staged policy " ++ path ++ ": " ++ error) w with ⟨r, w₁⟩
  rw [hrun] at hsecure
  have hstaged := hsecure.staged staged
  cases r with
  | error e =>
    rw [Prog.bind_error hrun]
    exact ⟨hstaged.toSafe, hstaged.staging⟩
  | ok u =>
    rw [Prog.bind_ok hrun]
    have hwrite := moment_arrives env .write w₁
    rcases hwritten : moment env .write w₁ with ⟨r, w₂⟩
    have hattempt : (Prog.attempt (moment env .write) : RM (Except String Unit)) w₁ = (.ok r, w₂) := by
      unfold Prog.attempt
      rw [hwritten]
    rw [hwritten] at hwrite
    have hstaged' := hwrite.staged hstaged
    rw [Prog.bind_ok hattempt]
    cases r with
    | ok u => exact hstaged'.fill candidate.utf8ByteSize (some candidate)
    | error e =>
      have hasked := @Arrives.silent w₂ [.said .leftover (env w₂.trace .leftover)] (by simp)
      have hfilled := (hasked.staged hstaged').fill (env w₂.trace .leftover : Leftover).size
        (env w₂.trace .leftover : Leftover).text
      exact cleanup_clean env .cleanup ⟨hfilled.toSafe, hfilled.staging⟩

theorem createAt_stages (candidate path : String) {again : RM TemporaryPolicy}
    (hagain : ∀ w, Ready w → Stages (again w).1 (again w).2) {w : World} (ready : Ready w) :
    Stages (createAt env uid candidate path again w).1 (createAt env uid candidate path again w).2 := by
  unfold createAt
  have hcreate := momentOr_arrives env .create (fun error =>
    "cannot stage policy " ++ path ++ ": " ++ error) w
  rcases hrun : momentOr env .create (fun error =>
    "cannot stage policy " ++ path ++ ": " ++ error) w with ⟨r, w₁⟩
  rw [hrun] at hcreate
  have hready := hcreate.ready ready
  cases r with
  | error e =>
    rw [Prog.bind_error hrun]
    exact ⟨hready.toSafe, hready.staging⟩
  | ok u =>
    rw [Prog.bind_ok hrun]
    have hasked := @Arrives.silent w₁ [.said (.creation w₁.state.inodes)
      (env w₁.trace (.creation w₁.state.inodes))] (by simp)
    have hready' := hasked.ready hready
    change Stages (stageOr env uid candidate path again
      (env w₁.trace (.creation w₁.state.inodes) : Creation w₁.state.inodes).inode _).1
      (stageOr env uid candidate path again
        (env w₁.trace (.creation w₁.state.inodes) : Creation w₁.state.inodes).inode _).2
    cases (env w₁.trace (.creation w₁.state.inodes) : Creation w₁.state.inodes).inode with
    | none => exact hagain _ hready'
    | some inode => exact fillStaged_stages env candidate (hready'.stage uid path inode)

theorem createAttempts_stages (candidate : String) (left : Nat) {w : World} (ready : Ready w) :
    Stages (createAttempts env uid candidate left w).1 (createAttempts env uid candidate left w).2 := by
  induction left generalizing w with
  | zero => exact ⟨ready.toSafe, ready.staging⟩
  | succ left ih =>
    have hpath := @Arrives.silent w [.said .nextPath (env w.trace .nextPath)] (by simp)
    exact createAt_stages env uid candidate _ (fun w => ih) (hpath.ready ready)

theorem createTemporary_stages (candidate : String) {w : World} (ready : Ready w) :
    Stages (createTemporary env uid candidate w).1 (createTemporary env uid candidate w).2 := by
  have hstages := createAttempts_stages env uid candidate transactionAttempts ready
  unfold createTemporary
  rcases hrun : createAttempts env uid candidate transactionAttempts w with ⟨r, w₁⟩
  rw [hrun] at hstages
  cases r with
  | error e =>
    rw [Prog.bind_error hrun]
    exact hstages
  | ok temporary =>
    rw [Prog.bind_ok hrun]
    obtain ⟨⟨⟨kept, spared⟩, staging, backup⟩, held, hcandidate, hpath⟩ := hstages
    exact ⟨⟨⟨kept, spared⟩, staging, backup⟩, held, hcandidate, hpath⟩

/-! ### Rolling back -/

/-- A rollback: nothing is lost as long as it is undisturbed. Either the staging path holds the
    candidate again, or the error names the staging path. -/
theorem rollbackExchange_spec {temporary : TemporaryPolicy} (target : String) {w : World}
    (committed : Committed temporary w) :
    let run := rollbackExchange env temporary target w
    Safe run.2 ∧ run.2.state.stagingPath = temporary.path ∧ (Undisturbed run.2.trace →
      match run.1 with
      | .ok _ => Unedited run.2.state.staging
      | .error error => Names error temporary.path) := by
  have hlook := moment_arrives env .inspectReplacement w
  have hcommitted := hlook.committed committed
  dsimp only
  unfold rollbackExchange
  rcases lookUp_spec env .inspectReplacement Disk.target (fun error =>
    "cannot inspect replacement during rollback: " ++ error) w with
    ⟨p, hp, hrun⟩ | ⟨⟨error, hrun⟩, hwhy⟩
  · rw [Prog.bind_ok hrun]
    by_cases hother : (!p.file.regular) = true ∨ p.file.inode ≠ temporary.inode
    · rw [if_pos hother]
      refine ⟨hcommitted.toSafe, hcommitted.path, fun _ => ?_⟩
      exact ⟨_, "", by rw [String.append_empty]⟩
    · rw [if_neg hother]
      rw [not_or, not_not] at hother
      have hstaged := hcommitted.target p hp hother.2
      have hcommitted' := (moment_arrives env .rollback _).committed hcommitted
      rcases exchange_spec env .rollback Disk.staging Disk.target swapTarget
        (moment env .inspectReplacement w).2 with ⟨error, hexchange⟩ | ⟨-, -, hexchange⟩
      · rw [Prog.attempt_bind hexchange]
        refine ⟨hcommitted'.toSafe, hcommitted'.path, fun _ => ?_⟩
        exact ⟨_, ": " ++ error, by rw [← String.append_assoc]⟩
      · rw [Prog.attempt_bind hexchange]
        refine ⟨hcommitted'.toSafe.swapTarget, hcommitted'.path, fun undisturbed => ?_⟩
        -- nothing was saved since the look, so the exchange takes the candidate back
        have hsame := moment_rollback env _ undisturbed
        intro q hq save
        have hcandidate : some p = some q := by
          rw [← hp, ← hsame]
          exact hq
        rw [← Option.some.inj hcandidate, hstaged]
        simp
  · rw [Prog.bind_error hrun]
    refine ⟨hcommitted.toSafe, hcommitted.path, fun undisturbed => ?_⟩
    rcases hwhy with hnone | hfailed
    · have hpresent := hcommitted.present
      rw [hnone] at hpresent
      simp at hpresent
    · exact (hfailed (moment_look env w undisturbed)).elim

/-- A call that ends with a rollback has every saved file accounted for. -/
theorem rollback_accounted {α : Type} {temporary : TemporaryPolicy} (target message : String)
    {w : World} (committed : Committed temporary w) :
    let run := (do
      rollbackOrPreserve env temporary target
      Prog.fail message : RM α) w
    Accounted run.1 run.2 := by
  obtain ⟨hsafe, hpath, hend⟩ := rollbackExchange_spec env target committed
  dsimp only
  unfold rollbackOrPreserve
  rcases hrun : rollbackExchange env temporary target w with ⟨r, w₁⟩
  rw [hrun] at hsafe hpath hend
  rw [Prog.bind_run, Prog.attempt_bind hrun]
  cases r with
  | ok u => exact fun undisturbed => ⟨hsafe, .inl (hend undisturbed)⟩
  | error e =>
    refine fun undisturbed => ⟨⟨hsafe.kept, hsafe.spared⟩, .inr ⟨rfl, e, rfl, ?_⟩⟩
    have hnames := hend undisturbed
    rw [← hpath] at hnames
    exact hnames

/-! ### Keeping the displaced policy -/

theorem renameToBackup_spec (step : FsStep) (w : World) :
    (∃ error, renameToBackup env step w = (.error error, (moment env step w).2)) ∨
    (moment env step w).2.state.backup = none ∧ renameToBackup env step w =
      (.ok (), ⟨swapBackup (moment env step w).2.state, (moment env step w).2.trace⟩) := by
  unfold renameToBackup
  rcases hmoment : moment env step w with ⟨r, w₁⟩
  cases r with
  | error e => exact .inl ⟨e, Prog.bind_error hmoment⟩
  | ok u =>
    rw [Prog.bind_ok hmoment, Prog.read_bind]
    dsimp only
    cases hbackup : w₁.state.backup with
    | some placed => exact .inl ⟨_, rfl⟩
    | none =>
      cases w₁.state.staging with
      | none => exact .inl ⟨_, rfl⟩
      | some placed => exact .inr ⟨rfl, rfl⟩

/-- Moving the displaced policy to the recovery path leaves what was there on the staging path. -/
theorem retain_spec (backupExists : Bool) {temporary : TemporaryPolicy} {w : World}
    (committed : Committed temporary w) :
    let run := (if backupExists then exchange env .retain Disk.staging Disk.backup swapBackup
      else renameToBackup env .retain) w
    match run.1 with
    | .ok _ => Clean run.2
    | .error _ => Committed temporary run.2 := by
  have hcommitted := (moment_arrives env .retain w).committed committed
  have hclean : Clean ⟨swapBackup (moment env .retain w).2.state, (moment env .retain w).2.trace⟩ :=
    ⟨hcommitted.toSafe.swapBackup, hcommitted.backup⟩
  dsimp only
  cases backupExists with
  | true =>
    rw [if_pos rfl]
    rcases exchange_spec env .retain Disk.staging Disk.backup swapBackup w with
      ⟨error, hrun⟩ | ⟨-, -, hrun⟩
    · rw [hrun]
      exact hcommitted
    · rw [hrun]
      exact hclean
  | false =>
    rw [if_neg (by simp)]
    rcases renameToBackup_spec env .retain w with ⟨error, hrun⟩ | ⟨-, hrun⟩
    · rw [hrun]
      exact hcommitted
    · rw [hrun]
      exact hclean

/-- A program during which only editors act keeps the staging path clean. -/
theorem clean_of_arrives {α : Type} {m : RM α} (h : Prog.Keeps Arrives m) :
    Prog.Triple Clean m fun _ => Clean :=
  fun w clean => (h w).clean clean

theorem secureBackup_clean (path : String) :
    Prog.Triple Clean (secureBackup env path) fun _ => Clean := by
  refine Prog.Triple.bind_inv (clean_of_arrives (momentOr_arrives env _ _)) fun _ => ?_
  intro w clean
  rw [Prog.read_bind]
  cases hbackup : w.state.backup with
  | none => exact clean
  | some placed =>
    refine ⟨⟨fun save hsave => ?_, clean.spared⟩, clean.staging⟩
    rcases clean.kept save hsave with h | h | h | ⟨p, hp, horigin⟩
    · exact .inl h
    · exact .inr (.inl h)
    · exact .inr (.inr (.inl h))
    · have hplaced : placed = p := Option.some.inj (hbackup.symm.trans hp)
      exact .inr (.inr (.inr ⟨_, rfl, by rw [hplaced]; exact horigin⟩))

theorem retainDisplaced_accounted (expected : PolicySnapshot) {temporary : TemporaryPolicy}
    (backupExists : Bool) {w : World} (committed : Committed temporary w) :
    let run := retainDisplaced env uid validateSource expected temporary backupExists w
    Accounted run.1 run.2 := by
  have hretain := retain_spec env backupExists committed
  dsimp only at hretain ⊢
  unfold retainDisplaced
  rcases hrun : (if backupExists then exchange env .retain Disk.staging Disk.backup swapBackup
    else renameToBackup env .retain) w with ⟨r, w₁⟩
  rw [hrun] at hretain
  rw [Prog.attempt_bind hrun]
  cases r with
  | error e => exact rollback_accounted env _ _ hretain
  | ok u =>
    have hclean : Prog.Triple Clean (do
        secureBackup env (recoveryPolicyPath expected.path)
        cleanup env .cleanup
        momentOr env .sync fun error =>
          "configuration was replaced but cannot synchronize directory: " ++ error
        readPolicy env uid validateSource expected.path Disk.target .inspectSaved .openSaved :
          RM PolicySnapshot) fun _ => Clean := by
      refine Prog.Triple.bind_inv (secureBackup_clean env _) fun _ => ?_
      refine Prog.Triple.bind_inv (fun w => cleanup_clean env _) fun _ => ?_
      refine Prog.Triple.bind_inv (clean_of_arrives (momentOr_arrives env _ _)) fun _ => ?_
      exact clean_of_arrives (readPolicy_arrives env uid validateSource _ _ _ _)
    exact (hclean w₁ hretain).accounted _

/-! ### The whole call -/

theorem judgeDisplaced_accounted (expected : PolicySnapshot) {temporary : TemporaryPolicy}
    (backupExists : Bool) {w : World} (committed : Committed temporary w) :
    let run := judgeDisplaced env uid validateSource expected temporary backupExists w
    Accounted run.1 run.2 := by
  have hread := readPolicy_arrives env uid validateSource temporary.path Disk.staging
    .inspectDisplaced .openDisplaced w
  dsimp only
  unfold judgeDisplaced
  rcases hrun : readPolicy env uid validateSource temporary.path Disk.staging .inspectDisplaced
    .openDisplaced w with ⟨r, w₁⟩
  rw [hrun] at hread
  have hcommitted := hread.committed committed
  rw [Prog.attempt_bind hrun]
  cases r with
  | error e => exact rollback_accounted env _ _ hcommitted
  | ok snap =>
    by_cases hsame : sameSnapshot expected snap = true
    · dsimp only
      rw [if_pos hsame]
      exact retainDisplaced_accounted env uid validateSource expected backupExists hcommitted
    · dsimp only
      rw [if_neg hsame]
      exact rollback_accounted env _ _ hcommitted

/-- The exchange puts the candidate on the target. -/
theorem Staged.committed {temporary : TemporaryPolicy} {w : World} (staged : Staged temporary w) :
    Committed temporary ⟨swapTarget w.state, w.trace⟩ := by
  obtain ⟨file, hfile⟩ := staged.candidate
  refine ⟨staged.toSafe.swapTarget, by simp [swapTarget, hfile], ?_, staged.backup, staged.held,
    staged.path⟩
  intro p hp _
  have hcandidate : some (⟨file, .staged⟩ : Placed) = some p := hfile.symm.trans hp
  rw [← Option.some.inj hcandidate]

/-- What the candidate was put in the place of, in the trace of a call that got so far. -/
theorem install_run (expected : PolicySnapshot) {temporary : TemporaryPolicy}
    (backupExists : Bool) {w : World} (staged : Staged temporary w) :
    (∃ error, (install env uid validateSource expected temporary backupExists w).1 = .error error ∧
      Clean (install env uid validateSource expected temporary backupExists w).2) ∨
    ∃ w', Committed temporary w' ∧ .mark (.committed w'.state.staging) ∈ w'.trace ∧
      install env uid validateSource expected temporary backupExists w =
        judgeDisplaced env uid validateSource expected temporary backupExists w' := by
  unfold install
  have hinspect := momentOr_arrives env .inspectStaged (fun error =>
    "cannot inspect staged policy: " ++ error) w
  rcases hrun : momentOr env .inspectStaged (fun error =>
    "cannot inspect staged policy: " ++ error) w with ⟨r, w₁⟩
  rw [hrun] at hinspect
  have hstaged := hinspect.staged staged
  cases r with
  | error e =>
    rw [Prog.bind_error hrun]
    exact .inl ⟨e, rfl, hstaged.toSafe, hstaged.staging⟩
  | ok u =>
    rw [Prog.bind_ok hrun]
    have hstaged' := (moment_arrives env .commit w₁).staged hstaged
    rcases exchange_spec env .commit Disk.staging Disk.target swapTarget w₁ with
      ⟨error, hexchange⟩ | ⟨-, -, hexchange⟩
    · rw [Prog.attempt_bind hexchange]
      exact .inl ⟨_, rfl, hstaged'.toSafe, hstaged'.staging⟩
    · rw [Prog.attempt_bind hexchange]
      refine .inr ⟨_, ?_, ?_, rfl⟩
      · exact (Arrives.silent _ (by simp)).committed hstaged'.committed
      · exact List.mem_append_right _ (.head _)

theorem dropTemporary_accounted {α : Type} {r : Except String α} {w : World}
    (accounted : Accounted r w) : Accounted r (dropTemporary env w).2 := by
  unfold dropTemporary
  rw [Prog.read_bind]
  by_cases hremove : w.state.removeOnDrop = true
  · rw [if_pos hremove]
    intro undisturbed
    obtain ⟨hsafe, hstaging | ⟨hpreserved, -⟩⟩ :=
      accounted (undisturbed.of_extends (cleanup_grows env .drop w))
    · exact (cleanup_clean env .drop ⟨hsafe, hstaging⟩).accounted r undisturbed
    · rw [hremove] at hpreserved
      simp at hpreserved
  · rw [if_neg hremove]
    exact accounted

/-- A policy that was read is in its slot. -/
theorem readPolicy_ok {path : String} {slot : Disk → Option Placed} {inspect opened : FsStep}
    {w w' : World} {snap : PolicySnapshot}
    (h : readPolicy env uid validateSource path slot inspect opened w = (.ok snap, w')) :
    ∃ p, slot w'.state = some p ∧ p.file.inode = snap.inode ∧ p.file.text = some snap.source := by
  unfold readPolicy at h
  obtain ⟨inspected, w₁, -, h⟩ := Prog.of_bind_ok h
  split at h
  · obtain ⟨file, w₂, hopened, h⟩ := Prog.of_bind_ok h
    obtain ⟨hcheck, rfl⟩ := Prod.mk.inj h
    obtain ⟨hinode, htext⟩ := checkFile_ok hcheck
    rcases lookUp_spec env opened slot (fun error => "cannot open " ++ path ++ ": " ++ error) w₁ with
      ⟨p, hp, hrun⟩ | ⟨⟨error, hrun⟩, -⟩
    · rw [hrun] at hopened
      obtain ⟨hfile, rfl⟩ := Prod.mk.inj hopened
      rw [← Except.ok.inj hfile] at hinode htext
      exact ⟨p, hp, hinode.symm, htext⟩
    · rw [hrun] at hopened
      simp at hopened
  · simp [Prog.fail] at h

/-- The candidate took the place of the expected policy. -/
def Replaced (expected : PolicySnapshot) (trace : List Step) : Prop :=
  ∃ p, .mark (.committed (some p)) ∈ trace ∧ p.file.inode = expected.inode ∧
    p.file.text = some expected.source

theorem judgeDisplaced_replaced {expected snap : PolicySnapshot} {temporary : TemporaryPolicy}
    {backupExists : Bool} {w : World} (hmark : .mark (.committed w.state.staging) ∈ w.trace)
    (h : (judgeDisplaced env uid validateSource expected temporary backupExists w).1 = .ok snap) :
    Replaced expected (judgeDisplaced env uid validateSource expected temporary backupExists w).2.trace := by
  have hread := readPolicy_arrives env uid validateSource temporary.path Disk.staging
    .inspectDisplaced .openDisplaced w
  unfold judgeDisplaced at h ⊢
  rcases hrun : readPolicy env uid validateSource temporary.path Disk.staging .inspectDisplaced
    .openDisplaced w with ⟨r, w₁⟩
  rw [hrun] at hread
  rw [Prog.attempt_bind hrun] at h ⊢
  cases r with
  | error e =>
    obtain ⟨u, w₂, -, hfail⟩ := Prog.of_bind_ok (Prod.ext h rfl)
    simp [Prog.fail] at hfail
  | ok displaced =>
    dsimp only at h ⊢
    by_cases hsame : sameSnapshot expected displaced = true
    · rw [if_pos hsame] at h ⊢
      obtain ⟨p, hp, hinode, htext⟩ := readPolicy_ok env uid validateSource hrun
      have hgrown := retainDisplaced_grows env uid validateSource expected temporary backupExists w₁
      rw [hread.staging] at hp
      rw [hp] at hmark
      simp only [sameSnapshot, Bool.and_eq_true, decide_eq_true_eq] at hsame
      refine ⟨p, hgrown.subset (hread.grown.subset hmark), ?_, ?_⟩
      · rw [hinode, hsame.1]
      · rw [htext, hsame.2]
    · rw [if_neg hsame] at h
      obtain ⟨u, w₂, -, hfail⟩ := Prog.of_bind_ok (Prod.ext h rfl)
      simp [Prog.fail] at hfail

/-- The paths before a call: nothing is staged. -/
def opening (target backup : Option PolicyFile) : World :=
  ⟨⟨target.map (⟨·, .before⟩), none, backup.map (⟨·, .before⟩), 0, "", none, false⟩, []⟩

theorem opening_ready (target backup : Option PolicyFile) : Ready (opening target backup) := by
  refine ⟨⟨fun save hsave => absurd hsave (Nat.not_lt_zero save), fun p hp => ?_⟩, ?_, ?_⟩
  · simp [opening] at hp
  · simp [Unedited, opening]
  · intro p hp save
    obtain ⟨file, -, rfl⟩ := Option.map_eq_some_iff.mp hp
    simp

/-- What a call that returned owes to the files saved during it. -/
structure EditsKept (expected : PolicySnapshot) (candidate : String)
    (r : Except String PolicySnapshot) (w : World) : Prop where
  /-- No file that an editor saved was deleted. -/
  spared : Spared w.trace
  /-- Each was replaced by a later save, or is on the target, on the recovery path, or on a staging
      path that the error names. -/
  placed : ∀ save < w.state.saves, Superseded w.trace save ∨ At w.state.target save ∨
    At w.state.backup save ∨ (At w.state.staging save ∧
      ∃ error, r = .error error ∧ Names error w.state.stagingPath)
  /-- A call that succeeded put the candidate in the place of the expected file, or the expected file
      already is the candidate. -/
  replaced : ∀ snap, r = .ok snap → candidate = expected.source ∨ Replaced expected w.trace

theorem Accounted.placed {r : Except String PolicySnapshot} {w : World} (accounted : Accounted r w)
    (undisturbed : Undisturbed w.trace) (save : Nat) (hsave : save < w.state.saves) :
    Superseded w.trace save ∨ At w.state.target save ∨ At w.state.backup save ∨
      (At w.state.staging save ∧ ∃ error, r = .error error ∧ Names error w.state.stagingPath) := by
  obtain ⟨hsafe, hstaging⟩ := accounted undisturbed
  rcases hsafe.kept save hsave with h | h | ⟨p, hp, horigin⟩ | h
  · exact .inl h
  · exact .inr (.inl h)
  · rcases hstaging with hunedited | ⟨-, hnamed⟩
    · exact (hunedited p hp save horigin).elim
    · exact .inr (.inr (.inr ⟨⟨p, hp, horigin⟩, hnamed⟩))
  · exact .inr (.inr (.inl h))

theorem Accounted.editsKept {expected : PolicySnapshot} {candidate : String}
    {r : Except String PolicySnapshot} {w : World} (accounted : Accounted r w)
    (undisturbed : Undisturbed w.trace)
    (replaced : ∀ snap, r = .ok snap → candidate = expected.source ∨ Replaced expected w.trace) :
    EditsKept expected candidate r w :=
  ⟨(accounted undisturbed).1.spared, accounted.placed undisturbed, replaced⟩

/-- An undisturbed run keeps the edits. -/
def Owes (expected : PolicySnapshot) (candidate : String)
    (run : Except String PolicySnapshot × World) : Prop :=
  Undisturbed run.2.trace → EditsKept expected candidate run.1 run.2

theorem owes_error {expected : PolicySnapshot} {candidate error : String} {w : World}
    (clean : Clean w) : Owes expected candidate (.error error, w) := by
  intro undisturbed
  exact (clean.accounted _).editsKept undisturbed fun snap hok => by simp at hok

/-- A step during which only editors act, before anything is exchanged. -/
theorem owes_bind {α : Type} {expected : PolicySnapshot} {candidate : String} {m : RM α}
    {f : α → RM PolicySnapshot} (hm : Prog.Keeps Arrives m) {w : World} (ready : Ready w)
    (hf : ∀ a w', m w = (.ok a, w') → Ready w' → Owes expected candidate (f a w')) :
    Owes expected candidate ((m >>= f) w) := by
  have harrives := hm w
  rcases hrun : m w with ⟨r, w'⟩
  rw [hrun] at harrives
  have hready := harrives.ready ready
  cases r with
  | error e =>
    rw [Prog.bind_error hrun]
    exact owes_error ⟨hready.toSafe, hready.staging⟩
  | ok a =>
    rw [Prog.bind_ok hrun]
    exact hf a w' hrun hready

/-- From the staged candidate to the end of the call. -/
theorem installed_editsKept (expected : PolicySnapshot) (candidate : String)
    {temporary : TemporaryPolicy} (backupExists : Bool) {w : World} (staged : Staged temporary w) :
    Owes expected candidate ((do
      let result ← Prog.attempt (install env uid validateSource expected temporary backupExists)
      dropTemporary env
      Prog.lift result : RM PolicySnapshot) w) := by
  rcases hrun : install env uid validateSource expected temporary backupExists w with ⟨r, w₁⟩
  rw [Prog.attempt_bind hrun]
  have hdrop : (do
      dropTemporary env
      Prog.lift r : RM PolicySnapshot) w₁ = (r, (dropTemporary env w₁).2) := by
    unfold dropTemporary
    rw [Prog.bind_run, Prog.read_bind]
    cases w₁.state.removeOnDrop with
    | true => rfl
    | false => rfl
  rw [hdrop]
  have hgrown : Grows w₁ (dropTemporary env w₁).2 := by
    unfold dropTemporary
    rw [Prog.read_bind]
    split
    · exact cleanup_grows env .drop w₁
    · exact Grows.refl w₁
  intro undisturbed
  rcases install_run env uid validateSource expected backupExists staged with
    ⟨error, herror, hclean⟩ | ⟨w', hcommitted, hmark, heq⟩
  · rw [hrun] at herror hclean
    have haccounted := dropTemporary_accounted env (hclean.accounted r)
    refine haccounted.editsKept undisturbed fun snap hok => ?_
    have hfailed : r = .error error := herror
    rw [hfailed] at hok
    simp at hok
  · have hjudged := judgeDisplaced_accounted env uid validateSource expected backupExists hcommitted
    have hreplaced (snap : PolicySnapshot) := @judgeDisplaced_replaced env uid validateSource expected
      snap temporary backupExists w' hmark
    rw [← heq, hrun] at hjudged hreplaced
    refine (dropTemporary_accounted env hjudged).editsKept undisturbed fun snap hok => .inr ?_
    obtain ⟨p, hp, hinode, htext⟩ := hreplaced snap hok
    exact ⟨p, hgrown.subset hp, hinode, htext⟩

/-- From the checked snapshot to the end of the call. -/
theorem staged_editsKept (expected : PolicySnapshot) (candidate : String) (backupExists : Bool)
    {w : World} (ready : Ready w) :
    Owes expected candidate ((do
      let temporary ← createTemporary env uid candidate
      let result ← Prog.attempt (install env uid validateSource expected temporary backupExists)
      dropTemporary env
      Prog.lift result : RM PolicySnapshot) w) := by
  have hstages := createTemporary_stages env uid candidate ready
  rcases hrun : createTemporary env uid candidate w with ⟨r, w₁⟩
  rw [hrun] at hstages
  cases r with
  | error e =>
    rw [Prog.bind_error hrun]
    exact owes_error hstages
  | ok temporary =>
    rw [Prog.bind_ok hrun]
    exact installed_editsKept env uid validateSource expected candidate backupExists hstages

end Phases

/-- For every behaviour of the editors and of the file system in a call: if no save falls between the
    look of a rollback and its exchange, and that look does not fail, then no saved file is deleted,
    each is where the call says when it returns, and a call that succeeds replaced the expected
    file. -/
theorem edits_survive (env : Surroundings) (uid : Nat)
    (validateSource : String → Except String Unit) (expected : PolicySnapshot) (candidate : String)
    (target backup : Option PolicyFile)
    (undisturbed : Undisturbed
      (replacePolicy env uid validateSource expected candidate (opening target backup)).2.trace) :
    EditsKept expected candidate
      (replacePolicy env uid validateSource expected candidate (opening target backup)).1
      (replacePolicy env uid validateSource expected candidate (opening target backup)).2 := by
  suffices howes : Owes expected candidate
      (replacePolicy env uid validateSource expected candidate (opening target backup)) from
    howes undisturbed
  unfold replacePolicy
  refine owes_bind (Prog.Keeps.lift Arrives.refl _) (opening_ready target backup) ?_
  intro _ w₁ _ hready
  refine owes_bind (momentOr_arrives env _ _) hready ?_
  intro _ w₂ _ hready
  refine owes_bind (readPolicy_arrives env uid validateSource _ _ _ _) hready ?_
  intro current w₃ _ hready
  have hclean : Clean w₃ := ⟨hready.toSafe, hready.staging⟩
  by_cases hsame : sameSnapshot expected current = true
  · rw [if_pos hsame]
    by_cases hunchanged : candidate = current.source
    · rw [if_pos hunchanged]
      intro hundisturbed
      refine (hclean.accounted _).editsKept hundisturbed fun snap _ => .inl ?_
      simp only [sameSnapshot, Bool.and_eq_true, decide_eq_true_eq] at hsame
      rw [hunchanged, hsame.2]
    · rw [if_neg hunchanged]
      refine owes_bind (checkRecoveryTarget_arrives env uid _) hready ?_
      intro backupExists w₄ _ hready
      exact staged_editsKept env uid validateSource expected candidate backupExists hready
  · rw [if_neg hsame]
    exact owes_error hclean

/-! ## Two runs -/

/-- The check of `Undisturbed` on one entry. -/
def calm : Step → Bool
  | .said (.moment .rollback _) m => (Moment.saves m).isEmpty
  | .said (.moment .inspectReplacement _) m => (Moment.fault m).isNone
  | _ => true

theorem undisturbed_of_calm {trace : List Step} (h : trace.all calm = true) : Undisturbed trace := by
  rw [List.all_eq_true] at h
  refine ⟨fun held m hm => ?_, fun held m hm => ?_⟩
  · exact List.isEmpty_iff.mp (h _ hm)
  · exact Option.isNone_iff_eq_none.mp (h _ hm)

/-- The origins of the files that a call removed. -/
def removals (trace : List Step) : List Origin :=
  trace.filterMap fun
    | .mark (.removed p) => some p.origin
    | _ => none

theorem mem_of_removals {trace : List Step} {origin : Origin} (h : origin ∈ removals trace) :
    ∃ p, .mark (.removed p) ∈ trace ∧ p.origin = origin := by
  obtain ⟨e, he, horigin⟩ := List.mem_filterMap.mp h
  split at horigin
  · exact ⟨_, he, Option.some.inj horigin⟩
  · simp at horigin

/-- Editors who save given files right before given steps, on a file system without failures. -/
def editing (saves : FsStep → List PolicyFile) : Surroundings := fun _ question =>
  match question with
  | .moment step held =>
    ⟨(saves step).filter fun f => some f.inode ≠ held, fun f hf => by
      simpa using (List.mem_filter.mp hf).2, none⟩
  | .nextPath => "/home/.agent-seat-config.1.1.tmp"
  | .creation used =>
    if h : ⟨1, 9⟩ ∉ used then ⟨some ⟨1, 9⟩, fun i hi => Option.some.inj hi ▸ h⟩
    else ⟨none, by simp⟩
  | .leftover => ⟨0, some ""⟩

def policyFile (inode : Nat) (text : String) : PolicyFile :=
  ⟨⟨1, inode⟩, true, 1000, 0o600, 32, some text⟩

/-- A settings call that found `enabled = false` and wants `enabled = true`. -/
def settingsCall (saves : FsStep → List PolicyFile) : Except String PolicySnapshot × World :=
  replacePolicy (editing saves) 1000 (fun _ => .ok ()) ⟨"/home/config.toml", "enabled = false", ⟨1, 1⟩⟩
    "enabled = true" (opening (some (policyFile 1 "enabled = false")) none)

/-- One save right before the exchange with the target. -/
def oneSave : FsStep → List PolicyFile
  | .commit => [policyFile 2 "max_sessions = 2"]
  | _ => []

/-- The call notices the save and takes the candidate back: the saved file is on the target. -/
theorem edits_survive_rollback :
    EditsKept ⟨"/home/config.toml", "enabled = false", ⟨1, 1⟩⟩ "enabled = true"
      (settingsCall oneSave).1 (settingsCall oneSave).2 ∧
    (settingsCall oneSave).2.state.target = some ⟨policyFile 2 "max_sessions = 2", .editor 0⟩ := by
  refine ⟨edits_survive _ _ _ _ _ _ _ (undisturbed_of_calm ?_), ?_⟩
  · decide +kernel
  · decide +kernel

/-- A second save, between the look of the rollback and its exchange. -/
def twoSaves : FsStep → List PolicyFile
  | .commit => [policyFile 2 "max_sessions = 2"]
  | .rollback => [policyFile 3 "max_sessions = 3"]
  | _ => []

/-- The rollback moves the second saved file to the staging path, where the destructor removes it;
    the first one is back on the target. -/
theorem edit_lost_in_rollback :
    ¬ EditsKept ⟨"/home/config.toml", "enabled = false", ⟨1, 1⟩⟩ "enabled = true"
      (settingsCall twoSaves).1 (settingsCall twoSaves).2 ∧
    removals (settingsCall twoSaves).2.trace = [.editor 1] ∧
    (settingsCall twoSaves).2.state.target = some ⟨policyFile 2 "max_sessions = 2", .editor 0⟩ := by
  have hremoved : removals (settingsCall twoSaves).2.trace = [.editor 1] := by decide +kernel
  refine ⟨fun kept => ?_, hremoved, by decide +kernel⟩
  have hmem : .editor 1 ∈ removals (settingsCall twoSaves).2.trace := by
    rw [hremoved]
    exact .head _
  obtain ⟨p, hp, horigin⟩ := mem_of_removals hmem
  exact kept.spared p hp 1 horigin

end AgentSeat.Policy
