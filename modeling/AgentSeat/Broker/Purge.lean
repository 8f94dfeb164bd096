/-
  Removing an installed enrollment (`purge_installed_files` of `agent-seat-activity-enroll.rs`).

  The removal first checks that the enrollment directory holds exactly the three files of an
  enrollment, and that all seven files are as an installation leaves them. Then it removes one after
  the other. A removal that stops in the middle leaves fewer files than the check asks for, so the
  next one refuses them.

  Main result:
  * `purge_resumes_iff`: of the nine calls that can fail, only the first leaves an enrollment that a
    later removal takes away.
-/
import AgentSeat.Broker.Install

namespace AgentSeat.Broker

open AgentSeat.Lib AgentSeat.Lib.Json AgentSeat.Lib.Paths

/-! ## The code -/

/-- The unit directory, and the enrollment directory of a user as long as it is there. -/
structure PurgeState where
  units : Directory
  enrollment : Option Directory

inductive PurgeCall where
  | enumerate
  | inspect (directory : InstallDirectory) (name : Bytes)
  | remove (directory : InstallDirectory) (name : Bytes)
  | removeDirectory
  | synchronize
  deriving DecidableEq

inductive PurgeError where
  | cannotEnumerate
  | unexpectedFile
  | cannotInspect (name : Bytes)
  | notExact (name : Bytes)
  | cannotRemove (name : Bytes)
  | cannotRemoveDirectory
  | cannotSynchronize
  deriving DecidableEq

abbrev PurgeFaults := Env (fun _ : PurgeCall => Bool) Unit
abbrev PM := Prog (Dialogue (fun _ : PurgeCall => Bool) Unit PurgeState) PurgeError

def PurgeState.files (directory : InstallDirectory) (s : PurgeState) : Directory :=
  match directory with
  | .units => s.units
  | .enrollment => s.enrollment.getD []

def PurgeState.unlink (directory : InstallDirectory) (name : Bytes) (s : PurgeState) : PurgeState :=
  match directory with
  | .units => { s with units := s.units.unlink name }
  | .enrollment => { s with enrollment := s.enrollment.map (Directory.unlink name) }

def unitNames (uid : Nat) : List Bytes :=
  [brokerServiceName uid, brokerSocketName uid, guardServiceName uid, guardSocketName uid]

def enrollmentNames : List Bytes :=
  [ascii "initial-input-set.v1", ascii "enrolled-device-set.v1", ascii "REVIEW.txt"]

/-- The names in a directory are these, as sets. -/
def namesExactly (names : List Bytes) (d : Directory) : Bool :=
  d.all (fun entry => names.contains entry.1) && names.all fun name => (d.find name).isSome

section Purge

variable (faults : PurgeFaults) (uid ownerUid : Nat)

def purgeCall (call : PurgeCall) (error : PurgeError) : PM Unit := do
  let fails ← Dialogue.ask faults call
  if fails then Prog.fail error else pure ()

def onFiles (f : PurgeState → PurgeState) : PM Unit := Prog.update fun w => ⟨f w.state, w.trace⟩

/-- An installed file that nobody has touched. -/
def removable (node : FileNode) : Bool :=
  node.regular && node.links = 1 && node.owner = ownerUid && node.mode &&& 0o777 = 0o600

def verifyRemovableFile (directory : InstallDirectory) (name : Bytes) : PM Unit := do
  purgeCall faults (.inspect directory name) (.cannotInspect name)
  let found ← Prog.read fun w => (w.state.files directory).find name
  match found with
  | none => Prog.fail (.cannotInspect name)
  | some node => if removable ownerUid node then pure () else Prog.fail (.notExact name)

def verifyRemovableFiles (directory : InstallDirectory) : List Bytes → PM Unit
  | [] => pure ()
  | name :: rest => do
    verifyRemovableFile faults ownerUid directory name
    verifyRemovableFiles directory rest

def removeFile (directory : InstallDirectory) (name : Bytes) : PM Unit := do
  purgeCall faults (.remove directory name) (.cannotRemove name)
  let found ← Prog.read fun w => (w.state.files directory).find name
  match found with
  | none => Prog.fail (.cannotRemove name)
  | some _ => onFiles (PurgeState.unlink directory name)

def removeFiles (directory : InstallDirectory) : List Bytes → PM Unit
  | [] => pure ()
  | name :: rest => do
    removeFile faults directory name
    removeFiles directory rest

/-- The checks before anything is removed. -/
def checkEnrollment : PM Unit := do
  purgeCall faults .enumerate .cannotEnumerate
  let enrollment ← Prog.read fun w => w.state.enrollment
  match enrollment with
  | none => Prog.fail .cannotEnumerate
  | some d =>
    if namesExactly enrollmentNames d then do
      verifyRemovableFiles faults ownerUid .units (unitNames uid)
      verifyRemovableFiles faults ownerUid .enrollment enrollmentNames
    else Prog.fail .unexpectedFile

def removeEnrollmentDirectory : PM Unit := do
  purgeCall faults .removeDirectory .cannotRemoveDirectory
  let enrollment ← Prog.read fun w => w.state.enrollment
  match enrollment with
  | some [] => onFiles fun s => { s with enrollment := none }
  | _ => Prog.fail .cannotRemoveDirectory

/-- Everything that follows the removal of the enrollment's files. -/
def removeRest : PM Unit := do
  removeFiles faults .units (unitNames uid)
  removeEnrollmentDirectory faults
  purgeCall faults .synchronize .cannotSynchronize

def purgeInstalledFiles : PM Unit := do
  checkEnrollment faults uid ownerUid
  removeFiles faults .enrollment enrollmentNames
  removeRest faults uid

end Purge

/-! ## What a resumed removal is -/

/-- An enrollment as an installation leaves it. -/
structure ExactlyInstalled (uid ownerUid : Nat) (s : PurgeState) : Prop where
  enrollment : ∃ d, s.enrollment = some d ∧ namesExactly enrollmentNames d = true
  files : ∀ name ∈ enrollmentNames, ∃ node, (s.files .enrollment).find name = some node ∧
    removable ownerUid node = true
  units : ∀ name ∈ unitNames uid, ∃ node, s.units.find name = some node ∧
    removable ownerUid node = true

/-- The calls of a removal that change something, in their order, and the final one. -/
def removalCalls (uid : Nat) : List PurgeCall :=
  enrollmentNames.map (.remove .enrollment) ++ (unitNames uid).map (.remove .units) ++
    [.removeDirectory, .synchronize]

/-- One call fails, or none does. -/
def failingAt (call : PurgeCall) : PurgeFaults := fun _ asked => asked = call
def neverFailing : PurgeFaults := fun _ _ => false

/-- The files and the directory after a removal, and its result. -/
def purged (faults : PurgeFaults) (uid ownerUid : Nat) (s : PurgeState) :
    Except PurgeError Unit × PurgeState :=
  ((purgeInstalledFiles faults uid ownerUid ⟨s, []⟩).1,
    (purgeInstalledFiles faults uid ownerUid ⟨s, []⟩).2.state)

/-- Only files of the enrollment are gone. -/
structure Scoped (uid : Nat) (before after : PurgeState) : Prop where
  units : ∀ name, name ∉ unitNames uid → after.units.find name = before.units.find name
  enrollment : ∀ name, name ∉ enrollmentNames →
    (after.files .enrollment).find name = (before.files .enrollment).find name

/-- A removal that fails at this call removes nothing else, and the next one finishes it. -/
structure Resumes (uid ownerUid : Nat) (s : PurgeState) (call : PurgeCall) : Prop where
  ownOnly : Scoped uid s (purged (failingAt call) uid ownerUid s).2
  succeeds : (purged neverFailing uid ownerUid (purged (failingAt call) uid ownerUid s).2).1 = .ok ()
  units : ∀ name ∈ unitNames uid,
    (purged neverFailing uid ownerUid (purged (failingAt call) uid ownerUid s).2).2.units.find name =
      none
  enrollment :
    (purged neverFailing uid ownerUid (purged (failingAt call) uid ownerUid s).2).2.enrollment = none

/-! ## Only files of the enrollment are removed -/

theorem Scoped.refl (uid : Nat) (s : PurgeState) : Scoped uid s s := ⟨fun _ _ => rfl, fun _ _ => rfl⟩

theorem Scoped.trans {uid : Nat} {s s' s'' : PurgeState} (h : Scoped uid s s')
    (h' : Scoped uid s' s'') : Scoped uid s s'' :=
  ⟨fun name hname => (h'.units name hname).trans (h.units name hname),
    fun name hname => (h'.enrollment name hname).trans (h.enrollment name hname)⟩

theorem find_files_unlink (directory : InstallDirectory) (name other : Bytes) (s : PurgeState) :
    ((s.unlink directory name).files directory).find other =
      if other = name then none else (s.files directory).find other := by
  cases directory with
  | units => exact Directory.find_unlink name other s.units
  | enrollment =>
    unfold PurgeState.unlink PurgeState.files
    dsimp only
    cases s.enrollment with
    | none => simp [Directory.find]
    | some d => exact Directory.find_unlink name other d

/-- The names of one of the two directories. -/
def ownNames (uid : Nat) : InstallDirectory → List Bytes
  | .units => unitNames uid
  | .enrollment => enrollmentNames

theorem Scoped.unlink {uid : Nat} (directory : InstallDirectory) {name : Bytes}
    (h : name ∈ ownNames uid directory) (s : PurgeState) : Scoped uid s (s.unlink directory name) := by
  cases directory with
  | units =>
    refine ⟨fun other hother => ?_, fun _ _ => rfl⟩
    have hne : other ≠ name := fun heq => hother (heq ▸ h)
    have hfind := find_files_unlink .units name other s
    rw [if_neg hne] at hfind
    exact hfind
  | enrollment =>
    refine ⟨fun _ _ => rfl, fun other hother => ?_⟩
    have hne : other ≠ name := fun heq => hother (heq ▸ h)
    rw [find_files_unlink, if_neg hne]

section Keeps

variable (faults : PurgeFaults) (uid ownerUid : Nat)

/-- A program that moves the files along a relation. -/
def Along {α : Type} (R : PurgeState → PurgeState → Prop) (m : PM α) : Prop :=
  Prog.Keeps (fun w w' => R w.state w'.state) m

variable {R : PurgeState → PurgeState → Prop}

theorem Along.bind {α β : Type} (trans : ∀ a b c, R a b → R b c → R a c) {m : PM α} {f : α → PM β}
    (hm : Along R m) (hf : ∀ a, Along R (f a)) : Along R (m >>= f) :=
  Prog.Keeps.bind (fun a b c => trans a.state b.state c.state) hm hf

theorem purgeCall_along (refl : ∀ s, R s s) (call : PurgeCall) (error : PurgeError) :
    Along R (purgeCall faults call error) := by
  intro w
  have hrun : purgeCall faults call error w = (if faults w.trace call then Prog.fail error
      else pure () : PM Unit) ⟨w.state, w.trace ++ [.said call (faults w.trace call)]⟩ := rfl
  rw [hrun]
  split
  · exact refl w.state
  · exact refl w.state

theorem removeFile_along (refl : ∀ s, R s s) (trans : ∀ a b c, R a b → R b c → R a c)
    {directory : InstallDirectory} {name : Bytes} (h : ∀ s, R s (s.unlink directory name)) :
    Along R (removeFile faults directory name) := by
  refine Along.bind trans (purgeCall_along faults refl _ _) fun _ => ?_
  refine Along.bind trans (fun w => refl w.state) fun found => ?_
  cases found with
  | none => exact fun w => refl w.state
  | some node => exact fun w => h w.state

theorem removeFiles_along (refl : ∀ s, R s s) (trans : ∀ a b c, R a b → R b c → R a c)
    {directory : InstallDirectory} {names : List Bytes}
    (h : ∀ name ∈ names, ∀ s, R s (s.unlink directory name)) :
    Along R (removeFiles faults directory names) := by
  induction names with
  | nil => exact fun w => refl w.state
  | cons name rest ih =>
    exact Along.bind trans (removeFile_along faults refl trans (h name List.mem_cons_self))
      fun _ => ih fun other hother => h other (List.mem_cons_of_mem _ hother)

theorem verifyRemovableFiles_along (refl : ∀ s, R s s) (trans : ∀ a b c, R a b → R b c → R a c)
    (directory : InstallDirectory) (names : List Bytes) :
    Along R (verifyRemovableFiles faults ownerUid directory names) := by
  induction names with
  | nil => exact fun w => refl w.state
  | cons name rest ih =>
    refine Along.bind trans ?_ fun _ => ih
    refine Along.bind trans (purgeCall_along faults refl _ _) fun _ => ?_
    refine Along.bind trans (fun w => refl w.state) fun found => ?_
    cases found with
    | none => exact fun w => refl w.state
    | some node =>
      dsimp only
      split
      · exact fun w => refl w.state
      · exact fun w => refl w.state

theorem checkEnrollment_along (refl : ∀ s, R s s) (trans : ∀ a b c, R a b → R b c → R a c) :
    Along R (checkEnrollment faults uid ownerUid) := by
  refine Along.bind trans (purgeCall_along faults refl _ _) fun _ => ?_
  refine Along.bind trans (fun w => refl w.state) fun enrollment => ?_
  cases enrollment with
  | none => exact fun w => refl w.state
  | some d =>
    dsimp only
    split
    · exact Along.bind trans (verifyRemovableFiles_along faults ownerUid refl trans _ _)
        fun _ => verifyRemovableFiles_along faults ownerUid refl trans _ _
    · exact fun w => refl w.state

theorem removeRest_along (refl : ∀ s, R s s) (trans : ∀ a b c, R a b → R b c → R a c)
    (hunits : ∀ name ∈ unitNames uid, ∀ s, R s (s.unlink .units name))
    (hdirectory : ∀ s, s.enrollment = some [] → R s { s with enrollment := none }) :
    Along R (removeRest faults uid) := by
  refine Along.bind trans (removeFiles_along faults refl trans hunits) fun _ => ?_
  refine Along.bind trans ?_ fun _ => purgeCall_along faults refl _ _
  refine Along.bind trans (purgeCall_along faults refl _ _) fun _ => ?_
  intro w
  rw [Prog.read_bind]
  rcases henrollment : w.state.enrollment with _ | _ | ⟨entry, rest⟩
  · exact refl w.state
  · exact hdirectory w.state henrollment
  · exact refl w.state

/-- Whichever calls fail, a removal only removes files of the enrollment. -/
theorem purge_scoped (s : PurgeState) : Scoped uid s (purged faults uid ownerUid s).2 := by
  have hrefl := Scoped.refl uid
  have htrans (a b c : PurgeState) (h : Scoped uid a b) (h' : Scoped uid b c) := h.trans h'
  have hpurge : Along (Scoped uid) (purgeInstalledFiles faults uid ownerUid) := by
    refine Along.bind htrans (checkEnrollment_along faults uid ownerUid hrefl htrans) fun _ => ?_
    refine Along.bind htrans (removeFiles_along faults hrefl htrans fun name hname =>
      Scoped.unlink .enrollment hname) fun _ => ?_
    refine removeRest_along faults uid hrefl htrans (fun name hname =>
      Scoped.unlink .units hname) fun s hs => ⟨fun _ _ => rfl, fun _ _ => ?_⟩
    unfold PurgeState.files
    dsimp only
    rw [hs]
    rfl
  exact hpurge ⟨s, []⟩

end Keeps

/-! ## What is left after the first file is gone -/

/-- The first file of the enrollment, or its directory, is gone. -/
def Lacking (s : PurgeState) : Prop := (s.files .enrollment).find (ascii "initial-input-set.v1") = none

theorem Lacking.unlink {s : PurgeState} (h : Lacking s) (directory : InstallDirectory) (name : Bytes) :
    Lacking (s.unlink directory name) := by
  unfold Lacking at h ⊢
  cases directory with
  | units => exact h
  | enrollment =>
    rw [find_files_unlink, h]
    split <;> rfl

/-- A removal refuses what lacks the first file. -/
theorem purged_lacking (faults : PurgeFaults) (uid ownerUid : Nat) {s : PurgeState} (h : Lacking s) :
    (purged faults uid ownerUid s).1 ≠ .ok () := by
  have hcheck : Does s (checkEnrollment faults uid ownerUid) fun r _ _ => ∃ e, r = .error e := by
    have hcall : Does s (purgeCall faults .enumerate .cannotEnumerate) fun _ _ s' => s' = s := by
      refine Does.bind (F := fun _ _ s' => s' = s) (Does.ask fun _ => rfl) (fun fails _ s' hs => ?_)
        fun _ _ _ hs => hs
      split
      · exact Does.fail hs
      · exact Does.pure hs
    refine Does.bind hcall (fun _ _ s' hs => ?_) fun e _ _ _ => ⟨e, rfl⟩
    refine Does.read_bind (g := PurgeState.enrollment) ?_
    rw [hs]
    cases henrollment : s.enrollment with
    | none => exact Does.fail ⟨_, rfl⟩
    | some d =>
      have hmissing : d.find (ascii "initial-input-set.v1") = none := by
        unfold Lacking PurgeState.files at h
        rw [henrollment] at h
        exact h
      have hexact : namesExactly enrollmentNames d = false := by
        unfold namesExactly enrollmentNames
        rw [List.all_cons, hmissing]
        simp
      dsimp only
      rw [if_neg (by simp [hexact])]
      exact Does.fail ⟨_, rfl⟩
  intro hok
  unfold purged purgeInstalledFiles at hok
  obtain ⟨-, -, e, he⟩ := hcheck []
  rw [Prog.bind_error (Prod.ext he rfl)] at hok
  simp at hok

/-! ## Calls that work -/

/-- From `s`, the program succeeds and leaves `s'`. -/
def Works {α : Type} (s : PurgeState) (m : PM α) (a : α) (s' : PurgeState) : Prop :=
  Does s m fun r _ s₁ => r = .ok a ∧ s₁ = s'

theorem Works.bind {α β : Type} {s s₁ : PurgeState} {m : PM α} {a : α} {f : α → PM β}
    {G : Except PurgeError β → List (Lib.Entry (fun _ : PurgeCall => Bool) Unit) → PurgeState → Prop}
    (hm : Works s m a s₁) (hf : ∀ added, Does s₁ (f a) fun r more => G r (added ++ more)) :
    Does s (m >>= f) G := by
  refine Does.bind hm (fun a' added s' h => ?_) fun e added s' h => ?_
  · obtain ⟨ha, rfl⟩ := h
    obtain rfl := Except.ok.inj ha
    exact hf added
  · simp at h

theorem Works.then {α β : Type} {s s₁ s₂ : PurgeState} {m : PM α} {a : α} {f : α → PM β} {b : β}
    (hm : Works s m a s₁) (hf : Works s₁ (f a) b s₂) : Works s (m >>= f) b s₂ :=
  Works.bind hm fun _ => hf

theorem Works.read {α β : Type} {s s' : PurgeState} {g : PurgeState → α} {f : α → PM β} {b : β}
    (h : Works s (f (g s)) b s') : Works s ((Prog.read fun w => g w.state) >>= f) b s' :=
  Does.read_bind h

theorem Works.run {α : Type} {s s' : PurgeState} {m : PM α} {a : α} (h : Works s m a s')
    {w : Dialogue (fun _ : PurgeCall => Bool) Unit PurgeState} (hw : w.state = s) :
    (m w).1 = .ok a ∧ (m w).2.state = s' := by
  subst hw
  obtain ⟨-, -, hrun⟩ := h w.trace
  exact hrun

section Works

variable {faults : PurgeFaults} {uid ownerUid : Nat} {s : PurgeState}

theorem purgeCall_works {call : PurgeCall} (h : ∀ trace, faults trace call = false)
    (error : PurgeError) : Works s (purgeCall faults call error) () s := by
  intro trace
  have hrun : purgeCall faults call error ⟨s, trace⟩ = (if faults trace call then Prog.fail error
      else pure () : PM Unit) ⟨s, trace ++ [.said call (faults trace call)]⟩ := rfl
  rw [hrun, h trace]
  exact ⟨_, rfl, rfl, rfl⟩

theorem onFiles_works (f : PurgeState → PurgeState) : Works s (onFiles f) () (f s) := by
  intro trace
  exact ⟨[], (List.append_nil _).symm, rfl, rfl⟩

theorem verifyRemovableFiles_works {directory : InstallDirectory} {names : List Bytes}
    (h : ∀ name trace, faults trace (.inspect directory name) = false)
    (hfiles : ∀ name ∈ names, ∃ node, (s.files directory).find name = some node ∧
      removable ownerUid node = true) :
    Works s (verifyRemovableFiles faults ownerUid directory names) () s := by
  induction names with
  | nil => exact Does.pure ⟨rfl, rfl⟩
  | cons name rest ih =>
    obtain ⟨node, hfind, hremovable⟩ := hfiles name List.mem_cons_self
    have hfirst : Works s (verifyRemovableFile faults ownerUid directory name) () s := by
      refine (purgeCall_works (h name) _).then ?_
      refine Works.read (g := fun s : PurgeState => (s.files directory).find name) ?_
      rw [hfind]
      dsimp only
      rw [if_pos hremovable]
      exact Does.pure ⟨rfl, rfl⟩
    exact hfirst.then (ih fun other hother => hfiles other (List.mem_cons_of_mem _ hother))

theorem checkEnrollment_works (installed : ExactlyInstalled uid ownerUid s)
    (henumerate : ∀ trace, faults trace .enumerate = false)
    (hinspect : ∀ directory name trace, faults trace (.inspect directory name) = false) :
    Works s (checkEnrollment faults uid ownerUid) () s := by
  obtain ⟨d, henrollment, hexact⟩ := installed.enrollment
  refine (purgeCall_works henumerate _).then ?_
  refine Works.read (g := PurgeState.enrollment) ?_
  rw [henrollment]
  dsimp only
  rw [if_pos hexact]
  exact (verifyRemovableFiles_works (hinspect .units) installed.units).then
    (verifyRemovableFiles_works (hinspect .enrollment) installed.files)

theorem removeFile_works {directory : InstallDirectory} {name : Bytes}
    (h : ∀ trace, faults trace (.remove directory name) = false)
    (hpresent : ((s.files directory).find name).isSome) :
    Works s (removeFile faults directory name) () (s.unlink directory name) := by
  obtain ⟨node, hfind⟩ := Option.isSome_iff_exists.mp hpresent
  refine (purgeCall_works h _).then ?_
  refine Works.read (g := fun s : PurgeState => (s.files directory).find name) ?_
  rw [hfind]
  exact onFiles_works (PurgeState.unlink directory name)

/-- The files after all of these are removed. -/
def unlinkAll (directory : InstallDirectory) (names : List Bytes) (s : PurgeState) : PurgeState :=
  names.foldl (fun s name => s.unlink directory name) s

theorem removeFiles_works {directory : InstallDirectory} {names : List Bytes} (nodup : names.Nodup)
    (h : ∀ name trace, faults trace (.remove directory name) = false)
    (hpresent : ∀ name ∈ names, ((s.files directory).find name).isSome) :
    Works s (removeFiles faults directory names) () (unlinkAll directory names s) := by
  induction names generalizing s with
  | nil => exact Does.pure ⟨rfl, rfl⟩
  | cons name rest ih =>
    obtain ⟨hnew, hrest⟩ := List.nodup_cons.mp nodup
    refine (removeFile_works (h name) (hpresent name List.mem_cons_self)).then (ih hrest ?_)
    intro other hother
    have hne : other ≠ name := fun heq => hnew (heq ▸ hother)
    rw [find_files_unlink, if_neg hne]
    exact hpresent other (List.mem_cons_of_mem _ hother)

theorem find_unlinkAll (directory : InstallDirectory) {names : List Bytes} {name : Bytes}
    (h : name ∈ names ∨ (s.files directory).find name = none) :
    ((unlinkAll directory names s).files directory).find name = none := by
  induction names generalizing s with
  | nil => simpa [unlinkAll] using h
  | cons first rest ih =>
    refine ih ?_
    rw [find_files_unlink]
    rcases h with h | h
    · rcases List.mem_cons.mp h with rfl | h
      · exact .inr (if_pos rfl)
      · exact .inl h
    · exact .inr (by rw [h]; split <;> rfl)

/-- Removing files of one directory leaves the other. -/
theorem unlinkAll_units (names : List Bytes) (s : PurgeState) :
    (unlinkAll .units names s).enrollment = s.enrollment := by
  induction names generalizing s with
  | nil => rfl
  | cons name rest ih => exact ih _

theorem unlinkAll_enrollment_units (names : List Bytes) (s : PurgeState) :
    (unlinkAll .enrollment names s).units = s.units := by
  induction names generalizing s with
  | nil => rfl
  | cons name rest ih => exact ih _

/-- A directory without other names is empty when these are removed. -/
theorem unlinkAll_enrollment {names : List Bytes} {d : Directory}
    (hd : s.enrollment = some d) (h : ∀ entry ∈ d, entry.1 ∈ names) :
    (unlinkAll .enrollment names s).enrollment = some [] := by
  induction names generalizing s d with
  | nil =>
    have hnil : d = [] := List.eq_nil_iff_forall_not_mem.mpr fun entry hentry => by
      simpa using h entry hentry
    rw [← hnil]
    exact hd
  | cons name rest ih =>
    have hnext : (s.unlink .enrollment name).enrollment = some (d.unlink name) := by
      unfold PurgeState.unlink
      dsimp only
      rw [hd]
      rfl
    refine ih hnext fun entry hentry => ?_
    obtain ⟨hmem, hne⟩ := List.mem_filter.mp hentry
    rcases List.mem_cons.mp (h entry hmem) with heq | hrest
    · simp [heq] at hne
    · exact hrest

end Works

/-! ## A removal without failures -/

theorem stems_ne (uid : Nat) (suffix suffix' : Bytes) :
    brokerStem uid ++ suffix ≠ guardStem uid ++ suffix' := by
  intro h
  have htake := congrArg (List.take 12) h
  unfold brokerStem guardStem at htake
  rw [List.append_assoc, List.append_assoc, List.take_append_of_le_length (by decide),
    List.take_append_of_le_length (by decide)] at htake
  exact absurd htake (by decide)

theorem suffixes_ne (stem : Bytes) : stem ++ ascii ".service" ≠ stem ++ ascii ".socket" := by
  intro h
  exact absurd (List.append_cancel_left h) (by decide)

theorem unitNames_nodup (uid : Nat) : (unitNames uid).Nodup := by
  have hbroker : brokerServiceName uid ≠ brokerSocketName uid := suffixes_ne _
  have hguard : guardServiceName uid ≠ guardSocketName uid := suffixes_ne _
  have hstem (suffix suffix' : Bytes) := stems_ne uid suffix suffix'
  unfold unitNames
  simp only [List.nodup_cons, List.mem_cons, List.not_mem_nil, or_false, not_or, not_false_eq_true,
    List.nodup_nil, and_true]
  exact ⟨⟨hbroker, hstem _ _, hstem _ _⟩, ⟨hstem _ _, hstem _ _⟩, hguard⟩

theorem enrollmentNames_nodup : enrollmentNames.Nodup := by decide

/-- The files after a removal to the end. -/
def emptied (uid : Nat) (s : PurgeState) : PurgeState :=
  { unlinkAll .units (unitNames uid) (unlinkAll .enrollment enrollmentNames s) with
    enrollment := none }

section Installed

variable {uid ownerUid : Nat} {s : PurgeState}

theorem ExactlyInstalled.present (h : ExactlyInstalled uid ownerUid s) :
    ∀ name ∈ enrollmentNames, ((s.files .enrollment).find name).isSome := by
  intro name hname
  obtain ⟨node, hfind, -⟩ := h.files name hname
  rw [hfind]
  rfl

theorem ExactlyInstalled.unit_present (h : ExactlyInstalled uid ownerUid s) :
    ∀ name ∈ unitNames uid,
      (((unlinkAll .enrollment enrollmentNames s).files .units).find name).isSome := by
  intro name hname
  obtain ⟨node, hfind, -⟩ := h.units name hname
  show ((unlinkAll .enrollment enrollmentNames s).units.find name).isSome = true
  rw [unlinkAll_enrollment_units, hfind]
  rfl

theorem purge_works (h : ExactlyInstalled uid ownerUid s) :
    Works s (purgeInstalledFiles neverFailing uid ownerUid) () (emptied uid s) := by
  obtain ⟨d, henrollment, hexact⟩ := h.enrollment
  have hnames : ∀ entry ∈ d, entry.1 ∈ enrollmentNames := by
    intro entry hentry
    have hall := (Bool.and_eq_true_iff.mp hexact).1
    exact List.contains_iff_mem.mp (List.all_eq_true.mp hall entry hentry)
  refine (checkEnrollment_works h (fun _ => rfl) fun _ _ _ => rfl).then ?_
  refine (removeFiles_works enrollmentNames_nodup (fun _ _ => rfl) h.present).then ?_
  refine (removeFiles_works (unitNames_nodup uid) (fun _ _ => rfl) h.unit_present).then ?_
  have hempty := (unlinkAll_units (unitNames uid) (unlinkAll .enrollment enrollmentNames s)).trans
    (unlinkAll_enrollment henrollment hnames)
  have hdirectory : Works (unlinkAll .units (unitNames uid)
      (unlinkAll .enrollment enrollmentNames s)) (removeEnrollmentDirectory neverFailing) ()
      (emptied uid s) := by
    refine (purgeCall_works (fun _ => rfl) _).then ?_
    refine Works.read (g := PurgeState.enrollment) ?_
    rw [hempty]
    exact onFiles_works fun s => { s with enrollment := none }
  exact hdirectory.then (purgeCall_works (fun _ => rfl) _)

theorem purged_works {faults : PurgeFaults} {s' : PurgeState}
    (h : Works s (purgeInstalledFiles faults uid ownerUid) () s') :
    purged faults uid ownerUid s = (.ok (), s') := by
  obtain ⟨hresult, hstate⟩ := h.run (w := ⟨s, []⟩) rfl
  exact Prod.ext hresult hstate

theorem find_emptied {name : Bytes} (hname : name ∈ unitNames uid) :
    (emptied uid s).units.find name = none :=
  find_unlinkAll .units (.inl hname)

end Installed

/-! ## A removal with one failure -/

section Failing

variable {uid ownerUid : Nat} {s : PurgeState} {call : PurgeCall}

/-- The calls of the checks are not among those that can fail. -/
theorem removalCalls_ne (hcall : call ∈ removalCalls uid) :
    call ≠ .enumerate ∧ ∀ directory name, call ≠ .inspect directory name := by
  unfold removalCalls at hcall
  simp only [List.mem_append, List.mem_map, List.mem_cons, List.not_mem_nil, or_false] at hcall
  rcases hcall with (⟨name, -, rfl⟩ | ⟨name, -, rfl⟩) | rfl | rfl <;> simp

theorem failingAt_ne {asked : PurgeCall} (h : call ≠ asked)
    (trace : List (Lib.Entry (fun _ : PurgeCall => Bool) Unit)) :
    failingAt call trace asked = false := by
  simp [failingAt, h.symm]

theorem checkEnrollment_passes (h : ExactlyInstalled uid ownerUid s)
    (hcall : call ∈ removalCalls uid) :
    Works s (checkEnrollment (failingAt call) uid ownerUid) () s :=
  checkEnrollment_works h (failingAt_ne (removalCalls_ne hcall).1)
    fun directory name => failingAt_ne ((removalCalls_ne hcall).2 directory name)

/-- When the first removal fails, nothing is removed. -/
theorem purged_first (h : ExactlyInstalled uid ownerUid s) :
    (purged (failingAt (.remove .enrollment (ascii "initial-input-set.v1"))) uid ownerUid s).2 = s := by
  have hcall : PurgeCall.remove .enrollment (ascii "initial-input-set.v1") ∈ removalCalls uid := by
    simp [removalCalls, enrollmentNames]
  have hremove : Does s (removeFile (failingAt (.remove .enrollment (ascii "initial-input-set.v1")))
      .enrollment (ascii "initial-input-set.v1")) fun r _ s' => (∃ e, r = .error e) ∧ s' = s := by
    intro trace
    exact ⟨[.said (.remove .enrollment (ascii "initial-input-set.v1")) true],
      by simp [removeFile, purgeCall, failingAt, Dialogue.ask, Prog.bind_run, Prog.fail],
      by simp [removeFile, purgeCall, failingAt, Dialogue.ask, Prog.bind_run, Prog.fail]⟩
  have hpurge : Does s (purgeInstalledFiles
      (failingAt (.remove .enrollment (ascii "initial-input-set.v1"))) uid ownerUid)
      fun _ _ s' => s' = s := by
    refine (checkEnrollment_passes h hcall).bind fun _ => ?_
    refine Does.bind (F := fun r _ s' => (∃ e, r = .error e) ∧ s' = s) ?_
      (fun a _ s' hfails => ?_) fun e _ s' hfails => hfails.2
    · refine Does.bind hremove (fun a _ s' hfails => ?_) fun e _ s' hfails => ⟨⟨e, rfl⟩, hfails.2⟩
      obtain ⟨⟨e, he⟩, -⟩ := hfails
      simp at he
    · obtain ⟨⟨e, he⟩, -⟩ := hfails
      simp at he
  obtain ⟨-, -, hs⟩ := hpurge []
  exact hs

/-- When another call fails, the first file is gone already. -/
theorem purged_other (h : ExactlyInstalled uid ownerUid s) (hcall : call ∈ removalCalls uid)
    (hne : call ≠ .remove .enrollment (ascii "initial-input-set.v1")) :
    Lacking (purged (failingAt call) uid ownerUid s).2 := by
  have hrefl (s : PurgeState) (hlacking : Lacking s) : Lacking s := hlacking
  have htrans (a b c : PurgeState) (hab : Lacking a → Lacking b) (hbc : Lacking b → Lacking c)
      (ha : Lacking a) : Lacking c := hbc (hab ha)
  have hfirst : Works s (removeFile (failingAt call) .enrollment (ascii "initial-input-set.v1")) ()
      (s.unlink .enrollment (ascii "initial-input-set.v1")) :=
    removeFile_works (failingAt_ne hne) (h.present _ List.mem_cons_self)
  have hlacking : Lacking (s.unlink .enrollment (ascii "initial-input-set.v1")) := by
    unfold Lacking
    rw [find_files_unlink, if_pos rfl]
  have hfiles : Along (fun s s' => Lacking s → Lacking s') (removeFiles (failingAt call) .enrollment
      [ascii "enrolled-device-set.v1", ascii "REVIEW.txt"]) :=
    removeFiles_along _ hrefl htrans fun name _ s hs => hs.unlink _ _
  have hrest : Along (fun s s' => Lacking s → Lacking s') (removeRest (failingAt call) uid) :=
    removeRest_along _ uid hrefl htrans (fun name _ s hs => hs.unlink _ _) fun _ _ _ => rfl
  have hremoved : Prog.Triple (fun w => w.state = s)
      (removeFiles (failingAt call) .enrollment enrollmentNames) fun _ w => Lacking w.state := by
    refine Prog.Triple.bind (Q := fun _ w => Lacking w.state) (fun w hw => ?_)
      (fun _ w hw => hfiles w hw) fun _ _ hw => hw
    have hstate := (hfirst.run hw).2
    exact (congrArg Lacking hstate).mpr hlacking
  have hpurge : Prog.Triple (fun w => w.state = s)
      (purgeInstalledFiles (failingAt call) uid ownerUid) fun _ w => Lacking w.state := by
    refine Prog.Triple.bind (Q := fun r w => r = .ok () ∧ w.state = s)
      (fun w hw => (checkEnrollment_passes h hcall).run hw) (fun _ => ?_) fun e _ hw => by simp at hw
    refine Prog.Triple.bind (Q := fun _ w => Lacking w.state) (fun w hw => hremoved w hw.2)
      (fun _ w hw => hrest w hw) fun _ _ hw => hw
  exact hpurge ⟨s, []⟩ rfl

/-- For every enrollment as an installation leaves it, and every call at which a removal can fail: a
    later removal without failures finishes the work only when the failed call was the first one.
    After any other failure it refuses what is left. -/
theorem purge_resumes_iff (uid ownerUid : Nat) (s : PurgeState) (h : ExactlyInstalled uid ownerUid s)
    (call : PurgeCall) (hcall : call ∈ removalCalls uid) :
    Resumes uid ownerUid s call ↔ call = .remove .enrollment (ascii "initial-input-set.v1") := by
  constructor
  · intro hresumes
    by_contra hne
    exact purged_lacking neverFailing uid ownerUid (purged_other h hcall hne) hresumes.succeeds
  · intro heq
    have hsame : (purged (failingAt call) uid ownerUid s).2 = s := by
      rw [heq]
      exact purged_first h
    have hlater : purged neverFailing uid ownerUid s = (.ok (), emptied uid s) :=
      purged_works (purge_works h)
    refine ⟨purge_scoped _ uid ownerUid s, ?_, fun name hname => ?_, ?_⟩
    · rw [hsame, hlater]
    · rw [hsame, hlater]
      exact find_emptied hname
    · rw [hsame, hlater]
      rfl

end Failing

/-! ### An enrollment that cannot be removed -/

/-- The files of an enrollment, all empty. -/
def emptyFiles (ownerUid : Nat) (names : List Bytes) : Directory :=
  names.map fun name => (name, ⟨true, 1, ownerUid, 0o600, []⟩)

def emptyEnrollment (uid ownerUid : Nat) : PurgeState :=
  ⟨emptyFiles ownerUid (unitNames uid), some (emptyFiles ownerUid enrollmentNames)⟩

theorem find_emptyFiles (ownerUid : Nat) {names : List Bytes} {name : Bytes} (h : name ∈ names) :
    (emptyFiles ownerUid names).find name = some ⟨true, 1, ownerUid, 0o600, []⟩ := by
  unfold emptyFiles
  induction names with
  | nil => simp at h
  | cons first rest ih =>
    rw [List.map_cons, Directory.find]
    split
    · rfl
    · exact ih ((List.mem_cons.mp h).resolve_left ‹_›)

theorem emptyEnrollment_installed (uid ownerUid : Nat) :
    ExactlyInstalled uid ownerUid (emptyEnrollment uid ownerUid) := by
  refine ⟨⟨_, rfl, ?_⟩, fun name hname => ⟨_, find_emptyFiles ownerUid hname, ?_⟩,
    fun name hname => ⟨_, find_emptyFiles ownerUid hname, ?_⟩⟩
  · refine Bool.and_eq_true_iff.mpr ⟨List.all_eq_true.mpr fun entry hentry => ?_,
      List.all_eq_true.mpr fun name hname => ?_⟩
    · obtain ⟨name, hname, rfl⟩ := List.mem_map.mp hentry
      exact List.contains_iff_mem.mpr hname
    · rw [find_emptyFiles ownerUid hname]
      rfl
  · simp [removable]
  · simp [removable]

/-- The witness: a removal that could not even start is resumed. -/
theorem purge_resumes_first : ExactlyInstalled 1000 0 (emptyEnrollment 1000 0) ∧
    Resumes 1000 0 (emptyEnrollment 1000 0) (.remove .enrollment (ascii "initial-input-set.v1")) :=
  ⟨emptyEnrollment_installed 1000 0,
    (purge_resumes_iff 1000 0 _ (emptyEnrollment_installed 1000 0)
      (.remove .enrollment (ascii "initial-input-set.v1"))
      (by simp [removalCalls, enrollmentNames])).mpr rfl⟩

/-- When the second file cannot be removed, no later removal takes the enrollment away. -/
theorem purge_stuck : ExactlyInstalled 1000 0 (emptyEnrollment 1000 0) ∧
    .remove .enrollment (ascii "enrolled-device-set.v1") ∈ removalCalls 1000 ∧
    ¬ Resumes 1000 0 (emptyEnrollment 1000 0)
      (.remove .enrollment (ascii "enrolled-device-set.v1")) := by
  have hcall : .remove .enrollment (ascii "enrolled-device-set.v1") ∈ removalCalls 1000 := by
    simp [removalCalls, enrollmentNames]
  refine ⟨emptyEnrollment_installed 1000 0, hcall, fun hresumes => ?_⟩
  have hlacking := purged_other (emptyEnrollment_installed 1000 0) hcall (by decide)
  exact purged_lacking neverFailing 1000 0 hlacking hresumes.succeeds

end AgentSeat.Broker
