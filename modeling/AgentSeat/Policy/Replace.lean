/-
  Replacing the saved policy (`replace_policy` of `config.rs`), one file-system step at a time.

  Other editors save by renaming a complete new file onto the target path. They may do so before
  every step of the call: the environment says, step by step, which files arrive and whether the
  step then fails. The paths of the call are three slots of a `Disk`; what is in a slot carries where
  it came from, which no decision of the code looks at.

  An inode names a file only as long as the file exists. The call holds its staged file open, so no
  file saved meanwhile has that inode, and the staged file gets an inode that no file in the
  directory has: the answers of the environment carry both facts.
-/
import AgentSeat.Lib.Dialogue
import Mathlib.Algebra.Group.Nat.Defs
import Mathlib.Data.List.Basic

namespace AgentSeat.Policy

open AgentSeat.Lib

def maxConfigBytes : Nat := 64 * 1024
def transactionAttempts : Nat := 16

/-! ## Files -/

structure Inode where
  device : Nat
  inode : Nat
  deriving DecidableEq

/-- What `Config::read` looks at in a file. The text is `none` if the contents are not UTF-8. -/
structure PolicyFile where
  inode : Inode
  regular : Bool
  owner : Nat
  mode : Nat
  size : Nat
  text : Option String
  deriving DecidableEq

/-- Where a file came from: it was there before the call, the call staged it, or it is what an
    editor saved during the call, by the number of the save. -/
inductive Origin where
  | before | staged | editor (save : Nat)
  deriving DecidableEq

structure Placed where
  file : PolicyFile
  origin : Origin
  deriving DecidableEq

/-- The paths of a call, the number of saves so far, the name of the staging path, the inode of the
    staged file that the call holds open, and `remove_on_drop`. -/
structure Disk where
  target : Option Placed
  staging : Option Placed
  backup : Option Placed
  saves : Nat
  stagingPath : String
  held : Option Inode
  removeOnDrop : Bool
  deriving DecidableEq

/-- The inodes in use in the directory. -/
def Disk.inodes (d : Disk) : List Inode :=
  (d.target.toList ++ d.staging.toList ++ d.backup.toList).map fun p => p.file.inode

/-- A validated view of a policy file. -/
structure PolicySnapshot where
  path : String
  source : String
  inode : Inode
  deriving DecidableEq

/-! ## The environment -/

/-- The steps of the call, each of which looks up or changes a path once. -/
inductive FsStep where
  | lock
  | inspectTarget | openTarget
  | inspectBackup
  | create | secure | write | inspectStaged
  | commit
  | inspectDisplaced | openDisplaced
  | inspectReplacement | rollback
  | retain | secureBackup
  | cleanup | drop
  | sync
  | inspectSaved | openSaved
  deriving DecidableEq

/-- What happens right before a step, and whether the step fails. -/
structure Moment (held : Option Inode) where
  saves : List PolicyFile
  lawful : ∀ f ∈ saves, some f.inode ≠ held
  fault : Option String

/-- The outcome of one attempt to create a staging file: its inode, or that the path is taken. -/
structure Creation (used : List Inode) where
  inode : Option Inode
  fresh : ∀ i, inode = some i → i ∉ used

/-- What a failed write left in the staging file. -/
structure Leftover where
  size : Nat
  text : Option String

inductive Question where
  | moment (step : FsStep) (held : Option Inode)
  | nextPath
  | creation (used : List Inode)
  | leftover

def Question.Answer : Question → Type
  | .moment _ held => Moment held
  | .nextPath => String
  | .creation used => Creation used
  | .leftover => Leftover

/-- A save with what it replaced on the target; a file the call unlinked; the exchange that put the
    candidate on the target, with what it displaced. -/
inductive Mark where
  | saved (save : Nat) (replaced : Option Placed)
  | removed (file : Placed)
  | committed (displaced : Option Placed)
  deriving DecidableEq

abbrev Step := Entry Question.Answer Mark
abbrev Surroundings := Env Question.Answer Mark
abbrev World := Dialogue Question.Answer Mark Disk
abbrev RM := Prog World String

/-- The staging file of a call, `TemporaryPolicy`. -/
structure TemporaryPolicy where
  path : String
  inode : Inode

section Call

variable (env : Surroundings) (uid : Nat) (validateSource : String → Except String Unit)

def onDisk (f : Disk → Disk) : RM Unit := Prog.update fun w => ⟨f w.state, w.trace⟩

/-- An editor renames a file onto the target. -/
def save (file : PolicyFile) : RM Unit := Prog.update fun w =>
  ⟨{ w.state with target := some ⟨file, .editor w.state.saves⟩, saves := w.state.saves + 1 },
    w.trace ++ [.mark (.saved w.state.saves w.state.target)]⟩

def arrive : List PolicyFile → RM Unit
  | [] => pure ()
  | file :: rest => do
    save file
    arrive rest

/-- Let the editors go first; then the step fails or goes on. -/
def moment (step : FsStep) : RM Unit := do
  let held ← Prog.read fun w => w.state.held
  let now : Moment held ← Dialogue.ask env (.moment step held)
  arrive now.saves
  match now.fault with
  | some error => Prog.fail error
  | none => pure ()

/-- A step whose failure gets a text around it. -/
def momentOr (step : FsStep) (failed : String → String) : RM Unit := do
  let result ← Prog.attempt (moment env step)
  Prog.lift (result.mapError failed)

def notFound : String := "No such file or directory (os error 2)"
def fileExists : String := "File exists (os error 17)"

/-- What a path holds, if it can be looked up. -/
def lookUp (step : FsStep) (slot : Disk → Option Placed) (failed : String → String) :
    RM PolicyFile := do
  momentOr env step failed
  let placed ← Prog.read fun w => slot w.state
  match placed with
  | some p => pure p.file
  | none => Prog.fail (failed notFound)

/-- `RENAME_EXCHANGE` of two paths. -/
def exchange (step : FsStep) (left right : Disk → Option Placed)
    (swap : Disk → Disk) : RM Unit := do
  moment env step
  let both ← Prog.read fun w => (left w.state).isSome && (right w.state).isSome
  if both then onDisk swap else Prog.fail notFound

def swapTarget (d : Disk) : Disk := { d with target := d.staging, staging := d.target }
def swapBackup (d : Disk) : Disk := { d with backup := d.staging, staging := d.backup }

/-- `rename` with `RENAME_NOREPLACE` from the staging path to the recovery path. -/
def renameToBackup (step : FsStep) : RM Unit := do
  moment env step
  let (staging, backup) ← Prog.read fun w => (w.state.staging, w.state.backup)
  if backup.isSome then Prog.fail fileExists
  else if staging.isNone then Prog.fail notFound
  else onDisk swapBackup

def unlink : RM Unit := Prog.update fun w =>
  match w.state.staging with
  | some placed => ⟨{ w.state with staging := none }, w.trace ++ [.mark (.removed placed)]⟩
  | none => w

/-- `TemporaryPolicy::cleanup`, which ignores failures. -/
def cleanup (step : FsStep) : RM Unit := do
  let _ ← (Prog.attempt (do
    moment env step
    unlink) : RM (Except String Unit))
  pure ()

/-! ## Reading -/

/-- The checks of `Config::read` on an open file. -/
def checkFile (path : String) (inspected file : PolicyFile) : Except String PolicySnapshot :=
  if inspected.inode ≠ file.inode then
    .error (path ++ " changed while it was opened")
  else if file.owner ≠ uid ∨ file.mode &&& 0o022 ≠ 0 then
    .error (path ++ " must be owned by UID " ++ toString uid ++
      " and not writable by group or others")
  else if file.size > maxConfigBytes then
    .error (path ++ " exceeds the " ++ toString maxConfigBytes ++ "-byte configuration bound")
  else
    match file.text with
    | none => .error (path ++ " is not UTF-8")
    | some source =>
      match validateSource source with
      | .error error => .error ("invalid " ++ path ++ ": " ++ error)
      | .ok () => .ok ⟨path, source, file.inode⟩

/-- `Config::read`: the path is looked up twice, once without following links. -/
def readPolicy (path : String) (slot : Disk → Option Placed) (inspect opened : FsStep) :
    RM PolicySnapshot := do
  let inspected ← lookUp env inspect slot fun error => "cannot inspect " ++ path ++ ": " ++ error
  if inspected.regular then do
    let file ← lookUp env opened slot fun error => "cannot open " ++ path ++ ": " ++ error
    Prog.lift (checkFile uid validateSource path inspected file)
  else Prog.fail (path ++ " is not a regular file")

def sameSnapshot (left right : PolicySnapshot) : Bool :=
  left.inode = right.inode && left.source = right.source

/-! ## Staging -/

def recoveryPolicyPath (path : String) : String := path ++ ".previous"

def checkRecoveryTarget (path : String) : RM Bool := do
  momentOr env .inspectBackup fun error =>
    "cannot inspect recovery policy " ++ path ++ ": " ++ error
  let backup ← Prog.read fun w => w.state.backup
  match backup with
  | none => pure false
  | some placed =>
    if !placed.file.regular ∨ placed.file.owner ≠ uid ∨ placed.file.mode &&& 0o077 ≠ 0 then
      Prog.fail ("recovery policy " ++ path ++ " must be a private regular file owned by UID " ++
        toString uid)
    else pure true

/-- The private staging file when it is created. -/
def stagedFile (inode : Inode) : PolicyFile :=
  ⟨inode, true, uid, 0o600, 0, some ""⟩

/-- The contents of the staging file after a write. -/
def fill (size : Nat) (text : Option String) (d : Disk) : Disk := { d with
  staging := d.staging.map fun p => { p with file := { p.file with size := size, text := text } } }

/-- Securing and writing the file that was just created. A write that fails can leave any part of the
    candidate in the file. -/
def fillStaged (candidate path : String) (inode : Inode) : RM TemporaryPolicy := do
  momentOr env .secure fun error => "cannot secure staged policy " ++ path ++ ": " ++ error
  let written ← Prog.attempt (moment env .write)
  match written with
  | .error error => do
    let left : Leftover ← Dialogue.ask env .leftover
    onDisk (fill left.size left.text)
    cleanup env .cleanup
    Prog.fail ("cannot write staged policy " ++ path ++ ": " ++ error)
  | .ok () => do
    onDisk (fill candidate.utf8ByteSize (some candidate))
    pure ⟨path, inode⟩

/-- The staging path gets a new private file, which the call holds open. -/
def stage (path : String) (inode : Inode) (d : Disk) : Disk := { d with
  staging := some ⟨stagedFile uid inode, .staged⟩
  stagingPath := path
  held := some inode }

/-- A path that is taken leaves it to the next attempt. -/
def stageOr (candidate path : String) (again : RM TemporaryPolicy) :
    Option Inode → RM TemporaryPolicy
  | none => again
  | some inode => do
    onDisk (stage uid path inode)
    fillStaged env candidate path inode

def createAt (candidate path : String) (again : RM TemporaryPolicy) : RM TemporaryPolicy := do
  momentOr env .create fun error => "cannot stage policy " ++ path ++ ": " ++ error
  let used ← Prog.read fun w => w.state.inodes
  let creation : Creation used ← Dialogue.ask env (.creation used)
  stageOr env uid candidate path again creation.inode

def createAttempts (candidate : String) : Nat → RM TemporaryPolicy
  | 0 => Prog.fail "cannot allocate a unique bounded policy staging path"
  | left + 1 => do
    let path : String ← Dialogue.ask env .nextPath
    createAt env uid candidate path (createAttempts candidate left)

/-- `TemporaryPolicy::create`. The staged file is removed on drop unless it is preserved. -/
def createTemporary (candidate : String) : RM TemporaryPolicy := do
  let temporary ← createAttempts env uid candidate transactionAttempts
  onDisk fun d => { d with removeOnDrop := true }
  pure temporary

/-! ## Rolling back -/

def rollbackExchange (temporary : TemporaryPolicy) (target : String) : RM Unit := do
  let replacement ← lookUp env .inspectReplacement Disk.target fun error =>
    "cannot inspect replacement during rollback: " ++ error
  if !replacement.regular ∨ replacement.inode ≠ temporary.inode then
    Prog.fail ("configuration changed again during rollback; inspect " ++ target ++ " and " ++
      temporary.path)
  else do
    let result ← Prog.attempt (exchange env .rollback Disk.staging Disk.target swapTarget)
    Prog.lift (result.mapError fun error : String =>
      "cannot roll back configuration replacement; inspect " ++ target ++ " and " ++
        temporary.path ++ ": " ++ error)

def rollbackOrPreserve (temporary : TemporaryPolicy) (target : String) : RM Unit := do
  let result ← Prog.attempt (rollbackExchange env temporary target)
  match result with
  | .ok () => pure ()
  | .error error => do
    onDisk fun d => { d with removeOnDrop := false }
    Prog.fail error

/-! ## The replacement -/

/-- `set_permissions` of the recovery policy. -/
def secureBackup (path : String) : RM Unit := do
  let failed := fun error =>
    "configuration was replaced but cannot secure recovery policy " ++ path ++ ": " ++ error
  momentOr env .secureBackup failed
  let backup ← Prog.read fun w => w.state.backup
  match backup with
  | none => Prog.fail (failed notFound)
  | some placed =>
    onDisk fun d => { d with backup := some { placed with file := { placed.file with mode := 0o600 } } }

/-- The displaced policy is the expected one: keep it as the recovery policy. -/
def retainDisplaced (expected : PolicySnapshot) (temporary : TemporaryPolicy)
    (backupExists : Bool) : RM PolicySnapshot := do
  let backup := recoveryPolicyPath expected.path
  let retained ← Prog.attempt (if backupExists
    then exchange env .retain Disk.staging Disk.backup swapBackup
    else renameToBackup env .retain)
  match retained with
  | .error error => do
    rollbackOrPreserve env temporary expected.path
    Prog.fail ("cannot retain recovery policy " ++ backup ++ ": " ++ error ++
      "; no change was saved")
  | .ok () => do
    secureBackup env backup
    cleanup env .cleanup
    momentOr env .sync fun error =>
      "configuration was replaced but cannot synchronize directory: " ++ error
    readPolicy env uid validateSource expected.path Disk.target .inspectSaved .openSaved

/-- Look at what the candidate displaced: only the expected policy may be replaced. -/
def judgeDisplaced (expected : PolicySnapshot) (temporary : TemporaryPolicy) (backupExists : Bool) :
    RM PolicySnapshot := do
  let displaced ← Prog.attempt (readPolicy env uid validateSource temporary.path Disk.staging
    .inspectDisplaced .openDisplaced)
  match displaced with
  | .error error => do
    rollbackOrPreserve env temporary expected.path
    Prog.fail ("configuration became unsafe during replacement; no change was saved: " ++ error)
  | .ok snapshot =>
    if sameSnapshot expected snapshot then
      retainDisplaced env uid validateSource expected temporary backupExists
    else do
      rollbackOrPreserve env temporary expected.path
      Prog.fail "configuration changed during replacement; no change was saved"

/-- Put the staged candidate on the target. -/
def install (expected : PolicySnapshot) (temporary : TemporaryPolicy) (backupExists : Bool) :
    RM PolicySnapshot := do
  momentOr env .inspectStaged fun error => "cannot inspect staged policy: " ++ error
  let displacing ← Prog.attempt (exchange env .commit Disk.staging Disk.target swapTarget)
  Prog.lift (displacing.mapError fun error : String =>
    "cannot atomically install " ++ expected.path ++ ": " ++ error)
  let staging ← Prog.read fun w => w.state.staging
  Dialogue.write (.committed staging)
  judgeDisplaced env uid validateSource expected temporary backupExists

/-- The destructor of the staging file. -/
def dropTemporary : RM Unit := do
  let remove ← Prog.read fun w => w.state.removeOnDrop
  if remove then cleanup env .drop else pure ()

def replacePolicy (expected : PolicySnapshot) (candidate : String) : RM PolicySnapshot := do
  Prog.lift ((validateSource candidate).mapError fun error => "invalid candidate: " ++ error)
  momentOr env .lock fun error => "another settings writer is active for " ++ expected.path ++
    ": " ++ error
  let current ← readPolicy env uid validateSource expected.path Disk.target .inspectTarget
    .openTarget
  if sameSnapshot expected current then
    if candidate = current.source then pure current
    else do
      let backupExists ← checkRecoveryTarget env uid (recoveryPolicyPath expected.path)
      let temporary ← createTemporary env uid candidate
      let result ← Prog.attempt (install env uid validateSource expected temporary backupExists)
      dropTemporary env
      Prog.lift result
  else Prog.fail "configuration changed after it was read; reload before saving"

end Call

end AgentSeat.Policy
