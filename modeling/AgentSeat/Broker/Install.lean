/-
  Installing a review bundle (`install_rendered_bundle` of `agent-seat-activity-enroll.rs`).

  Every file is staged under a temporary name, and when all are staged they are renamed one by one;
  the destructor of an unfinished transaction unlinks each entry under the name it has by then. Which
  file-system calls fail is up to the environment; a call that fails has no effect, and the unlinks
  of the destructor do not fail. A name is one component of a path.

  Neither creating a file nor renaming it takes a name that is in use. So the names that the entries
  have at any moment were free before the transaction, and all other names are as they were.

  Main result:
  * `install_all_or_nothing`: a transaction that fails leaves both directories as they were; one that
    succeeds adds the files of the bundle to them.
-/
import AgentSeat.Broker.Bundle
import AgentSeat.Lib.Dialogue

namespace AgentSeat.Broker

open AgentSeat.Lib AgentSeat.Lib.Json AgentSeat.Lib.Paths

/-! ## Directories -/

/-- What a path leads to. -/
structure FileNode where
  regular : Bool
  links : Nat
  owner : Nat
  mode : Nat
  contents : Bytes
  deriving DecidableEq

abbrev Directory := List (Bytes × FileNode)

namespace Directory

def find (name : Bytes) : Directory → Option FileNode
  | [] => none
  | (present, node) :: rest => if name = present then some node else find name rest

def unlink (name : Bytes) (d : Directory) : Directory :=
  d.filter fun entry => decide (entry.1 ≠ name)

def put (name : Bytes) (node : FileNode) (d : Directory) : Directory := (name, node) :: d.unlink name

@[simp] theorem find_unlink (name other : Bytes) (d : Directory) :
    (d.unlink name).find other = if other = name then none else d.find other := by
  induction d with
  | nil => simp [unlink, find]
  | cons entry rest ih =>
    obtain ⟨present, node⟩ := entry
    unfold unlink at ih ⊢
    by_cases hname : present = name
    · rw [List.filter_cons_of_neg (by simp [hname]), ih, find, hname]
      split <;> rfl
    · rw [List.filter_cons_of_pos (by simp [hname]), find, find, ih]
      by_cases hother : other = present
      · rw [if_pos hother, if_pos hother, if_neg (fun h => hname (hother.symm.trans h))]
      · rw [if_neg hother, if_neg hother]

@[simp] theorem find_put (name other : Bytes) (node : FileNode) (d : Directory) :
    (d.put name node).find other = if other = name then some node else d.find other := by
  unfold put
  rw [find, find_unlink]
  split <;> rfl

end Directory

inductive InstallDirectory where
  | units | enrollment
  deriving DecidableEq

/-- The directory that gets a file of the bundle. -/
def directoryOf (name : Bytes) : InstallDirectory :=
  if (ascii ".service").isSuffixOf name || (ascii ".socket").isSuffixOf name then .units
  else .enrollment

/-- The two directories of an installation. -/
abbrev Directories := InstallDirectory → Directory

namespace Directories

def find (directory : InstallDirectory) (name : Bytes) (dirs : Directories) : Option FileNode :=
  (dirs directory).find name

def change (directory : InstallDirectory) (f : Directory → Directory) (dirs : Directories) :
    Directories := fun other => if other = directory then f (dirs other) else dirs other

def put (directory : InstallDirectory) (name : Bytes) (node : FileNode) : Directories → Directories :=
  change directory (Directory.put name node)

def unlink (directory : InstallDirectory) (name : Bytes) : Directories → Directories :=
  change directory (Directory.unlink name)

variable {directory other : InstallDirectory} {name name' : Bytes} {node : FileNode}
  {dirs : Directories}

theorem find_put : (dirs.put directory name node).find other name' =
    if other = directory ∧ name' = name then some node else dirs.find other name' := by
  unfold put change find
  by_cases h : other = directory
  · simp [h]
  · simp [h]

theorem find_unlink : (dirs.unlink directory name).find other name' =
    if other = directory ∧ name' = name then none else dirs.find other name' := by
  unfold unlink change find
  by_cases h : other = directory
  · simp [h]
  · simp [h]

end Directories

/-! ## The transaction -/

structure InstallEntry where
  directory : InstallDirectory
  temporary : Bytes
  target : Bytes
  published : Bool

/-- The name the file of an entry has. -/
def InstallEntry.name (entry : InstallEntry) : Bytes :=
  if entry.published then entry.target else entry.temporary

/-- `InstallTransaction`, with the directories it works on. -/
structure InstallTransaction where
  dirs : Directories
  entries : List InstallEntry
  finished : Bool

/-- The file-system calls of an installation. -/
inductive InstallCall where
  | openDirectory (directory : InstallDirectory)
  | inspect (name : Bytes)
  | create (name : Bytes)
  | setPermissions | write | synchronize
  | rename (name : Bytes)
  | synchronizeDirectory (directory : InstallDirectory)

inductive InstallError where
  | cannotOpen (directory : InstallDirectory)
  | alreadyExists (name : Bytes)
  | cannotInspect (name : Bytes)
  | cannotStage (name : Bytes)
  | cannotWrite (name : Bytes)
  | cannotPublish (name : Bytes)
  | injected
  | cannotSynchronize (directory : InstallDirectory)

/-- Whether a call fails. -/
abbrev InstallFaults := Env (fun _ : InstallCall => Bool) Unit
abbrev IM := Prog (Dialogue (fun _ : InstallCall => Bool) Unit InstallTransaction) InstallError

section Install

variable (faults : InstallFaults) (pid uid createdMode : Nat)

def onTransaction (f : InstallTransaction → InstallTransaction) : IM Unit :=
  Prog.update fun w => ⟨f w.state, w.trace⟩

def installCall (call : InstallCall) (error : InstallError) : IM Unit := do
  let fails ← Dialogue.ask faults call
  if fails then Prog.fail error else pure ()

def InstallTransaction.new : IM Unit := do
  installCall faults (.openDirectory .units) (.cannotOpen .units)
  installCall faults (.openDirectory .enrollment) (.cannotOpen .enrollment)

def temporaryName (index : Nat) : Bytes :=
  ascii ".agent-seat-install-" ++ digits pid ++ ascii "-" ++ digits index

/-- A file that the installation has just created. -/
def createdFile : FileNode := ⟨true, 1, uid, createdMode, []⟩

/-- A file of the bundle when it is installed. -/
def installedFile (file : RenderedFile) : FileNode := ⟨true, 1, uid, 0o600, file.contents⟩

/-- The file is created, and the transaction has an entry for it. -/
def addEntry (directory : InstallDirectory) (temporary target : Bytes) (s : InstallTransaction) :
    InstallTransaction := { s with
  dirs := s.dirs.put directory temporary (createdFile uid createdMode)
  entries := s.entries ++ [⟨directory, temporary, target, false⟩] }

def setFile (directory : InstallDirectory) (name : Bytes) (node : FileNode)
    (s : InstallTransaction) : InstallTransaction :=
  { s with dirs := s.dirs.put directory name node }

def InstallTransaction.stage (directory : InstallDirectory) (index : Nat) (file : RenderedFile) :
    IM Unit := do
  let temporary := temporaryName pid index
  installCall faults (.create temporary) (.cannotStage file.name)
  let taken ← Prog.read fun w => (w.state.dirs.find directory temporary).isSome
  if taken then Prog.fail (.cannotStage file.name)
  else do
    onTransaction (addEntry uid createdMode directory temporary file.name)
    installCall faults .setPermissions (.cannotWrite file.name)
    onTransaction (setFile directory temporary ⟨true, 1, uid, 0o600, []⟩)
    installCall faults .write (.cannotWrite file.name)
    onTransaction (setFile directory temporary (installedFile uid file))
    installCall faults .synchronize (.cannotWrite file.name)

/-- The file of an entry has its final name. -/
def publishEntry (index : Nat) (entry : InstallEntry) (node : FileNode) (s : InstallTransaction) :
    InstallTransaction := { s with
  dirs := (s.dirs.unlink entry.directory entry.temporary).put entry.directory entry.target node
  entries := s.entries.set index { entry with published := true } }

/-- `rename` with `RENAME_NOREPLACE`. -/
def renameEntry (index : Nat) (entry : InstallEntry) : IM Unit := do
  installCall faults (.rename entry.target) (.cannotPublish entry.target)
  let dirs ← Prog.read fun w => w.state.dirs
  if (dirs.find entry.directory entry.target).isSome then Prog.fail (.cannotPublish entry.target)
  else
    match dirs.find entry.directory entry.temporary with
    | none => Prog.fail (.cannotPublish entry.target)
    | some node => onTransaction (publishEntry index entry node)

/-- The loop of `publish` from an index on. -/
def publishEntries (failAfter : Option Nat) (index : Nat) : List InstallEntry → IM Unit
  | [] => pure ()
  | entry :: rest =>
    if failAfter = some index then Prog.fail .injected
    else do
      renameEntry faults index entry
      publishEntries failAfter (index + 1) rest

def InstallTransaction.publish (failAfter : Option Nat) : IM Unit := do
  let entries ← Prog.read fun w => w.state.entries
  publishEntries faults failAfter 0 entries
  installCall faults (.synchronizeDirectory .units) (.cannotSynchronize .units)
  installCall faults (.synchronizeDirectory .enrollment) (.cannotSynchronize .enrollment)
  onTransaction fun s => { s with finished := true }

def rollback (entries : List InstallEntry) (dirs : Directories) : Directories :=
  entries.foldl (fun dirs entry => dirs.unlink entry.directory entry.name) dirs

/-- The destructor. -/
def InstallTransaction.drop (s : InstallTransaction) : InstallTransaction :=
  if s.finished then s else { s with dirs := rollback s.entries.reverse s.dirs }

/-- A name that leads to the directory itself or to the one above. -/
def namesDirectory (name : Bytes) : Bool := name = [] || name = ascii "." || name = ascii ".."

/-- One turn of the loop of `install_rendered_bundle`. -/
def installFile (index : Nat) (file : RenderedFile) : IM Unit := do
  let directory := directoryOf file.name
  installCall faults (.inspect file.name) (.cannotInspect file.name)
  let present ← Prog.read fun w => (w.state.dirs.find directory file.name).isSome
  if namesDirectory file.name || present then Prog.fail (.alreadyExists file.name)
  else InstallTransaction.stage faults pid uid createdMode directory index file

def installFiles (index : Nat) : List RenderedFile → IM Unit
  | [] => pure ()
  | file :: rest => do
    installFile faults pid uid createdMode index file
    installFiles (index + 1) rest

/-- What happens while the transaction lives. -/
def installBody (bundle : RenderedBundle) (failAfter : Option Nat) : IM Unit := do
  installFiles faults pid uid createdMode 0 bundle.files
  InstallTransaction.publish faults failAfter

def installRenderedBundle (bundle : RenderedBundle) (failAfter : Option Nat) : IM Unit := do
  InstallTransaction.new faults
  let result ← Prog.attempt (installBody faults pid uid createdMode bundle failAfter)
  onTransaction InstallTransaction.drop
  Prog.lift result

end Install

/-! ## What a transaction has changed so far -/

/-- The names of the entries were free before the transaction, and all others are as they were. -/
structure Overlay (before : Directories) (s : InstallTransaction) : Prop where
  ours : ∀ e ∈ s.entries, before.find e.directory e.name = none
  others : ∀ directory name, (∀ e ∈ s.entries, ¬ (e.directory = directory ∧ e.name = name)) →
    s.dirs.find directory name = before.find directory name
  unfinished : s.finished = false

section Overlay

variable {before : Directories} {s : InstallTransaction} {directory : InstallDirectory} {name : Bytes}

/-- A name that is free now was free before. -/
theorem Overlay.free (h : Overlay before s) (hfree : s.dirs.find directory name = none) :
    before.find directory name = none := by
  by_cases hours : ∃ e ∈ s.entries, e.directory = directory ∧ e.name = name
  · obtain ⟨e, he, rfl, rfl⟩ := hours
    exact h.ours e he
  · rw [← h.others directory name fun e he hsame => hours ⟨e, he, hsame⟩]
    exact hfree

theorem find_rollback_of_mem {entries : List InstallEntry} {dirs : Directories}
    (h : dirs.find directory name = none ∨ ∃ e ∈ entries, e.directory = directory ∧ e.name = name) :
    (rollback entries dirs).find directory name = none := by
  induction entries generalizing dirs with
  | nil => simpa [rollback] using h
  | cons e rest ih =>
    refine ih ?_
    rw [Directories.find_unlink]
    rcases h with hnone | ⟨e', he', hdirectory, hname⟩
    · exact .inl (by split <;> simp [hnone])
    · rcases List.mem_cons.mp he' with rfl | he'
      · exact .inl (by rw [if_pos ⟨hdirectory.symm, hname.symm⟩])
      · exact .inr ⟨e', he', hdirectory, hname⟩

theorem find_rollback_of_not_mem {entries : List InstallEntry} {dirs : Directories}
    (h : ∀ e ∈ entries, ¬ (e.directory = directory ∧ e.name = name)) :
    (rollback entries dirs).find directory name = dirs.find directory name := by
  induction entries generalizing dirs with
  | nil => rfl
  | cons e rest ih =>
    have hfirst := h e List.mem_cons_self
    refine (ih fun e he => h e (List.mem_cons_of_mem _ he)).trans ?_
    rw [Directories.find_unlink, if_neg fun hsame => hfirst ⟨hsame.1.symm, hsame.2.symm⟩]

/-- Unlinking every entry under its present name restores the directories. -/
theorem Overlay.drop (h : Overlay before s) :
    s.drop.dirs.find directory name = before.find directory name := by
  unfold InstallTransaction.drop
  rw [if_neg (by simp [h.unfinished])]
  by_cases hours : ∃ e ∈ s.entries, e.directory = directory ∧ e.name = name
  · have hbefore : before.find directory name = none := by
      obtain ⟨e, he, rfl, rfl⟩ := hours
      exact h.ours e he
    rw [hbefore]
    obtain ⟨e, he, hsame⟩ := hours
    exact find_rollback_of_mem (.inr ⟨e, List.mem_reverse.mpr he, hsame⟩)
  · have hothers : ∀ e ∈ s.entries, ¬ (e.directory = directory ∧ e.name = name) :=
      fun e he hsame => hours ⟨e, he, hsame⟩
    rw [← h.others directory name hothers]
    exact find_rollback_of_not_mem fun e he => hothers e (List.mem_reverse.mp he)

theorem Overlay.addEntry (h : Overlay before s) {uid createdMode : Nat} {target : Bytes}
    (hfree : s.dirs.find directory name = none) :
    Overlay before (Broker.addEntry uid createdMode directory name target s) := by
  refine ⟨fun e he => ?_, fun other name' hnone => ?_, h.unfinished⟩
  · rcases List.mem_append.mp he with he | he
    · exact h.ours e he
    · rw [List.mem_singleton.mp he]
      exact h.free hfree
  · have hnew := hnone ⟨directory, name, target, false⟩
      (List.mem_append_right _ (List.mem_singleton_self _))
    have hold := h.others other name' fun e he => hnone e (List.mem_append_left _ he)
    unfold Broker.addEntry
    rw [Directories.find_put, if_neg fun hsame => hnew ⟨hsame.1.symm, hsame.2.symm⟩]
    exact hold

/-- A change to the file of an entry. -/
theorem Overlay.setFile (h : Overlay before s) (node : FileNode)
    (hentry : ∃ e ∈ s.entries, e.directory = directory ∧ e.name = name) :
    Overlay before (Broker.setFile directory name node s) := by
  refine ⟨h.ours, fun other name' hnone => ?_, h.unfinished⟩
  obtain ⟨e, he, rfl, rfl⟩ := hentry
  unfold Broker.setFile
  rw [Directories.find_put, if_neg fun hsame => hnone e he ⟨hsame.1.symm, hsame.2.symm⟩]
  exact h.others other name' hnone

end Overlay

/-- Besides, the entries are those of the files so far, in their order, each with its complete file,
    under names that differ. -/
structure Complete (uid : Nat) (before : Directories) (files : List RenderedFile)
    (s : InstallTransaction) : Prop extends Overlay before s where
  length : s.entries.length = files.length
  matched : ∀ (i : Nat) (e : InstallEntry) (file : RenderedFile), s.entries[i]? = some e → files[i]? = some file →
    e.directory = directoryOf file.name ∧ e.target = file.name ∧
      s.dirs.find e.directory e.name = some (installedFile uid file)
  apart : ∀ (i j : Nat) (e e' : InstallEntry), s.entries[i]? = some e → s.entries[j]? = some e' →
    e.directory = e'.directory → e.name = e'.name → i = j

section Complete

variable {uid createdMode : Nat} {before : Directories} {files : List RenderedFile}
  {s s' : InstallTransaction}

/-- The name of an entry is in use. -/
theorem Complete.used (h : Complete uid before files s) {i : Nat} {e : InstallEntry}
    (he : s.entries[i]? = some e) : s.dirs.find e.directory e.name ≠ none := by
  have hlt : i < files.length := by
    rw [← h.length]
    exact (List.getElem?_eq_some_iff.mp he).1
  obtain ⟨-, -, hfind⟩ := h.matched i e files[i] he (List.getElem?_eq_getElem hlt)
  rw [hfind]
  simp

/-- The next file is staged under a name that was free. -/
theorem Complete.add (h : Complete uid before files s) {file : RenderedFile} {temporary : Bytes}
    (hfree : s.dirs.find (directoryOf file.name) temporary = none) (overlay : Overlay before s')
    (hentries : s'.entries = s.entries ++ [⟨directoryOf file.name, temporary, file.name, false⟩])
    (hfind : ∀ directory name, s'.dirs.find directory name =
      if directory = directoryOf file.name ∧ name = temporary then some (installedFile uid file)
      else s.dirs.find directory name) : Complete uid before (files ++ [file]) s' := by
  have hlast (i : Nat) (e : InstallEntry) (he : s'.entries[i]? = some e) :
      s.entries[i]? = some e ∨ (i = s.entries.length ∧
        e = ⟨directoryOf file.name, temporary, file.name, false⟩) := by
    rw [hentries, List.getElem?_append] at he
    split at he
    · exact .inl he
    · have hi : i - s.entries.length = 0 := by
        have := (List.getElem?_eq_some_iff.mp he).1
        simp only [List.length_singleton] at this
        omega
      rw [hi] at he
      exact .inr ⟨by omega, (Option.some.inj he).symm⟩
  have hother {i : Nat} {e : InstallEntry} (he : s.entries[i]? = some e) :
      ¬ (e.directory = directoryOf file.name ∧ e.name = temporary) := by
    intro hsame
    have hused := h.used he
    rw [hsame.1, hsame.2, hfree] at hused
    exact hused rfl
  refine ⟨overlay, ?_, ?_, ?_⟩
  · rw [hentries, List.length_append, List.length_append, h.length]
    rfl
  · intro i e file' he hfile
    rcases hlast i e he with hold | ⟨rfl, rfl⟩
    · have hlt : i < files.length := by
        rw [← h.length]
        exact (List.getElem?_eq_some_iff.mp hold).1
      rw [List.getElem?_append_left hlt] at hfile
      obtain ⟨hdirectory, htarget, hfound⟩ := h.matched i e file' hold hfile
      refine ⟨hdirectory, htarget, ?_⟩
      rw [hfind, if_neg (hother hold)]
      exact hfound
    · rw [List.getElem?_append_right (Nat.le_of_eq h.length.symm), h.length, Nat.sub_self] at hfile
      obtain rfl := Option.some.inj hfile
      refine ⟨rfl, rfl, ?_⟩
      rw [hfind]
      exact if_pos ⟨rfl, rfl⟩
  · intro i j e e' he he' hdirectory hname
    rcases hlast i e he with hi | ⟨rfl, rfl⟩
    · rcases hlast j e' he' with hj | ⟨rfl, rfl⟩
      · exact h.apart i j e e' hi hj hdirectory hname
      · exact (hother hi ⟨hdirectory, hname⟩).elim
    · rcases hlast j e' he' with hj | ⟨rfl, rfl⟩
      · exact (hother hj ⟨hdirectory.symm, hname.symm⟩).elim
      · rfl

/-- An entry is renamed to a target that is free. -/
theorem Complete.publish (h : Complete uid before files s) {index : Nat} {entry : InstallEntry}
    {node : FileNode} (hentry : s.entries[index]? = some entry) (hstaged : entry.published = false)
    (hfree : s.dirs.find entry.directory entry.target = none)
    (hnode : s.dirs.find entry.directory entry.temporary = some node) :
    Complete uid before files (publishEntry index entry node s) := by
  have hname : entry.name = entry.temporary := by
    unfold InstallEntry.name
    rw [if_neg (by simp [hstaged])]
  have hfind (directory : InstallDirectory) (name : Bytes) :
      (publishEntry index entry node s).dirs.find directory name =
        if directory = entry.directory ∧ name = entry.target then some node
        else if directory = entry.directory ∧ name = entry.temporary then none
        else s.dirs.find directory name := by
    unfold publishEntry
    rw [Directories.find_put, Directories.find_unlink]
  have hcases (i : Nat) (e : InstallEntry) (he : (publishEntry index entry node s).entries[i]? =
      some e) : (i ≠ index ∧ s.entries[i]? = some e) ∨
        (i = index ∧ e = { entry with published := true }) := by
    unfold publishEntry at he
    rw [List.getElem?_set] at he
    split at he
    · next hindex =>
      split at he
      · exact .inr ⟨hindex.symm, (Option.some.inj he).symm⟩
      · simp at he
    · next hindex => exact .inl ⟨fun hi => hindex hi.symm, he⟩
  -- the other entries have neither of the two names
  have hother {i : Nat} {e : InstallEntry} (hi : i ≠ index) (he : s.entries[i]? = some e) :
      ¬ (e.directory = entry.directory ∧ e.name = entry.target) ∧
        ¬ (e.directory = entry.directory ∧ e.name = entry.temporary) := by
    refine ⟨fun hsame => ?_, fun hsame => hi ?_⟩
    · have hused := h.used he
      rw [hsame.1, hsame.2, hfree] at hused
      exact hused rfl
    · exact h.apart i index e entry he hentry hsame.1 (hsame.2.trans hname.symm)
  have hmem {i : Nat} {e : InstallEntry} (he : s.entries[i]? = some e) : e ∈ s.entries :=
    List.mem_of_getElem? he
  have hpublished : (publishEntry index entry node s).entries[index]? =
      some { entry with published := true } := by
    unfold publishEntry
    rw [List.getElem?_set, if_pos rfl, if_pos (List.getElem?_eq_some_iff.mp hentry).1]
  refine ⟨⟨?_, ?_, h.unfinished⟩, ?_, ?_, ?_⟩
  · intro e he
    obtain ⟨i, hi⟩ := List.mem_iff_getElem?.mp he
    rcases hcases i e hi with ⟨-, hold⟩ | ⟨-, rfl⟩
    · exact h.ours e (hmem hold)
    · exact h.toOverlay.free hfree
  · intro directory name hnone
    have htarget : ¬ (directory = entry.directory ∧ name = entry.target) := fun hsame =>
      hnone _ (List.mem_of_getElem? hpublished) ⟨hsame.1.symm, hsame.2.symm⟩
    rw [hfind, if_neg htarget]
    by_cases htemporary : directory = entry.directory ∧ name = entry.temporary
    · rw [if_pos htemporary, htemporary.1, htemporary.2, ← hname]
      exact (h.ours entry (hmem hentry)).symm
    · rw [if_neg htemporary]
      refine h.others directory name fun e he hsame => ?_
      obtain ⟨i, hi⟩ := List.mem_iff_getElem?.mp he
      by_cases hindex : i = index
      · rw [hindex, hentry] at hi
        obtain rfl := Option.some.inj hi
        exact htemporary ⟨hsame.1.symm, by rw [← hname, hsame.2]⟩
      · refine hnone e (List.mem_of_getElem? (i := i) ?_) hsame
        unfold publishEntry
        rw [List.getElem?_set, if_neg (Ne.symm hindex)]
        exact hi
  · unfold publishEntry
    rw [List.length_set]
    exact h.length
  · intro i e file he hfile
    rcases hcases i e he with ⟨hi, hold⟩ | ⟨rfl, rfl⟩
    · obtain ⟨hdirectory, htarget, hfound⟩ := h.matched i e file hold hfile
      have hne := hother hi hold
      refine ⟨hdirectory, htarget, ?_⟩
      rw [hfind, if_neg hne.1, if_neg hne.2]
      exact hfound
    · obtain ⟨hdirectory, htarget, hfound⟩ := h.matched i entry file hentry hfile
      rw [hname, hnode] at hfound
      refine ⟨hdirectory, htarget, ?_⟩
      rw [hfind]
      exact (if_pos ⟨rfl, rfl⟩).trans hfound
  · intro i j e e' he he' hdirectory hsame
    rcases hcases i e he with ⟨hi, hold⟩ | ⟨rfl, rfl⟩
    · rcases hcases j e' he' with ⟨hj, hold'⟩ | ⟨rfl, rfl⟩
      · exact h.apart i j e e' hold hold' hdirectory hsame
      · exact ((hother hi hold).1 ⟨hdirectory, hsame⟩).elim
    · rcases hcases j e' he' with ⟨hj, hold'⟩ | ⟨rfl, rfl⟩
      · exact ((hother hj hold').1 ⟨hdirectory.symm, hsame.symm⟩).elim
      · rfl

end Complete

/-! ## The calls of an installation -/

/-- From every transaction with `P`, the result and the transaction after `m` satisfy `Q`. -/
def Makes {α : Type} (P : InstallTransaction → Prop) (m : IM α)
    (Q : Except InstallError α → InstallTransaction → Prop) : Prop :=
  Prog.Triple (fun w => P w.state) m fun r w => Q r w.state

section Calls

variable {faults : InstallFaults} {pid uid createdMode : Nat} {before : Directories}
  {files : List RenderedFile}

theorem Makes.bind {α β : Type} {m : IM α} {f : α → IM β} {P : InstallTransaction → Prop}
    {Q : Except InstallError α → InstallTransaction → Prop}
    {S : Except InstallError β → InstallTransaction → Prop} (hm : Makes P m Q)
    (hok : ∀ a, Makes (Q (.ok a)) (f a) S) (herr : ∀ e s, Q (.error e) s → S (.error e) s) :
    Makes P (m >>= f) S :=
  Prog.Triple.bind hm hok fun e w => herr e w.state

/-- A call by itself changes nothing. -/
theorem installCall_makes {call : InstallCall} {error : InstallError}
    {P : InstallTransaction → Prop} : Makes P (installCall faults call error) fun _ => P := by
  intro w hw
  have hask : installCall faults call error w = (if faults w.trace call then Prog.fail error
      else pure () : IM Unit) ⟨w.state, w.trace ++ [.said call (faults w.trace call)]⟩ := rfl
  rw [hask]
  split
  · exact hw
  · exact hw

/-- A call, and what follows it if it works. -/
theorem Makes.call {β : Type} {call : InstallCall} {error : InstallError} {f : Unit → IM β}
    {P : InstallTransaction → Prop} {S : Except InstallError β → InstallTransaction → Prop}
    (hok : Makes P (f ()) S) (herr : ∀ s, P s → S (.error error) s) :
    Makes P (installCall faults call error >>= f) S := by
  intro w hw
  have hask : (installCall faults call error >>= f) w = ((if faults w.trace call then
      Prog.fail error else pure () : IM Unit) >>= f)
      ⟨w.state, w.trace ++ [.said call (faults w.trace call)]⟩ := rfl
  rw [hask]
  split
  · exact herr w.state hw
  · exact hok ⟨w.state, w.trace ++ [.said call (faults w.trace call)]⟩ hw

theorem Makes.update {β : Type} {g : InstallTransaction → InstallTransaction} {f : Unit → IM β}
    {P Q : InstallTransaction → Prop} {S : Except InstallError β → InstallTransaction → Prop}
    (hg : ∀ s, P s → Q (g s)) (hok : Makes Q (f ()) S) : Makes P (onTransaction g >>= f) S :=
  fun w hw => hok ⟨g w.state, w.trace⟩ (hg w.state hw)

/-- All files so far are complete and wait to be published. -/
structure Waiting (uid : Nat) (before : Directories) (files : List RenderedFile)
    (s : InstallTransaction) : Prop extends Complete uid before files s where
  staged : ∀ e ∈ s.entries, e.published = false

/-- A turn of the loop succeeded and left the files so far waiting, or failed. -/
def Staged (uid : Nat) (before : Directories) (files : List RenderedFile)
    (r : Except InstallError Unit) (s : InstallTransaction) : Prop :=
  match r with
  | .ok () => Waiting uid before files s
  | .error _ => Overlay before s

theorem stage_staged (index : Nat) (file : RenderedFile) :
    Makes (Waiting uid before files)
      (InstallTransaction.stage faults pid uid createdMode (directoryOf file.name) index file)
      (Staged uid before (files ++ [file])) := by
  unfold InstallTransaction.stage
  refine Makes.call ?_ fun s h => h.toOverlay
  intro w h
  rw [Prog.read_bind]
  cases hfree : w.state.dirs.find (directoryOf file.name) (temporaryName pid index) with
  | some node => exact h.toOverlay
  | none =>
    -- from here on the state is a change of the one in which the name was free
    have hadded : Overlay before (addEntry uid createdMode (directoryOf file.name)
        (temporaryName pid index) file.name w.state) := h.toOverlay.addEntry hfree
    have hentry : ∃ e ∈ (addEntry uid createdMode (directoryOf file.name)
        (temporaryName pid index) file.name w.state).entries,
        e.directory = directoryOf file.name ∧ e.name = temporaryName pid index :=
      ⟨_, List.mem_append_right _ (List.mem_singleton_self _), rfl, rfl⟩
    have hsecured := hadded.setFile ⟨true, 1, uid, 0o600, []⟩ hentry
    have hwritten := hsecured.setFile (installedFile uid file) hentry
    refine Makes.update (P := (· = w.state)) (Q := (· = addEntry uid createdMode
      (directoryOf file.name) (temporaryName pid index) file.name w.state))
      (fun s hs => by rw [hs]) ?_ w rfl
    refine Makes.call ?_ fun s hs => by rw [hs]; exact hadded
    refine Makes.update (Q := (· = setFile (directoryOf file.name) (temporaryName pid index)
      ⟨true, 1, uid, 0o600, []⟩ (addEntry uid createdMode (directoryOf file.name)
        (temporaryName pid index) file.name w.state))) (fun s hs => by rw [hs]) ?_
    refine Makes.call ?_ fun s hs => by rw [hs]; exact hsecured
    refine Makes.update (Q := Waiting uid before (files ++ [file])) (fun s hs => ?_) ?_
    · rw [hs]
      refine ⟨h.add hfree hwritten rfl fun directory name => ?_, fun e he => ?_⟩
      · unfold setFile addEntry
        rw [Directories.find_put, Directories.find_put, Directories.find_put]
        split <;> rfl
      · rcases List.mem_append.mp he with he | he
        · exact h.staged e he
        · rw [List.mem_singleton.mp he]
    · refine Prog.Triple.weaken installCall_makes (fun _ h => h) fun r w h => ?_
      cases r with
      | ok u => exact h
      | error e => exact h.toOverlay

theorem installFile_staged (index : Nat) (file : RenderedFile) :
    Makes (Waiting uid before files) (installFile faults pid uid createdMode index file)
      (Staged uid before (files ++ [file])) := by
  unfold installFile
  refine Makes.call ?_ fun s h => h.toOverlay
  intro w h
  rw [Prog.read_bind]
  split
  · exact h.toOverlay
  · exact stage_staged index file w h

theorem installFiles_staged (index : Nat) (rest : List RenderedFile) :
    Makes (Waiting uid before files) (installFiles faults pid uid createdMode index rest)
      (Staged uid before (files ++ rest)) := by
  induction rest generalizing index files with
  | nil =>
    rw [List.append_nil]
    exact fun w h => h
  | cons file rest ih =>
    refine Makes.bind (installFile_staged index file) (fun u => ?_) fun e s h => h
    have hrest := @ih (files ++ [file]) (index + 1)
    rw [List.append_assoc] at hrest
    exact hrest

/-! ### Publishing -/

/-- The entries from an index on are these, and they are the ones that are still to be renamed. -/
structure Publishing (uid : Nat) (before : Directories) (files : List RenderedFile) (index : Nat)
    (rest : List InstallEntry) (s : InstallTransaction) : Prop extends
    Complete uid before files s where
  left : ∀ i : Nat, rest[i]? = s.entries[index + i]?
  staged : ∀ e ∈ rest, e.published = false
  published : ∀ (i : Nat) (e : InstallEntry), s.entries[i]? = some e → i < index →
    e.published = true

/-- A turn of the loop succeeded and left the rest, or failed. -/
def Renamed (uid : Nat) (before : Directories) (files : List RenderedFile) (index : Nat)
    (rest : List InstallEntry) (r : Except InstallError Unit) (s : InstallTransaction) : Prop :=
  match r with
  | .ok () => Publishing uid before files index rest s
  | .error _ => Overlay before s

theorem Publishing.publish {s : InstallTransaction} {index : Nat} {entry : InstallEntry}
    {rest : List InstallEntry} {node : FileNode}
    (h : Publishing uid before files index (entry :: rest) s)
    (hfree : s.dirs.find entry.directory entry.target = none)
    (hnode : s.dirs.find entry.directory entry.temporary = some node) :
    Publishing uid before files (index + 1) rest (publishEntry index entry node s) := by
  have hentry : s.entries[index]? = some entry := (h.left 0).symm
  refine ⟨h.toComplete.publish hentry (h.staged entry List.mem_cons_self) hfree hnode, ?_, ?_, ?_⟩
  · intro i
    have hleft := h.left (i + 1)
    have hne : index ≠ index + 1 + i := by omega
    unfold publishEntry
    rw [List.getElem?_set, if_neg hne, Nat.add_assoc, Nat.add_comm 1 i, ← hleft]
    rfl
  · exact fun e he => h.staged e (List.mem_cons_of_mem _ he)
  · intro i e he hi
    unfold publishEntry at he
    rw [List.getElem?_set] at he
    split at he
    · split at he
      · rw [← Option.some.inj he]
      · simp at he
    · exact h.published i e he (by omega)

theorem renameEntry_renamed (index : Nat) (entry : InstallEntry) (rest : List InstallEntry) :
    Makes (Publishing uid before files index (entry :: rest)) (renameEntry faults index entry)
      (Renamed uid before files (index + 1) rest) := by
  unfold renameEntry
  refine Makes.call ?_ fun s h => h.toOverlay
  intro w h
  rw [Prog.read_bind]
  cases hfree : w.state.dirs.find entry.directory entry.target with
  | some node => exact h.toOverlay
  | none =>
    cases hnode : w.state.dirs.find entry.directory entry.temporary with
    | none => exact h.toOverlay
    | some node => exact h.publish hfree hnode

theorem publishEntries_renamed (failAfter : Option Nat) (index : Nat) (rest : List InstallEntry) :
    Makes (Publishing uid before files index rest) (publishEntries faults failAfter index rest)
      (Renamed uid before files (index + rest.length) []) := by
  induction rest generalizing index with
  | nil => exact fun w h => h
  | cons entry rest ih =>
    unfold publishEntries
    split
    · exact fun w h => h.toOverlay
    · have hrest := ih (index + 1)
      rw [Nat.add_assoc, Nat.add_comm 1] at hrest
      exact Makes.bind (renameEntry_renamed index entry rest) (fun u => hrest) fun e s h => h

/-! ### The whole installation -/

/-- Both directories hold what they held before, and the files of the bundle. -/
structure BundleInstalled (uid : Nat) (bundle : RenderedBundle) (before after : Directories) :
    Prop where
  fresh : ∀ file ∈ bundle.files, before.find (directoryOf file.name) file.name = none
  installed : ∀ file ∈ bundle.files,
    after.find (directoryOf file.name) file.name = some (installedFile uid file)
  others : ∀ directory name,
    (∀ file ∈ bundle.files, ¬ (directoryOf file.name = directory ∧ file.name = name)) →
      after.find directory name = before.find directory name

/-- When all entries are published, the names of the entries are those of the files. -/
theorem Complete.installed {s : InstallTransaction} {bundle : RenderedBundle}
    (h : Complete uid before bundle.files s)
    (hpublished : ∀ (i : Nat) (e : InstallEntry), s.entries[i]? = some e → e.published = true) :
    BundleInstalled uid bundle before s.dirs := by
  have hentry (i : Nat) (file : RenderedFile) (hfile : bundle.files[i]? = some file) :
      ∃ e ∈ s.entries, e.directory = directoryOf file.name ∧ e.name = file.name ∧
        s.dirs.find (directoryOf file.name) file.name = some (installedFile uid file) := by
    have hlt : i < s.entries.length := by
      rw [h.length]
      exact (List.getElem?_eq_some_iff.mp hfile).1
    have he := List.getElem?_eq_getElem hlt
    obtain ⟨hdirectory, htarget, hfind⟩ := h.matched i _ file he hfile
    have hname : s.entries[i].name = file.name := by
      unfold InstallEntry.name
      rw [if_pos (hpublished i _ he), htarget]
    rw [hdirectory, hname] at hfind
    exact ⟨_, List.getElem_mem hlt, hdirectory, hname, hfind⟩
  refine ⟨fun file hmem => ?_, fun file hmem => ?_, fun directory name hnone => ?_⟩
  · obtain ⟨i, hi⟩ := List.mem_iff_getElem?.mp hmem
    obtain ⟨e, he, hdirectory, hname, -⟩ := hentry i file hi
    rw [← hdirectory, ← hname]
    exact h.ours e he
  · obtain ⟨i, hi⟩ := List.mem_iff_getElem?.mp hmem
    obtain ⟨-, -, -, -, hfind⟩ := hentry i file hi
    exact hfind
  · refine h.others directory name fun e he hsame => ?_
    obtain ⟨i, hi⟩ := List.mem_iff_getElem?.mp he
    have hlt : i < bundle.files.length := by
      rw [← h.length]
      exact (List.getElem?_eq_some_iff.mp hi).1
    obtain ⟨hdirectory, htarget, -⟩ := h.matched i e _ hi (List.getElem?_eq_getElem hlt)
    have hname : e.name = e.target := by
      unfold InstallEntry.name
      rw [if_pos (hpublished i e hi)]
    refine hnone _ (List.getElem_mem hlt) ⟨hdirectory.symm.trans hsame.1, ?_⟩
    rw [← htarget, ← hname, hsame.2]

/-- How the life of a transaction ends. -/
def BodyEnds (uid : Nat) (before : Directories) (bundle : RenderedBundle)
    (r : Except InstallError Unit) (s : InstallTransaction) : Prop :=
  match r with
  | .ok () => s.finished = true ∧ BundleInstalled uid bundle before s.dirs
  | .error _ => Overlay before s

theorem publish_ends (bundle : RenderedBundle) (failAfter : Option Nat) :
    Makes (Waiting uid before bundle.files) (InstallTransaction.publish faults failAfter)
      (BodyEnds uid before bundle) := by
  intro w hw
  unfold InstallTransaction.publish
  rw [Prog.read_bind]
  have hstart : Publishing uid before bundle.files 0 w.state.entries w.state :=
    ⟨hw.toComplete, fun i => by rw [Nat.zero_add], hw.staged,
      fun i e _ hi => absurd hi (Nat.not_lt_zero i)⟩
  refine Makes.bind (S := BodyEnds uid before bundle)
    (publishEntries_renamed failAfter 0 w.state.entries) (fun u => ?_) (fun e s h => h) w hstart
  refine Makes.call ?_ fun s h => h.toOverlay
  refine Makes.call ?_ fun s h => h.toOverlay
  intro w' h
  refine ⟨rfl, h.toComplete.installed fun i e he => h.published i e he ?_⟩
  -- nothing is left behind the last entry
  have hlast : w'.state.entries[0 + w.state.entries.length + 0]? = none := (h.left 0).symm
  have hlength := List.getElem?_eq_none_iff.mp hlast
  have hi := (List.getElem?_eq_some_iff.mp he).1
  omega

theorem installBody_ends (bundle : RenderedBundle) (failAfter : Option Nat) :
    Makes (Waiting uid before []) (installBody faults pid uid createdMode bundle failAfter)
      (BodyEnds uid before bundle) :=
  Makes.bind (installFiles_staged 0 bundle.files) (fun _ => publish_ends bundle failAfter)
    fun _ _ h => h

/-- The directories before an installation, with no entry yet. -/
def untouched (dirs : Directories) : InstallTransaction := ⟨dirs, [], false⟩

theorem untouched_waiting (dirs : Directories) : Waiting uid dirs [] (untouched dirs) where
  ours := by simp [untouched]
  others := fun _ _ _ => rfl
  unfinished := rfl
  length := rfl
  matched := by simp [untouched]
  apart := by simp [untouched]
  staged := by simp [untouched]

end Calls

/-- What a caller finds when an installation returns. -/
structure AllOrNothing (uid : Nat) (bundle : RenderedBundle) (before : Directories)
    (r : Except InstallError Unit) (after : Directories) : Prop where
  nothing : ∀ e, r = .error e → ∀ directory name, after.find directory name = before.find directory name
  all : r = .ok () → BundleInstalled uid bundle before after
  /-- No file that was there is replaced, changed or removed. -/
  kept : ∀ directory name node, before.find directory name = some node →
    after.find directory name = some node

theorem BundleInstalled.kept {uid : Nat} {bundle : RenderedBundle} {before after : Directories}
    (h : BundleInstalled uid bundle before after) {directory : InstallDirectory} {name : Bytes}
    {node : FileNode} (hbefore : before.find directory name = some node) :
    after.find directory name = some node := by
  rw [h.others directory name fun file hfile hsame => ?_]
  · exact hbefore
  · have hfresh := h.fresh file hfile
    rw [hsame.1, hsame.2, hbefore] at hfresh
    simp at hfresh

/-- For every bundle, whatever the directories hold, and whichever calls fail: an installation that
    fails leaves both directories as they were; one that succeeds adds exactly the files of the
    bundle, each complete and private and in its directory. -/
theorem install_all_or_nothing (faults : InstallFaults) (pid uid createdMode : Nat)
    (bundle : RenderedBundle) (failAfter : Option Nat) (before : Directories) :
    AllOrNothing uid bundle before
      (installRenderedBundle faults pid uid createdMode bundle failAfter ⟨untouched before, []⟩).1
      (installRenderedBundle faults pid uid createdMode bundle failAfter
        ⟨untouched before, []⟩).2.state.dirs := by
  have hends : Makes (Waiting uid before [])
      (installRenderedBundle faults pid uid createdMode bundle failAfter)
      fun r s => AllOrNothing uid bundle before r s.dirs := by
    have hopened {s : InstallTransaction} (h : Waiting uid before [] s) (e : InstallError) :
        AllOrNothing uid bundle before (.error e) s.dirs := by
      have hsame (directory : InstallDirectory) (name : Bytes) :
          s.dirs.find directory name = before.find directory name := by
        refine h.others directory name fun e he _ => ?_
        have hnil : s.entries = [] := List.eq_nil_of_length_eq_zero h.length
        rw [hnil] at he
        simp at he
      exact ⟨fun _ _ => hsame, fun hok => by simp at hok,
        fun directory name node hnode => (hsame directory name).trans hnode⟩
    refine Makes.bind (Q := fun _ => Waiting uid before []) ?_ (fun u => ?_) fun e s h => hopened h e
    · refine Makes.call ?_ fun _ h => h
      exact installCall_makes
    · intro w hw
      have hbody := @installBody_ends faults pid uid createdMode before bundle failAfter w hw
      rcases hrun : installBody faults pid uid createdMode bundle failAfter w with ⟨r, w₁⟩
      rw [hrun] at hbody
      rw [Prog.attempt_bind hrun]
      cases r with
      | ok u =>
        have hdrop : w₁.state.drop = w₁.state := by
          unfold InstallTransaction.drop
          rw [if_pos hbody.1]
        have hinstalled : BundleInstalled uid bundle before w₁.state.drop.dirs := by
          rw [hdrop]
          exact hbody.2
        exact ⟨fun e he => by simp [Prog.lift, onTransaction, Prog.update_bind] at he,
          fun _ => hinstalled, fun _ _ _ hnode => hinstalled.kept hnode⟩
      | error e =>
        have hrestored : Overlay before w₁.state := hbody
        exact ⟨fun _ _ directory name => hrestored.drop,
          fun hok => by simp [Prog.lift, onTransaction, Prog.update_bind] at hok,
          fun _ _ _ hnode => hrestored.drop.trans hnode⟩
  exact hends ⟨untouched before, []⟩ (untouched_waiting before)

end AgentSeat.Broker
