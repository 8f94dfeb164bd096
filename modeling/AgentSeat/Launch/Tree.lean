/-
  The desktop files under a data root (`desktop_paths` and `desktop_id` of `launch.rs`).

  A file system answers by path; nothing changes while it is scanned. `desktopPaths` walks the
  directories under a root with a stack, and which files it finds does not depend on the order
  (`mem_desktopPaths`). An id is made of the names on the way to a file, so files at different places
  may have the same one.
-/
import AgentSeat.Launch.Exec
import AgentSeat.Lib.Worklist
import AgentSeat.Provider.Wire

namespace AgentSeat.Launch

open Lib Lib.Paths Proto

/-! ## Failures -/

abbrev Failure := Provider.LaunchFailure

namespace Failure

def refused (message : String) : Failure := ⟨.refused, .never, message⟩
def unavailable (message : String) : Failure := ⟨.unavailable, .never, message⟩
def invalid (message : String) : Failure := ⟨.invalidArgument, .never, message⟩
def tooLarge (message : String) : Failure := ⟨.tooLarge, .never, message⟩
def internal (message : String) : Failure := ⟨.internal, .never, message⟩

end Failure

/-! ## Text -/

/-- The text that bytes spell in UTF-8. -/
def text (bytes : Bytes) : Option Str := (ByteArray.utf8Decode? bytes.toByteArray).map Array.toList

theorem strBytes_text {bytes : Bytes} {str : Str} (h : text bytes = some str) :
    strBytes str = bytes := by
  obtain ⟨chars, hdecode, rfl⟩ := Option.map_eq_some_iff.mp h
  have hsome : (ByteArray.utf8Decode? bytes.toByteArray).isSome := by rw [hdecode]; rfl
  have hget : (ByteArray.utf8Decode? bytes.toByteArray).get hsome = chars :=
    Option.get_of_eq_some _ hdecode
  have hencode := ByteArray.utf8Encode_get_utf8Decode? (h := hsome)
  rw [hget, List.utf8Encode] at hencode
  have hdata := congrArg (fun b : ByteArray => b.data.toList) hencode
  rwa [List.toList_data_toByteArray, List.toList_data_toByteArray] at hdata

/-- An ASCII character of a text is a byte of it. -/
theorem mem_of_text {bytes : Bytes} {str : Str} (h : text bytes = some str) {c : Char}
    (hc : c ∈ str) {b : UInt8} (hb : b ∈ String.utf8EncodeChar c) : b ∈ bytes := by
  rw [← strBytes_text h]
  exact List.mem_flatMap.mpr ⟨c, hc, hb⟩

/-! ## Files -/

inductive FileType where
  | dir | file | symlink | other
  deriving DecidableEq

structure Metadata where
  fileType : FileType
  mode : Nat
  dev : Nat
  ino : Nat
  len : Nat
  deriving DecidableEq

/-- A name in a directory. -/
structure FileName where
  bytes : Bytes
  noSlash : 47 ∉ bytes
  noNul : 0 ∉ bytes

/-- The name these bytes are, if they can be one. -/
def FileName.ofBytes (bytes : Bytes) : Option FileName :=
  if noSlash : 47 ∉ bytes then if noNul : 0 ∉ bytes then some ⟨bytes, noSlash, noNul⟩ else none
  else none

/-- A file that was opened: what it is and what can be read of it. -/
structure OpenFile where
  metadata : Option Metadata
  content : Option Bytes

/-- A file system. `symlinkMetadata` is about the path itself, `metadata` about what it leads to. -/
structure FileSystem where
  symlinkMetadata : Bytes → Option Metadata
  metadata : Bytes → Option Metadata
  readDir : Bytes → Option (List FileName)
  openFile : Bytes → Option OpenFile

def FileSystem.isFile (fs : FileSystem) (path : Bytes) : Bool :=
  match fs.metadata path with
  | some metadata => metadata.fileType = .file
  | none => false

def FileSystem.isDir (fs : FileSystem) (path : Bytes) : Bool :=
  match fs.metadata path with
  | some metadata => metadata.fileType = .dir
  | none => false

def FileSystem.executableFile (fs : FileSystem) (path : Bytes) : Bool :=
  match fs.metadata path with
  | some metadata => metadata.fileType = .file && metadata.mode &&& 0o111 ≠ 0
  | none => false

/-! ## The walk -/

def maxScannedPaths : Nat := 16384
def maxDirectoryDepth : Nat := 16

def desktopSuffix : Str := ".desktop".toList

/-- A directory that is still to be read. A path below a root is kept as the names on its way. -/
structure Directory where
  path : Bytes
  relative : List Bytes
  depth : Nat

structure DesktopFile where
  path : Bytes
  relative : List Bytes
  deriving DecidableEq

/-- The body of the loop over a directory: what one of its entries is to the walk. -/
def classify (fs : FileSystem) (directory : Directory) (name : FileName) :
    Held Directory DesktopFile :=
  match text name.bytes with
  | none => .nothing
  | some nameText =>
    if nameText = [] ∨ nameText = ".".toList ∨ nameText = "..".toList then .nothing
    else
      let path := join directory.path name.bytes
      let childRelative := directory.relative ++ [name.bytes]
      match fs.symlinkMetadata path with
      | none => .nothing
      | some metadata =>
        if metadata.fileType = .dir ∧ directory.depth < maxDirectoryDepth then
          .below ⟨path, childRelative, directory.depth + 1⟩
        else if (metadata.fileType = .file ∨ metadata.fileType = .symlink ∧ fs.isFile path = true) ∧
            desktopSuffix.isSuffixOf nameText = true then
          .found ⟨path, childRelative⟩
        else .nothing

def entries (fs : FileSystem) (directory : Directory) : List (Held Directory DesktopFile) :=
  match fs.readDir directory.path with
  | none => []
  | some names => names.map (classify fs directory)

def isRealDir (fs : FileSystem) (path : Bytes) : Bool :=
  match fs.symlinkMetadata path with
  | some metadata => metadata.fileType = .dir
  | none => false

/-- The directory a scan begins with. -/
def rootDirectory (root : Bytes) : Directory := ⟨root, [], 0⟩

def desktopPaths (fs : FileSystem) (root : Bytes) : Except Failure (List DesktopFile) :=
  if isRealDir fs root then
    -- every directory but the root was counted, so this many are read at most
    match Walk.run maxScannedPaths (entries fs) (maxScannedPaths + 1) ⟨[], [rootDirectory root], 0⟩ with
    | some paths => .ok paths
    | none => .error (Failure.tooLarge "XDG scan exceeds its path bound")
  else .ok []

/-! ## What a root contains -/

/-- A desktop file under a root, at whatever depth the scan goes to. -/
def Contains (fs : FileSystem) (root : Bytes) (file : DesktopFile) : Prop :=
  isRealDir fs root = true ∧ Under (entries fs) (rootDirectory root) file

theorem mem_desktopPaths {fs : FileSystem} {root : Bytes} {paths : List DesktopFile}
    (h : desktopPaths fs root = .ok paths) (file : DesktopFile) :
    file ∈ paths ↔ Contains fs root file := by
  unfold desktopPaths at h
  by_cases hdir : isRealDir fs root = true
  · rw [if_pos hdir] at h
    cases hrun : Walk.run maxScannedPaths (entries fs) (maxScannedPaths + 1)
      ⟨[], [rootDirectory root], 0⟩ with
    | none => simp [hrun] at h
    | some found =>
      rw [hrun] at h
      rw [← Except.ok.inj h, Walk.mem_run hrun]
      simp [Walk.Covers, Contains, hdir]
  · rw [if_neg hdir] at h
    rw [← Except.ok.inj h]
    simp [Contains, hdir]

/-- What the walk meets in a directory and below it. -/
def entryCount (fs : FileSystem) : Nat → Directory → Nat
  | 0, directory => (entries fs directory).length
  | levels + 1, directory => heldWeight (entryCount fs levels) (entries fs directory)

/-- What the walk meets under a root. -/
def scanCount (fs : FileSystem) (root : Bytes) : Nat :=
  if isRealDir fs root then entryCount fs maxDirectoryDepth (rootDirectory root) else 0

theorem classify_below {fs : FileSystem} {directory sub : Directory} {name : FileName}
    (h : classify fs directory name = .below sub) :
    directory.depth < maxDirectoryDepth ∧ sub.depth = directory.depth + 1 := by
  unfold classify at h
  split at h
  · simp at h
  · split at h
    · simp at h
    · dsimp only at h
      split at h
      · simp at h
      · split at h
        · next hdir =>
          obtain rfl := Held.below.inj h
          exact ⟨hdir.2, rfl⟩
        · split at h <;> simp at h

theorem entries_below {fs : FileSystem} {directory sub : Directory}
    (h : .below sub ∈ entries fs directory) :
    directory.depth < maxDirectoryDepth ∧ sub.depth = directory.depth + 1 := by
  unfold entries at h
  split at h
  · simp at h
  · obtain ⟨name, -, hname⟩ := List.mem_map.mp h
    exact classify_below hname

theorem heldWeight_congr {ν α : Type} {weight weight' : ν → Nat} {helds : List (Held ν α)}
    (h : ∀ n, .below n ∈ helds → weight n = weight' n) :
    heldWeight weight helds = heldWeight weight' helds := by
  induction helds with
  | nil => rfl
  | cons held rest ih =>
    have hrest := ih fun n hn => h n (List.mem_cons_of_mem _ hn)
    cases held with
    | nothing | found a => rw [heldWeight, heldWeight, hrest] <;> simp
    | below n => rw [heldWeight, heldWeight, hrest, h n List.mem_cons_self]

theorem heldWeight_leaves {ν α : Type} {weight : ν → Nat} {helds : List (Held ν α)}
    (h : ∀ n, .below n ∉ helds) : heldWeight weight helds = helds.length := by
  induction helds with
  | nil => rfl
  | cons held rest ih =>
    have hrest := ih fun n hn => h n (List.mem_cons_of_mem _ hn)
    cases held with
    | nothing | found a =>
      simp only [heldWeight, List.length_cons, hrest]
      omega
    | below n => exact absurd List.mem_cons_self (h n)

/-- A directory counts as much as its depth lets the walk go down. -/
theorem entryCount_weighs (fs : FileSystem) (directory : Directory) :
    entryCount fs (maxDirectoryDepth - directory.depth) directory =
      heldWeight (fun sub => entryCount fs (maxDirectoryDepth - sub.depth) sub)
        (entries fs directory) := by
  cases hlevels : maxDirectoryDepth - directory.depth with
  | zero =>
    have hnone : ∀ sub, .below sub ∉ entries fs directory := fun sub h => by
      have := (entries_below h).1
      omega
    rw [entryCount, heldWeight_leaves hnone]
  | succ levels =>
    rw [entryCount]
    refine heldWeight_congr fun sub hsub => ?_
    have hdepth := (entries_below hsub).2
    rw [show maxDirectoryDepth - sub.depth = levels by omega]

/-- A scan succeeds exactly if what it would meet is within its bound. -/
theorem desktopPaths_ok (fs : FileSystem) (root : Bytes) :
    (∃ paths, desktopPaths fs root = .ok paths) ↔ scanCount fs root ≤ maxScannedPaths := by
  unfold desktopPaths scanCount
  by_cases hdir : isRealDir fs root = true
  · rw [if_pos hdir, if_pos hdir]
    have henough : [rootDirectory root].length + (maxScannedPaths - 0) ≤ maxScannedPaths + 1 := by
      rw [List.length_singleton]
      omega
    have hrun := @Walk.run_isSome _ _ _ maxScannedPaths _ (entryCount_weighs fs)
      (maxScannedPaths + 1) ⟨[], [rootDirectory root], 0⟩ (Nat.zero_le _) henough
    have hweight : pendingWeight (fun sub => entryCount fs (maxDirectoryDepth - sub.depth) sub)
        [rootDirectory root] = entryCount fs maxDirectoryDepth (rootDirectory root) := rfl
    dsimp only at hrun
    rw [hweight, Nat.zero_add] at hrun
    rw [← hrun]
    cases Walk.run maxScannedPaths (entries fs) (maxScannedPaths + 1)
      ⟨[], [rootDirectory root], 0⟩ with
    | none => simp
    | some found => simp
  · rw [if_neg hdir, if_neg hdir]
    simp

end AgentSeat.Launch
