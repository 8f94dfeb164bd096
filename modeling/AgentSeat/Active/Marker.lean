/-
  Lock-held evidence of the policy a running provider has loaded (`active.rs`).

  A provider publishes a marker file named after its process ID, locks it, fills it and keeps it
  open; a reader opens every marker and takes the failure to lock one as the sign of a live provider.
  Here every system call is one step of one process, a write and a read may move any part of the
  bytes that are left, and processes interleave freely. A provider lives once and a reader makes one
  call: their numbers are never used again, process IDs may be.

  The directory belongs to this user and is only changed by providers; a listing may report any
  name, and one without a file is skipped when it is opened.
-/
import AgentSeat.Proto.Message

namespace AgentSeat.Active

open AgentSeat.Proto

/-! ## The bytes of a marker -/

def magic : List UInt8 :=
  [97, 103, 101, 110, 116, 45, 115, 101, 97, 116, 45, 97, 99, 116, 49, 10]

def headerBytes : Nat := magic.length + 12
def maxConfigBytes : Nat := 64 * 1024
def maxPolicyPathBytes : Nat := 4096
def maxMarkerBytes : Nat := headerBytes + maxPolicyPathBytes + maxConfigBytes
def maxMarkers : Nat := 128

/-- What the evidence is about: the path of a policy and the source that was read from it. A source
    is bounded when it is read. -/
structure PolicySnapshot where
  path : List UInt8
  source : List UInt8
  bounded : source.length ≤ maxConfigBytes

structure Marker where
  pid : Nat
  path : List UInt8
  source : List UInt8

/-- `u32::to_le_bytes`. -/
def toLeBytes (n : Nat) : List UInt8 :=
  [UInt8.ofNat n, UInt8.ofNat (n / 2 ^ 8), UInt8.ofNat (n / 2 ^ 16), UInt8.ofNat (n / 2 ^ 24)]

/-- `u32::from_le_bytes` of the four bytes at an offset. -/
def readU32 (bytes : List UInt8) (offset : Nat) : Option Nat :=
  match (bytes.drop offset).take 4 with
  | [a, b, c, d] => some (a.toNat + 2 ^ 8 * b.toNat + 2 ^ 16 * c.toNat + 2 ^ 24 * d.toNat)
  | _ => none

/-- The body, for a path within its bound. -/
def markerBytes (pid : Nat) (snapshot : PolicySnapshot) : List UInt8 :=
  magic ++ toLeBytes pid ++ toLeBytes snapshot.path.length ++ toLeBytes snapshot.source.length ++
    snapshot.path ++ snapshot.source

def markerBody (pid : Nat) (snapshot : PolicySnapshot) : Option (List UInt8) :=
  if snapshot.path.length > maxPolicyPathBytes then none else some (markerBytes pid snapshot)

/-- `read_marker` on the bytes of the file; a marker that is malformed is an error. -/
def readMarker (bytes : List UInt8) : Option Marker := do
  if bytes.length > maxMarkerBytes ∨ bytes.length < headerBytes ∨ bytes.take magic.length ≠ magic
  then none
  else do
    let pid ← readU32 bytes magic.length
    let pathLen ← readU32 bytes (magic.length + 4)
    let sourceLen ← readU32 bytes (magic.length + 8)
    if pathLen > maxPolicyPathBytes ∨ sourceLen > maxConfigBytes ∨
        headerBytes + pathLen + sourceLen ≠ bytes.length
    then none
    else some ⟨pid, (bytes.drop headerBytes).take pathLen, bytes.drop (headerBytes + pathLen)⟩

/-! ## Files -/

/-- An open file, and with it a lock, belongs to a provider or to a reader. -/
inductive Holder where
  | provider (q : Nat)
  | reader (r : Nat)
  deriving DecidableEq

/-- A file: its bytes, who holds its lock, and which provider made it. No step looks at the maker. -/
structure File where
  content : List UInt8
  lock : Option Holder
  maker : Nat

/-- The runtime directory: whether it exists, the files by process ID and by inode, and the first
    inode that is free. An inode is not used again while its file is open. -/
structure Directory where
  present : Bool
  names : Nat → Option Nat
  files : Nat → File
  next : Nat

namespace Directory

variable (d : Directory)

def setFile (i : Nat) (f : File) : Directory :=
  { d with files := fun j => if j = i then f else d.files j }

def setName (pid : Nat) (entry : Option Nat) : Directory :=
  { d with names := fun pid' => if pid' = pid then entry else d.names pid' }

/-- Take a lock that is free. -/
def lock (i : Nat) (holder : Holder) : Directory :=
  d.setFile i { d.files i with lock := some holder }

/-- Close a file: a lock that was taken through it is gone. -/
def close (i : Nat) (holder : Holder) : Directory :=
  if (d.files i).lock = some holder then d.setFile i { d.files i with lock := none } else d

/-- Everything a process has open is closed. -/
def closeAll (holder : Holder) : Directory :=
  { d with files := fun i => if (d.files i).lock = some holder
      then { d.files i with lock := none } else d.files i }

def append (i : Nat) (bytes : List UInt8) : Directory :=
  d.setFile i { d.files i with content := (d.files i).content ++ bytes }

/-- `create_new`: an empty file under a name that was free. -/
def create (pid maker : Nat) : Directory :=
  { (d.setFile d.next ⟨[], none, maker⟩).setName pid (some d.next) with next := d.next + 1 }

end Directory

/-! ## Providers -/

inductive PublishError where
  | priorMissing | priorUnsafe | priorLocked | priorChanged | exists | locked | pathTooLong
  deriving DecidableEq

/-- The system call a provider is about to make. -/
inductive ProviderPc where
  | ensureDirectory
  | pathExists
  | openPrior
  | validatePrior (i : Nat)
  | lockPrior (i : Nat)
  | comparePrior (i : Nat)
  | removePrior (i : Nat)
  | closePrior (i : Nat)
  | createMarker
  | lockMarker (i : Nat)
  | prepareBody (i : Nat)
  | writeBody (i : Nat) (rest : List UInt8)
  | running (i : Nat)
  | dropCompare (i : Nat)
  | dropRemove (i : Nat)
  | dropClose (i : Nat)
  | abandonClose (i : Nat) (error : PublishError)
  | abandonRemove (error : PublishError)
  | failed (error : PublishError)
  | gone
  deriving DecidableEq

structure Provider where
  pid : Nat
  pid_lt : pid < 2 ^ 32
  snapshot : PolicySnapshot
  pc : ProviderPc

def Provider.at (p : Provider) (pc : ProviderPc) : Provider := { p with pc := pc }

/-- One system call of `publish` or of the destructor; `n` is how much a write moves beside the first
    byte. A provider that runs makes none. -/
def Provider.step (q : Nat) (p : Provider) (n : Nat) (d : Directory) : Option (Provider × Directory) :=
  match p.pc with
  | .ensureDirectory => some (p.at .pathExists, { d with present := true })
  | .pathExists =>
    some (p.at (if (d.names p.pid).isSome then .openPrior else .createMarker), d)
  | .openPrior =>
    match d.names p.pid with
    | none => some (p.at (.failed .priorMissing), d)
    | some i => some (p.at (.validatePrior i), d)
  | .validatePrior i =>
    if (d.files i).content.length > maxMarkerBytes then
      some (p.at (.failed .priorUnsafe), d.close i (.provider q))
    else some (p.at (.lockPrior i), d)
  | .lockPrior i =>
    match (d.files i).lock with
    | none => some (p.at (.comparePrior i), d.lock i (.provider q))
    | some _ => some (p.at (.failed .priorLocked), d.close i (.provider q))
  | .comparePrior i =>
    if d.names p.pid = some i then some (p.at (.removePrior i), d)
    else some (p.at (.failed .priorChanged), d.close i (.provider q))
  | .removePrior i => some (p.at (.closePrior i), d.setName p.pid none)
  | .closePrior i => some (p.at .createMarker, d.close i (.provider q))
  | .createMarker =>
    match d.names p.pid with
    | none => some (p.at (.lockMarker d.next), d.create p.pid q)
    | some _ => some (p.at (.failed .exists), d)
  | .lockMarker i =>
    match (d.files i).lock with
    | none => some (p.at (.prepareBody i), d.lock i (.provider q))
    | some _ => some (p.at (.abandonClose i .locked), d)
  | .prepareBody i =>
    match markerBody p.pid p.snapshot with
    | none => some (p.at (.abandonClose i .pathTooLong), d)
    | some body => some (p.at (.writeBody i body), d)
  | .writeBody i rest =>
    if rest = [] then some (p.at (.running i), d)
    else some (p.at (.writeBody i (rest.drop (n + 1))), d.append i (rest.take (n + 1)))
  | .running _ => none
  | .dropCompare i =>
    some (p.at (if d.names p.pid = some i then .dropRemove i else .dropClose i), d)
  | .dropRemove i => some (p.at (.dropClose i), d.setName p.pid none)
  | .dropClose i => some (p.at .gone, d.close i (.provider q))
  | .abandonClose i error => some (p.at (.abandonRemove error), d.close i (.provider q))
  | .abandonRemove error => some (p.at (.failed error), d.setName p.pid none)
  | .failed _ => none
  | .gone => none

/-! ## Readers -/

inductive ActivePolicyStatus where
  | notReported
  | matching (pid : Nat)
  | different (pid : Nat)
  | multiple (count : Nat) (allMatch : Bool)
  deriving DecidableEq

/-- What a call returns for the records it counted. -/
def statusOf : List (Nat × Bool) → ActivePolicyStatus
  | [] => .notReported
  | [(pid, true)] => .matching pid
  | [(pid, false)] => .different pid
  | records => .multiple records.length (records.all Prod.snd)

/-- The system call a reader is about to make. -/
inductive ReaderPc where
  | inspectDirectory
  | nextEntry
  | openMarker (pid : Nat)
  | validateMarker (i : Nat)
  | lockMarker (i : Nat)
  | closeMarker (i : Nat)
  | readMarker (i : Nat) (seen : List UInt8)
  | returned (status : ActivePolicyStatus)
  | failed
  deriving DecidableEq

structure Reader where
  snapshot : PolicySnapshot
  scanned : Nat
  records : List (Nat × Bool)
  pc : ReaderPc

def Reader.at (r : Reader) (pc : ReaderPc) : Reader := { r with pc := pc }

/-- The call has begun and not yet ended. -/
def Reader.asking (r : Reader) : Bool :=
  match r.pc with
  | .returned _ | .failed => false
  | _ => true

/-- The record of a marker counts if it is about the policy the reader asks for. -/
def Reader.count (r : Reader) (marker : Marker) : Reader :=
  if marker.path = r.snapshot.path then
    { r with records := r.records ++ [(marker.pid, decide (marker.source = r.snapshot.source))] }
  else r

/-- One system call of `active_policy_status`; `entry` is what a listing reports next, `n` how much a
    read moves beside the first byte. -/
def Reader.step (a : Nat) (r : Reader) (entry : Option Nat) (n : Nat) (d : Directory) :
    Option (Reader × Directory) :=
  match r.pc with
  | .inspectDirectory =>
    some (r.at (if d.present then .nextEntry else .returned .notReported), d)
  | .nextEntry =>
    match entry with
    | none => some (r.at (.returned (statusOf r.records)), d)
    | some pid =>
      if r.scanned + 1 > maxMarkers then some (r.at .failed, d)
      else some ({ r with scanned := r.scanned + 1, pc := .openMarker pid }, d)
  | .openMarker pid =>
    match d.names pid with
    | none => some (r.at .nextEntry, d)
    | some i => some (r.at (.validateMarker i), d)
  | .validateMarker i =>
    if (d.files i).content.length > maxMarkerBytes then some (r.at .failed, d.close i (.reader a))
    else some (r.at (.lockMarker i), d)
  | .lockMarker i =>
    match (d.files i).lock with
    | none => some (r.at (.closeMarker i), d.lock i (.reader a))
    | some _ => some (r.at (.readMarker i []), d)
  | .closeMarker i => some (r.at .nextEntry, d.close i (.reader a))
  | .readMarker i seen =>
    let chunk := ((d.files i).content.drop seen.length).take
      (min (n + 1) (maxMarkerBytes + 1 - seen.length))
    if chunk = [] then
      match AgentSeat.Active.readMarker seen with
      | none => some (r.at .failed, d.close i (.reader a))
      | some marker => some ((r.count marker).at .nextEntry, d.close i (.reader a))
    else some (r.at (.readMarker i (seen ++ chunk)), d)
  | .returned _ => none
  | .failed => none

/-! ## All of them together -/

structure World where
  directory : Directory
  providers : Nat → Option Provider
  readers : Nat → Option Reader

def World.setProvider (w : World) (q : Nat) (p : Provider) : World :=
  { w with providers := fun q' => if q' = q then some p else w.providers q' }

def World.setReader (w : World) (a : Nat) (r : Reader) : World :=
  { w with readers := fun a' => if a' = a then some r else w.readers a' }

inductive Move where
  | start (q pid : Nat) (snapshot : PolicySnapshot)
  | provide (q n : Nat)
  | drop (q : Nat)
  | crash (q : Nat)
  | ask (a : Nat) (snapshot : PolicySnapshot)
  | read (a : Nat) (entry : Option Nat) (n : Nat)
  | abort (a : Nat)

/-- The process is there. -/
def ProviderPc.alive : ProviderPc → Bool
  | .failed _ | .gone => false
  | _ => true

def World.step (w : World) : Move → Option World
  | .start q pid snapshot =>
    if h : pid < 2 ^ 32 ∧ (w.providers q).isNone then
      some (w.setProvider q ⟨pid, h.1, snapshot, .ensureDirectory⟩)
    else none
  | .provide q n => do
    let p ← w.providers q
    let (p', d) ← p.step q n w.directory
    some ({ w with directory := d }.setProvider q p')
  | .drop q => do
    let p ← w.providers q
    match p.pc with
    | .running i => some (w.setProvider q (p.at (.dropCompare i)))
    | _ => none
  | .crash q => do
    let p ← w.providers q
    if p.pc.alive then
      some ({ w with directory := w.directory.closeAll (.provider q) }.setProvider q (p.at .gone))
    else none
  | .ask a snapshot =>
    if (w.readers a).isNone then some (w.setReader a ⟨snapshot, 0, [], .inspectDirectory⟩) else none
  | .read a entry n => do
    let r ← w.readers a
    let (r', d) ← r.step a entry n w.directory
    some ({ w with directory := d }.setReader a r')
  | .abort a => do
    let r ← w.readers a
    if r.asking then
      some ({ w with directory := w.directory.closeAll (.reader a) }.setReader a (r.at .failed))
    else none

/-- A process ID belongs to one living process at a time. -/
def World.Kernel (w : World) : Move → Prop
  | .start _ pid _ => ∀ q p, w.providers q = some p → p.pid = pid → p.pc.alive = false
  | _ => True

def World.initial : World := ⟨⟨false, fun _ => none, fun _ => ⟨[], none, 0⟩, 0⟩, fun _ => none, fun _ => none⟩

/-- A run from the empty directory whose moves satisfy `allowed`; `past` are the worlds before the
    last move, the latest first. -/
inductive Run (allowed : World → Move → Prop) : List World → World → Prop
  | init : Run allowed [] .initial
  | move {past : List World} {w w' : World} (run : Run allowed past w) (m : Move) (kernel : w.Kernel m)
      (ok : allowed w m) (step : w.step m = some w') : Run allowed (w :: past) w'

/-- The provider is there and holds the lock of the marker it made. -/
def World.Holding (w : World) (q : Nat) (p : Provider) : Prop :=
  w.providers q = some p ∧ p.pc.alive = true ∧ ∃ i < w.directory.next,
    (w.directory.files i).maker = q ∧ (w.directory.files i).lock = some (.provider q)

end AgentSeat.Active
