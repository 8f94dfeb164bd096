/-
  Wire values of protocol revision 9 (`agent-seat-proto`): bounded texts and lists, typed
  identities, the calls a peer may make and the replies a provider gives.

  Unsigned machine words are `Nat`; where a bound decides a branch of the source it is written
  out at that branch. Lists and texts carry the proof of their published bound.
-/
import Mathlib.Algebra.Group.Int.Defs
import Mathlib.Algebra.Group.Nat.Defs
import Mathlib.Data.List.Basic

namespace AgentSeat.Proto

/-! ## Bounds -/

def maxNameBytes : Nat := 128
def maxVersionBytes : Nat := 64
def maxPurposeBytes : Nat := 256
def maxDiagnosticBytes : Nat := 512
def maxTitleBytes : Nat := 1024
def maxApplicationIdBytes : Nat := 256
def maxWorkspaceNameBytes : Nat := 256
def maxCapabilities : Nat := 32
def maxFeatures : Nat := 16
def maxWorkspaces : Nat := 128
def maxClients : Nat := 1024
def maxEvents : Nat := 1024
def maxApplications : Nat := 256
def maxInputTextBytes : Nat := 1024
def maxInputActions : Nat := 256
def maxLongInputTextBytes : Nat := 16 * 1024
def maxLongInputActions : Nat := 4096
def maxTextTransferBytes : Nat := 32 * 1024
def maxTextTransferScalars : Nat := 16 * 1024
def maxKeyboardModifiers : Nat := 4
def maxPollWaitMs : Nat := 30000
def maxRequestFrameBytes : Nat := 64 * 1024
def maxResponseFrameBytes : Nat := 12 * 1024 * 1024

/-- The largest `u64`. -/
def u64Max : Nat := 2 ^ 64 - 1

/-- `u64::checked_add(1)`. -/
def checkedSucc (n : Nat) : Option Nat := if n < u64Max then some (n + 1) else none

theorem checkedSucc_eq_some {n m : Nat} : checkedSucc n = some m ↔ n < u64Max ∧ m = n + 1 := by
  unfold checkedSucc
  split
  · next h => simp [h, eq_comm]
  · next h => simp [h]

/-- A value exceeded a published byte or item bound. -/
structure BoundError where
  limit : Nat
  actual : Nat
  deriving DecidableEq

def BoundError.display (e : BoundError) : String :=
  "value has " ++ toString e.actual ++ " bytes or items; maximum is " ++ toString e.limit

/-- A UTF-8 string of at most `max` bytes. -/
structure BoundedText (max : Nat) where
  asStr : String
  bound : asStr.utf8ByteSize ≤ max
  deriving DecidableEq

def BoundedText.new {max : Nat} (value : String) : Except BoundError (BoundedText max) :=
  if h : value.utf8ByteSize ≤ max then .ok ⟨value, h⟩ else .error ⟨max, value.utf8ByteSize⟩

/-- A list of at most `max` items. -/
structure BoundedList (α : Type) (max : Nat) where
  asSlice : List α
  bound : asSlice.length ≤ max
  deriving DecidableEq

namespace BoundedList

variable {α : Type} {max : Nat}

def new (values : List α) : Except BoundError (BoundedList α max) :=
  if h : values.length ≤ max then .ok ⟨values, h⟩ else .error ⟨max, values.length⟩

def empty : BoundedList α max := ⟨[], Nat.zero_le _⟩

theorem ext {xs ys : BoundedList α max} (h : xs.asSlice = ys.asSlice) : xs = ys := by
  cases xs; cases ys; simp_all

theorem new_of_le {values : List α} (h : values.length ≤ max) :
    new values = .ok (⟨values, h⟩ : BoundedList α max) := by
  simp [new, h]

theorem new_eq_ok {values : List α} {xs : BoundedList α max} :
    new values = .ok xs ↔ values = xs.asSlice := by
  unfold new
  split
  · next h =>
    simp only [Except.ok.injEq]
    constructor
    · intro h'; rw [← h']
    · intro h'; exact ext h'
  · next h =>
    simp only [reduceCtorEq, false_iff]
    intro h'
    rw [h'] at h
    exact h xs.bound

end BoundedList

abbrev Name := BoundedText maxNameBytes
abbrev Version := BoundedText maxVersionBytes
abbrev Purpose := BoundedText maxPurposeBytes
abbrev Diagnostic := BoundedText maxDiagnosticBytes
abbrev Title := BoundedText maxTitleBytes
abbrev ApplicationId := BoundedText maxApplicationIdBytes
abbrev InputText := BoundedText maxInputTextBytes
abbrev LongInputText := BoundedText maxLongInputTextBytes
abbrev TransferText := BoundedText maxTextTransferBytes
abbrev WorkspaceName := BoundedText maxWorkspaceNameBytes

/-! ## Identities -/

/-- A provider-session client handle, a nonzero `u64`. -/
structure ClientId where
  get : Nat
  ne_zero : get ≠ 0
  deriving DecidableEq

theorem ClientId.ext {a b : ClientId} (h : a.get = b.get) : a = b := by
  cases a; cases b; simp_all

/-- A peer-selected request identity, a nonzero `u64`. -/
structure RequestId where
  get : Nat
  ne_zero : get ≠ 0
  deriving DecidableEq

/-- A provider-selected session identity, a nonzero `u64`. -/
structure SessionId where
  get : Nat
  ne_zero : get ≠ 0
  deriving DecidableEq

/-- A provider-selected launch identity, a nonzero `u64`. -/
structure LaunchToken where
  get : Nat
  ne_zero : get ≠ 0
  deriving DecidableEq

abbrev WorkspaceId := Nat

/-! ## Vocabulary -/

inductive Capability where
  | observeStructure | observeTitles | observeEvents
  | manageActivate | manageClose | manageWorkspace | manageState | manageGeometry
  | launchList | launchExecute
  | inputPointer | inputKeyboard | textTransfer | captureObscured
  deriving DecidableEq

inductive Feature where
  | ewmhObservation | ewmhManagement | desktopLaunch | clientVisibleCapture | obscuredCapture
  | outputCapture | inputInjection | textTransfer | humanActivity | accessibility
  deriving DecidableEq

inductive ErrorCode where
  | unavailable | incompatibleRevision | refused | noSuchClient | stale | unsupported | timedOut
  | invalidArgument | malformed | tooLarge | internal | resyncRequired | revoked | sessionClosed
  deriving DecidableEq

inductive Retry where
  | never | reobserve | reconnect
  deriving DecidableEq

inductive EventKind where
  | clientAdded | clientChanged | clientRemoved | activeChanged | workspaceChanged
  | applicationsChanged
  deriving DecidableEq

inductive ClientState where
  | above | below | fullscreen | hidden | maximizedHorizontal | maximizedVertical
  | demandsAttention | sticky | shaded
  deriving DecidableEq

inductive ClientAction where
  | activate | close | changeWorkspace | changeState | changeGeometry
  deriving DecidableEq

inductive StateAction where
  | add | remove | toggle
  deriving DecidableEq

/-! ## Observed values -/

/-- A signed position (`i32`) and an extent (`u32`). -/
structure Rect where
  x : Int
  y : Int
  width : Nat
  height : Nat
  deriving DecidableEq

structure WorkspaceDescriptor where
  id : WorkspaceId
  name : Option WorkspaceName
  workArea : Option Rect
  deriving DecidableEq

structure ClientDescriptor where
  id : ClientId
  generation : Nat
  title : Option Title
  workspace : Option WorkspaceId
  frame : Option Rect
  states : BoundedList ClientState 16
  actions : BoundedList ClientAction 8
  deriving DecidableEq

structure DesktopSnapshot where
  sequence : Nat
  currentWorkspace : WorkspaceId
  workspaces : BoundedList WorkspaceDescriptor maxWorkspaces
  clients : BoundedList ClientDescriptor maxClients
  active : Option ClientId
  deriving DecidableEq

inductive Event where
  | clientAdded (client : ClientDescriptor)
  | clientChanged (client : ClientDescriptor)
  | clientRemoved (client : ClientId)
  | activeChanged (client : Option ClientId)
  | workspaceChanged (workspace : WorkspaceId)
  | applicationsChanged
  deriving DecidableEq

structure EventEnvelope where
  sequence : Nat
  event : Event
  deriving DecidableEq

structure EventBatch where
  events : BoundedList EventEnvelope maxEvents
  cursor : Nat
  deriving DecidableEq

structure Subscription where
  cursor : Nat
  deriving DecidableEq

end AgentSeat.Proto
