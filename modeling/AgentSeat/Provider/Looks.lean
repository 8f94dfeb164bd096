/-
  The checks of the provider only look.

  `Looking` entries read the desktop, the keyboard, the selection owner, the X-Resource identities
  and the clock, or note a refresh. They take no grab, do not load the gate, emit nothing and change
  no window, property or selection. Every check before an action, and every wait after one, is made
  of such entries alone.
-/
import AgentSeat.Provider.Silent

namespace AgentSeat.Provider

open AgentSeat.Lib AgentSeat.Proto AgentSeat.X11 AgentSeat.Seat

def Looking : Step → Prop
  | .said .sample _ | .said .samples _ | .said .desktop _ | .said .rounds _
  | .said .transferRounds _ | .said .settled _ | .said .getInputFocus _ | .said (.queryTree _) _
  | .said (.getWindowAttributes _) _ | .said (.getGeometry _) _
  | .said (.translateCoordinates ..) _ | .said (.shapeGetRectangles _) _
  | .said .xkbUseExtension _ | .said .xkbGetState _ | .said .xkbGetMap _
  | .said .getSelectionOwner _ | .said .resQueryVersion _ | .said (.resQueryClientIds _) _
  | .said (.encodeCapture _) _ | .said .connect _ | .said (.listApplications _) _
  | .mark (.refreshed ..) => True
  | _ => False

section Looks

variable {env : Outside} {α : Type}

theorem markRefreshed_looks (o : Observer) : Utters Moves Looking (markRefreshed o) := by
  unfold markRefreshed
  split
  · exact Utters.write trivial
  · exact Utters.pure _

theorem refresh_looks : Utters Moves Looking (refresh env) := by
  unfold refresh
  refine Utters.bind (Utters.ask fun _ => trivial) fun sample => ?_
  refine Utters.bind (Utters.within fun s => .single (.refresh sample s)) fun _ => ?_
  exact Utters.bind (this_quiet _) fun o => markRefreshed_looks o

theorem freshTarget_looks (request : TargetRequest) :
    Utters Moves Looking (freshTarget env request) := by
  unfold freshTarget target
  refine Utters.bind refresh_looks fun _ => ?_
  exact Utters.bind (this_quiet _) fun _ => Utters.lift _

/-! ## Focus and pointer destination -/

theorem focusAncestry_looks (root targetXid : Window) (fuel : Nat) (window : Window) :
    Utters Moves Looking (focusAncestry env root targetXid fuel window) := by
  induction fuel generalizing window with
  | zero => exact Utters.fail _
  | succ fuel ih =>
    unfold focusAncestry
    by_cases hmet : window = targetXid
    · rw [if_pos hmet]
      exact Utters.pure _
    · rw [if_neg hmet]
      refine Utters.bind (reply_utters (Utters.ask fun _ => trivial) _ _) fun tree => ?_
      split
      · exact Utters.fail _
      · exact ih tree.parent

theorem requireFocusOwnedBy_looks (targetXid : Window) :
    Utters Moves Looking (requireFocusOwnedBy env targetXid) := by
  unfold requireFocusOwnedBy
  refine Utters.bind (reply_utters (Utters.ask fun _ => trivial) _ _) fun focus => ?_
  refine Utters.bind (Utters.lift _) fun _ => ?_
  exact Utters.bind (this_quiet _) fun root => focusAncestry_looks root targetXid _ focus

theorem topmost_looks (root : Window) (x y : Int) (children : List Window) :
    Utters Moves Looking (topmost env root x y children) := by
  induction children with
  | nil => exact Utters.pure _
  | cons child rest ih =>
    unfold topmost
    refine Utters.bind (reply_utters (Utters.ask fun _ => trivial) _ _) fun viewable => ?_
    split
    · exact ih
    · refine Utters.bind (reply_utters (Utters.ask fun _ => trivial) _ _) fun translated => ?_
      refine Utters.bind (reply_utters (Utters.ask fun _ => trivial) _ _) fun input => ?_
      refine Utters.bind (Utters.lift _) fun _ => ?_
      split
      · exact Utters.pure _
      · exact ih

theorem frameAncestry_looks (root candidate : Window) (fuel : Nat) (window : Window) :
    Utters Moves Looking (frameAncestry env root candidate fuel window) := by
  induction fuel generalizing window with
  | zero => exact Utters.fail _
  | succ fuel ih =>
    unfold frameAncestry
    by_cases hmet : window = candidate
    · rw [if_pos hmet]
      exact Utters.pure _
    · rw [if_neg hmet]
      refine Utters.bind (reply_utters (Utters.ask fun _ => trivial) _ _) fun tree => ?_
      split
      · exact Utters.pure _
      · exact ih tree.parent

theorem requirePointOwnedBy_looks (targetXid : Window) (rootX rootY : Int) :
    Utters Moves Looking (requirePointOwnedBy env targetXid rootX rootY) := by
  unfold requirePointOwnedBy
  refine Utters.bind (this_quiet _) fun root => ?_
  refine Utters.bind (reply_utters (Utters.ask fun _ => trivial) _ _) fun tree => ?_
  refine Utters.bind (Utters.lift _) fun _ => ?_
  refine Utters.bind (topmost_looks root rootX rootY _) fun destination => ?_
  cases destination with
  | none => exact Utters.fail _
  | some d =>
    refine Utters.bind ?_ fun owned => Utters.lift _
    exact Utters.bind (this_quiet _) fun root => frameAncestry_looks root d _ targetXid

theorem pointerDestination_looks (request : TargetRequest) (x y : Nat) :
    Utters Moves Looking (pointerDestination env request x y) := by
  unfold pointerDestination
  refine Utters.bind (freshTarget_looks request) fun target => ?_
  refine Utters.bind (reply_utters (Utters.ask fun _ => trivial) _ _) fun geometry => ?_
  refine Utters.bind (Utters.lift _) fun _ => Utters.bind (this_quiet _) fun root => ?_
  refine Utters.bind (reply_utters (Utters.ask fun _ => trivial) _ _) fun origin => ?_
  refine Utters.bind (Utters.lift _) fun rootX => Utters.bind (Utters.lift _) fun rootY => ?_
  exact Utters.bind (requirePointOwnedBy_looks _ _ _) fun _ => Utters.pure _

/-! ## Keyboard map, selection owner and client identity -/

theorem read_looks : Utters Moves Looking (KeyboardMap.read env) := by
  unfold KeyboardMap.read
  refine Utters.bind (reply_utters (Utters.ask fun _ => trivial) _ _) fun supported => ?_
  refine Utters.bind (Utters.lift _) fun _ => ?_
  refine Utters.bind (reply_utters (Utters.ask fun _ => trivial) _ _) fun state => ?_
  exact Utters.bind (reply_utters (Utters.ask fun _ => trivial) _ _) fun map => Utters.lift _

theorem resolveText_looks (text : List Char) : Utters Moves Looking (resolveText env text) :=
  Utters.bind read_looks fun _ => Utters.lift _

theorem resolveCharacter_looks (character : Char) (position : Nat) :
    Utters Moves Looking (resolveCharacter env character position) :=
  Utters.bind read_looks fun _ => Utters.lift _

theorem resolveKey_looks (key : KeyboardKey) (modifiers : List KeyboardModifier) :
    Utters Moves Looking (resolveKey env key modifiers) :=
  Utters.bind read_looks fun _ => Utters.lift _

theorem selectionOwner_looks (message : String) :
    Utters Moves Looking (selectionOwner env message) :=
  reply_utters (Utters.ask fun _ => trivial) _ _

theorem requireXresClientIdentity_looks (window : Window) :
    Utters Moves Looking (requireXresClientIdentity env window) := by
  unfold requireXresClientIdentity
  refine Utters.bind (reply_utters (Utters.ask fun _ => trivial) _ _) fun version => ?_
  refine Utters.bind (Utters.lift _) fun _ => ?_
  exact Utters.bind (reply_utters (Utters.ask fun _ => trivial) _ _) fun ids => Utters.lift _

theorem sameXClient_looks (targetXid requestor : Window) :
    Utters Moves Looking (sameXClient env targetXid requestor) :=
  Utters.bind (requireXresClientIdentity_looks _) fun _ =>
    Utters.bind (requireXresClientIdentity_looks _) fun _ => Utters.pure _

/-! ## Methods that only observe, and the waits after an action -/

theorem sampleTerminal_looks (desired : Desired) :
    Utters Moves Looking (sampleTerminal env desired) :=
  Utters.bind (Utters.attempt refresh_looks) fun _ =>
    Utters.bind (this_quiet _) fun _ => Utters.pure _

theorem observeTerminal_looks (desired : Desired) :
    Utters Moves Looking (observeTerminal env desired) := by
  refine Utters.bind (Utters.ask fun _ => trivial) fun (rounds : Nat) => ?_
  induction rounds with
  | zero => exact Utters.bind (sampleTerminal_looks desired) fun _ => Utters.pure _
  | succ rounds ih =>
    refine Utters.bind (sampleTerminal_looks desired) fun seen => ?_
    obtain ⟨seen, sequence⟩ := seen
    cases seen with
    | none => exact ih
    | some observation => exact Utters.pure _

theorem snapshot_looks : Utters Moves Looking (snapshot env) := by
  refine Utters.bind (Utters.ask fun _ => trivial) fun sample => ?_
  refine Utters.bind (Utters.within fun s => exec_moves (.snapshot sample) s) fun _ => ?_
  exact Utters.bind (this_quiet _) fun _ => Utters.bind (markRefreshed_looks _) fun _ =>
    Utters.pure _

theorem subscribe_looks (request : SubscribeRequest) :
    Utters Moves Looking (subscribe env request) := by
  refine Utters.bind (Utters.ask fun _ => trivial) fun sample => ?_
  refine Utters.bind (Utters.within fun s => exec_moves (.subscribe request.kinds.asSlice sample) s)
    fun _ => ?_
  exact Utters.bind (this_quiet _) fun _ => Utters.bind (markRefreshed_looks _) fun _ =>
    Utters.pure _

theorem poll_looks (request : PollRequest) : Utters Moves Looking (poll env request) :=
  Utters.bind (Utters.ask fun _ => trivial) fun samples =>
    Utters.within fun s => exec_moves (.poll request.after request.limit samples.1 samples.2) s

theorem encoded_looks (raw : RawCapture) : Utters Moves Looking (encoded env raw) :=
  Utters.bind (Utters.ask fun _ => trivial) fun _ => Utters.lift _

theorem launchBaseline_looks : Utters Moves Looking (launchBaseline env) :=
  Utters.bind refresh_looks fun _ => this_quiet _

theorem correlateLaunch_looks (baseline : List Window) (startupId : List UInt8) :
    Utters Moves Looking (correlateLaunch env baseline startupId) := by
  have hsample : Utters Moves Looking (sampleLaunch env baseline startupId) :=
    Utters.bind refresh_looks fun _ => Utters.bind (Utters.ask fun _ => trivial) fun _ =>
      Utters.bind (this_quiet _) fun _ => Utters.pure _
  refine Utters.bind (Utters.ask fun _ => trivial) fun (rounds : Nat) => ?_
  induction rounds with
  | zero => exact hsample
  | succ rounds ih =>
    refine Utters.bind hsample fun client => ?_
    cases client with
    | none => exact ih
    | some id => exact Utters.pure _

end Looks

end AgentSeat.Provider
