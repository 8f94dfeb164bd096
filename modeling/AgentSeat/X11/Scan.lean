/-
  `scan` of `observer.rs`: one pass over the EWMH root state and the listed clients.

  Scope is decided in `readClient` before anything but the states and the desktop index of a
  window is looked at; a title is read only if titles are shown. `scan_wf` collects what every
  successful scan guarantees to the model that absorbs it.
-/
import AgentSeat.X11.Desktop
import Mathlib.Data.List.Nodup

namespace AgentSeat.X11

open AgentSeat.Proto

inductive ClientScope where
  | none | currentWorkspace | allWorkspaces
  deriving DecidableEq

def maxRootAtoms : Nat := 256
def maxClientAtoms : Nat := 64

structure RawClient where
  xid : Window
  title : Option Title
  workspace : Option WorkspaceId
  frame : Option Rect
  states : List ClientState
  actions : List ClientAction
  deriving DecidableEq

structure RawDesktop where
  currentWorkspace : WorkspaceId
  workspaces : List WorkspaceDescriptor
  clients : List RawClient
  active : Option Window
  deriving DecidableEq

inductive Placement where
  | workspace (id : WorkspaceId) | sticky | unknown
  deriving DecidableEq

/-! ## Root state -/

def validateWm (d : Desktop) (root : Window) (atoms : Atoms) : Except Failure Unit :=
  match optionalWindow d root atoms.supportingWmCheck with
  | none => .error (Failure.unsupported "no conforming EWMH window manager is active")
  | some check =>
    if optionalWindow d check atoms.supportingWmCheck ≠ some check then
      .error (Failure.unsupported "the EWMH window-manager check is stale")
    else .ok ()

/-- `i32::try_from` of an unsigned word. -/
def i32OfU32 (n : Nat) : Option Int := if n < 2 ^ 31 then some n else none

/-- The range check of the checked `i32` operations. -/
def checkedI32 (n : Int) : Option Int := if -(2 ^ 31) ≤ n ∧ n < 2 ^ 31 then some n else none

/-- The range check of the checked `u32` operations. -/
def checkedU32 (n : Nat) : Option Nat := if n ≤ u32Max then some n else none

def rectFromCardinals : List Nat → Option Rect
  | x :: y :: width :: height :: _ => do
    let x ← i32OfU32 x
    let y ← i32OfU32 y
    if width ≠ 0 ∧ height ≠ 0 then some ⟨x, y, width, height⟩ else none
  | _ => none

/-- A nonempty UTF-8 text within its bound. -/
def boundedText (max : Nat) (bytes : List UInt8) : Option (BoundedText max) := do
  let text ← String.fromUTF8? ⟨bytes.toArray⟩
  if text.isEmpty then none else (BoundedText.new text).toOption

def parseWorkspaceNames (bytes : List UInt8) (count : Nat) : List (Option WorkspaceName) :=
  let names := ((bytes.splitOn 0).take count).map (boundedText maxWorkspaceNameBytes)
  names ++ List.replicate (count - names.length) none

def readWorkspace (names : List (Option WorkspaceName)) (workAreas : List Nat) (index : Nat) :
    Except Failure WorkspaceDescriptor :=
  if index > u16Max then
    .error (Failure.internal "workspace index exceeded its bound")
  else
    .ok {
      id := index
      name := (names[index]?).join
      workArea :=
        if index * 4 + 4 ≤ workAreas.length then
          rectFromCardinals ((workAreas.drop (index * 4)).take 4)
        else none }

def readWorkspaces (d : Desktop) (root : Window) (atoms : Atoms) (count : Nat) :
    Except Failure (List WorkspaceDescriptor) :=
  let names :=
    match readable (propertyBytes d root atoms.desktopNames atoms.utf8
      (maxWorkspaces * (maxWorkspaceNameBytes + 1))) with
    | some bytes => parseWorkspaceNames bytes count
    | none => List.replicate count none
  let workAreas :=
    (readable (property32 d root atoms.workarea cardinalType (maxWorkspaces * 4))).getD []
  (List.range count).mapM (readWorkspace names workAreas)

/-! ## Clients -/

/-- The first occurrence of every window other than `NONE`, in order. -/
def firstOccurrences (seen : List Window) : List Window → List Window
  | [] => []
  | xid :: rest =>
    if xid ≠ none32 ∧ xid ∉ seen then xid :: firstOccurrences (xid :: seen) rest
    else firstOccurrences seen rest

/-- The plain client list, read when there is no stacking list. -/
def plainClientList (d : Desktop) (root : Window) (atoms : Atoms) :
    Except Failure (List Window) := do
  let clients ← property32 d root atoms.clientList windowType maxClients
  pure (clients.getD [])

/-- The stacking list when there is one, else the plain client list. -/
def clientList (d : Desktop) (root : Window) (atoms : Atoms) : Except Failure (List Window) := do
  let stacking ← property32 d root atoms.clientListStacking windowType maxClients
  let clients ← stacking.elim (plainClientList d root atoms) pure
  pure (firstOccurrences [] clients)

def stateTable (atoms : Atoms) : List (Atom × ClientState) :=
  [(atoms.stateAbove, .above), (atoms.stateBelow, .below), (atoms.stateFullscreen, .fullscreen),
   (atoms.stateHidden, .hidden), (atoms.stateMaximizedHorz, .maximizedHorizontal),
   (atoms.stateMaximizedVert, .maximizedVertical),
   (atoms.stateDemandsAttention, .demandsAttention), (atoms.stateSticky, .sticky),
   (atoms.stateShaded, .shaded)]

/-- An atom list of a client; anything unreadable counts as empty. -/
def clientAtoms (d : Desktop) (xid : Window) (property : Atom) : List Atom :=
  (readable (property32 d xid property atomType maxClientAtoms)).getD []

def clientStates (d : Desktop) (xid : Window) (atoms : Atoms) : List ClientState :=
  let values := clientAtoms d xid atoms.wmState
  (stateTable atoms).filterMap fun entry => if entry.1 ∈ values then some entry.2 else none

def clientPlacement (d : Desktop) (xid : Window) (atoms : Atoms) (states : List ClientState)
    (workspaceCount : Nat) : Placement :=
  if .sticky ∈ states then .sticky
  else
    match optionalCardinal d xid atoms.wmDesktop with
    | some workspace =>
      if workspace = u32Max then .sticky
      else if workspace < workspaceCount ∧ workspace ≤ u16Max then .workspace workspace
      else .unknown
    | none => .unknown

/-- The first of the two name properties that carries a usable title. -/
def clientTitle (d : Desktop) (xid : Window) (atoms : Atoms) : Option Title :=
  [atoms.wmVisibleName, atoms.wmName].findSome? fun property =>
    (readable (propertyBytes d xid property atoms.utf8 maxTitleBytes)).bind
      (boundedText maxTitleBytes)

/-- The actions a client and the window manager advertise together. -/
def clientActions (d : Desktop) (xid : Window) (atoms : Atoms) (supported : List Atom) :
    List ClientAction :=
  let allowed := clientAtoms d xid atoms.wmAllowedActions
  let protocols := clientAtoms d xid atoms.wmProtocols
  let activate := atoms.activeWindow ∈ supported
  let close := atoms.closeWindow ∈ supported ∧ atoms.actionClose ∈ allowed ∧
    atoms.wmDeleteWindow ∈ protocols
  let changeWorkspace := atoms.wmDesktop ∈ supported ∧ atoms.actionChangeDesktop ∈ allowed
  let changeState := atoms.wmState ∈ supported ∧
    (atoms.stateDemandsAttention ∈ supported ∨
      [(atoms.actionAbove, atoms.stateAbove), (atoms.actionBelow, atoms.stateBelow),
       (atoms.actionFullscreen, atoms.stateFullscreen),
       (atoms.actionMaximizeHorz, atoms.stateMaximizedHorz),
       (atoms.actionMaximizeVert, atoms.stateMaximizedVert),
       (atoms.actionShade, atoms.stateShaded), (atoms.actionStick, atoms.stateSticky)].any
        fun pair => decide (pair.1 ∈ allowed ∧ pair.2 ∈ supported))
  let changeGeometry := atoms.moveresizeWindow ∈ supported ∧
    (atoms.actionMove ∈ allowed ∨ atoms.actionResize ∈ allowed)
  (if activate then [.activate] else []) ++ (if close then [.close] else []) ++
    (if changeWorkspace then [.changeWorkspace] else []) ++
    (if changeState then [.changeState] else []) ++
    (if changeGeometry then [.changeGeometry] else [])

/-- Left, right, top and bottom extents; anything but four cardinals counts as zero. -/
def clientFrameExtents (d : Desktop) (xid : Window) (atoms : Atoms) : Nat × Nat × Nat × Nat :=
  match readable (property32 d xid atoms.frameExtents cardinalType 4) with
  | some [left, right, top, bottom] => (left, right, top, bottom)
  | _ => (0, 0, 0, 0)

def clientFrame (d : Desktop) (root xid : Window) (atoms : Atoms) : Option Rect := do
  let geometry ← (d.getGeometry xid).toOption
  let translated ← (d.translateCoordinates xid root 0 0).toOption
  let (left, right, top, bottom) := clientFrameExtents d xid atoms
  let left' ← i32OfU32 left
  let top' ← i32OfU32 top
  let x ← checkedI32 (translated.1 - left')
  let y ← checkedI32 (translated.2 - top')
  let width ← (checkedU32 (geometry.width + left)).bind fun w => checkedU32 (w + right)
  let height ← (checkedU32 (geometry.height + top)).bind fun h => checkedU32 (h + bottom)
  return ⟨x, y, width, height⟩

def inScope (scope : ClientScope) (placement : Placement) (currentWorkspace : WorkspaceId) :
    Bool :=
  match scope with
  | .none => false
  | .allWorkspaces => true
  | .currentWorkspace =>
    match placement with
    | .sticky => true
    | .workspace workspace => workspace = currentWorkspace
    | .unknown => false

/-- `none` for a client outside the scope. -/
def readClient (d : Desktop) (root : Window) (atoms : Atoms) (supported : List Atom)
    (currentWorkspace : WorkspaceId) (workspaceCount : Nat) (scope : ClientScope)
    (showTitles : Bool) (xid : Window) : Option RawClient :=
  let states := clientStates d xid atoms
  let placement := clientPlacement d xid atoms states workspaceCount
  if inScope scope placement currentWorkspace then
    some {
      xid := xid
      title := if showTitles then clientTitle d xid atoms else none
      workspace := match placement with
        | .workspace workspace => some workspace
        | .sticky | .unknown => none
      frame := clientFrame d root xid atoms
      actions := clientActions d xid atoms supported
      states := states }
  else none

/-! ## The scan -/

/-- The listed clients inside the scope; with scope `none` the list is not read. -/
def scopedClients (d : Desktop) (root : Window) (atoms : Atoms) (supported : List Atom)
    (current : WorkspaceId) (count : Nat) (scope : ClientScope) (showTitles : Bool) :
    Except Failure (List RawClient) :=
  match scope with
  | .none => pure []
  | .currentWorkspace | .allWorkspaces => do
    let xids ← clientList d root atoms
    pure (xids.filterMap (readClient d root atoms supported current count scope showTitles))

/-- The active window, when it is one of the clients in scope. -/
def scopedActive (d : Desktop) (root : Window) (atoms : Atoms) (clients : List RawClient) :
    Option Window :=
  (optionalWindow d root atoms.activeWindow).filter
    fun xid => decide (xid ∈ clients.map RawClient.xid)

def scan (d : Desktop) (root : Window) (atoms : Atoms) (scope : ClientScope)
    (showTitles : Bool) : Except Failure RawDesktop := do
  validateWm d root atoms
  let count ← requiredCardinal d root atoms.numberOfDesktops
  refuseIf (count = 0 ∨ count > maxWorkspaces)
    (Failure.tooLarge "workspace count is outside the public bound")
  let current ← requiredCardinal d root atoms.currentDesktop
  refuseIf (current ≥ count ∨ current > u16Max)
    (Failure.malformed "current workspace is outside the advertised range")
  let workspaces ← readWorkspaces d root atoms count
  let supported ← property32 d root atoms.supported atomType maxRootAtoms
  let clients ← scopedClients d root atoms (supported.getD []) current count scope showTitles
  pure ⟨current, workspaces, clients, scopedActive d root atoms clients⟩

/-! ## What a successful scan guarantees -/

theorem mapM_ok_length {ε α β : Type} {f : α → Except ε β} {xs : List α} {ys : List β}
    (h : xs.mapM f = .ok ys) : ys.length = xs.length := by
  induction xs generalizing ys with
  | nil =>
    simp only [List.mapM_nil, pure, Except.pure, Except.ok.injEq] at h
    subst h
    rfl
  | cons x xs ih =>
    rw [List.mapM_cons] at h
    obtain ⟨y, -, h⟩ := Lib.except_bind_ok h
    obtain ⟨zs, hzs, h⟩ := Lib.except_bind_ok h
    simp only [pure, Except.pure, Except.ok.injEq] at h
    rw [← h, List.length_cons, List.length_cons, ih hzs]

theorem firstOccurrences_spec (seen xids : List Window) :
    (firstOccurrences seen xids).Nodup ∧ (∀ x ∈ firstOccurrences seen xids, x ∉ seen) ∧
      (firstOccurrences seen xids).length ≤ xids.length := by
  induction xids generalizing seen with
  | nil => simp [firstOccurrences]
  | cons xid rest ih =>
    unfold firstOccurrences
    split
    · next h =>
      obtain ⟨hn, hs, hl⟩ := ih (xid :: seen)
      refine ⟨List.nodup_cons.mpr ⟨fun hx => hs xid hx (by simp), hn⟩, ?_, by simpa using hl⟩
      intro x hx
      rcases List.mem_cons.mp hx with rfl | hx
      · exact h.2
      · exact fun hmem => hs x hx (List.mem_cons_of_mem _ hmem)
    · obtain ⟨hn, hs, hl⟩ := ih seen
      exact ⟨hn, hs, by simp only [List.length_cons]; omega⟩

theorem clientList_ok {d : Desktop} {root : Window} {atoms : Atoms} {xids : List Window}
    (h : clientList d root atoms = .ok xids) : xids.Nodup ∧ xids.length ≤ maxClients := by
  unfold clientList at h
  obtain ⟨stacking, hs, h⟩ := Lib.except_bind_ok h
  obtain ⟨clients, hc, h⟩ := Lib.except_bind_ok h
  have hlen : clients.length ≤ maxClients := by
    cases stacking with
    | some values =>
      simp only [Option.elim_some, pure, Except.pure, Except.ok.injEq] at hc
      exact hc ▸ property32_length hs
    | none =>
      obtain ⟨plain, hp, hc⟩ := Lib.except_bind_ok hc
      simp only [pure, Except.pure, Except.ok.injEq] at hc
      cases plain with
      | some values => exact hc ▸ property32_length hp
      | none => simp [← hc]
  simp only [pure, Except.pure, Except.ok.injEq] at h
  obtain ⟨hn, -, hl⟩ := firstOccurrences_spec [] clients
  rw [← h]
  exact ⟨hn, Nat.le_trans hl hlen⟩

theorem clientStates_length (d : Desktop) (xid : Window) (atoms : Atoms) :
    (clientStates d xid atoms).length ≤ 9 := by
  unfold clientStates
  exact Nat.le_trans (List.length_filterMap_le _ _) (by simp [stateTable])

theorem clientActions_length (d : Desktop) (xid : Window) (atoms : Atoms)
    (supported : List Atom) : (clientActions d xid atoms supported).length ≤ 5 := by
  have h (p : Prop) [Decidable p] (a : ClientAction) :
      (if p then [a] else []).length ≤ 1 := by split <;> simp
  unfold clientActions
  simp only [List.length_append]
  have h₁ := h (atoms.activeWindow ∈ supported) .activate
  refine Nat.le_trans (Nat.add_le_add (Nat.add_le_add (Nat.add_le_add (Nat.add_le_add h₁
    (h _ _)) (h _ _)) (h _ _)) (h _ _)) (by omega)

theorem readClient_some {d : Desktop} {root : Window} {atoms : Atoms} {supported : List Atom}
    {current : WorkspaceId} {count : Nat} {scope : ClientScope} {showTitles : Bool}
    {xid : Window} {c : RawClient}
    (h : readClient d root atoms supported current count scope showTitles xid = some c) :
    c.xid = xid ∧ c.states.length ≤ 9 ∧ c.actions.length ≤ 5 := by
  unfold readClient at h
  dsimp only at h
  split at h
  · simp only [Option.some.injEq] at h
    subst h
    exact ⟨rfl, clientStates_length d xid atoms, clientActions_length d xid atoms supported⟩
  · simp at h

/-- What the model relies on in a scanned desktop. -/
structure RawDesktop.WF (raw : RawDesktop) : Prop where
  nodup : (raw.clients.map RawClient.xid).Nodup
  clients_le : raw.clients.length ≤ maxClients
  workspaces_le : raw.workspaces.length ≤ maxWorkspaces
  states_le : ∀ c ∈ raw.clients, c.states.length ≤ 16
  actions_le : ∀ c ∈ raw.clients, c.actions.length ≤ 8

theorem filterMap_map_sublist {α β : Type} {f : α → Option β} {g : β → α}
    (h : ∀ a b, f a = some b → g b = a) (xs : List α) :
    ((xs.filterMap f).map g).Sublist xs := by
  induction xs with
  | nil => simp
  | cons x xs ih =>
    cases hx : f x with
    | none =>
      rw [List.filterMap_cons_none hx]
      exact ih.cons x
    | some b =>
      rw [List.filterMap_cons_some hx, List.map_cons, h x b hx]
      exact ih.cons_cons x

theorem scopedClients_ok {d : Desktop} {root : Window} {atoms : Atoms} {supported : List Atom}
    {current : WorkspaceId} {count : Nat} {scope : ClientScope} {showTitles : Bool}
    {clients : List RawClient}
    (h : scopedClients d root atoms supported current count scope showTitles = .ok clients) :
    (clients.map RawClient.xid).Nodup ∧ clients.length ≤ maxClients ∧
      ∀ c ∈ clients, c.states.length ≤ 9 ∧ c.actions.length ≤ 5 := by
  have hread : clients = [] ∨ ∃ xids, clientList d root atoms = .ok xids ∧
      clients = xids.filterMap
        (readClient d root atoms supported current count scope showTitles) := by
    cases scope with
    | none =>
      simp only [scopedClients, pure, Except.pure, Except.ok.injEq] at h
      exact .inl h.symm
    | currentWorkspace | allWorkspaces =>
      obtain ⟨xids, hx, h⟩ := Lib.except_bind_ok h
      simp only [pure, Except.pure, Except.ok.injEq] at h
      exact .inr ⟨xids, hx, h.symm⟩
  rcases hread with rfl | ⟨xids, hx, rfl⟩
  · simp
  · obtain ⟨hn, hl⟩ := clientList_ok hx
    have hxid (a : Window) (b : RawClient)
        (h : readClient d root atoms supported current count scope showTitles a = some b) :
        b.xid = a := (readClient_some h).1
    have hsub := filterMap_map_sublist hxid xids
    refine ⟨hsub.nodup hn, Nat.le_trans (List.length_filterMap_le _ _) hl, ?_⟩
    intro c hc
    obtain ⟨xid, -, hc⟩ := List.mem_filterMap.mp hc
    exact (readClient_some hc).2

theorem scan_wf {d : Desktop} {root : Window} {atoms : Atoms} {scope : ClientScope}
    {showTitles : Bool} {raw : RawDesktop} (h : scan d root atoms scope showTitles = .ok raw) :
    raw.WF := by
  unfold scan at h
  obtain ⟨-, -, h⟩ := Lib.except_bind_ok h
  obtain ⟨count, -, h⟩ := Lib.except_bind_ok h
  obtain ⟨_, hcount, h⟩ := Lib.except_bind_ok h
  obtain ⟨current, -, h⟩ := Lib.except_bind_ok h
  obtain ⟨-, -, h⟩ := Lib.except_bind_ok h
  obtain ⟨workspaces, hws, h⟩ := Lib.except_bind_ok h
  obtain ⟨supported, -, h⟩ := Lib.except_bind_ok h
  obtain ⟨clients, hcs, h⟩ := Lib.except_bind_ok h
  simp only [pure, Except.pure, Except.ok.injEq] at h
  subst h
  have hbound := refuseIf_ok hcount
  obtain ⟨hn, hl, hc⟩ := scopedClients_ok hcs
  refine ⟨hn, hl, ?_, fun c h => ?_, fun c h => ?_⟩
  · change workspaces.length ≤ maxWorkspaces
    rw [mapM_ok_length hws, List.length_range]
    omega
  · have := (hc c h).1
    omega
  · have := (hc c h).2
    omega

end AgentSeat.X11
