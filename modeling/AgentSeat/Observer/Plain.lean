/-
  Plain desktops: what a conforming server answers when it holds given windows and nothing
  changes while it is scanned. They show that the hypotheses of the results about runs can be met,
  and they carry the runs that tell two statements apart.
-/
import AgentSeat.Observer.Calls

namespace AgentSeat.X11

open AgentSeat.Proto

/-- Some numbering of the atoms. -/
def plainAtoms : Atoms where
  supported := 101
  clientList := 102
  clientListStacking := 103
  numberOfDesktops := 104
  currentDesktop := 105
  desktopNames := 106
  activeWindow := 107
  workarea := 108
  supportingWmCheck := 109
  wmVisibleName := 110
  wmName := 111
  wmDesktop := 112
  wmState := 113
  wmAllowedActions := 114
  frameExtents := 115
  moveresizeWindow := 116
  closeWindow := 117
  wmProtocols := 118
  wmDeleteWindow := 119
  clientLeader := 120
  startupId := 121
  utf8 := 122
  clipboard := 123
  targets := 124
  textPlainUtf8 := 125
  textPlain := 126
  stateAbove := 127
  stateBelow := 128
  stateFullscreen := 129
  stateHidden := 130
  stateMaximizedHorz := 131
  stateMaximizedVert := 132
  stateDemandsAttention := 133
  stateSticky := 134
  stateShaded := 135
  actionAbove := 136
  actionBelow := 137
  actionFullscreen := 138
  actionMaximizeHorz := 139
  actionMaximizeVert := 140
  actionShade := 141
  actionStick := 142
  actionClose := 143
  actionChangeDesktop := 144
  actionMove := 145
  actionResize := 146

/-- A managed window of a plain desktop. -/
structure PlainWindow where
  xid : Window
  workspace : Nat
  width : Nat

def plainRoot : Window := 1
def plainWm : Window := 2

/-- A present 32-bit property. -/
def items (type : Atom) (values : List Nat) : Except XFault PropertyReply :=
  .ok ⟨type, 32, 0, [], some values⟩

/-- A property that is not set. -/
def absent : Except XFault PropertyReply := .ok ⟨none32, 0, 0, [], none⟩

/-- A conforming server with two workspaces that answers every request at once. Titles, states,
    work areas and workspace names are not set. -/
def plainDesktop (current : Nat) (windows : List PlainWindow) (active : Window) : Desktop where
  getProperty window property _ _ :=
    if property = plainAtoms.supportingWmCheck then items windowType [plainWm]
    else if window = plainRoot then
      if property = plainAtoms.numberOfDesktops then items cardinalType [2]
      else if property = plainAtoms.currentDesktop then items cardinalType [current]
      else if property = plainAtoms.clientListStacking then
        items windowType (windows.map PlainWindow.xid)
      else if property = plainAtoms.activeWindow then items windowType [active]
      else if property = plainAtoms.supported then
        items atomType [plainAtoms.activeWindow, plainAtoms.currentDesktop]
      else absent
    else if property = plainAtoms.wmDesktop then
      match windows.find? fun w => w.xid = window with
      | some w => items cardinalType [w.workspace]
      | none => absent
    else absent
  getGeometry window :=
    match windows.find? fun w => w.xid = window with
    | some w => .ok ⟨w.width, 10⟩
    | none => .error .reply
  translateCoordinates _ _ x y := .ok (x, y)

/-- A server without the Composite extension. -/
def noComposite : Composite where
  queryVersion := .error .reply
  windowAttributes _ := .error .other
  unredirect _ := .error .reply
  redirect _ := .error .reply
  order windows := windows
  order_perm _ := List.Perm.refl _

def plainSample (current : Nat) (windows : List PlainWindow) (active : Window) : Sample :=
  ⟨plainDesktop current windows active, noComposite⟩

/-- An observer of all workspaces, without titles and capture. -/
def plainConnection : Connection := ⟨plainRoot, plainAtoms, .allWorkspaces, false, false⟩

theorem plainDesktop_property32 (current : Nat) (windows : List PlainWindow) (active : Window)
    {window : Window} {property type : Atom} {values : List Nat} {max : Nat}
    (h : (plainDesktop current windows active).getProperty window property type max =
      items type values) (set : type ≠ none32) (bound : values.length ≤ max)
    (small : max ≤ u32Max) :
    property32 (plainDesktop current windows active) window property type max =
      .ok (some values) := by
  have hmax : ¬ max > u32Max := by omega
  have hlen : ¬ values.length > max := by omega
  simp [property32, h, items, checked, refuseIf, hmax, hlen, set, bind, Except.bind, pure,
    Except.pure]

theorem clientList_plainDesktop (current : Nat) {windows : List PlainWindow} (active : Window)
    (h : windows.length ≤ maxClients) :
    clientList (plainDesktop current windows active) plainRoot plainAtoms =
      .ok (firstOccurrences [] (windows.map PlainWindow.xid)) := by
  have hlist : property32 (plainDesktop current windows active) plainRoot
      plainAtoms.clientListStacking windowType maxClients =
        .ok (some (windows.map PlainWindow.xid)) :=
    plainDesktop_property32 current windows active rfl (by decide)
      (by rw [List.length_map]; exact h) (by decide)
  unfold clientList
  rw [hlist]
  rfl

/-- A plain desktop can be scanned. -/
theorem scan_plainDesktop {current : Nat} {windows : List PlainWindow} (active : Window)
    (scope : ClientScope) (showTitles : Bool) (hcurrent : current < 2)
    (hwindows : windows.length ≤ maxClients) :
    ∃ raw, scan (plainDesktop current windows active) plainRoot plainAtoms scope showTitles =
      .ok raw ∧ raw.currentWorkspace = current := by
  have hwm : validateWm (plainDesktop current windows active) plainRoot plainAtoms = .ok () := rfl
  have hcount : requiredCardinal (plainDesktop current windows active) plainRoot
      plainAtoms.numberOfDesktops = .ok 2 := rfl
  have hnow : requiredCardinal (plainDesktop current windows active) plainRoot
      plainAtoms.currentDesktop = .ok current := rfl
  have hspaces : ∃ workspaces, readWorkspaces (plainDesktop current windows active) plainRoot
      plainAtoms 2 = .ok workspaces := ⟨_, rfl⟩
  have hsupported : ∃ supported, property32 (plainDesktop current windows active) plainRoot
      plainAtoms.supported atomType maxRootAtoms = .ok supported := ⟨_, rfl⟩
  obtain ⟨workspaces, hspaces⟩ := hspaces
  obtain ⟨supported, hsupported⟩ := hsupported
  have hclients : ∃ clients, scopedClients (plainDesktop current windows active) plainRoot
      plainAtoms (supported.getD []) current 2 scope showTitles = .ok clients := by
    cases scope with
    | none => exact ⟨[], rfl⟩
    | currentWorkspace | allWorkspaces =>
      simp only [scopedClients, clientList_plainDesktop current active hwindows]
      exact ⟨_, rfl⟩
  obtain ⟨clients, hclients⟩ := hclients
  refine ⟨⟨current, workspaces, clients, scopedActive (plainDesktop current windows active)
    plainRoot plainAtoms clients⟩, ?_, rfl⟩
  have hsmall : ¬ (current ≥ 2 ∨ current > u16Max) := by
    have : (2 : Nat) ≤ u16Max := by decide
    omega
  simp only [scan, hwm, hcount, hnow, hspaces, hsupported, hclients, refuseIf, if_neg hsmall,
    show ¬ (2 = 0 ∨ 2 > maxWorkspaces) by decide, if_false, bind, Except.bind, pure, Except.pure]

end AgentSeat.X11
