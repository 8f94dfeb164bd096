/-
  What a peer cannot see cannot reach it.

  Two desktops agree for a connection (`Agree`) when the root facts are the same, when the listed
  clients inside the scope are the same ones in the same order with the same properties, and when
  the active window is the same whenever it is one of them. Windows outside the scope and titles
  that are not shown are free: they may differ in number, in order and in everything they hold.

  Main result: `scope_noninterference`. The ids, the sequence and the event queue are shared by
  all windows, but a scan drops what is out of scope before any of them is touched. Agreeing
  desktops scan to the same value (`scan_congr`), so two observers fed with agreeing desktops are
  in the same state after every call, and every reply is the same.
-/
import AgentSeat.Observer.EventLog
import AgentSeat.Observer.Plain
import AgentSeat.Proto.Call

namespace AgentSeat.X11

open AgentSeat.Lib AgentSeat.Proto

/-! ## What the policy shows -/

/-- The part of a configuration that decides what an observer may show. -/
structure Exposure where
  clientScope : ClientScope
  titlesEnabled : Bool
  deriving DecidableEq

/-- The observer `observer_for` connects for a grant. -/
def observerFor (root : Window) (atoms : Atoms) (exposure : Exposure)
    (granted : List Capability) : Connection where
  root := root
  atoms := atoms
  scope := exposure.clientScope
  showTitles := exposure.titlesEnabled && granted.contains .observeTitles
  captureEnabled := granted.contains .captureObscured

def Connection.settings (c : Connection) : Settings :=
  ⟨c.root, c.atoms, c.scope, c.showTitles, c.captureEnabled⟩

/-! ## Agreement -/

/-- A window that a scan with these settings reports if it is listed. -/
def visible (c : Connection) (d : Desktop) (xid : Window) : Bool :=
  inScope c.scope
    (clientPlacement d xid c.atoms (clientStates d xid c.atoms)
      ((optionalCardinal d c.root c.atoms.numberOfDesktops).getD 0))
    ((optionalCardinal d c.root c.atoms.currentDesktop).getD 0)

/-- The listed clients inside the scope, in the order of the list. -/
def visibleClients (c : Connection) (d : Desktop) : Except Failure (List Window) :=
  (clientList d c.root c.atoms).map (List.filter (visible c d))

/-- The root facts agree: the window manager's check window, the workspaces with their names and
    work areas, the current one, and what the window manager supports. -/
structure RootAgree (c : Connection) (d d' : Desktop) : Prop where
  check : validateWm d c.root c.atoms = validateWm d' c.root c.atoms
  count : optionalCardinal d c.root c.atoms.numberOfDesktops =
    optionalCardinal d' c.root c.atoms.numberOfDesktops
  current : optionalCardinal d c.root c.atoms.currentDesktop =
    optionalCardinal d' c.root c.atoms.currentDesktop
  workspaces : ∀ count, readWorkspaces d c.root c.atoms count =
    readWorkspaces d' c.root c.atoms count
  supported : property32 d c.root c.atoms.supported atomType maxRootAtoms =
    property32 d' c.root c.atoms.supported atomType maxRootAtoms

/-- One client has the same properties and the same place; its title counts only if it is
    shown. -/
structure ClientAgree (c : Connection) (d d' : Desktop) (xid : Window) : Prop where
  states : clientAtoms d xid c.atoms.wmState = clientAtoms d' xid c.atoms.wmState
  workspace : optionalCardinal d xid c.atoms.wmDesktop = optionalCardinal d' xid c.atoms.wmDesktop
  allowed : clientAtoms d xid c.atoms.wmAllowedActions = clientAtoms d' xid c.atoms.wmAllowedActions
  protocols : clientAtoms d xid c.atoms.wmProtocols = clientAtoms d' xid c.atoms.wmProtocols
  extents : clientFrameExtents d xid c.atoms = clientFrameExtents d' xid c.atoms
  geometry : (d.getGeometry xid).toOption = (d'.getGeometry xid).toOption
  position : (d.translateCoordinates xid c.root 0 0).toOption =
    (d'.translateCoordinates xid c.root 0 0).toOption
  title : c.showTitles = true → clientTitle d xid c.atoms = clientTitle d' xid c.atoms

/-- The two desktops look the same through the settings of `c`. Both client lists are read, or
    both reads fail alike; with scope `none` neither is looked at. -/
structure Agree (c : Connection) (d d' : Desktop) : Prop where
  root : RootAgree c d d'
  clients : c.scope ≠ .none → visibleClients c d = visibleClients c d'
  shown : ∀ xids, visibleClients c d = .ok xids → ∀ xid ∈ xids, ClientAgree c d d' xid
  active : ∀ xids, visibleClients c d = .ok xids → ∀ xid ∈ xids,
    (optionalWindow d c.root c.atoms.activeWindow = some xid ↔
      optionalWindow d' c.root c.atoms.activeWindow = some xid)

/-! ## Scans of agreeing desktops -/

section Scan

variable {c : Connection} {d d' : Desktop}

theorem clientStates_congr {xid : Window} (h : ClientAgree c d d' xid) :
    clientStates d xid c.atoms = clientStates d' xid c.atoms := by
  unfold clientStates
  rw [h.states]

theorem clientPlacement_congr {xid : Window} (h : ClientAgree c d d' xid)
    (states : List ClientState) (count : Nat) :
    clientPlacement d xid c.atoms states count = clientPlacement d' xid c.atoms states count := by
  unfold clientPlacement
  rw [h.workspace]

theorem clientActions_congr {xid : Window} (h : ClientAgree c d d' xid) (supported : List Atom) :
    clientActions d xid c.atoms supported = clientActions d' xid c.atoms supported := by
  unfold clientActions
  rw [h.allowed, h.protocols]

theorem clientFrame_congr {xid : Window} (h : ClientAgree c d d' xid) :
    clientFrame d c.root xid c.atoms = clientFrame d' c.root xid c.atoms := by
  unfold clientFrame
  rw [h.geometry, h.position, h.extents]

theorem readClient_congr {xid : Window} (h : ClientAgree c d d' xid) (supported : List Atom)
    (current count : Nat) :
    readClient d c.root c.atoms supported current count c.scope c.showTitles xid =
      readClient d' c.root c.atoms supported current count c.scope c.showTitles xid := by
  have htitle : (if c.showTitles then clientTitle d xid c.atoms else none) =
      if c.showTitles then clientTitle d' xid c.atoms else none := by
    split
    · next hs => exact h.title hs
    · rfl
  unfold readClient
  dsimp only
  rw [clientStates_congr h, clientPlacement_congr h, clientActions_congr h, clientFrame_congr h,
    htitle]

/-- The workspaces the scan goes on with are the ones `visible` looks at. -/
theorem requiredCardinal_ok {window : Window} {property : Atom} {value : Nat}
    (h : requiredCardinal d window property = .ok value) :
    optionalCardinal d window property = some value := by
  unfold requiredCardinal at h
  split at h
  · next v hv =>
    rw [Except.ok.injEq] at h
    rw [hv, h]
  · simp at h

/-- A window outside the scope is dropped, whatever it holds. -/
theorem readClient_hidden {current count : Nat} {xid : Window}
    (hcount : optionalCardinal d c.root c.atoms.numberOfDesktops = some count)
    (hcurrent : optionalCardinal d c.root c.atoms.currentDesktop = some current)
    (hidden : visible c d xid = false) (supported : List Atom) :
    readClient d c.root c.atoms supported current count c.scope c.showTitles xid = none := by
  unfold visible at hidden
  rw [hcount, hcurrent, Option.getD_some, Option.getD_some] at hidden
  unfold readClient
  dsimp only
  rw [hidden]
  rfl

/-- Reading a client list is reading its visible part. -/
theorem filterMap_readClient {current count : Nat}
    (hcount : optionalCardinal d c.root c.atoms.numberOfDesktops = some count)
    (hcurrent : optionalCardinal d c.root c.atoms.currentDesktop = some current)
    (supported : List Atom) (xids : List Window) :
    xids.filterMap (readClient d c.root c.atoms supported current count c.scope c.showTitles) =
      (xids.filter (visible c d)).filterMap
        (readClient d c.root c.atoms supported current count c.scope c.showTitles) := by
  induction xids with
  | nil => rfl
  | cons xid rest ih =>
    cases hv : visible c d xid with
    | true =>
      rw [List.filter_cons_of_pos hv, List.filterMap_cons, List.filterMap_cons, ih]
    | false =>
      rw [List.filter_cons_of_neg (by rw [hv]; simp),
        List.filterMap_cons_none (readClient_hidden hcount hcurrent hv supported), ih]

theorem scopedClients_visible {current count : Nat}
    (hcount : optionalCardinal d c.root c.atoms.numberOfDesktops = some count)
    (hcurrent : optionalCardinal d c.root c.atoms.currentDesktop = some current)
    (limited : c.scope ≠ .none) (supported : List Atom) :
    scopedClients d c.root c.atoms supported current count c.scope c.showTitles =
      (visibleClients c d).map (List.filterMap
        (readClient d c.root c.atoms supported current count c.scope c.showTitles)) := by
  have hread : scopedClients d c.root c.atoms supported current count c.scope c.showTitles =
      (clientList d c.root c.atoms).map (List.filterMap
        (readClient d c.root c.atoms supported current count c.scope c.showTitles)) := by
    unfold scopedClients
    cases hs : c.scope with
    | none => exact absurd hs limited
    | currentWorkspace | allWorkspaces => cases clientList d c.root c.atoms <;> rfl
  rw [hread, visibleClients]
  cases clientList d c.root c.atoms with
  | error e => rfl
  | ok xids => exact congrArg Except.ok (filterMap_readClient hcount hcurrent supported xids)

theorem scopedClients_congr (h : Agree c d d') {current count : Nat}
    (hcount : optionalCardinal d c.root c.atoms.numberOfDesktops = some count)
    (hcurrent : optionalCardinal d c.root c.atoms.currentDesktop = some current)
    (supported : List Atom) :
    scopedClients d c.root c.atoms supported current count c.scope c.showTitles =
      scopedClients d' c.root c.atoms supported current count c.scope c.showTitles := by
  by_cases limited : c.scope = .none
  · rw [limited]
    rfl
  · rw [scopedClients_visible hcount hcurrent limited, scopedClients_visible
      (h.root.count ▸ hcount) (h.root.current ▸ hcurrent) limited, ← h.clients limited]
    cases hv : visibleClients c d with
    | error e => rfl
    | ok xids =>
      refine congrArg Except.ok (List.filterMap_congr fun xid hx => ?_)
      exact readClient_congr (h.shown xids hv xid hx) supported current count

/-- Every scanned client is one of the visible ones. -/
theorem scopedClients_mem {current count : Nat}
    (hcount : optionalCardinal d c.root c.atoms.numberOfDesktops = some count)
    (hcurrent : optionalCardinal d c.root c.atoms.currentDesktop = some current)
    {supported : List Atom} {clients : List RawClient}
    (h : scopedClients d c.root c.atoms supported current count c.scope c.showTitles =
      .ok clients) {xid : Window} (hx : xid ∈ clients.map RawClient.xid) :
    ∃ xids, visibleClients c d = .ok xids ∧ xid ∈ xids := by
  by_cases limited : c.scope = .none
  · rw [limited] at h
    simp only [scopedClients, pure, Except.pure, Except.ok.injEq] at h
    subst h
    simp at hx
  · rw [scopedClients_visible hcount hcurrent limited] at h
    cases hv : visibleClients c d with
    | error e => simp [hv, Except.map] at h
    | ok xids =>
      refine ⟨xids, rfl, ?_⟩
      rw [hv, Except.map, Except.ok.injEq] at h
      subst h
      obtain ⟨client, hclient, rfl⟩ := List.mem_map.mp hx
      obtain ⟨y, hy, hread⟩ := List.mem_filterMap.mp hclient
      rw [(readClient_some hread).1]
      exact hy

theorem scopedActive_congr {clients : List RawClient}
    (h : ∀ xid ∈ clients.map RawClient.xid,
      (optionalWindow d c.root c.atoms.activeWindow = some xid ↔
        optionalWindow d' c.root c.atoms.activeWindow = some xid)) :
    scopedActive d c.root c.atoms clients = scopedActive d' c.root c.atoms clients := by
  unfold scopedActive
  ext xid
  simp only [Option.filter_eq_some_iff, decide_eq_true_eq]
  constructor
  · rintro ⟨ha, hx⟩
    exact ⟨(h xid hx).mp ha, hx⟩
  · rintro ⟨ha, hx⟩
    exact ⟨(h xid hx).mpr ha, hx⟩

/-- Agreeing desktops scan to the same value, a failure included. -/
theorem scan_congr (h : Agree c d d') :
    scan d c.root c.atoms c.scope c.showTitles = scan d' c.root c.atoms c.scope c.showTitles := by
  have hcount : requiredCardinal d c.root c.atoms.numberOfDesktops =
      requiredCardinal d' c.root c.atoms.numberOfDesktops := by
    unfold requiredCardinal
    rw [h.root.count]
  have hcurrent : requiredCardinal d c.root c.atoms.currentDesktop =
      requiredCardinal d' c.root c.atoms.currentDesktop := by
    unfold requiredCardinal
    rw [h.root.current]
  unfold scan
  rw [h.root.check, ← hcount, ← hcurrent, h.root.supported]
  refine except_bind_congr fun _ _ => except_bind_congr fun count hn => ?_
  refine except_bind_congr fun _ _ => except_bind_congr fun current hw => ?_
  rw [h.root.workspaces count]
  refine except_bind_congr fun _ _ => except_bind_congr fun workspaces _ => ?_
  refine except_bind_congr fun supported _ => ?_
  have hn := requiredCardinal_ok hn
  have hw := requiredCardinal_ok hw
  rw [← scopedClients_congr h hn hw]
  refine except_bind_congr fun clients hc => ?_
  have hactive : scopedActive d c.root c.atoms clients = scopedActive d' c.root c.atoms clients := by
    refine scopedActive_congr fun xid hx => ?_
    obtain ⟨xids, hv, hmem⟩ := scopedClients_mem hn hw hc hx
    exact h.active xids hv xid hmem
  rw [hactive]

end Scan

/-! ## Runs on agreeing desktops -/

/-- The same call on agreeing desktops; a poll takes the same number of samples. -/
inductive OpAgree (c : Connection) : Op → Op → Prop
  | snapshot {sample sample' : Sample} (h : Agree c sample.desktop sample'.desktop) :
      OpAgree c (.snapshot sample) (.snapshot sample')
  | subscribe (kinds : List EventKind) {sample sample' : Sample}
      (h : Agree c sample.desktop sample'.desktop) :
      OpAgree c (.subscribe kinds sample) (.subscribe kinds sample')
  | poll (after limit : Nat) {sample sample' : Sample} {rest rest' : List Sample}
      (h : Agree c sample.desktop sample'.desktop)
      (later : List.Forall₂ (fun s s' : Sample => Agree c s.desktop s'.desktop) rest rest') :
      OpAgree c (.poll after limit sample rest) (.poll after limit sample' rest')

section Run

variable {c : Connection} {s : State}

theorem refresh_congr {sample sample' : Sample} (h : Agree c sample.desktop sample'.desktop)
    (capture : c.captureEnabled = false) (settings : s.observer.settings = c.settings) :
    refresh sample s = refresh sample' s := by
  simp only [Observer.settings, Connection.settings, Settings.mk.injEq] at settings
  obtain ⟨hroot, hatoms, hscope, htitles, hcapture⟩ := settings
  unfold refresh self
  rw [Prog.read_bind, Prog.read_bind, id, hroot, hatoms, hscope, htitles, hcapture, capture,
    scan_congr h]
  rfl

/-- No call changes what the observer was connected with. -/
theorem Op.exec_settings (op : Op) (s : State) :
    (op.exec s).2.observer.settings = s.observer.settings := by
  refine Op.exec_keeps (R := fun s s' => s'.observer.settings = s.observer.settings)
    (fun _ => rfl) (fun _ _ _ h h' => h'.trans h)
    (fun sample s => (ticks_forward (refresh_ticks sample s)).2.settings) (fun s => ?_)
    (fun _ _ => rfl) (fun _ _ => rfl) op s
  change (settle s.observer).settings = _
  unfold settle
  split <;> rfl

theorem pollWait_congr {after : Nat} {sample sample' : Sample} {rest rest' : List Sample}
    (h : Agree c sample.desktop sample'.desktop)
    (later : List.Forall₂ (fun s s' : Sample => Agree c s.desktop s'.desktop) rest rest')
    (capture : c.captureEnabled = false) (settings : s.observer.settings = c.settings) :
    pollWait after sample rest s = pollWait after sample' rest' s := by
  induction later generalizing sample sample' s with
  | nil =>
    unfold pollWait
    rw [Prog.bind_run, Prog.bind_run, refresh_congr h capture settings]
  | cons hnext later ih =>
    have hstep := refresh_congr h capture settings
    have hkept := (Op.exec_settings (.refresh sample) s).trans settings
    change (refresh sample s).2.observer.settings = c.settings at hkept
    rcases hr : refresh sample s with ⟨r, s₁⟩
    rw [hr] at hstep hkept
    cases r with
    | error e => rw [pollWait_failed hr, pollWait_failed hstep.symm]
    | ok u =>
      cases hp : s₁.observer.resyncRequired with
      | true => rw [pollWait_pending hr hp, pollWait_pending hstep.symm hp]
      | false =>
        rw [pollWait_next hr hp, pollWait_next hstep.symm hp]
        dsimp only
        rw [ih hnext hkept]

theorem snapshot_congr {sample sample' : Sample} (h : Agree c sample.desktop sample'.desktop)
    (capture : c.captureEnabled = false) (settings : s.observer.settings = c.settings) :
    snapshot sample s = snapshot sample' s := by
  unfold snapshot
  rw [Prog.bind_run, Prog.bind_run, refresh_congr h capture settings]

theorem subscribe_congr (kinds : List EventKind) {sample sample' : Sample}
    (h : Agree c sample.desktop sample'.desktop) (capture : c.captureEnabled = false)
    (settings : s.observer.settings = c.settings) :
    subscribe kinds sample s = subscribe kinds sample' s := by
  unfold subscribe
  rw [Prog.bind_run, Prog.bind_run, refresh_congr h capture settings]

theorem poll_congr (after limit : Nat) {sample sample' : Sample} {rest rest' : List Sample}
    (h : Agree c sample.desktop sample'.desktop)
    (later : List.Forall₂ (fun s s' : Sample => Agree c s.desktop s'.desktop) rest rest')
    (capture : c.captureEnabled = false) (settings : s.observer.settings = c.settings) :
    poll after limit sample rest s = poll after limit sample' rest' s := by
  have hwait : pollWait after sample rest ⟨drain after s.observer, s.notes⟩ =
      pollWait after sample' rest' ⟨drain after s.observer, s.notes⟩ :=
    pollWait_congr h later capture settings
  unfold poll self modify
  rw [Prog.read_bind, Prog.read_bind]
  refine Prog.bind_congr fun _ s₁ h₁ => Prog.bind_congr fun _ s₂ h₂ => ?_
  obtain ⟨-, rfl⟩ := Prod.mk.inj h₁
  obtain ⟨-, rfl⟩ := Prod.mk.inj h₂
  rw [Prog.update_bind, Prog.update_bind, Prog.bind_run, Prog.bind_run, hwait]

theorem OpAgree.exec {op op' : Op} (h : OpAgree c op op') (capture : c.captureEnabled = false)
    (settings : s.observer.settings = c.settings) : op.exec s = op'.exec s := by
  cases h with
  | snapshot h =>
    simp only [Op.exec]
    rw [snapshot_congr h capture settings]
  | subscribe kinds h =>
    simp only [Op.exec]
    rw [subscribe_congr kinds h capture settings]
  | poll after limit h later =>
    simp only [Op.exec]
    rw [poll_congr after limit h later capture settings]

theorem run_congr {ops ops' : List Op} (h : List.Forall₂ (OpAgree c) ops ops')
    (capture : c.captureEnabled = false) {r : Run}
    (settings : r.state.observer.settings = c.settings) : r.after ops = r.after ops' := by
  induction h generalizing r with
  | nil => rfl
  | @cons op op' ops ops' hop hops ih =>
    have hstep : r.step op = r.step op' := by
      unfold Run.step
      rw [hop.exec capture settings]
    have hkept : (r.step op).state.observer.settings = c.settings :=
      (Op.exec_settings op r.state).trans settings
    change (r.step op).after ops = (r.step op').after ops'
    rw [← hstep]
    exact ih hkept

end Run

/-- A peer without the capture grant that makes the same calls on desktops that agree for its
    grant gets the same replies, the failures included. -/
theorem scope_noninterference (root : Window) (atoms : Atoms) (exposure : Exposure)
    (granted : List Capability) (capture : .captureObscured ∉ granted) (ops ops' : List Op)
    (h : List.Forall₂ (OpAgree (observerFor root atoms exposure granted)) ops ops') :
    ((observerFor root atoms exposure granted).run ops).replies =
      ((observerFor root atoms exposure granted).run ops').replies := by
  have hcapture : (observerFor root atoms exposure granted).captureEnabled = false := by
    simpa [observerFor] using capture
  exact congrArg Run.replies (run_congr h hcapture rfl)

/-- A window of the current workspace, alone or beside an active one of another workspace. -/
def openDesktop (width : Nat) : Sample := plainSample 0 [⟨7, 0, width⟩] 0

def crowdedDesktop (width hidden : Nat) : Sample :=
  plainSample 0 [⟨9, 1, hidden⟩, ⟨7, 0, width⟩] 9

/-- Reads structure and events of the current workspace. -/
def narrowGrant : Connection :=
  observerFor plainRoot plainAtoms ⟨.currentWorkspace, true⟩ [.observeStructure, .observeEvents]

theorem openDesktop_agree (width hidden : Nat) :
    Agree narrowGrant (openDesktop width).desktop (crowdedDesktop width hidden).desktop := by
  have hlist : visibleClients narrowGrant (openDesktop width).desktop = .ok [7] := rfl
  refine ⟨⟨rfl, rfl, rfl, fun _ => rfl, rfl⟩, fun _ => rfl, ?_, ?_⟩
  all_goals
    intro xids hx xid hmem
    rw [hlist, Except.ok.injEq] at hx
    subst hx
    obtain rfl := List.mem_singleton.mp hmem
  · exact ⟨rfl, rfl, rfl, rfl, rfl, rfl, rfl, fun _ => rfl⟩
  · have hopen : optionalWindow (openDesktop width).desktop narrowGrant.root
        narrowGrant.atoms.activeWindow = none := rfl
    have hcrowded : optionalWindow (crowdedDesktop width hidden).desktop narrowGrant.root
        narrowGrant.atoms.activeWindow = some 9 := rfl
    rw [hopen, hcrowded]
    simp

/-- A growing window is reported in the same words whether or not there is a second, active and
    growing window on the other workspace. -/
theorem scope_noninterference_crowd :
    (∃ batch event, (narrowGrant.run
        [.subscribe [] (openDesktop 20), .poll 0 8 (openDesktop 25) []]).replies =
        [.subscribed (.ok ⟨0⟩), .events (.ok batch)] ∧ batch.events.asSlice = [event]) ∧
      (narrowGrant.run [.subscribe [] (openDesktop 20), .poll 0 8 (openDesktop 25) []]).replies =
        (narrowGrant.run [.subscribe [] (crowdedDesktop 20 30),
          .poll 0 8 (crowdedDesktop 25 40) []]).replies := by
  refine ⟨⟨_, _, rfl, rfl⟩, ?_⟩
  refine scope_noninterference plainRoot plainAtoms ⟨.currentWorkspace, true⟩
    [.observeStructure, .observeEvents] (by decide) _ _ ?_
  exact .cons (.subscribe [] (openDesktop_agree 20 30))
    (.cons (.poll 0 8 (openDesktop_agree 25 40) .nil) .nil)

end AgentSeat.X11
