/-
  What a client publishes as its actions, against what `prepare` accepts for it.

  `client_actions` decides from `_NET_SUPPORTED`, the allowed actions and the protocols of a window;
  `prepare` decides again, from tables of its own. On one desktop the two agree: an action is
  published exactly when a request for it is accepted, and for geometry what is published bounds and
  promises what is accepted.
-/
import AgentSeat.Observer.Records
import AgentSeat.Provider.Geometry

namespace AgentSeat.Provider

open AgentSeat.Lib AgentSeat.Proto AgentSeat.X11

/-! ## The published side -/

section Published

variable {d : Desktop} {xid : Window} {atoms : Atoms} {supported allowed : List Atom}

theorem clientAtoms_eq {property : Atom} {values : Option (List Nat)}
    (h : property32 d xid property atomType maxClientAtoms = .ok values) :
    clientAtoms d xid property = values.getD [] := by
  unfold clientAtoms
  rw [h]
  rfl

theorem allowedActions_eq (h : allowedActions d atoms xid = .ok allowed) :
    clientAtoms d xid atoms.wmAllowedActions = allowed := by
  obtain ⟨values, hvalues, h⟩ := Lib.except_bind_ok h
  rw [clientAtoms_eq hvalues]
  exact Except.ok.inj h

theorem activate_mem : .activate ∈ clientActions d xid atoms supported ↔
    atoms.activeWindow ∈ supported := by
  simp [clientActions]

theorem close_mem : .close ∈ clientActions d xid atoms supported ↔
    atoms.closeWindow ∈ supported ∧ atoms.actionClose ∈ clientAtoms d xid atoms.wmAllowedActions ∧
      atoms.wmDeleteWindow ∈ clientAtoms d xid atoms.wmProtocols := by
  simp [clientActions]

theorem changeWorkspace_mem : .changeWorkspace ∈ clientActions d xid atoms supported ↔
    atoms.wmDesktop ∈ supported ∧
      atoms.actionChangeDesktop ∈ clientAtoms d xid atoms.wmAllowedActions := by
  simp [clientActions]

theorem changeGeometry_mem : .changeGeometry ∈ clientActions d xid atoms supported ↔
    atoms.moveresizeWindow ∈ supported ∧
      (atoms.actionMove ∈ clientAtoms d xid atoms.wmAllowedActions ∨
        atoms.actionResize ∈ clientAtoms d xid atoms.wmAllowedActions) := by
  simp [clientActions]

/-- The window manager knows the state and the client allows the action it needs. -/
def StateOffered (atoms : Atoms) (supported allowed : List Atom) (state : ClientState) : Prop :=
  ∃ stateAtom actionAtom, stateAtoms atoms state = .ok (stateAtom, actionAtom) ∧
    atoms.wmState ∈ supported ∧ stateAtom ∈ supported ∧
    ∀ action, actionAtom = some action → action ∈ allowed

theorem changeState_mem : .changeState ∈ clientActions d xid atoms supported ↔
    ∃ state, StateOffered atoms supported (clientAtoms d xid atoms.wmAllowedActions) state := by
  have hpublished : .changeState ∈ clientActions d xid atoms supported ↔
      atoms.wmState ∈ supported ∧ (atoms.stateDemandsAttention ∈ supported ∨
        [(atoms.actionAbove, atoms.stateAbove), (atoms.actionBelow, atoms.stateBelow),
         (atoms.actionFullscreen, atoms.stateFullscreen),
         (atoms.actionMaximizeHorz, atoms.stateMaximizedHorz),
         (atoms.actionMaximizeVert, atoms.stateMaximizedVert),
         (atoms.actionShade, atoms.stateShaded), (atoms.actionStick, atoms.stateSticky)].any
          (fun pair => decide (pair.1 ∈ clientAtoms d xid atoms.wmAllowedActions ∧
            pair.2 ∈ supported)) = true) := by
    simp [clientActions]
  rw [hpublished]
  constructor
  · rintro ⟨hstate, hdemands | hpair⟩
    · exact ⟨.demandsAttention, _, _, rfl, hstate, hdemands, by simp⟩
    · simp only [List.any_cons, List.any_nil, Bool.or_eq_true, decide_eq_true_eq, Bool.or_false] at hpair
      rcases hpair with h | h | h | h | h | h | h
      · exact ⟨.above, _, _, rfl, hstate, h.2, fun _ ha => Option.some.inj ha ▸ h.1⟩
      · exact ⟨.below, _, _, rfl, hstate, h.2, fun _ ha => Option.some.inj ha ▸ h.1⟩
      · exact ⟨.fullscreen, _, _, rfl, hstate, h.2, fun _ ha => Option.some.inj ha ▸ h.1⟩
      · exact ⟨.maximizedHorizontal, _, _, rfl, hstate, h.2, fun _ ha => Option.some.inj ha ▸ h.1⟩
      · exact ⟨.maximizedVertical, _, _, rfl, hstate, h.2, fun _ ha => Option.some.inj ha ▸ h.1⟩
      · exact ⟨.shaded, _, _, rfl, hstate, h.2, fun _ ha => Option.some.inj ha ▸ h.1⟩
      · exact ⟨.sticky, _, _, rfl, hstate, h.2, fun _ ha => Option.some.inj ha ▸ h.1⟩
  · rintro ⟨state, stateAtom, actionAtom, hatoms, hwm, hstate, haction⟩
    refine ⟨hwm, ?_⟩
    simp only [List.any_cons, List.any_nil, Bool.or_eq_true, decide_eq_true_eq, Bool.or_false]
    cases state <;> simp only [stateAtoms, Except.ok.injEq, Prod.mk.injEq, reduceCtorEq] at hatoms <;>
      obtain ⟨rfl, rfl⟩ := hatoms <;> simp_all

/-- What the scan read of a client that it lists. -/
theorem scan_clients {root : Window} {scope : ClientScope} {showTitles : Bool} {raw : RawDesktop}
    (h : scan d root atoms scope showTitles = .ok raw) :
    ∃ supported, property32 d root atoms.supported atomType maxRootAtoms = .ok supported ∧
      ∀ c ∈ raw.clients, c.actions = clientActions d c.xid atoms (supported.getD []) ∧
        c.frame = clientFrame d root c.xid atoms := by
  unfold scan at h
  obtain ⟨-, -, h⟩ := Lib.except_bind_ok h
  obtain ⟨count, -, h⟩ := Lib.except_bind_ok h
  obtain ⟨-, -, h⟩ := Lib.except_bind_ok h
  obtain ⟨current, -, h⟩ := Lib.except_bind_ok h
  obtain ⟨-, -, h⟩ := Lib.except_bind_ok h
  obtain ⟨workspaces, -, h⟩ := Lib.except_bind_ok h
  obtain ⟨supported, hsupported, h⟩ := Lib.except_bind_ok h
  obtain ⟨clients, hclients, h⟩ := Lib.except_bind_ok h
  obtain rfl := Except.ok.inj h
  refine ⟨supported, hsupported, fun c hc => ?_⟩
  have hread : ∃ x, readClient d root atoms (supported.getD []) current count scope showTitles x =
      some c := by
    cases scope with
    | none =>
      obtain rfl := Except.ok.inj hclients
      simp at hc
    | currentWorkspace | allWorkspaces =>
      obtain ⟨xids, -, hclients⟩ := Lib.except_bind_ok hclients
      obtain rfl := Except.ok.inj hclients
      obtain ⟨x, -, hx⟩ := List.mem_filterMap.mp hc
      exact ⟨x, hx⟩
  obtain ⟨x, hx⟩ := hread
  unfold readClient at hx
  dsimp only at hx
  split at hx
  · obtain rfl := Option.some.inj hx
    exact ⟨rfl, rfl⟩
  · simp at hx

end Published

/-! ## The accepting side -/

/-- `prepare` makes a message of the operation. -/
def Accepts (d : Desktop) (o : Observer) (operation : Operation) : Prop :=
  ∃ prepared, prepare d o operation = .ok prepared

section Accepting

variable {d : Desktop} {o : Observer} {request : TargetRequest} {target : Target}
  {supported : Option (List Atom)}

theorem requireSupported_ok {supported : List Atom} {atom : Atom} (h : atom ∈ supported) :
    requireSupported supported atom = .ok () := if_neg (not_not.mpr h)

/-- The two checks that most operations make behind their target. -/
theorem offered_iff {supported : List Atom} {action : ClientAction} {atom : Atom}
    {message : Unit → Except Failure Prepared} (h : ∃ prepared, message () = .ok prepared) :
    (∃ prepared, (requireAction target action >>= fun _ => requireSupported supported atom >>=
      message) = .ok prepared) ↔ action ∈ target.actions ∧ atom ∈ supported := by
  constructor
  · rintro ⟨prepared, h⟩
    obtain ⟨_, ha, h⟩ := Lib.except_bind_ok h
    obtain ⟨_, hs, -⟩ := Lib.except_bind_ok h
    exact ⟨not_not.mp (refuseIf_ok ha), not_not.mp (refuseIf_ok hs)⟩
  · rintro ⟨ha, hs⟩
    have haction : requireAction target action = .ok () := if_neg (not_not.mpr ha)
    rw [haction, ok_bind, requireSupported_ok hs, ok_bind]
    exact h

variable (known : property32 d o.root o.atoms.supported atomType maxRootAtoms = .ok supported)
  (fresh : o.target request = .ok target)

include known

/-- A geometry request that is admitted and fits is accepted. -/
theorem accepts_geometry {frame current : Rect} {allowed : List Atom}
    (framed : target.frame = clientFrame d o.root target.xid o.atoms)
    (admitted : Admitted d o ⟨request, frame⟩ (supported.getD []) target current allowed)
    (fits : Fits (clientFrameExtents d target.xid o.atoms) frame) :
    Accepts d o (.geometry ⟨request, frame⟩) := by
  obtain ⟨left, right, top, bottom, geometry, origin, hframed⟩ :=
    clientFrame_framed (framed.symm.trans admitted.framed)
  obtain ⟨he, -, -, hl, ht, -, -, hw, hh, -, -, hwmax, hhmax⟩ := hframed
  obtain ⟨flags, hok, -⟩ := moveResize_fits current he hl ht (by omega) (by omega) (he ▸ fits)
  unfold Accepts prepare
  rw [known, ok_bind]
  exact ⟨_, admitted.prepareGeometry_eq.trans hok⟩

include fresh

/-- Activating a fresh target needs the action and the support of the window manager. -/
theorem accepts_activate {m : Model} (hm : o.model = some m) :
    Accepts d o (.activate request) ↔
      .activate ∈ target.actions ∧ o.atoms.activeWindow ∈ supported.getD [] := by
  have hmodel : currentModel o = .ok m := by
    unfold currentModel
    rw [hm]
  unfold Accepts prepare prepareActivate
  rw [known, ok_bind]
  dsimp only
  rw [fresh, ok_bind]
  exact offered_iff ⟨_, by rw [hmodel]; rfl⟩

theorem accepts_close :
    Accepts d o (.close request) ↔
      .close ∈ target.actions ∧ o.atoms.closeWindow ∈ supported.getD [] := by
  unfold Accepts prepare prepareClose
  rw [known, ok_bind]
  dsimp only
  rw [fresh, ok_bind]
  exact offered_iff ⟨_, rfl⟩

theorem accepts_clientWorkspace {m : Model} (hm : o.model = some m) {workspace : WorkspaceId}
    (exists_workspace : ∃ w ∈ m.workspaces, w.id = workspace) :
    Accepts d o (.clientWorkspace ⟨request, workspace⟩) ↔
      .changeWorkspace ∈ target.actions ∧ o.atoms.wmDesktop ∈ supported.getD [] := by
  have hworkspace : requireWorkspace o workspace = .ok () := by
    unfold requireWorkspace currentModel
    rw [hm]
    dsimp only
    rw [ok_bind]
    obtain ⟨w, hw, hid⟩ := exists_workspace
    exact if_neg fun hno => hno w hw hid
  unfold Accepts prepare prepareClientWorkspace
  rw [known, ok_bind]
  dsimp only
  rw [fresh, ok_bind, hworkspace, ok_bind]
  exact offered_iff ⟨_, rfl⟩

theorem accepts_state {allowed : List Atom} (readable : allowedActions d o.atoms target.xid = .ok allowed)
    (state : ClientState) (action : StateAction) :
    Accepts d o (.state ⟨request, state, action⟩) ↔
      StateOffered o.atoms (supported.getD []) allowed state := by
  unfold Accepts prepare prepareState
  rw [known, ok_bind]
  dsimp only
  rw [fresh, ok_bind]
  constructor
  · rintro ⟨prepared, h⟩
    obtain ⟨⟨stateAtom, actionAtom⟩, hatoms, h⟩ := Lib.except_bind_ok h
    obtain ⟨_, hwm, h⟩ := Lib.except_bind_ok h
    obtain ⟨_, hstate, h⟩ := Lib.except_bind_ok h
    obtain ⟨_, haction, -⟩ := Lib.except_bind_ok h
    refine ⟨stateAtom, actionAtom, hatoms, not_not.mp (refuseIf_ok hwm),
      not_not.mp (refuseIf_ok hstate), ?_⟩
    rintro a rfl
    unfold requireStateAction at haction
    dsimp only at haction
    rw [readable, ok_bind] at haction
    exact not_not.mp (refuseIf_ok haction)
  · rintro ⟨stateAtom, actionAtom, hatoms, hwm, hstate, hallowed⟩
    have haction : requireStateAction d o.atoms target.xid actionAtom = .ok () := by
      cases actionAtom with
      | none => rfl
      | some a =>
        unfold requireStateAction
        dsimp only
        rw [readable, ok_bind]
        exact if_neg (not_not.mpr (hallowed a rfl))
    rw [hatoms, ok_bind]
    dsimp only
    rw [requireSupported_ok hwm, ok_bind, requireSupported_ok hstate, ok_bind, haction, ok_bind]
    exact ⟨_, rfl⟩

end Accepting

/-! ## Agreement -/

/-- The atom lists a client publishes are readable and within their bounds. -/
structure Readable (d : Desktop) (atoms : Atoms) (xid : Window) : Prop where
  states : ∃ values, property32 d xid atoms.wmState atomType maxClientAtoms = .ok values
  allowed : ∃ values, property32 d xid atoms.wmAllowedActions atomType maxClientAtoms = .ok values
  protocols : ∃ values, property32 d xid atoms.wmProtocols atomType maxClientAtoms = .ok values

/-- The origin of a window comes as two `i16`. -/
def OnWire (d : Desktop) (root xid : Window) : Prop :=
  ∀ origin, d.translateCoordinates xid root 0 0 = .ok origin →
    (-(2 ^ 15) ≤ origin.1 ∧ origin.1 < 2 ^ 15) ∧ -(2 ^ 15) ≤ origin.2 ∧ origin.2 < 2 ^ 15

/-- The published actions of a record and what `prepare` accepts for it. -/
structure Agreement (d : Desktop) (o : Observer) (m : Model) (r : ClientRecord) (request : TargetRequest)
    (published : List ClientAction) : Prop where
  activate : .activate ∈ published ↔ Accepts d o (.activate request)
  close : .close ∈ published ↔ Accepts d o (.close request)
  workspace : ∀ w ∈ m.workspaces,
    (.changeWorkspace ∈ published ↔ Accepts d o (.clientWorkspace ⟨request, w.id⟩))
  state : ∀ action, .changeState ∈ published ↔ ∃ state, Accepts d o (.state ⟨request, state, action⟩)
  refused : .changeGeometry ∉ published → ∀ frame, ∃ f,
    prepare d o (.geometry ⟨request, frame⟩) = .error f ∧ f.code = .unsupported
  current : .changeGeometry ∈ published → ∀ frame, r.descriptor.frame = some frame →
    (clientFrameExtents d r.xid o.atoms).1 + (clientFrameExtents d r.xid o.atoms).2.1 < frame.width →
    (clientFrameExtents d r.xid o.atoms).2.2.1 + (clientFrameExtents d r.xid o.atoms).2.2.2 <
      frame.height → Accepts d o (.geometry ⟨request, frame⟩)
  moved : .changeGeometry ∈ published → ∀ frame frame', r.descriptor.frame = some frame →
    o.atoms.actionMove ∈ clientAtoms d r.xid o.atoms.wmAllowedActions →
    frame'.width = frame.width → frame'.height = frame.height →
    Fits (clientFrameExtents d r.xid o.atoms) frame' → Accepts d o (.geometry ⟨request, frame'⟩)
  resized : .changeGeometry ∈ published → ∀ frame frame', r.descriptor.frame = some frame →
    o.atoms.actionResize ∈ clientAtoms d r.xid o.atoms.wmAllowedActions →
    frame'.x = frame.x → frame'.y = frame.y →
    Fits (clientFrameExtents d r.xid o.atoms) frame' → Accepts d o (.geometry ⟨request, frame'⟩)

/-- A refresh leaves the settings of the observer alone. -/
theorem refresh_settings (sample : Sample) (s : State) :
    (X11.refresh sample s).2.observer.settings = s.observer.settings :=
  (ticks_forward (refresh_ticks sample s)).2.settings

/-- In any run, on the desktop a client was just refreshed from, its published actions agree with
    the operations that are accepted for it. -/
theorem advertised_iff_accepted (c : Connection) (ops : List Op) (sample : Sample) {s : State}
    (refreshed : X11.refresh sample (c.run ops).state = (.ok (), s)) {m : Model}
    (hm : s.observer.model = some m) {r : ClientRecord} (hr : r ∈ m.clients)
    (readable : Readable sample.desktop s.observer.atoms r.xid) 
    (wire : OnWire sample.desktop s.observer.root r.xid) :
    Agreement sample.desktop s.observer m r ⟨r.descriptor.id, r.descriptor.generation⟩
      r.descriptor.actions.asSlice := by
  have hunique : UniqueIds s := by
    have := refresh_uniqueIds sample (c.run_uniqueIds ops)
    rwa [refreshed] at this
  have hsettings := refresh_settings sample (c.run ops).state
  rw [refreshed] at hsettings
  simp only [Observer.settings, Settings.mk.injEq] at hsettings
  obtain ⟨hroot, hatoms, -⟩ := hsettings
  obtain ⟨raw, m', hscan, hm', hdescribes, hworkspaces⟩ := refresh_describes refreshed
  obtain rfl := Option.some.inj (hm'.symm.trans hm)
  obtain ⟨supported, hsupported, hread⟩ := scan_clients hscan
  obtain ⟨client, hclient, hdesc⟩ := described hdescribes hr
  obtain ⟨hactions, hframe⟩ := hread client hclient
  rw [← hdesc.xid, ← hatoms, ← hdesc.actions] at hactions
  rw [← hdesc.xid, ← hatoms, ← hroot, ← hdesc.frame] at hframe
  rw [← hroot, ← hatoms] at hsupported
  obtain ⟨values, hvalues⟩ := readable.allowed
  have hallowed : allowedActions sample.desktop s.observer.atoms r.xid = .ok (values.getD []) := by
    unfold allowedActions
    rw [hvalues]
    rfl
  have hatomsEq := allowedActions_eq hallowed
  have fresh := hunique.target_eq hm hr
  have hadmitted (frame frame' : Rect) (hf : r.descriptor.frame = some frame)
      (hgeometry : .changeGeometry ∈ r.descriptor.actions.asSlice)
      (hmove : frame'.x ≠ frame.x ∨ frame'.y ≠ frame.y →
        s.observer.atoms.actionMove ∈ values.getD [])
      (hresize : frame'.width ≠ frame.width ∨ frame'.height ≠ frame.height →
        s.observer.atoms.actionResize ∈ values.getD []) :
      Admitted sample.desktop s.observer ⟨⟨r.descriptor.id, r.descriptor.generation⟩, frame'⟩
        (supported.getD []) _ frame (values.getD []) :=
    ⟨fresh, (changeGeometry_mem.mp (hactions ▸ hgeometry)).1, hf, hallowed, hmove, hresize,
      fun _ => hgeometry⟩
  constructor
  case activate =>
    rw [accepts_activate hsupported fresh hm, hactions, activate_mem]
    simp
  case close =>
    rw [accepts_close hsupported fresh]
    refine ⟨fun h => ⟨h, ?_⟩, fun h => h.1⟩
    exact (close_mem.mp (hactions ▸ h)).1
  case workspace =>
    intro w hw
    rw [accepts_clientWorkspace hsupported fresh hm ⟨w, hw, rfl⟩]
    refine ⟨fun h => ⟨h, ?_⟩, fun h => h.1⟩
    exact (changeWorkspace_mem.mp (hactions ▸ h)).1
  case state =>
    intro action
    rw [hactions, changeState_mem, hatomsEq]
    exact exists_congr fun state => (accepts_state hsupported fresh hallowed state action).symm
  case refused =>
    intro hno frame
    have hprepare : prepare sample.desktop s.observer (.geometry
        ⟨⟨r.descriptor.id, r.descriptor.generation⟩, frame⟩) =
      prepareGeometry sample.desktop s.observer ⟨⟨r.descriptor.id, r.descriptor.generation⟩, frame⟩
        (supported.getD []) := by
      unfold prepare
      rw [hsupported, ok_bind]
    rw [hprepare]
    refine (admitted_or_unsupported fresh hallowed).resolve_left fun ⟨current, h⟩ => ?_
    -- an admitted request needs a move or a resize that is allowed, or the published action
    have hneither : ¬ (s.observer.atoms.actionMove ∈ values.getD [] ∨
        s.observer.atoms.actionResize ∈ values.getD []) := by
      intro heither
      rw [hactions, changeGeometry_mem, hatomsEq] at hno
      exact hno ⟨h.advertised, heither⟩
    by_cases heq : frame = current
    · exact hno (h.unchanged heq)
    · rw [rect_eq_iff] at heq
      by_cases hplace : frame.x ≠ current.x ∨ frame.y ≠ current.y
      · exact hneither (.inl (h.move hplace))
      · refine hneither (.inr (h.resize ?_))
        by_contra hsize
        simp only [not_or, not_not, ne_eq] at hplace hsize
        exact heq ⟨hplace.1, hplace.2, hsize.1, hsize.2⟩
  case current =>
    intro hgeometry frame hf hw hh
    obtain ⟨left, right, top, bottom, geometry, origin, hframed⟩ :=
      clientFrame_framed (hframe.symm.trans hf)
    obtain ⟨hx, hy⟩ := wire _ hframed.placed
    refine accepts_geometry hsupported hframe
      (hadmitted frame frame hf hgeometry (by simp) (by simp)) ⟨?_, ?_, hw, hh⟩
    · rw [hframed.extents, hframed.x]
      dsimp only
      omega
    · rw [hframed.extents, hframed.y]
      dsimp only
      omega
  case moved =>
    intro hgeometry frame frame' hf hmove hw hh fits
    exact accepts_geometry hsupported hframe (hadmitted frame frame' hf hgeometry
      (fun _ => hatomsEq ▸ hmove) (by simp [hw, hh])) fits
  case resized =>
    intro hgeometry frame frame' hf hresize hx hy fits
    exact accepts_geometry hsupported hframe (hadmitted frame frame' hf hgeometry
      (by simp [hx, hy]) (fun _ => hatomsEq ▸ hresize)) fits

theorem advertised_iff_accepted_framed :
    ∃ m r, (framedObserver [plainAtoms.actionMove, plainAtoms.actionResize]).model = some m ∧
      r ∈ m.clients ∧ .changeGeometry ∈ r.descriptor.actions.asSlice ∧
      Agreement (framedDesktop [plainAtoms.actionMove, plainAtoms.actionResize] 20 0)
        (framedObserver [plainAtoms.actionMove, plainAtoms.actionResize]) m r
        ⟨r.descriptor.id, r.descriptor.generation⟩ r.descriptor.actions.asSlice := by
  refine ⟨_, _, rfl, List.mem_cons_self .., List.mem_cons_self .., ?_⟩
  refine advertised_iff_accepted plainConnection []
    ⟨framedDesktop [plainAtoms.actionMove, plainAtoms.actionResize] 20 0, noComposite⟩ rfl rfl
    (List.mem_cons_self ..) ⟨⟨_, rfl⟩, ⟨_, rfl⟩, ⟨_, rfl⟩⟩ fun origin horigin => ?_
  rw [← Except.ok.inj horigin]
  decide

end AgentSeat.Provider
