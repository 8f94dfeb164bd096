/-
  Frames and client windows (`prepare_geometry` against `client_frame`).

  A frame is read from the window's geometry and its decoration extents, and a request for a frame is
  sent as a geometry of the window. `Admitted` is what `prepare_geometry` checks before it looks at
  the extents, `Fits` what it checks after; the two decide its answer. The message it sends asks for
  exactly the window that has the requested frame around it.
-/
import AgentSeat.Observer.Plain
import AgentSeat.Provider.Manager

namespace AgentSeat.Provider

open AgentSeat.Lib AgentSeat.Proto AgentSeat.X11

/-! ## Reading a frame -/

/-- What a frame was computed from. -/
structure Framed (d : Desktop) (root xid : Window) (atoms : Atoms) (frame : Rect) (left right top
    bottom : Nat) (geometry : Geometry) (origin : Int × Int) : Prop where
  extents : clientFrameExtents d xid atoms = (left, right, top, bottom)
  sized : d.getGeometry xid = .ok geometry
  placed : d.translateCoordinates xid root 0 0 = .ok origin
  left_lt : left < 2 ^ 31
  top_lt : top < 2 ^ 31
  x : frame.x = origin.1 - left
  y : frame.y = origin.2 - top
  width : frame.width = geometry.width + left + right
  height : frame.height = geometry.height + top + bottom
  x_range : -(2 ^ 31) ≤ frame.x ∧ frame.x < 2 ^ 31
  y_range : -(2 ^ 31) ≤ frame.y ∧ frame.y < 2 ^ 31
  width_le : frame.width ≤ u32Max
  height_le : frame.height ≤ u32Max

theorem i32OfU32_some {n : Nat} {i : Int} (h : i32OfU32 n = some i) : n < 2 ^ 31 ∧ i = n := by
  unfold i32OfU32 at h
  split at h
  · next hn => exact ⟨hn, (Option.some.inj h).symm⟩
  · simp at h

theorem checkedI32_some {n i : Int} (h : checkedI32 n = some i) :
    -(2 ^ 31) ≤ n ∧ n < 2 ^ 31 ∧ i = n := by
  unfold checkedI32 at h
  split at h
  · next hn => exact ⟨hn.1, hn.2, (Option.some.inj h).symm⟩
  · simp at h

theorem checkedU32_some {n i : Nat} (h : checkedU32 n = some i) : n ≤ u32Max ∧ i = n := by
  unfold checkedU32 at h
  split at h
  · next hn => exact ⟨hn, (Option.some.inj h).symm⟩
  · simp at h

theorem clientFrame_framed {d : Desktop} {root xid : Window} {atoms : Atoms} {frame : Rect}
    (h : clientFrame d root xid atoms = some frame) :
    ∃ left right top bottom geometry origin,
      Framed d root xid atoms frame left right top bottom geometry origin := by
  unfold clientFrame at h
  obtain ⟨geometry, hg, h⟩ := Option.bind_eq_some_iff.mp h
  obtain ⟨origin, ho, h⟩ := Option.bind_eq_some_iff.mp h
  rcases he : clientFrameExtents d xid atoms with ⟨left, right, top, bottom⟩
  rw [he] at h
  obtain ⟨left', hl, h⟩ := Option.bind_eq_some_iff.mp h
  obtain ⟨top', ht, h⟩ := Option.bind_eq_some_iff.mp h
  obtain ⟨x, hx, h⟩ := Option.bind_eq_some_iff.mp h
  obtain ⟨y, hy, h⟩ := Option.bind_eq_some_iff.mp h
  obtain ⟨width, hw, h⟩ := Option.bind_eq_some_iff.mp h
  obtain ⟨height, hh, h⟩ := Option.bind_eq_some_iff.mp h
  obtain ⟨w, hw₁, hw₂⟩ := Option.bind_eq_some_iff.mp hw
  obtain ⟨v, hh₁, hh₂⟩ := Option.bind_eq_some_iff.mp hh
  obtain ⟨hleft, rfl⟩ := i32OfU32_some hl
  obtain ⟨htop, rfl⟩ := i32OfU32_some ht
  obtain ⟨hx₁, hx₂, rfl⟩ := checkedI32_some hx
  obtain ⟨hy₁, hy₂, rfl⟩ := checkedI32_some hy
  obtain ⟨-, rfl⟩ := checkedU32_some hw₁
  obtain ⟨hwidth, rfl⟩ := checkedU32_some hw₂
  obtain ⟨-, rfl⟩ := checkedU32_some hh₁
  obtain ⟨hheight, rfl⟩ := checkedU32_some hh₂
  obtain rfl := Option.some.inj h
  refine ⟨left, right, top, bottom, geometry, origin, he, ?_, ?_, hleft, htop, rfl, rfl, rfl, rfl,
    ⟨hx₁, hx₂⟩, ⟨hy₁, hy₂⟩, hwidth, hheight⟩
  · cases hd : d.getGeometry xid with
    | error e => simp [hd, Except.toOption] at hg
    | ok g => simpa [hd, Except.toOption] using hg
  · cases hd : d.translateCoordinates xid root 0 0 with
    | error e => simp [hd, Except.toOption] at ho
    | ok t => simpa [hd, Except.toOption] using ho

theorem Framed.clientFrame_eq {d : Desktop} {root xid : Window} {atoms : Atoms} {frame : Rect}
    {left right top bottom : Nat} {geometry : Geometry} {origin : Int × Int}
    (h : Framed d root xid atoms frame left right top bottom geometry origin) :
    clientFrame d root xid atoms = some frame := by
  obtain ⟨he, hg, ho, hl, ht, hx, hy, hw, hh, ⟨hx₁, hx₂⟩, ⟨hy₁, hy₂⟩, hw₁, hh₁⟩ := h
  have hwidth : geometry.width + left ≤ u32Max := by omega
  have hheight : geometry.height + top ≤ u32Max := by omega
  rw [hw] at hw₁
  rw [hh] at hh₁
  rw [hx] at hx₁ hx₂
  rw [hy] at hy₁ hy₂
  have hgeometry : (d.getGeometry xid).toOption = some geometry := by rw [hg]; rfl
  have horigin : (d.translateCoordinates xid root 0 0).toOption = some origin := by rw [ho]; rfl
  unfold clientFrame
  rw [hgeometry, horigin, he]
  simp only [bind, Option.bind, i32OfU32, if_pos hl, if_pos ht, checkedI32, if_pos (And.intro hx₁ hx₂),
    if_pos (And.intro hy₁ hy₂), checkedU32, if_pos hwidth, if_pos hheight, if_pos hw₁, if_pos hh₁]
  cases frame with
  | mk x y width height => exact congrArg some (by rw [← hx, ← hy, ← hw, ← hh])

/-! ## What decides about a request -/

/-- The client origin inside the frame is an `i32`, and the extents leave a nonempty client. -/
structure Fits (extents : Nat × Nat × Nat × Nat) (frame : Rect) : Prop where
  x : -(2 ^ 31) ≤ frame.x + extents.1 ∧ frame.x + extents.1 < 2 ^ 31
  y : -(2 ^ 31) ≤ frame.y + extents.2.2.1 ∧ frame.y + extents.2.2.1 < 2 ^ 31
  width : extents.1 + extents.2.1 < frame.width
  height : extents.2.2.1 + extents.2.2.2 < frame.height

/-- What is checked before the extents: a fresh target with a frame, and a change that the window
    manager and the client advertise. -/
structure Admitted (d : Desktop) (o : Observer) (request : ClientGeometryRequest)
    (supported : List Atom) (target : Target) (current : Rect) (allowed : List Atom) : Prop where
  fresh : o.target request.target = .ok target
  advertised : o.atoms.moveresizeWindow ∈ supported
  framed : target.frame = some current
  readable : allowedActions d o.atoms target.xid = .ok allowed
  move : request.frame.x ≠ current.x ∨ request.frame.y ≠ current.y → o.atoms.actionMove ∈ allowed
  resize : request.frame.width ≠ current.width ∨ request.frame.height ≠ current.height →
    o.atoms.actionResize ∈ allowed
  unchanged : request.frame = current → ClientAction.changeGeometry ∈ target.actions

/-- The rest of `prepare_geometry`: the window inside the requested frame and the message for it. -/
def moveResize (d : Desktop) (o : Observer) (frame current : Rect) (target : Target) :
    Except Failure Prepared := do
  let (left, right, top, bottom) := clientFrameExtents d target.xid o.atoms
  let clientX ← geometryValue ((i32OfU32 left).bind fun l => checkedI32 (frame.x + l))
  let clientY ← geometryValue ((i32OfU32 top).bind fun t => checkedI32 (frame.y + t))
  let horizontal ← geometryValue (checkedU32 (left + right))
  let vertical ← geometryValue (checkedU32 (top + bottom))
  let clientWidth ← geometryValue (remaining frame.width horizontal)
  let clientHeight ← geometryValue (remaining frame.height vertical)
  let flags := staticGravity ||| (pagerSource <<< 12) ||| flagBit (decide (frame.x ≠ current.x)) 8 |||
    flagBit (decide (frame.y ≠ current.y)) 9 ||| flagBit (decide (frame.width ≠ current.width)) 10 |||
    flagBit (decide (frame.height ≠ current.height)) 11
  pure {
    event := ⟨target.xid, o.atoms.moveresizeWindow,
      [flags, u32OfI32 clientX, u32OfI32 clientY, clientWidth, clientHeight]⟩
    desired := .geometry target.id frame }

section Decides

variable {d : Desktop} {o : Observer} {request : ClientGeometryRequest} {supported : List Atom}
  {target : Target} {current : Rect} {allowed : List Atom}

theorem rect_eq_iff {a b : Rect} :
    a = b ↔ a.x = b.x ∧ a.y = b.y ∧ a.width = b.width ∧ a.height = b.height := by
  cases a
  cases b
  simp

/-- An admitted request is decided by the extents. -/
theorem Admitted.prepareGeometry_eq (h : Admitted d o request supported target current allowed) :
    prepareGeometry d o request supported = moveResize d o request.frame current target := by
  have hmove : ¬ ((decide (request.frame.x ≠ current.x) || decide (request.frame.y ≠ current.y)) =
      true ∧ o.atoms.actionMove ∉ allowed) := by
    simp only [Bool.or_eq_true, decide_eq_true_eq]
    exact fun hm => hm.2 (h.move hm.1)
  have hresize : ¬ ((decide (request.frame.width ≠ current.width) ||
      decide (request.frame.height ≠ current.height)) = true ∧ o.atoms.actionResize ∉ allowed) := by
    simp only [Bool.or_eq_true, decide_eq_true_eq]
    exact fun hr => hr.2 (h.resize hr.1)
  have hunchanged : ¬ ((decide (request.frame.x ≠ current.x) ||
      decide (request.frame.y ≠ current.y) || decide (request.frame.width ≠ current.width) ||
      decide (request.frame.height ≠ current.height)) = false ∧
      ClientAction.changeGeometry ∉ target.actions) := by
    simp only [Bool.or_eq_false_iff, decide_eq_false_iff_not, not_not]
    rintro ⟨⟨⟨⟨hx, hy⟩, hw⟩, hh⟩, hno⟩
    exact hno (h.unchanged (rect_eq_iff.mpr ⟨hx, hy, hw, hh⟩))
  unfold prepareGeometry requireSupported
  rw [h.fresh, ok_bind, refuseIf_neg (not_not.mpr h.advertised), h.framed]
  dsimp only
  rw [ok_bind, h.readable, ok_bind, refuseIf_neg hmove, refuseIf_neg hresize,
    refuseIf_neg hunchanged]
  rfl

/-- A request for a fresh target whose allowed actions can be read is admitted or refused as
    unsupported. -/
theorem admitted_or_unsupported (fresh : o.target request.target = .ok target)
    (readable : allowedActions d o.atoms target.xid = .ok allowed) :
    (∃ current, Admitted d o request supported target current allowed) ∨
      ∃ f, prepareGeometry d o request supported = .error f ∧ f.code = .unsupported := by
  unfold prepareGeometry requireSupported
  rw [fresh, ok_bind]
  by_cases advertised : o.atoms.moveresizeWindow ∈ supported
  rotate_left
  · rw [refuseIf_pos advertised]
    exact .inr ⟨_, rfl, rfl⟩
  rw [refuseIf_neg (not_not.mpr advertised)]
  cases framed : target.frame with
  | none => exact .inr ⟨_, rfl, rfl⟩
  | some current =>
    dsimp only
    rw [ok_bind, readable, ok_bind]
    by_cases hmove : (decide (request.frame.x ≠ current.x) ||
      decide (request.frame.y ≠ current.y)) = true ∧ o.atoms.actionMove ∉ allowed
    · rw [refuseIf_pos hmove]
      exact .inr ⟨_, rfl, rfl⟩
    rw [refuseIf_neg hmove]
    by_cases hresize : (decide (request.frame.width ≠ current.width) ||
      decide (request.frame.height ≠ current.height)) = true ∧ o.atoms.actionResize ∉ allowed
    · rw [refuseIf_pos hresize]
      exact .inr ⟨_, rfl, rfl⟩
    rw [refuseIf_neg hresize]
    by_cases hunchanged : (decide (request.frame.x ≠ current.x) ||
      decide (request.frame.y ≠ current.y) || decide (request.frame.width ≠ current.width) ||
      decide (request.frame.height ≠ current.height)) = false ∧
      ClientAction.changeGeometry ∉ target.actions
    · rw [refuseIf_pos hunchanged]
      exact .inr ⟨_, rfl, rfl⟩
    simp only [Bool.or_eq_true, decide_eq_true_eq, not_and, not_not] at hmove hresize
    simp only [Bool.or_eq_false_iff, decide_eq_false_iff_not, not_and, not_not] at hunchanged
    refine .inl ⟨current, fresh, advertised, framed, readable, hmove, hresize, fun heq => ?_⟩
    obtain ⟨hx, hy, hw, hh⟩ := rect_eq_iff.mp heq
    exact hunchanged ⟨⟨⟨hx, hy⟩, hw⟩, hh⟩

/-- Allowed actions that cannot be read end the request, unless it was refused before. -/
theorem prepareGeometry_unreadable {f : Failure} (supported : List Atom) (fresh : o.target request.target = .ok target)
    (unreadable : allowedActions d o.atoms target.xid = .error f) :
    ∃ f', prepareGeometry d o request supported = .error f' ∧ (f' = f ∨ f'.code = .unsupported) := by
  unfold prepareGeometry requireSupported
  rw [fresh, ok_bind]
  by_cases advertised : o.atoms.moveresizeWindow ∈ supported
  · rw [refuseIf_neg (not_not.mpr advertised)]
    cases target.frame with
    | none => exact ⟨_, rfl, .inr rfl⟩
    | some current =>
      dsimp only
      rw [ok_bind, unreadable]
      exact ⟨f, rfl, .inl rfl⟩
  · rw [refuseIf_pos advertised]
    exact ⟨_, rfl, .inr rfl⟩

/-- A request that is accepted or invalid was admitted. -/
theorem prepareGeometry_admitted (fresh : o.target request.target = .ok target)
    (h : ∀ f, prepareGeometry d o request supported = .error f → f.code = .invalidArgument) :
    ∃ current allowed, Admitted d o request supported target current allowed := by
  cases readable : allowedActions d o.atoms target.xid with
  | ok allowed =>
    rcases admitted_or_unsupported fresh readable with ⟨current, hadmitted⟩ | ⟨f, hf, hcode⟩
    · exact ⟨current, allowed, hadmitted⟩
    · have := h f hf
      simp [hcode] at this
  | error f =>
    obtain ⟨f', hf', hcode⟩ := prepareGeometry_unreadable supported fresh readable
    have hinvalid := h f' hf'
    rcases hcode with rfl | hcode
    · rcases except_bind_error readable with hr | ⟨_, -, hr⟩
      · rcases property32_error hr with hc | hc | hc | hc <;> simp [hc] at hinvalid
      · simp [pure, Except.pure] at hr
    · simp [hcode] at hinvalid

theorem moveResize_desired {frame : Rect} {prepared : Prepared}
    (h : moveResize d o frame current target = .ok prepared) :
    prepared.desired = .geometry target.id frame := by
  obtain ⟨clientX, -, h⟩ := Lib.except_bind_ok h
  obtain ⟨clientY, -, h⟩ := Lib.except_bind_ok h
  obtain ⟨horizontal, -, h⟩ := Lib.except_bind_ok h
  obtain ⟨vertical, -, h⟩ := Lib.except_bind_ok h
  obtain ⟨clientWidth, -, h⟩ := Lib.except_bind_ok h
  obtain ⟨clientHeight, -, h⟩ := Lib.except_bind_ok h
  rw [← Except.ok.inj h]

section Extents

variable {frame : Rect} {left right top bottom : Nat}

theorem moveResize_fits (current : Rect) (extents : clientFrameExtents d target.xid o.atoms =
      (left, right, top, bottom)) (hleft : left < 2 ^ 31) (htop : top < 2 ^ 31)
    (hhorizontal : left + right ≤ u32Max) (hvertical : top + bottom ≤ u32Max)
    (h : Fits (left, right, top, bottom) frame) :
    ∃ flags, moveResize d o frame current target = .ok {
      event := ⟨target.xid, o.atoms.moveresizeWindow, [flags, u32OfI32 (frame.x + left),
        u32OfI32 (frame.y + top), frame.width - (left + right), frame.height - (top + bottom)]⟩
      desired := .geometry target.id frame } ∧
      flags.testBit 8 = decide (frame.x ≠ current.x) ∧
      flags.testBit 9 = decide (frame.y ≠ current.y) ∧
      flags.testBit 10 = decide (frame.width ≠ current.width) ∧
      flags.testBit 11 = decide (frame.height ≠ current.height) ∧ flags < 2 ^ 32 := by
  obtain ⟨hx, hy, hw, hh⟩ := h
  have hflags (a b c d : Bool) :
      (staticGravity ||| (pagerSource <<< 12) ||| flagBit a 8 ||| flagBit b 9 ||| flagBit c 10 |||
        flagBit d 11).testBit 8 = a ∧
      (staticGravity ||| (pagerSource <<< 12) ||| flagBit a 8 ||| flagBit b 9 ||| flagBit c 10 |||
        flagBit d 11).testBit 9 = b ∧
      (staticGravity ||| (pagerSource <<< 12) ||| flagBit a 8 ||| flagBit b 9 ||| flagBit c 10 |||
        flagBit d 11).testBit 10 = c ∧
      (staticGravity ||| (pagerSource <<< 12) ||| flagBit a 8 ||| flagBit b 9 ||| flagBit c 10 |||
        flagBit d 11).testBit 11 = d ∧
      (staticGravity ||| (pagerSource <<< 12) ||| flagBit a 8 ||| flagBit b 9 ||| flagBit c 10 |||
        flagBit d 11) < 2 ^ 32 := by
    revert a b c d
    decide
  refine ⟨_, ?_, hflags _ _ _ _⟩
  unfold moveResize
  rw [extents]
  dsimp only at hx hy hw hh ⊢
  simp only [i32OfU32, if_pos hleft, if_pos htop, Option.bind, checkedI32, if_pos hx, if_pos hy,
    checkedU32, if_pos hhorizontal, if_pos hvertical, remaining, if_pos hw, if_pos hh, geometryValue,
    ok_bind]
  rfl

theorem moveResize_unfit (extents : clientFrameExtents d target.xid o.atoms =
      (left, right, top, bottom)) (h : ¬ Fits (left, right, top, bottom) frame) :
    moveResize d o frame current target = .error invalidGeometry := by
  unfold moveResize
  rw [extents]
  dsimp only
  cases hx : (i32OfU32 left).bind fun l => checkedI32 (frame.x + l) with
  | none => rfl
  | some clientX =>
  cases hy : (i32OfU32 top).bind fun t => checkedI32 (frame.y + t) with
  | none => rfl
  | some clientY =>
  cases hh : checkedU32 (left + right) with
  | none => rfl
  | some horizontal =>
  cases hv : checkedU32 (top + bottom) with
  | none => rfl
  | some vertical =>
  cases hw : remaining frame.width horizontal with
  | none => simp [geometryValue, hw, bind, Except.bind]
  | some clientWidth =>
  cases hr : remaining frame.height vertical with
  | none => simp [geometryValue, hw, hr, bind, Except.bind]
  | some clientHeight =>
    exfalso
    apply h
    obtain ⟨l, hl, hx⟩ := Option.bind_eq_some_iff.mp hx
    obtain ⟨t, ht, hy⟩ := Option.bind_eq_some_iff.mp hy
    obtain ⟨-, rfl⟩ := i32OfU32_some hl
    obtain ⟨-, rfl⟩ := i32OfU32_some ht
    obtain ⟨hx₁, hx₂, -⟩ := checkedI32_some hx
    obtain ⟨hy₁, hy₂, -⟩ := checkedI32_some hy
    obtain ⟨-, rfl⟩ := checkedU32_some hh
    obtain ⟨-, rfl⟩ := checkedU32_some hv
    refine ⟨⟨hx₁, hx₂⟩, ⟨hy₁, hy₂⟩, ?_, ?_⟩
    · by_contra hno
      simp [remaining, hno] at hw
    · by_contra hno
      simp [remaining, hno] at hr

end Extents

end Decides

/-! ## Round trip -/

/-- The position of a rectangle is an `i32`, its extent a `u32`. -/
structure Typed (frame : Rect) : Prop where
  x : -(2 ^ 31) ≤ frame.x ∧ frame.x < 2 ^ 31
  y : -(2 ^ 31) ≤ frame.y ∧ frame.y < 2 ^ 31
  width : frame.width ≤ u32Max
  height : frame.height ≤ u32Max

/-- A 32-bit word read as two's complement. -/
def asI32 (word : Nat) : Int := if word < 2 ^ 31 then word else word - 2 ^ 32

theorem asI32_u32OfI32 {n : Int} (h : -(2 ^ 31) ≤ n ∧ n < 2 ^ 31) :
    asI32 (u32OfI32 n) = n ∧ u32OfI32 n < 2 ^ 32 := by
  obtain ⟨h₁, h₂⟩ := h
  unfold asI32 u32OfI32
  by_cases hn : 0 ≤ n
  · have hmod : n % 2 ^ 32 = n := Int.emod_eq_of_lt hn (by omega)
    rw [hmod]
    split <;> omega
  · have hmod : n % 2 ^ 32 = n + 2 ^ 32 := by omega
    rw [hmod]
    split <;> omega

/-- What a window manager makes of the size and the origin of a window by a move-resize message:
    the fields whose flags are set. -/
def moveResized (data : List Nat) (geometry : Geometry) (origin : Int × Int) :
    Geometry × (Int × Int) :=
  match data with
  | [flags, x, y, width, height] =>
    (⟨if flags.testBit 10 then width else geometry.width,
      if flags.testBit 11 then height else geometry.height⟩,
     (if flags.testBit 8 then asI32 x else origin.1, if flags.testBit 9 then asI32 y else origin.2))
  | _ => (geometry, origin)

/-- After the message, the window has the geometry it asks for and its old extents. -/
structure Applied (event : ClientMessageEvent) (root : Window) (atoms : Atoms) (d d' : Desktop) :
    Prop where
  extents : clientFrameExtents d' event.window atoms = clientFrameExtents d event.window atoms
  resized : ∀ geometry origin, d.getGeometry event.window = .ok geometry →
    d.translateCoordinates event.window root 0 0 = .ok origin →
    d'.getGeometry event.window = .ok (moveResized event.data geometry origin).1 ∧
      d'.translateCoordinates event.window root 0 0 = .ok (moveResized event.data geometry origin).2

/-- The words of the message are the exact values: nothing wrapped on the way to them. -/
def Exact (extents : Nat × Nat × Nat × Nat) (frame current : Rect) (data : List Nat) : Prop :=
  ∃ flags x y width height, data = [flags, x, y, width, height] ∧
    (∀ word ∈ data, word < 2 ^ 32) ∧
    asI32 x = frame.x + extents.1 ∧ asI32 y = frame.y + extents.2.2.1 ∧
    0 < width ∧ width + extents.1 + extents.2.1 = frame.width ∧
    0 < height ∧ height + extents.2.2.1 + extents.2.2.2 = frame.height ∧
    flags.testBit 8 = decide (frame.x ≠ current.x) ∧
    flags.testBit 9 = decide (frame.y ≠ current.y) ∧
    flags.testBit 10 = decide (frame.width ≠ current.width) ∧
    flags.testBit 11 = decide (frame.height ≠ current.height)

section RoundTrip

variable {d : Desktop} {o : Observer} {request : ClientGeometryRequest} {supported : List Atom}
  {target : Target} {current : Rect} {allowed : List Atom}

/-- The message of an admitted request that fits. -/
theorem Admitted.exact (h : Admitted d o request supported target current allowed)
    (framed : target.frame = clientFrame d o.root target.xid o.atoms) (typed : Typed request.frame)
    (fits : Fits (clientFrameExtents d target.xid o.atoms) request.frame) :
    ∃ data, prepareGeometry d o request supported =
        .ok ⟨⟨target.xid, o.atoms.moveresizeWindow, data⟩, .geometry target.id request.frame⟩ ∧
      Exact (clientFrameExtents d target.xid o.atoms) request.frame current data := by
  obtain ⟨left, right, top, bottom, geometry, origin, hframed⟩ :=
    clientFrame_framed (framed.symm.trans h.framed)
  obtain ⟨he, -, -, hl, ht, -, -, hw, hh, -, -, hwmax, hhmax⟩ := hframed
  rw [he] at fits ⊢
  obtain ⟨flags, hok, h8, h9, h10, h11, hflags⟩ := moveResize_fits current he hl ht
    (by omega) (by omega) fits
  obtain ⟨hx, hy, hwidth, hheight⟩ := fits
  obtain ⟨hxi, hxw⟩ := asI32_u32OfI32 hx
  obtain ⟨hyi, hyw⟩ := asI32_u32OfI32 hy
  have hw₁ := typed.width
  have hh₁ := typed.height
  have hmax : u32Max < 2 ^ 32 := by decide
  dsimp only at hwidth hheight
  refine ⟨_, h.prepareGeometry_eq.trans hok, flags, _, _, _, _, rfl, ?_, hxi, hyi, by omega,
    by dsimp only; omega, by omega, by dsimp only; omega, h8, h9, h10, h11⟩
  intro word hword
  simp only [List.mem_cons, List.not_mem_nil, or_false] at hword
  rcases hword with rfl | rfl | rfl | rfl | rfl
  · exact hflags
  · exact hxw
  · exact hyw
  · omega
  · omega

/-- A window moved and resized by exact words has the requested frame. -/
theorem Exact.clientFrame_eq {d' : Desktop} {data : List Nat} {root xid : Window} {atoms : Atoms}
    {frame : Rect} {type : Atom} (exact : Exact (clientFrameExtents d xid atoms) frame current data)
    (framed : clientFrame d root xid atoms = some current) (typed : Typed frame)
    (applied : Applied ⟨xid, type, data⟩ root atoms d d') :
    clientFrame d' root xid atoms = some frame := by
  obtain ⟨left, right, top, bottom, geometry, origin, hframed⟩ := clientFrame_framed framed
  obtain ⟨he, hg, ho, hl, ht, hx, hy, hw, hh, -, -, -, -⟩ := hframed
  obtain ⟨flags, x, y, width, height, rfl, -, hxi, hyi, -, hwi, -, hhi, h8, h9, h10, h11⟩ := exact
  obtain ⟨hg', ho'⟩ := applied.resized geometry origin hg ho
  rw [he] at hxi hyi hwi hhi
  dsimp only at hxi hyi hwi hhi
  refine @Framed.clientFrame_eq d' root xid atoms frame left right top bottom _ _
    ⟨applied.extents.trans he, hg', ho', hl, ht, ?_, ?_, ?_, ?_, typed.x, typed.y, typed.width,
      typed.height⟩
  · by_cases hsame : frame.x = current.x
    · simp only [moveResized, h8, hsame, ne_eq, not_true_eq_false, decide_false,
        Bool.false_eq_true, if_false]
      omega
    · simp only [moveResized, h8, ne_eq, hsame, not_false_eq_true, decide_true, if_true]
      omega
  · by_cases hsame : frame.y = current.y
    · simp only [moveResized, h9, hsame, ne_eq, not_true_eq_false, decide_false,
        Bool.false_eq_true, if_false]
      omega
    · simp only [moveResized, h9, ne_eq, hsame, not_false_eq_true, decide_true, if_true]
      omega
  · by_cases hsame : frame.width = current.width
    · simp only [moveResized, h10, hsame, ne_eq, not_true_eq_false, decide_false,
        Bool.false_eq_true, if_false]
      omega
    · simp only [moveResized, h10, ne_eq, hsame, not_false_eq_true, decide_true, if_true]
      omega
  · by_cases hsame : frame.height = current.height
    · simp only [moveResized, h11, hsame, ne_eq, not_true_eq_false, decide_false,
        Bool.false_eq_true, if_false]
      omega
    · simp only [moveResized, h11, ne_eq, hsame, not_false_eq_true, decide_true, if_true]
      omega

/-- An accepted request asks by exact words for the window that has the requested frame. A request
    for a change that is advertised is invalid exactly when the frame leaves no client window or
    puts its origin out of range. -/
theorem geometry_round_trip (fresh : o.target request.target = .ok target)
    (framed : target.frame = clientFrame d o.root target.xid o.atoms)
    (typed : Typed request.frame) :
    (∀ prepared, prepareGeometry d o request supported = .ok prepared →
      (∃ current, target.frame = some current ∧
        Exact (clientFrameExtents d target.xid o.atoms) request.frame current
          prepared.event.data) ∧
      ∀ d', Applied prepared.event o.root o.atoms d d' →
        clientFrame d' o.root target.xid o.atoms = some request.frame) ∧
    ((∃ f, prepareGeometry d o request supported = .error f ∧ f.code = .invalidArgument) ↔
      (∃ current allowed, Admitted d o request supported target current allowed) ∧
        ¬ Fits (clientFrameExtents d target.xid o.atoms) request.frame) := by
  rcases he : clientFrameExtents d target.xid o.atoms with ⟨left, right, top, bottom⟩
  refine ⟨fun prepared hok => ?_, ?_, ?_⟩
  · obtain ⟨current, allowed, hadmitted⟩ := prepareGeometry_admitted fresh
      fun f (hf : prepareGeometry d o request supported = .error f) => by rw [hok] at hf; simp at hf
    have fits : Fits (left, right, top, bottom) request.frame := by
      by_contra hno
      rw [hadmitted.prepareGeometry_eq, moveResize_unfit he hno] at hok
      simp at hok
    obtain ⟨data, hdata, hexact⟩ := hadmitted.exact framed typed (he ▸ fits)
    obtain rfl := Except.ok.inj (hdata.symm.trans hok)
    exact ⟨⟨current, hadmitted.framed, he ▸ hexact⟩, fun d' applied =>
      hexact.clientFrame_eq (framed.symm.trans hadmitted.framed) typed applied⟩
  · rintro ⟨f, hf, hcode⟩
    obtain ⟨current, allowed, hadmitted⟩ := prepareGeometry_admitted fresh
      fun f' (hf' : prepareGeometry d o request supported = .error f') => by
        rw [← Except.error.inj (hf.symm.trans hf')]
        exact hcode
    refine ⟨⟨current, allowed, hadmitted⟩, fun fits => ?_⟩
    obtain ⟨data, hdata, -⟩ := hadmitted.exact framed typed (he ▸ fits)
    rw [hf] at hdata
    simp at hdata
  · rintro ⟨⟨current, allowed, hadmitted⟩, hno⟩
    exact ⟨invalidGeometry, hadmitted.prepareGeometry_eq.trans (moveResize_unfit he hno), rfl⟩

end RoundTrip

/-- A plain desktop with one decorated window, its size and place, and the actions it allows. -/
def framedDesktop (allowed : List Atom) (width : Nat) (x : Int) : Desktop where
  getProperty window property type max :=
    if window = 7 ∧ property = plainAtoms.frameExtents then items cardinalType [1, 2, 3, 4]
    else if window = 7 ∧ property = plainAtoms.wmAllowedActions then items atomType allowed
    else if window = plainRoot ∧ property = plainAtoms.supported then
      items atomType [plainAtoms.moveresizeWindow]
    else (plainDesktop 0 [⟨7, 0, width⟩] 7).getProperty window property type max
  getGeometry := (plainDesktop 0 [⟨7, 0, width⟩] 7).getGeometry
  translateCoordinates _ _ left top := .ok (x + left, top)

/-- The observer that has just seen the window. -/
def framedObserver (allowed : List Atom) : Observer :=
  (X11.refresh ⟨framedDesktop allowed 20 0, noComposite⟩
    ⟨connected plainRoot plainAtoms .allWorkspaces false false, []⟩).2.observer

def framedRequest (frame : Rect) : ClientGeometryRequest :=
  ⟨⟨⟨1, Nat.one_ne_zero⟩, 0⟩, frame⟩

/-- The window as a target. -/
def framedTarget (actions : List ClientAction) : Target :=
  ⟨⟨1, Nat.one_ne_zero⟩, 7, some ⟨-1, -3, 23, 17⟩, [], actions⟩

theorem geometry_round_trip_moved :
    ∃ prepared, prepareGeometry (framedDesktop [plainAtoms.actionMove, plainAtoms.actionResize] 20 0)
        (framedObserver [plainAtoms.actionMove, plainAtoms.actionResize])
        (framedRequest ⟨10, -3, 33, 17⟩) [plainAtoms.moveresizeWindow] = .ok prepared ∧
      Applied prepared.event plainRoot plainAtoms
        (framedDesktop [plainAtoms.actionMove, plainAtoms.actionResize] 20 0)
        (framedDesktop [plainAtoms.actionMove, plainAtoms.actionResize] 30 11) ∧
      clientFrame (framedDesktop [plainAtoms.actionMove, plainAtoms.actionResize] 30 11) plainRoot 7
        plainAtoms = some ⟨10, -3, 33, 17⟩ := by
  have happlied : Applied ⟨7, plainAtoms.moveresizeWindow, [9482, 11, 0, 30, 10]⟩ plainRoot
      plainAtoms (framedDesktop [plainAtoms.actionMove, plainAtoms.actionResize] 20 0)
      (framedDesktop [plainAtoms.actionMove, plainAtoms.actionResize] 30 11) := by
    refine ⟨rfl, fun geometry origin hg ho => ?_⟩
    obtain rfl := Except.ok.inj hg
    obtain rfl := Except.ok.inj ho
    exact ⟨rfl, rfl⟩
  have hround := @geometry_round_trip
    (framedDesktop [plainAtoms.actionMove, plainAtoms.actionResize] 20 0)
    (framedObserver [plainAtoms.actionMove, plainAtoms.actionResize])
    (framedRequest ⟨10, -3, 33, 17⟩) [plainAtoms.moveresizeWindow] (framedTarget [.changeGeometry])
    rfl rfl ⟨by decide, by decide, by decide, by decide⟩
  exact ⟨_, rfl, happlied, (hround.1 _ rfl).2 _ happlied⟩

/-- A frame that does not hold the extents is refused as unsupported where resizing is not
    advertised. -/
theorem small_frame_unsupported :
    (framedObserver []).target (framedRequest ⟨-1, -3, 2, 17⟩).target = .ok (framedTarget []) ∧
    (framedTarget []).frame = clientFrame (framedDesktop [] 20 0) plainRoot 7 plainAtoms ∧
    Typed ⟨-1, -3, 2, 17⟩ ∧
    ¬ ((∃ f, prepareGeometry (framedDesktop [] 20 0) (framedObserver [])
          (framedRequest ⟨-1, -3, 2, 17⟩) [plainAtoms.moveresizeWindow] = .error f ∧
          f.code = .invalidArgument) ↔
        ¬ Fits (clientFrameExtents (framedDesktop [] 20 0) 7 plainAtoms) ⟨-1, -3, 2, 17⟩) := by
  refine ⟨rfl, rfl, ⟨by decide, by decide, by decide, by decide⟩, fun h => ?_⟩
  have hunfit : ¬ Fits (clientFrameExtents (framedDesktop [] 20 0) 7 plainAtoms)
      ⟨-1, -3, 2, 17⟩ := fun fits => absurd fits.width (by decide)
  obtain ⟨f, hf, hcode⟩ := h.mpr hunfit
  have hrefused : prepareGeometry (framedDesktop [] 20 0) (framedObserver [])
      (framedRequest ⟨-1, -3, 2, 17⟩) [plainAtoms.moveresizeWindow] =
        .error (Failure.unsupported "the target does not advertise resizing") := rfl
  rw [← Except.error.inj (hrefused.symm.trans hf)] at hcode
  exact absurd hcode nofun

end AgentSeat.Provider
