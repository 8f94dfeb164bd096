/-
  Target-aware XTEST input behind the seat gate (`observer/input.rs`).

  Every entry point grabs the server, refreshes, finds its target, checks the focus or the pointer
  destination and the gate, and only then emits. The facts a check establishes are stated over the
  entries it appended: `Fresh`, `FocusOwned`, `PointOwned`, `Resolved` and `Accepted`.
-/
import AgentSeat.Provider.Wire

namespace AgentSeat.Provider

open AgentSeat.Lib AgentSeat.Proto AgentSeat.X11 AgentSeat.Seat

def maxWindowAncestors : Nat := 64
def maxHitTestChildren : Nat := 256
def maxHitTestRectangles : Nat := 256
def pointerRootFocus : Window := 1

def focusRecovery : String :=
  "keyboard focus is not owned by the target client; inspect this result and take a fresh " ++
  "desktop snapshot to handle the active client"

def coverRecovery : String :=
  "pointer destination is not visibly owned by the target; inspect this result and take a fresh " ++
  "desktop snapshot to handle the covering client"

def actionReply (sent seatStillEnabled : Bool) : InputReply where
  completed := if sent then 1 else 0
  requested := 1
  terminal := if sent && seatStillEnabled then .queued else .interrupted

def checkedRootCoordinate (origin : Int) (offset : Nat) : Except Failure Int :=
  if offset < 2 ^ 31 ∧ -(2 ^ 15) ≤ origin + offset ∧ origin + offset < 2 ^ 15 then
    .ok (origin + offset)
  else .error (Failure.invalid "pointer destination exceeds X11 coordinate range")

def rectangleContains (rectangle : Rectangle) (x y : Int) : Bool :=
  x ≥ rectangle.x ∧ y ≥ rectangle.y ∧ x < rectangle.x + rectangle.width ∧
    y < rectangle.y + rectangle.height

section Input

variable (env : Outside)

/-! ## The keyboard map -/

def KeyboardMap.read : XM KeyboardMap := do
  let supported ← reply "cannot negotiate the XKB extension" "cannot negotiate the XKB extension"
    (Dialogue.ask env .xkbUseExtension)
  Prog.lift (refuseIf (supported = false)
    (Failure.unavailable "the X server does not support the required XKB extension"))
  let state ← reply "cannot inspect the XKB keyboard state"
    "cannot inspect the XKB keyboard state" (Dialogue.ask env .xkbGetState)
  let map ← reply "cannot inspect the XKB keyboard map" "cannot inspect the XKB keyboard map"
    (Dialogue.ask env .xkbGetMap)
  Prog.lift (KeyboardMap.fromReply map state)

def resolveText (text : List Char) : XM (List KeyStroke) := do
  let map ← KeyboardMap.read env
  Prog.lift (map.resolveAll text)

def resolveCharacter (character : Char) (position : Nat) : XM KeyStroke := do
  let map ← KeyboardMap.read env
  Prog.lift (map.resolveAt character position)

def resolveKey (key : KeyboardKey) (modifiers : List KeyboardModifier) : XM KeyStroke := do
  let map ← KeyboardMap.read env
  Prog.lift (map.resolveWithModifiers (keysymForKey key) modifiers)

/-! ## Focus -/

/-- Up from `window`, at most `fuel` windows, until the target is met. -/
def focusAncestry (root targetXid : Window) : Nat → Window → XM Unit
  | 0, _ => Prog.fail (Failure.invalid focusRecovery)
  | fuel + 1, window =>
    if window = targetXid then pure ()
    else do
      let tree ← reply "cannot inspect keyboard focus ancestry"
        "cannot inspect keyboard focus ancestry" (Dialogue.ask env (.queryTree window))
      if tree.parent = none32 ∨ tree.parent = root then
        Prog.fail (Failure.invalid focusRecovery)
      else focusAncestry root targetXid fuel tree.parent

def requireFocusOwnedBy (targetXid : Window) : XM Unit := do
  let focus ← reply "cannot inspect X11 input focus" "cannot inspect X11 input focus"
    (Dialogue.ask env .getInputFocus)
  Prog.lift (refuseIf (focus = none32 ∨ focus = pointerRootFocus) (Failure.invalid focusRecovery))
  let root ← this (·.root)
  focusAncestry env root targetXid maxWindowAncestors focus

/-! ## Hit test -/

/-- The first window of the list, topmost first, whose input region contains the point. -/
def topmost (root : Window) (rootX rootY : Int) : List Window → XM (Option Window)
  | [] => pure none
  | child :: rest => do
    let viewable ← reply "cannot hit-test pointer destination"
      "cannot hit-test pointer destination" (Dialogue.ask env (.getWindowAttributes child))
    if viewable = false then topmost root rootX rootY rest
    else do
      let translated ← reply "cannot hit-test pointer destination"
        "cannot hit-test pointer destination"
        (Dialogue.ask env (.translateCoordinates root child rootX rootY))
      let input ← reply "cannot inspect pointer input shape" "cannot inspect pointer input shape"
        (Dialogue.ask env (.shapeGetRectangles child))
      Prog.lift (refuseIf (input.length > maxHitTestRectangles)
        (Failure.unavailable "pointer hit-test exceeds the shape bound"))
      if input.any fun rectangle => rectangleContains rectangle translated.1 translated.2 then
        pure (some child)
      else topmost root rootX rootY rest

/-- Up from the target, at most `fuel` windows, until the candidate is met. -/
def frameAncestry (root candidate : Window) : Nat → Window → XM Bool
  | 0, _ => Prog.fail (Failure.unavailable "target ancestry exceeds the window bound")
  | fuel + 1, window =>
    if window = candidate then pure true
    else do
      let tree ← reply "cannot inspect target ancestry" "cannot inspect target ancestry"
        (Dialogue.ask env (.queryTree window))
      if tree.parent = none32 ∨ tree.parent = root then pure (tree.parent = candidate)
      else frameAncestry root candidate fuel tree.parent

def isTargetOrReparentingFrame (candidate targetXid : Window) : XM Bool := do
  let root ← this (·.root)
  frameAncestry env root candidate maxWindowAncestors targetXid

/-- Refuse unless the hit window is the target or its frame. -/
def requireFrame (destination : Option Window) (targetXid : Window) : XM Unit :=
  match destination with
  | none => Prog.fail (Failure.invalid coverRecovery)
  | some destination => do
    let owned ← isTargetOrReparentingFrame env destination targetXid
    Prog.lift (refuseIf (owned = false) (Failure.invalid coverRecovery))

def requirePointOwnedBy (targetXid : Window) (rootX rootY : Int) : XM Unit := do
  let root ← this (·.root)
  let tree ← reply "cannot hit-test pointer destination" "cannot hit-test pointer destination"
    (Dialogue.ask env (.queryTree root))
  Prog.lift (refuseIf (tree.children.length > maxHitTestChildren)
    (Failure.unavailable "pointer hit-test exceeds the window bound"))
  let destination ← topmost env root rootX rootY tree.children.reverse
  requireFrame env destination targetXid

/-- `refresh` and `target`, the two lines every action starts with. -/
def freshTarget (request : TargetRequest) : XM Target := do
  refresh env
  target request

def pointerDestination (request : TargetRequest) (x y : Nat) : XM (Window × Int × Int) := do
  let target ← freshTarget env request
  let geometry ← reply "cannot inspect target geometry" "cannot inspect target geometry"
    (Dialogue.ask env (.getGeometry target.xid))
  Prog.lift (refuseIf (x ≥ geometry.width ∨ y ≥ geometry.height)
    (Failure.invalid "pointer destination is outside the target client"))
  let root ← this (·.root)
  let origin ← reply "cannot translate target coordinates" "cannot translate target coordinates"
    (Dialogue.ask env (.translateCoordinates target.xid root 0 0))
  let rootX ← Prog.lift (checkedRootCoordinate origin.1 x)
  let rootY ← Prog.lift (checkedRootCoordinate origin.2 y)
  requirePointOwnedBy env target.xid rootX rootY
  pure (target.xid, rootX, rootY)

/-! ## Emission -/

def fakeInput (event : XTestEvent) : XM Unit := do
  reply "cannot queue XTEST input" "the X server refused XTEST input"
    (Dialogue.ask env (.fakeInput event))
  reply "cannot synchronize XTEST input" "cannot synchronize XTEST input"
    (Dialogue.ask env .sync)

/-- A release whose outcome is ignored; it is synchronized only if it could be sent. -/
def bestEffortRelease (kind : XTestKind) (detail : Nat) : XM Unit := do
  let answer : Except XFault Unit ← Dialogue.ask env (.fakeInput ⟨kind, detail, 0, 0⟩)
  match answer with
  | .error .send => pure ()
  | .error .reply | .ok _ => do
    let _ ← Dialogue.ask env .sync
    pure ()

def buttonDetail : PointerButton → Nat
  | .primary => 1
  | .middle => 2
  | .secondary => 3

def clickButton (button : PointerButton) (rootX rootY : Int) : XM Unit := do
  fakeInput env ⟨.buttonPress, buttonDetail button, rootX, rootY⟩
  let released ← Prog.attempt
    (fakeInput env ⟨.buttonRelease, buttonDetail button, rootX, rootY⟩)
  match released with
  | .ok _ => pure ()
  | .error error => do
    bestEffortRelease env .buttonRelease (buttonDetail button)
    Prog.fail error

def releaseEach : List Nat → XM Unit
  | [] => pure ()
  | keycode :: rest => do
    bestEffortRelease env .keyRelease keycode
    releaseEach rest

/-- The most recently pressed key is released first. -/
def releaseKeys (keycodes : List Nat) : XM Unit := releaseEach env keycodes.reverse

/-- Press the modifiers in order; a failure releases those already pressed. -/
def pressModifiers : List Nat → List Nat → XM (List Nat)
  | [], pressed => pure pressed
  | modifier :: rest, pressed => do
    let result ← Prog.attempt (fakeInput env ⟨.keyPress, modifier, 0, 0⟩)
    match result with
    | .ok _ => pressModifiers rest (pressed ++ [modifier])
    | .error error => do
      releaseKeys env pressed
      Prog.fail error

/-- Release the pressed modifiers, given last pressed first. -/
def popModifiers : List Nat → XM Unit
  | [] => pure ()
  | modifier :: rest => do
    let result ← Prog.attempt (fakeInput env ⟨.keyRelease, modifier, 0, 0⟩)
    match result with
    | .ok _ => popModifiers rest
    | .error error => do
      bestEffortRelease env .keyRelease modifier
      releaseKeys env rest.reverse
      Prog.fail error

def typeKey (stroke : KeyStroke) : XM Unit := do
  let pressed ← pressModifiers env stroke.modifiers []
  let down ← Prog.attempt (fakeInput env ⟨.keyPress, stroke.keycode, 0, 0⟩)
  match down with
  | .error error => do
    releaseKeys env pressed
    Prog.fail error
  | .ok _ => do
    let up ← Prog.attempt (fakeInput env ⟨.keyRelease, stroke.keycode, 0, 0⟩)
    match up with
    | .error error => do
      bestEffortRelease env .keyRelease stroke.keycode
      releaseKeys env pressed
      Prog.fail error
    | .ok _ => popModifiers env pressed.reverse

/-! ## Entry points -/

/-- Emit, if the gate still accepts the permit; the result is whether it did. -/
def onlyIfAccepted (permit : SeatPermit) (emission : XM Unit) : XM Bool := do
  let accepted ← accepts env permit
  if accepted then do
    emission
    pure true
  else pure false

def moveAction (request : PointerMoveRequest) (permit : SeatPermit) : XM Bool := do
  let (_, rootX, rootY) ← pointerDestination env request.target request.x request.y
  onlyIfAccepted env permit (fakeInput env ⟨.motionNotify, 0, rootX, rootY⟩)

def pointerMove (request : PointerMoveRequest) (permit : SeatPermit) : XM InputReply := do
  let sent ← underServerGrab env (moveAction env request permit)
  let still ← accepts env permit
  pure (actionReply sent still)

def clickAction (request : PointerClickRequest) (permit : SeatPermit) : XM Bool := do
  let (_, rootX, rootY) ← pointerDestination env request.target request.x request.y
  onlyIfAccepted env permit do
    fakeInput env ⟨.motionNotify, 0, rootX, rootY⟩
    clickButton env request.button rootX rootY

def pointerClick (request : PointerClickRequest) (permit : SeatPermit) : XM InputReply := do
  let sent ← underServerGrab env (clickAction env request permit)
  let still ← accepts env permit
  pure (actionReply sent still)

/-- The whole text is resolved once before the first character. -/
def preflight (request : TargetRequest) (text : List Char) : XM Unit := do
  let target ← freshTarget env request
  requireFocusOwnedBy env target.xid
  let _ ← resolveText env text
  pure ()

def characterAction (request : TargetRequest) (character : Char) (position : Nat)
    (permit : SeatPermit) : XM Bool := do
  let target ← freshTarget env request
  requireFocusOwnedBy env target.xid
  let accepted ← accepts env permit
  if accepted then do
    let stroke ← resolveCharacter env character position
    typeKey env stroke
    pure true
  else pure false

/-- One grab for each character; the result is how many were typed. -/
def typeCharacters (request : TargetRequest) (permit : SeatPermit) : List Char → Nat → XM Nat
  | [], completed => pure completed
  | character :: rest, completed => do
    Prog.lift (refuseIf (completed + 1 > u16Max)
      (Failure.internal "keyboard action count overflowed"))
    let result ← Prog.attempt (underServerGrab env
      (characterAction env request character (completed + 1) permit))
    match result with
    | .ok true => do
      let still ← accepts env permit
      if still then typeCharacters request permit rest (completed + 1)
      else pure (completed + 1)
    | .ok false => pure completed
    | .error error => if completed = 0 then Prog.fail error else pure completed

/-- The gate is asked again only if every character was typed. -/
def textComplete (permit : SeatPermit) (completed requested : Nat) : XM Bool :=
  if completed = requested then accepts env permit else pure false

def keyboardText (request : TargetRequest) (text : List Char) (permit : SeatPermit) :
    XM InputReply := do
  Prog.lift (refuseIf (text.length > u16Max)
    (Failure.invalid "keyboard text exceeds the action bound"))
  underServerGrab env (preflight env request text)
  let completed ← typeCharacters env request permit text 0
  let complete ← textComplete env permit completed text.length
  pure ⟨completed, text.length, if complete then .queued else .interrupted⟩

def keyboardType (request : KeyboardTypeRequest) (permit : SeatPermit) : XM InputReply :=
  keyboardText env request.target request.text.asStr.toList permit

def keyboardWrite (request : KeyboardWriteRequest) (permit : SeatPermit) : XM InputReply :=
  keyboardText env request.target request.text.asStr.toList permit

def keyAction (request : KeyboardKeyRequest) (permit : SeatPermit) : XM Bool := do
  let target ← freshTarget env request.target
  requireFocusOwnedBy env target.xid
  let stroke ← resolveKey env request.key request.modifiers.asSlice
  onlyIfAccepted env permit (typeKey env stroke)

def keyboardKey (request : KeyboardKeyRequest) (permit : SeatPermit) : XM InputReply := do
  let sent ← underServerGrab env (keyAction env request permit)
  let still ← accepts env permit
  pure (actionReply sent still)

end Input

end AgentSeat.Provider
