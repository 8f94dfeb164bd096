/-
  Write-only selection transfer for one focused target (`observer/text_transfer.rs`).

  The request claims the clipboard for a window of its own, types Control+V at the target and serves
  the selection requests that come back. Waiting ends with the rounds before the deadline, or when
  the settling time after a delivery has passed.
-/
import AgentSeat.Provider.Input

namespace AgentSeat.Provider

open AgentSeat.Lib AgentSeat.Proto AgentSeat.X11 AgentSeat.Seat

def maxTransferEvents : Nat := 256
def maxSelectionRequests : Nat := 32

/-- `ClientIdMask::CLIENT_XID`. -/
def clientXidMask : Nat := 1

def transferReply (target : TargetRequest) (requestedBytes : Nat)
    (terminal : TextTransferTerminal) : TextTransferReply :=
  ⟨target, requestedBytes, 0, terminal⟩

section Transfer

variable (env : Outside)

def createTransferOwner : XM Window := do
  let owner ← reply "cannot allocate a text-transfer owner window"
    "cannot allocate a text-transfer owner window" (Dialogue.ask env .generateId)
  reply "cannot create a text-transfer owner window" "cannot create a text-transfer owner window"
    (Dialogue.ask env (.createWindow owner))
  pure owner

/-- The owner of the clipboard, for a check with its own words. -/
def selectionOwner (message : String) : XM Window :=
  reply message message (Dialogue.ask env .getSelectionOwner)

def claimTransferSelection (owner : Window) : XM Unit := do
  reply "cannot claim the X11 clipboard selection" "cannot claim the X11 clipboard selection"
    (Dialogue.ask env (.setSelectionOwner owner))
  let current ← selectionOwner env "cannot verify X11 clipboard ownership"
  Prog.lift (refuseIf (current ≠ owner)
    (Failure.unavailable "X11 clipboard ownership changed before text transfer"))

def requireXresClientIdentity (window : Window) : XM Nat := do
  let version ← reply "X-Resource client identity is unavailable"
    "X-Resource client identity is unavailable" (Dialogue.ask env .resQueryVersion)
  Prog.lift (refuseIf (version.1 < 1 ∨ version.1 = 1 ∧ version.2 < 2)
    (Failure.unavailable "X-Resource 1.2 client identity is unavailable"))
  let ids ← reply "cannot inspect X11 client identity" "cannot inspect X11 client identity"
    (Dialogue.ask env (.resQueryClientIds window))
  Prog.lift (present "X11 client identity evidence is incomplete"
    ((ids.find? fun value => value.mask == clientXidMask && value.value.isEmpty).map
      ClientIdValue.client))

def sameXClient (targetXid requestor : Window) : XM Bool := do
  let targetClient ← requireXresClientIdentity env targetXid
  let requestorClient ← requireXresClientIdentity env requestor
  pure (targetClient = requestorClient)

def notifySelection (request : SelectionRequestEvent) (property : Atom) : XM Unit :=
  reply "cannot send X11 selection notification" "cannot send X11 selection notification"
    (Dialogue.ask env (.notifySelection
      ⟨request.time, request.requestor, request.selection, request.target, property⟩))

def synchronize (message : String) : XM Unit :=
  reply message message (Dialogue.ask env .sync)

/-- A refusal, told to the requestor. -/
def refuseSelection (request : SelectionRequestEvent) (message : String) : XM Bool := do
  notifySelection env request none32
  synchronize env message
  pure false

/-- What the request names as the place of the answer. -/
def answerProperty (request : SelectionRequestEvent) : Atom :=
  if request.property = none32 then request.target else request.property

def publishTargets (request : SelectionRequestEvent) (atoms : Atoms) : XM Bool := do
  reply "cannot publish text-transfer targets" "cannot publish text-transfer targets"
    (Dialogue.ask env (.changeProperty request.requestor (answerProperty request) atomType
      (.words [atoms.targets, atoms.utf8, atoms.textPlainUtf8, atoms.textPlain])))
  notifySelection env request (answerProperty request)
  synchronize env "cannot synchronize text-transfer targets"
  pure false

def deliverText (request : SelectionRequestEvent) (text : List UInt8) : XM Bool := do
  reply "cannot deliver UTF-8 transfer text" "cannot deliver UTF-8 transfer text"
    (Dialogue.ask env (.changeProperty request.requestor (answerProperty request) request.target
      (.bytes text)))
  notifySelection env request (answerProperty request)
  synchronize env "cannot synchronize UTF-8 text delivery"
  pure true

/-- The answer to a requestor that is the target's own client, while the selection is held. -/
def serveSelection (request : SelectionRequestEvent) (owner : Window) (text : List UInt8) :
    XM Bool := do
  let current ← selectionOwner env "cannot verify X11 clipboard ownership"
  let atoms ← this (·.atoms)
  if current ≠ owner then pure false
  else if request.target = atoms.targets then publishTargets env request atoms
  else if request.target = atoms.utf8 ∨ request.target = atoms.textPlainUtf8 ∨
      request.target = atoms.textPlain then
    deliverText env request text
  else refuseSelection env request "cannot refuse an unsupported text target"

/-- What the request works with, from its call to its reply. -/
structure Transfer where
  owner : Window
  target : TargetRequest
  text : List UInt8
  permit : SeatPermit

def selectionAction (t : Transfer) (request : SelectionRequestEvent) : XM Bool := do
  let target ← freshTarget env t.target
  requireFocusOwnedBy env target.xid
  let accepted ← accepts env t.permit
  if accepted then do
    let same ← sameXClient env target.xid request.requestor
    if same then serveSelection env request t.owner t.text
    else refuseSelection env request "cannot refuse an out-of-scope selection requestor"
  else pure false

def handleSelectionRequest (t : Transfer) (request : SelectionRequestEvent) : XM Bool :=
  underServerGrab env (selectionAction env t request)

def evidenceAction (t : Transfer) : XM Bool := do
  let target ← freshTarget env t.target
  requireFocusOwnedBy env target.xid
  let accepted ← accepts env t.permit
  if accepted then do
    let current ← selectionOwner env "cannot verify X11 clipboard ownership"
    pure (current = t.owner)
  else pure false

/-- Any failure counts as evidence that is gone. -/
def transferEvidenceIsCurrent (t : Transfer) : XM Bool := do
  let result ← Prog.attempt (underServerGrab env (evidenceAction env t))
  pure (result.toOption.getD false)

/-- How far the serving loop is: the events it may still take, the selection requests it has taken,
    and whether the text was delivered. -/
structure Serving where
  events : Nat
  requests : Nat
  delivered : Bool

/-- Take the pending events; `none` when the transfer is interrupted. -/
def serveEvents (t : Transfer) (clipboard : Atom) : Nat → Nat → Bool → XM (Option Serving)
  | events, requests, delivered => do
    let pending ← reply "cannot read X11 text-transfer events"
      "cannot read X11 text-transfer events" (Dialogue.ask env .pollForEvent)
    match pending with
    | none => pure (some ⟨events, requests, delivered⟩)
    | some event =>
      match events with
      | 0 => pure none
      | events + 1 =>
        match event with
        | .selectionClear owner selection =>
          if owner = t.owner ∧ selection = clipboard then pure none
          else serveEvents t clipboard events requests delivered
        | .selectionRequest request =>
          if request.owner = t.owner ∧ request.selection = clipboard then
            if requests + 1 > maxSelectionRequests then pure none
            else do
              let written ← handleSelectionRequest env t request
              serveEvents t clipboard events (requests + 1) (delivered || written)
          else serveEvents t clipboard events requests delivered
        | .other => serveEvents t clipboard events requests delivered

def waitRounds (t : Transfer) (clipboard : Atom) (requestedBytes : Nat) :
    Nat → Serving → XM TextTransferReply
  | rounds, serving => do
    let served ← serveEvents env t clipboard serving.events serving.requests serving.delivered
    match served with
    | none => pure (transferReply t.target requestedBytes .interrupted)
    | some serving => do
      let current ← transferEvidenceIsCurrent env t
      if current = false then pure (transferReply t.target requestedBytes .interrupted)
      else do
        let settled : Bool ← Dialogue.ask env .settled
        if serving.delivered ∧ (settled = true ∨ rounds = 0) then
          pure ⟨t.target, requestedBytes, requestedBytes, .delivered⟩
        else
          match rounds with
          | 0 => pure (transferReply t.target requestedBytes .offered)
          | rounds + 1 => do
            reply "cannot wait for X11 text-transfer events"
              "cannot wait for X11 text-transfer events" (Dialogue.ask env .pollStream)
            waitRounds t clipboard requestedBytes rounds serving

def waitForTransfer (t : Transfer) (requestedBytes : Nat) : XM TextTransferReply := do
  let deadline : Option Nat ← Dialogue.ask env .transferRounds
  let clipboard ← this (·.atoms.clipboard)
  match deadline with
  | none => Prog.fail (Failure.internal "text-transfer deadline overflowed")
  | some rounds =>
    waitRounds env t clipboard requestedBytes rounds ⟨maxTransferEvents, 0, false⟩

def releaseSelection (owner : Window) : XM Unit := do
  let current ← selectionOwner env "cannot inspect text-transfer cleanup state"
  Prog.onlyIf (current = owner) (reply "cannot release X11 clipboard ownership"
    "cannot release X11 clipboard ownership" (Dialogue.ask env (.setSelectionOwner none32)))
  reply "cannot destroy text-transfer owner window" "cannot destroy text-transfer owner window"
    (Dialogue.ask env (.destroyWindow owner))

def releaseTransferOwner (owner : Window) : XM Unit := do
  reply "cannot acquire text-transfer cleanup grab" "cannot acquire text-transfer cleanup grab"
    (Dialogue.ask env .grabServer)
  let cleanup ← Prog.attempt (releaseSelection env owner)
  let released ← Dialogue.ask env .ungrabServer
  Prog.lift (conclude cleanup (checked "cannot request text-transfer cleanup ungrab"
    "cannot release text-transfer cleanup grab" released))
  synchronize env "cannot synchronize text-transfer cleanup"

/-- Claim, resolve the paste stroke and type it, with the gate asked before each of the two. -/
def pasteAction (t : Transfer) : XM Bool := do
  let target ← freshTarget env t.target
  requireFocusOwnedBy env target.xid
  let _ ← requireXresClientIdentity env target.xid
  let accepted ← accepts env t.permit
  if accepted then do
    claimTransferSelection env t.owner
    let stroke ← resolveKey env .v [.control]
    onlyIfAccepted env t.permit (typeKey env stroke)
  else pure false

def afterOffer (t : Transfer) (requestedBytes : Nat) :
    Except Failure Bool → XM TextTransferReply
  | .ok true => waitForTransfer env t requestedBytes
  | .ok false => pure (transferReply t.target requestedBytes .interrupted)
  | .error error => Prog.fail error

def textInsert (request : TextInsertRequest) (permit : SeatPermit) : XM TextTransferReply := do
  Prog.lift (refuseIf (request.text.asStr.utf8ByteSize > u32Max)
    (Failure.internal "text-transfer byte count cannot be represented"))
  let owner ← createTransferOwner env
  let t : Transfer := ⟨owner, request.target, request.text.asStr.toUTF8.toList, permit⟩
  let offered ← Prog.attempt (underServerGrab env (pasteAction env t))
  let result ← Prog.attempt (afterOffer env t request.text.asStr.utf8ByteSize offered)
  let cleanup ← Prog.attempt (releaseTransferOwner env owner)
  Prog.lift (conclude result cleanup)

end Transfer

end AgentSeat.Provider
