/-
  The JSON mapping of revision 9: what `serde` derives for the types of `message.rs`, `ids.rs` and
  `bounded.rs` from their attributes.

  One codec for each type, with the source's member names in declared order: `field` is a plain
  member, `optional` one with `default` and `skip_serializing_if`, `defaulted` one with `default`
  alone. A record with a flattened member is `flattened` over the `collected` members of the inner
  record and reads objects only; every other record is a `struct`. The tagged unions name their two
  keys; unit-only enumerations are spelled by their names.
-/
import AgentSeat.Lib.Tagged
import AgentSeat.Proto.Validate

namespace AgentSeat.Proto.Schema

open AgentSeat.Lib AgentSeat.Lib.Codec AgentSeat.Lib.Members

/-! ## Words, texts and lists -/

def u16 : Codec Nat := nat maxU16 5 (by decide) (by decide)
def u32 : Codec Nat := nat (2 ^ 32 - 1) 10 (by decide) (by decide)
def u64 : Codec Nat := nat u64Max 20 (by decide) (by decide)
def i32 : Codec Int := int (-2 ^ 31) (2 ^ 31 - 1) 10 (by decide) (by decide) (by decide)

/-- `NonZeroU64`. -/
def nonZeroU64 : Codec {n : Nat // n ≠ 0} :=
  u64.refine (fun n => if h : n ≠ 0 then some ⟨n, h⟩ else none) Subtype.val
    (by
      rintro a ⟨b, hb⟩
      by_cases ha : a ≠ 0
      · simp [ha, eq_comm]
      · have hab : b ≠ a := by omega
        simp [ha, hab])

def requestId : Codec RequestId := nonZeroU64.packed (fun n => ⟨n.1, n.2⟩) fun i => ⟨i.get, i.ne_zero⟩
def sessionId : Codec SessionId := nonZeroU64.packed (fun n => ⟨n.1, n.2⟩) fun i => ⟨i.get, i.ne_zero⟩
def clientId : Codec ClientId := nonZeroU64.packed (fun n => ⟨n.1, n.2⟩) fun i => ⟨i.get, i.ne_zero⟩
def launchToken : Codec LaunchToken :=
  nonZeroU64.packed (fun n => ⟨n.1, n.2⟩) fun i => ⟨i.get, i.ne_zero⟩

/-- A bounded text, from a codec of texts that keeps the bound. -/
def ofText {max : Nat} (c : Codec String) : Codec (BoundedText max) :=
  c.refine (fun s => (BoundedText.new s).toOption) BoundedText.asStr
    (by
      rintro s ⟨t, ht⟩
      unfold BoundedText.new
      by_cases hs : s.utf8ByteSize ≤ max
      · simp [hs, Except.toOption, eq_comm]
      · have hne : t ≠ s := by rintro rfl; exact hs ht
        simp [hs, Except.toOption, hne])

def boundedText (max : Nat) : Codec (BoundedText max) := ofText (text max)

def boundedList {α : Type} (c : Codec α) (max : Nat) : Codec (BoundedList α max) :=
  (list c max).refine (fun xs => (BoundedList.new xs).toOption) BoundedList.asSlice
    (by
      rintro xs ⟨ys, hys⟩
      unfold BoundedList.new
      by_cases hxs : xs.length ≤ max
      · simp [hxs, Except.toOption, eq_comm]
      · have hne : ys ≠ xs := by rintro rfl; exact hxs hys
        simp [hxs, Except.toOption, hne])

def name : Codec Name := boundedText maxNameBytes
def version : Codec Version := boundedText maxVersionBytes
def purpose : Codec Purpose := boundedText maxPurposeBytes
def diagnostic : Codec Diagnostic := boundedText maxDiagnosticBytes
def title : Codec Title := boundedText maxTitleBytes
def applicationId : Codec ApplicationId := boundedText maxApplicationIdBytes
def workspaceName : Codec WorkspaceName := boundedText maxWorkspaceNameBytes
def inputText : Codec InputText := boundedText maxInputTextBytes

/-- A text of at most `scalars` characters, none of them a control but newline and tab, costs at
    most one byte more for each. -/
def multiline (max scalars : Nat) : Codec (BoundedText max) :=
  ofText (textWithin max (max + scalars + 2)
    (fun s => s.toList.length ≤ scalars ∧ ∀ c ∈ s.toList, Json.Multiline c)
    (by
      intro s hs hlight
      have h := Json.length_renderText_le_scalars hlight.2
      have hscalars := hlight.1
      omega))

def longInputText : Codec LongInputText := multiline maxLongInputTextBytes maxLongInputActions
def transferText : Codec TransferText := multiline maxTextTransferBytes maxTextTransferScalars

/-- Base64 needs no escapes. -/
def captureData : Codec CaptureData :=
  ofText (textWithin maxCaptureDataBytes (maxCaptureDataBytes + 2)
    (fun s => ∀ c ∈ s.toList, Json.Unescaped c)
    (by
      intro s hs hlight
      have h := Json.length_renderText_plain hlight
      omega))

/-! ## Enumerations -/

def backend : Codec Backend :=
  names (fun | .x11Ewmh => "x11_ewmh") [.x11Ewmh]

def assurance : Codec Assurance :=
  names (fun | .tier0 => "tier0") [.tier0]

def capability : Codec Capability :=
  names
    (fun
      | .observeStructure => "observe_structure"
      | .observeTitles => "observe_titles"
      | .observeEvents => "observe_events"
      | .manageActivate => "manage_activate"
      | .manageClose => "manage_close"
      | .manageWorkspace => "manage_workspace"
      | .manageState => "manage_state"
      | .manageGeometry => "manage_geometry"
      | .launchList => "launch_list"
      | .launchExecute => "launch_execute"
      | .inputPointer => "input_pointer"
      | .inputKeyboard => "input_keyboard"
      | .textTransfer => "text_transfer"
      | .captureObscured => "capture_obscured")
    [.observeStructure, .observeTitles, .observeEvents, .manageActivate, .manageClose,
      .manageWorkspace, .manageState, .manageGeometry, .launchList, .launchExecute, .inputPointer,
      .inputKeyboard, .textTransfer, .captureObscured]

def feature : Codec Feature :=
  names
    (fun
      | .ewmhObservation => "ewmh_observation"
      | .ewmhManagement => "ewmh_management"
      | .desktopLaunch => "desktop_launch"
      | .clientVisibleCapture => "client_visible_capture"
      | .obscuredCapture => "obscured_capture"
      | .outputCapture => "output_capture"
      | .inputInjection => "input_injection"
      | .textTransfer => "text_transfer"
      | .humanActivity => "human_activity"
      | .accessibility => "accessibility")
    [.ewmhObservation, .ewmhManagement, .desktopLaunch, .clientVisibleCapture, .obscuredCapture,
      .outputCapture, .inputInjection, .textTransfer, .humanActivity, .accessibility]

/-- `ErrorCode::as_str`. -/
def errorCodeName : ErrorCode → String
  | .unavailable => "unavailable"
  | .incompatibleRevision => "incompatible_revision"
  | .refused => "refused"
  | .noSuchClient => "no_such_client"
  | .stale => "stale"
  | .unsupported => "unsupported"
  | .timedOut => "timed_out"
  | .invalidArgument => "invalid_argument"
  | .malformed => "malformed"
  | .tooLarge => "too_large"
  | .internal => "internal"
  | .resyncRequired => "resync_required"
  | .revoked => "revoked"
  | .sessionClosed => "session_closed"

def errorCode : Codec ErrorCode :=
  names errorCodeName
    [.unavailable, .incompatibleRevision, .refused, .noSuchClient, .stale, .unsupported, .timedOut,
      .invalidArgument, .malformed, .tooLarge, .internal, .resyncRequired, .revoked,
      .sessionClosed]

/-- `Retry::as_str`. -/
def retryName : Retry → String
  | .never => "never"
  | .reobserve => "reobserve"
  | .reconnect => "reconnect"

def retry : Codec Retry :=
  names retryName [.never, .reobserve, .reconnect]

def eventKind : Codec EventKind :=
  names
    (fun
      | .clientAdded => "client_added"
      | .clientChanged => "client_changed"
      | .clientRemoved => "client_removed"
      | .activeChanged => "active_changed"
      | .workspaceChanged => "workspace_changed"
      | .applicationsChanged => "applications_changed")
    [.clientAdded, .clientChanged, .clientRemoved, .activeChanged, .workspaceChanged,
      .applicationsChanged]

def clientState : Codec ClientState :=
  names
    (fun
      | .above => "above"
      | .below => "below"
      | .fullscreen => "fullscreen"
      | .hidden => "hidden"
      | .maximizedHorizontal => "maximized_horizontal"
      | .maximizedVertical => "maximized_vertical"
      | .demandsAttention => "demands_attention"
      | .sticky => "sticky"
      | .shaded => "shaded")
    [.above, .below, .fullscreen, .hidden, .maximizedHorizontal, .maximizedVertical,
      .demandsAttention, .sticky, .shaded]

def clientAction : Codec ClientAction :=
  names
    (fun
      | .activate => "activate"
      | .close => "close"
      | .changeWorkspace => "change_workspace"
      | .changeState => "change_state"
      | .changeGeometry => "change_geometry")
    [.activate, .close, .changeWorkspace, .changeState, .changeGeometry]

def stateAction : Codec StateAction :=
  names (fun | .add => "add" | .remove => "remove" | .toggle => "toggle") [.add, .remove, .toggle]

def pointerButton : Codec PointerButton :=
  names (fun | .primary => "primary" | .middle => "middle" | .secondary => "secondary")
    [.primary, .middle, .secondary]

def keyboardModifier : Codec KeyboardModifier :=
  names
    (fun | .control => "control" | .alt => "alt" | .shift => "shift" | .super => "super")
    [.control, .alt, .shift, .super]

def keyName : KeyboardKey → String
  | .backspace => "backspace"
  | .delete => "delete"
  | .enter => "enter"
  | .escape => "escape"
  | .tab => "tab"
  | .space => "space"
  | .insert => "insert"
  | .home => "home"
  | .end => "end"
  | .pageUp => "page_up"
  | .pageDown => "page_down"
  | .arrowLeft => "arrow_left"
  | .arrowRight => "arrow_right"
  | .arrowUp => "arrow_up"
  | .arrowDown => "arrow_down"
  | .a => "a" | .b => "b" | .c => "c" | .d => "d" | .e => "e" | .f => "f" | .g => "g"
  | .h => "h" | .i => "i" | .j => "j" | .k => "k" | .l => "l" | .m => "m" | .n => "n"
  | .o => "o" | .p => "p" | .q => "q" | .r => "r" | .s => "s" | .t => "t" | .u => "u"
  | .v => "v" | .w => "w" | .x => "x" | .y => "y" | .z => "z"
  | .digit0 => "0" | .digit1 => "1" | .digit2 => "2" | .digit3 => "3" | .digit4 => "4"
  | .digit5 => "5" | .digit6 => "6" | .digit7 => "7" | .digit8 => "8" | .digit9 => "9"
  | .f1 => "f1" | .f2 => "f2" | .f3 => "f3" | .f4 => "f4" | .f5 => "f5" | .f6 => "f6"
  | .f7 => "f7" | .f8 => "f8" | .f9 => "f9" | .f10 => "f10" | .f11 => "f11" | .f12 => "f12"

def keyboardKeys : List KeyboardKey :=
  [.backspace, .delete, .enter, .escape, .tab, .space, .insert, .home, .end, .pageUp, .pageDown,
    .arrowLeft, .arrowRight, .arrowUp, .arrowDown, .a, .b, .c, .d, .e, .f, .g, .h, .i, .j, .k, .l,
    .m, .n, .o, .p, .q, .r, .s, .t, .u, .v, .w, .x, .y, .z, .digit0, .digit1, .digit2, .digit3,
    .digit4, .digit5, .digit6, .digit7, .digit8, .digit9, .f1, .f2, .f3, .f4, .f5, .f6, .f7, .f8,
    .f9, .f10, .f11, .f12]

def keyboardKey : Codec KeyboardKey :=
  names keyName keyboardKeys (by intro key; cases key <;> decide) (by decide +kernel)

def observation : Codec Observation :=
  names
    (fun | .observed => "observed" | .timedOut => "timed_out" | .targetGone => "target_gone")
    [.observed, .timedOut, .targetGone]

def inputTerminal : Codec InputTerminal :=
  names (fun | .queued => "queued" | .interrupted => "interrupted") [.queued, .interrupted]

def textTransferTerminal : Codec TextTransferTerminal :=
  names
    (fun | .delivered => "delivered" | .offered => "offered" | .interrupted => "interrupted")
    [.delivered, .offered, .interrupted]

def captureFormat : Codec CaptureFormat :=
  names (fun | .png => "png") [.png] (by intro x; cases x; exact List.mem_singleton_self _)

/-! ## Opening -/

def empty : Codec Unit := struct nothing

def peerInfo : Codec PeerInfo :=
  struct <|
    ((field "name" name).pair <| (field "version" version).pair <| field "purpose" purpose).packed
      (fun (name, version, purpose) => ⟨name, version, purpose⟩)
      fun p => (p.name, p.version, p.purpose)

def hello : Codec Hello :=
  struct <|
    ((field "protocol" name).pair <| (field "revision" u16).pair <| (field "peer" peerInfo).pair <|
      field "requested" (boundedList capability maxCapabilities)).packed
      (fun (protocol, revision, peer, requested) => ⟨protocol, revision, peer, requested⟩)
      fun h => (h.protocol, h.revision, h.peer, h.requested)

def providerInfo : Codec ProviderInfo :=
  struct <|
    ((field "name" name).pair <| field "version" version).packed
      (fun (name, version) => ⟨name, version⟩) fun p => (p.name, p.version)

def limits : Codec Limits :=
  struct <|
    ((field "request_frame_bytes" u32).pair <| (field "response_frame_bytes" u32).pair <|
      (field "events_per_poll" u16).pair <| field "poll_wait_ms" u32).packed
      (fun (request, response, events, wait) => ⟨request, response, events, wait⟩)
      fun l => (l.requestFrameBytes, l.responseFrameBytes, l.eventsPerPoll, l.pollWaitMs)

def welcome : Codec Welcome :=
  struct <|
    ((field "protocol" name).pair <| (field "revision" u16).pair <|
      (field "session" sessionId).pair <| (field "provider" providerInfo).pair <|
      (field "backend" backend).pair <| (field "assurance" assurance).pair <|
      (field "features" (boundedList feature maxFeatures)).pair <|
      (field "granted" (boundedList capability maxCapabilities)).pair <|
      field "limits" limits).packed
      (fun (protocol, revision, session, provider, backend, assurance, features, granted, limits) =>
        ⟨protocol, revision, session, provider, backend, assurance, features, granted, limits⟩)
      fun w => (w.protocol, w.revision, w.session, w.provider, w.backend, w.assurance, w.features,
        w.granted, w.limits)

theorem ofText_ne_null {max bound cap : Nat} {Light : String → Prop}
    {h : ∀ s, s.utf8ByteSize ≤ bound → Light s → (Json.renderText s).length ≤ cap}
    (t : BoundedText max) : (ofText (textWithin bound cap Light h)).encode t ≠ .null := by
  simp [ofText, refine, textWithin, scalar]

theorem nat_ne_null {max k : Nat} {hk : 0 < k} {hmax : max < 10 ^ k} (n : Nat) :
    (nat max k hk hmax).encode n ≠ .null := by
  simp [nat, scalar]

theorem clientId_ne_null (i : ClientId) : clientId.encode i ≠ .null := by
  have h : u64.encode i.get ≠ .null := nat_ne_null i.get
  exact h

theorem empty_fits {α : Type} (c : Codec α) (max : Nat) : (boundedList c max).Fits .empty :=
  ⟨Nat.zero_le _, fun _ h => absurd h List.not_mem_nil⟩

def goodbye : Codec Goodbye :=
  struct <|
    ((field "code" errorCode).pair <| optional "message" diagnostic ofText_ne_null).packed
      (fun (code, message) => ⟨code, message⟩) fun g => (g.code, g.message)

/-! ## Requests -/

/-- The members of `TargetRequest`, on their own or flattened into a request. -/
def targetMembers : Members TargetRequest :=
  ((field "client" clientId).pair <| field "generation" u64).packed
    (fun (client, generation) => ⟨client, generation⟩) fun t => (t.client, t.generation)

def targetRequest : Codec TargetRequest := struct targetMembers

def subscribeRequest : Codec SubscribeRequest :=
  struct <|
    (defaulted "kinds" (boundedList eventKind 8) .empty (empty_fits _ _)).packed
      (fun kinds => ⟨kinds⟩) fun r => r.kinds

def pollRequest : Codec PollRequest :=
  struct <|
    ((field "after" u64).pair <| (field "limit" u16).pair <| field "wait_ms" u32).packed
      (fun (after, limit, waitMs) => ⟨after, limit, waitMs⟩) fun r => (r.after, r.limit, r.waitMs)

def workspaceRequest : Codec WorkspaceRequest :=
  struct <|
    ((field "workspace" u16).pair <| field "sequence" u64).packed
      (fun (workspace, sequence) => ⟨workspace, sequence⟩) fun r => (r.workspace, r.sequence)

def clientWorkspaceRequest : Codec ClientWorkspaceRequest :=
  flattened <|
    (targetMembers.collected.pair <| field "workspace" u16).packed
      (fun (target, workspace) => ⟨target, workspace⟩) fun r => (r.target, r.workspace)

def clientStateRequest : Codec ClientStateRequest :=
  flattened <|
    (targetMembers.collected.pair <| (field "state" clientState).pair <|
      field "action" stateAction).packed
      (fun (target, state, action) => ⟨target, state, action⟩)
      fun r => (r.target, r.state, r.action)

def rect : Codec Rect :=
  struct <|
    ((field "x" i32).pair <| (field "y" i32).pair <| (field "width" u32).pair <|
      field "height" u32).packed
      (fun (x, y, width, height) => ⟨x, y, width, height⟩) fun r => (r.x, r.y, r.width, r.height)

def clientGeometryRequest : Codec ClientGeometryRequest :=
  flattened <|
    (targetMembers.collected.pair <| field "frame" rect).packed
      (fun (target, frame) => ⟨target, frame⟩) fun r => (r.target, r.frame)

def applicationListRequest : Codec ApplicationListRequest :=
  struct <|
    ((defaulted "cursor" u32 0 (Nat.zero_le _)).pair <| field "limit" u16).packed
      (fun (cursor, limit) => ⟨cursor, limit⟩) fun r => (r.cursor, r.limit)

def applicationLaunchRequest : Codec ApplicationLaunchRequest :=
  struct <|
    (field "application" applicationId).packed (fun application => ⟨application⟩)
      fun r => r.application

def pointerMoveRequest : Codec PointerMoveRequest :=
  flattened <|
    (targetMembers.collected.pair <| (field "x" u32).pair <| field "y" u32).packed
      (fun (target, x, y) => ⟨target, x, y⟩) fun r => (r.target, r.x, r.y)

def pointerClickRequest : Codec PointerClickRequest :=
  flattened <|
    (targetMembers.collected.pair <| (field "x" u32).pair <| (field "y" u32).pair <|
      field "button" pointerButton).packed
      (fun (target, x, y, button) => ⟨target, x, y, button⟩)
      fun r => (r.target, r.x, r.y, r.button)

def keyboardTypeRequest : Codec KeyboardTypeRequest :=
  flattened <|
    (targetMembers.collected.pair <| field "text" inputText).packed
      (fun (target, text) => ⟨target, text⟩) fun r => (r.target, r.text)

def keyboardWriteRequest : Codec KeyboardWriteRequest :=
  flattened <|
    (targetMembers.collected.pair <| field "text" longInputText).packed
      (fun (target, text) => ⟨target, text⟩) fun r => (r.target, r.text)

def textInsertRequest : Codec TextInsertRequest :=
  flattened <|
    (targetMembers.collected.pair <| field "text" transferText).packed
      (fun (target, text) => ⟨target, text⟩) fun r => (r.target, r.text)

def keyboardKeyRequest : Codec KeyboardKeyRequest :=
  flattened <|
    (targetMembers.collected.pair <| (field "key" keyboardKey).pair <|
      defaulted "modifiers" (boundedList keyboardModifier maxKeyboardModifiers) .empty
        (empty_fits _ _)).packed
      (fun (target, key, modifiers) => ⟨target, key, modifiers⟩)
      fun r => (r.target, r.key, r.modifiers)

/-- The members of `CaptureRegion`, on their own or flattened into a request. -/
def regionMembers : Members CaptureRegion :=
  ((field "x" u16).pair <| (field "y" u16).pair <| (field "width" u16).pair <|
    field "height" u16).packed
    (fun (x, y, width, height) => ⟨x, y, width, height⟩) fun r => (r.x, r.y, r.width, r.height)

def captureRegion : Codec CaptureRegion := struct regionMembers

def captureRegionRequest : Codec CaptureRegionRequest :=
  flattened <|
    (targetMembers.collected.pair regionMembers.collected).packed
      (fun (target, region) => ⟨target, region⟩) fun r => (r.target, r.region)

/-! ## Replies -/

def seatStatus : Codec SeatStatus :=
  struct <|
    ((field "session" sessionId).pair <| (field "sequence" u64).pair <|
      field "assurance" assurance).packed
      (fun (session, sequence, assurance) => ⟨session, sequence, assurance⟩)
      fun s => (s.session, s.sequence, s.assurance)

def workspaceDescriptor : Codec WorkspaceDescriptor :=
  struct <|
    ((field "id" u16).pair <| (optional "name" workspaceName ofText_ne_null).pair <|
      optional "work_area" rect (struct_ne_null _)).packed
      (fun (id, name, workArea) => ⟨id, name, workArea⟩) fun w => (w.id, w.name, w.workArea)

def clientDescriptor : Codec ClientDescriptor :=
  struct <|
    ((field "id" clientId).pair <| (field "generation" u64).pair <|
      (optional "title" title ofText_ne_null).pair <|
      (optional "workspace" u16 nat_ne_null).pair <|
      (optional "frame" rect (struct_ne_null _)).pair <|
      (defaulted "states" (boundedList clientState 16) .empty (empty_fits _ _)).pair <|
      defaulted "actions" (boundedList clientAction 8) .empty (empty_fits _ _)).packed
      (fun (id, generation, title, workspace, frame, states, actions) =>
        ⟨id, generation, title, workspace, frame, states, actions⟩)
      fun c => (c.id, c.generation, c.title, c.workspace, c.frame, c.states, c.actions)

def desktopSnapshot : Codec DesktopSnapshot :=
  struct <|
    ((field "sequence" u64).pair <| (field "current_workspace" u16).pair <|
      (field "workspaces" (boundedList workspaceDescriptor maxWorkspaces)).pair <|
      (field "clients" (boundedList clientDescriptor maxClients)).pair <|
      optional "active" clientId clientId_ne_null).packed
      (fun (sequence, currentWorkspace, workspaces, clients, active) =>
        ⟨sequence, currentWorkspace, workspaces, clients, active⟩)
      fun s => (s.sequence, s.currentWorkspace, s.workspaces, s.clients, s.active)

def subscription : Codec Subscription :=
  struct <| (field "cursor" u64).packed (fun cursor => ⟨cursor⟩) fun s => s.cursor

def eventVariants : List (Variant Event) :=
  [{ name := "client_added", codec := clientDescriptor, inject := .clientAdded,
      project := fun | .clientAdded v => some v | _ => none },
    { name := "client_changed", codec := clientDescriptor, inject := .clientChanged,
      project := fun | .clientChanged v => some v | _ => none },
    { name := "client_removed", codec := clientId, inject := .clientRemoved,
      project := fun | .clientRemoved v => some v | _ => none },
    { name := "active_changed", codec := nullable clientId clientId_ne_null,
      inject := .activeChanged, project := fun | .activeChanged v => some v | _ => none },
    { name := "workspace_changed", codec := u16, inject := .workspaceChanged,
      project := fun | .workspaceChanged v => some v | _ => none },
    { name := "applications_changed", codec := empty, inject := fun _ => .applicationsChanged,
      project := fun | .applicationsChanged => some () | _ => none }]

def event : Codec Event :=
  tagged "kind" "value" eventVariants (by decide) (by decide) (by intro e; cases e <;> rfl)

def eventEnvelope : Codec EventEnvelope :=
  struct <|
    ((field "sequence" u64).pair <| field "event" event).packed
      (fun (sequence, event) => ⟨sequence, event⟩) fun e => (e.sequence, e.event)

def eventBatch : Codec EventBatch :=
  struct <|
    ((field "events" (boundedList eventEnvelope maxEvents)).pair <| field "cursor" u64).packed
      (fun (events, cursor) => ⟨events, cursor⟩) fun b => (b.events, b.cursor)

def managementReply : Codec ManagementReply :=
  struct <|
    ((field "observation" observation).pair <| field "sequence" u64).packed
      (fun (observation, sequence) => ⟨observation, sequence⟩) fun r => (r.observation, r.sequence)

def applicationDescriptor : Codec ApplicationDescriptor :=
  struct <|
    ((field "id" applicationId).pair <| (field "name" name).pair <| field "user_entry" bool).packed
      (fun (id, name, userEntry) => ⟨id, name, userEntry⟩) fun a => (a.id, a.name, a.userEntry)

def applicationPage : Codec ApplicationPage :=
  struct <|
    ((field "applications" (boundedList applicationDescriptor maxApplications)).pair <|
      optional "next_cursor" u32 nat_ne_null).packed
      (fun (applications, nextCursor) => ⟨applications, nextCursor⟩)
      fun p => (p.applications, p.nextCursor)

def launchReply : Codec LaunchReply :=
  struct <|
    ((field "token" launchToken).pair <| optional "client" clientId clientId_ne_null).packed
      (fun (token, client) => ⟨token, client⟩) fun r => (r.token, r.client)

def inputReply : Codec InputReply :=
  struct <|
    ((field "completed" u16).pair <| (field "requested" u16).pair <|
      field "terminal" inputTerminal).packed
      (fun (completed, requested, terminal) => ⟨completed, requested, terminal⟩)
      fun r => (r.completed, r.requested, r.terminal)

def textTransferReply : Codec TextTransferReply :=
  struct <|
    ((field "target" targetRequest).pair <| (field "requested_bytes" u32).pair <|
      (field "delivered_bytes" u32).pair <| field "terminal" textTransferTerminal).packed
      (fun (target, requestedBytes, deliveredBytes, terminal) =>
        ⟨target, requestedBytes, deliveredBytes, terminal⟩)
      fun r => (r.target, r.requestedBytes, r.deliveredBytes, r.terminal)

def captureReply : Codec CaptureReply :=
  struct <|
    ((field "target" targetRequest).pair <| (field "width" u16).pair <|
      (field "height" u16).pair <| (field "format" captureFormat).pair <|
      field "data" captureData).packed
      (fun (target, width, height, format, data) => ⟨target, width, height, format, data⟩)
      fun r => (r.target, r.width, r.height, r.format, r.data)

def captureRegionReply : Codec CaptureRegionReply :=
  struct <|
    ((field "target" targetRequest).pair <| (field "region" captureRegion).pair <|
      (field "format" captureFormat).pair <| field "data" captureData).packed
      (fun (target, region, format, data) => ⟨target, region, format, data⟩)
      fun r => (r.target, r.region, r.format, r.data)

/-! ## Calls, replies and messages -/

def callVariants : List (Variant Call) :=
  [{ name := "seat.status", codec := empty, inject := fun _ => .seatStatus,
      project := fun | .seatStatus => some () | _ => none },
    { name := "desktop.snapshot", codec := empty, inject := fun _ => .desktopSnapshot,
      project := fun | .desktopSnapshot => some () | _ => none },
    { name := "events.subscribe", codec := subscribeRequest, inject := .eventsSubscribe,
      project := fun | .eventsSubscribe v => some v | _ => none },
    { name := "events.poll", codec := pollRequest, inject := .eventsPoll,
      project := fun | .eventsPoll v => some v | _ => none },
    { name := "client.activate", codec := targetRequest, inject := .clientActivate,
      project := fun | .clientActivate v => some v | _ => none },
    { name := "client.close", codec := targetRequest, inject := .clientClose,
      project := fun | .clientClose v => some v | _ => none },
    { name := "workspace.switch", codec := workspaceRequest, inject := .workspaceSwitch,
      project := fun | .workspaceSwitch v => some v | _ => none },
    { name := "client.workspace", codec := clientWorkspaceRequest, inject := .clientWorkspace,
      project := fun | .clientWorkspace v => some v | _ => none },
    { name := "client.state", codec := clientStateRequest, inject := .clientState,
      project := fun | .clientState v => some v | _ => none },
    { name := "client.geometry", codec := clientGeometryRequest, inject := .clientGeometry,
      project := fun | .clientGeometry v => some v | _ => none },
    { name := "applications.list", codec := applicationListRequest, inject := .applicationsList,
      project := fun | .applicationsList v => some v | _ => none },
    { name := "application.launch", codec := applicationLaunchRequest,
      inject := .applicationLaunch, project := fun | .applicationLaunch v => some v | _ => none },
    { name := "pointer.move", codec := pointerMoveRequest, inject := .pointerMove,
      project := fun | .pointerMove v => some v | _ => none },
    { name := "pointer.click", codec := pointerClickRequest, inject := .pointerClick,
      project := fun | .pointerClick v => some v | _ => none },
    { name := "keyboard.type", codec := keyboardTypeRequest, inject := .keyboardType,
      project := fun | .keyboardType v => some v | _ => none },
    { name := "keyboard.write", codec := keyboardWriteRequest, inject := .keyboardWrite,
      project := fun | .keyboardWrite v => some v | _ => none },
    { name := "keyboard.key", codec := keyboardKeyRequest, inject := .keyboardKey,
      project := fun | .keyboardKey v => some v | _ => none },
    { name := "text.insert", codec := textInsertRequest, inject := .textInsert,
      project := fun | .textInsert v => some v | _ => none },
    { name := "capture.obscured", codec := targetRequest, inject := .captureObscured,
      project := fun | .captureObscured v => some v | _ => none },
    { name := "capture.region", codec := captureRegionRequest, inject := .captureRegion,
      project := fun | .captureRegion v => some v | _ => none }]

def call : Codec Call :=
  tagged "name" "arguments" callVariants (by decide) (by decide) (by intro c; cases c <;> rfl)

def request : Codec Request :=
  struct <|
    ((field "id" requestId).pair <| field "call" call).packed (fun (id, call) => ⟨id, call⟩)
      fun r => (r.id, r.call)

def replyVariants : List (Variant Reply) :=
  [{ name := "seat_status", codec := seatStatus, inject := .seatStatus,
      project := fun | .seatStatus v => some v | _ => none },
    { name := "desktop_snapshot", codec := desktopSnapshot, inject := .desktopSnapshot,
      project := fun | .desktopSnapshot v => some v | _ => none },
    { name := "subscribed", codec := subscription, inject := .subscribed,
      project := fun | .subscribed v => some v | _ => none },
    { name := "events", codec := eventBatch, inject := .events,
      project := fun | .events v => some v | _ => none },
    { name := "management", codec := managementReply, inject := .management,
      project := fun | .management v => some v | _ => none },
    { name := "applications", codec := applicationPage, inject := .applications,
      project := fun | .applications v => some v | _ => none },
    { name := "launched", codec := launchReply, inject := .launched,
      project := fun | .launched v => some v | _ => none },
    { name := "input", codec := inputReply, inject := .input,
      project := fun | .input v => some v | _ => none },
    { name := "text_transfer", codec := textTransferReply, inject := .textTransfer,
      project := fun | .textTransfer v => some v | _ => none },
    { name := "capture", codec := captureReply, inject := .capture,
      project := fun | .capture v => some v | _ => none },
    { name := "capture_region", codec := captureRegionReply, inject := .captureRegion,
      project := fun | .captureRegion v => some v | _ => none }]

def reply : Codec Reply :=
  tagged "kind" "value" replyVariants (by decide) (by decide) (by intro r; cases r <;> rfl)

def protocolError : Codec ProtocolError :=
  struct <|
    ((field "code" errorCode).pair <| (field "retry" retry).pair <|
      (optional "field" name ofText_ne_null).pair <|
      (optional "message" diagnostic ofText_ne_null).pair <|
      (optional "current_generation" u64 nat_ne_null).pair <|
      optional "current_sequence" u64 nat_ne_null).packed
      (fun (code, retry, field, message, currentGeneration, currentSequence) =>
        ⟨code, retry, field, message, currentGeneration, currentSequence⟩)
      fun e => (e.code, e.retry, e.field, e.message, e.currentGeneration, e.currentSequence)

def outcomeVariants : List (Variant Outcome) :=
  [{ name := "ok", codec := reply, inject := .ok, project := fun | .ok v => some v | _ => none },
    { name := "error", codec := protocolError, inject := .error,
      project := fun | .error v => some v | _ => none }]

def outcome : Codec Outcome :=
  tagged "status" "body" outcomeVariants (by decide) (by decide) (by intro o; cases o <;> rfl)

def response : Codec Response :=
  struct <|
    ((field "id" requestId).pair <| field "outcome" outcome).packed
      (fun (id, outcome) => ⟨id, outcome⟩) fun r => (r.id, r.outcome)

def clientMessageVariants : List (Variant ClientMessage) :=
  [{ name := "hello", codec := hello, inject := .hello,
      project := fun | .hello v => some v | _ => none },
    { name := "request", codec := request, inject := .request,
      project := fun | .request v => some v | _ => none },
    { name := "goodbye", codec := goodbye, inject := .goodbye,
      project := fun | .goodbye v => some v | _ => none }]

def clientMessage : Codec ClientMessage :=
  tagged "type" "body" clientMessageVariants (by decide) (by decide)
    (by intro m; cases m <;> rfl)

def serverMessageVariants : List (Variant ServerMessage) :=
  [{ name := "welcome", codec := welcome, inject := .welcome,
      project := fun | .welcome v => some v | _ => none },
    { name := "response", codec := response, inject := .response,
      project := fun | .response v => some v | _ => none },
    { name := "goodbye", codec := goodbye, inject := .goodbye,
      project := fun | .goodbye v => some v | _ => none }]

def serverMessage : Codec ServerMessage :=
  tagged "type" "body" serverMessageVariants (by decide) (by decide)
    (by intro m; cases m <;> rfl)

end AgentSeat.Proto.Schema
