/-
  The tools of the companion (`mcp.rs`): the schemas it publishes, how the arguments of a tool become
  a call of the protocol, and what the result of a tool looks like.

  A schema is a closed object of properties. The text a derived reader gives when it refuses a value
  is a parameter (`reason`).
-/
import AgentSeat.Companion.Rpc

namespace AgentSeat.Companion

open AgentSeat.Lib AgentSeat.Proto

/-! ## Schemas -/

/-- An integer with its bounds and its default. -/
structure Range where
  minimum : Option Int
  maximum : Option Int
  default : Option Int

inductive Pattern where
  | desktopId
  | slotName

def Pattern.text : Pattern → String
  | .desktopId => "^[^/\\u0000]+\\.desktop$"
  | .slotName => "^[A-Za-z0-9._-]+$"

inductive Property where
  | integer (range : Range)
  | string (minLength maxLength : Nat) (pattern : Option Pattern)
  | enumeration (names : List String)
  | array (maxItems : Nat) (items : List String) (default : Option (List String))
      (description : Option String)
  /-- A closed object of integers. -/
  | integers (members : List (String × Range)) (required : List String)

structure InputSchema where
  properties : Option (List (String × Property))
  required : Option (List String)

def entry (key : String) (value : Option Json) : List (String × Json) :=
  value.toList.map fun v => (key, v)

def strings (names : List String) : Json := .arr (names.map .str)

def Range.json (r : Range) : Json :=
  object ([("type", .str "integer")] ++ entry "minimum" (r.minimum.map .num) ++
    entry "maximum" (r.maximum.map .num) ++ entry "default" (r.default.map .num))

def Property.json : Property → Json
  | .integer range => range.json
  | .string minLength maxLength pattern =>
    object ([("type", .str "string"), ("minLength", .num minLength), ("maxLength", .num maxLength)] ++
      entry "pattern" (pattern.map fun p => .str p.text))
  | .enumeration names => object [("enum", strings names)]
  | .array maxItems items default description =>
    object ([("type", .str "array"), ("maxItems", .num maxItems), ("uniqueItems", .bool true),
        ("items", object [("enum", strings items)])] ++
      entry "default" (default.map strings) ++ entry "description" (description.map .str))
  | .integers members required =>
    object [("type", .str "object"),
      ("properties", object (members.map fun member => (member.1, member.2.json))),
      ("required", strings required), ("additionalProperties", .bool false)]

def InputSchema.json (s : InputSchema) : Json :=
  object ([("type", .str "object"), ("additionalProperties", .bool false)] ++
    entry "properties" (s.properties.map fun properties =>
      object (properties.map fun property => (property.1, property.2.json))) ++
    entry "required" (s.required.map strings))

/-! ## The published tools -/

structure Tool where
  name : String
  title : String
  description : String
  inputSchema : InputSchema

def Tool.json (t : Tool) : Json :=
  .obj [("name", .str t.name), ("title", .str t.title), ("description", .str t.description),
    ("inputSchema", t.inputSchema.json)]

/-- `KEYBOARD_KEYS`. -/
def keyboardKeyNames : List String :=
  ["backspace", "delete", "enter", "escape", "tab", "space", "insert", "home", "end",
    "page_up", "page_down", "arrow_left", "arrow_right", "arrow_up", "arrow_down", "a", "b",
    "c", "d", "e", "f", "g", "h", "i", "j", "k", "l", "m", "n", "o", "p", "q", "r", "s", "t",
    "u", "v", "w", "x", "y", "z", "0", "1", "2", "3", "4", "5", "6", "7", "8", "9", "f1",
    "f2", "f3", "f4", "f5", "f6", "f7", "f8", "f9", "f10", "f11", "f12"]

def eventKindNames : List String :=
  ["client_added", "client_changed", "client_removed", "active_changed", "workspace_changed",
    "applications_changed"]

def clientStateNames : List String :=
  ["above", "below", "fullscreen", "hidden", "maximized_horizontal", "maximized_vertical",
    "demands_attention", "sticky", "shaded"]

def buttonNames : List String := ["primary", "middle", "secondary"]

def within (minimum maximum : Int) : Property := .integer ⟨some minimum, some maximum, none⟩

def atLeast (minimum : Int) : Property := .integer ⟨some minimum, none, none⟩

def slotName : Property := .string 1 64 (some .slotName)

def empty : InputSchema := ⟨none, none⟩

def closed (properties : List (String × Property)) (required : Option (List String)) : InputSchema :=
  ⟨some properties, required⟩

def target : InputSchema :=
  closed [("client", atLeast 1), ("generation", atLeast 0)] (some ["client", "generation"])

def objectWithTarget (extra : List (String × Property)) (extraRequired : List String) : InputSchema :=
  closed ([("client", atLeast 1), ("generation", atLeast 0)] ++ extra)
    (some (["client", "generation"] ++ extraRequired))

def buildTools : List Tool :=
  [
    { name := "seat_status"
      title := "Agent Seat status"
      description := "Resolve and authenticate the current Agent Seat provider. Call this before " ++
        "desktop work."
      inputSchema := empty },
    { name := "desktop_snapshot"
      title := "Desktop snapshot"
      description := "Observe the bounded Tier 0 desktop before choosing a target or mutation. Repeat " ++
        "after an action that may open a dialog or window; compare active and client IDs " ++
        "before more input."
      inputSchema := empty },
    { name := "events_subscribe"
      title := "Subscribe to desktop changes"
      description := "Start a bounded event stream; an empty kinds list subscribes to every core " ++
        "event."
      inputSchema := closed [("kinds", .array 8 eventKindNames none none)] none },
    { name := "events_poll"
      title := "Poll desktop changes"
      description := "Read bounded changes after a provider sequence cursor."
      inputSchema := closed [("after", atLeast 0), ("limit", within 1 1024), ("wait_ms", within 0 30000)]
        (some ["after", "limit", "wait_ms"]) },
    { name := "client_activate"
      title := "Activate client"
      description := "Request advertised EWMH activation of a freshly observed client, then report " ++
        "what was observed."
      inputSchema := target },
    { name := "client_close"
      title := "Close client politely"
      description := "Request polite close only when the client advertises WM_DELETE_WINDOW, then " ++
        "report what was observed."
      inputSchema := target },
    { name := "workspace_switch"
      title := "Switch workspace"
      description := "Request an advertised current-workspace change from a fresh snapshot."
      inputSchema := closed [("workspace", within 0 65535), ("sequence", atLeast 0)] (some ["workspace", "sequence"]) },
    { name := "client_workspace"
      title := "Send client to workspace"
      description := "Request moving a freshly observed client to an advertised workspace."
      inputSchema := objectWithTarget [("workspace", within 0 65535)] ["workspace"] },
    { name := "client_state"
      title := "Change client state"
      description := "Request one supported EWMH state transition on a freshly observed client."
      inputSchema := objectWithTarget [("state", .enumeration clientStateNames),
        ("action", .enumeration ["add", "remove", "toggle"])] ["state", "action"] },
    { name := "client_geometry"
      title := "Change client geometry"
      description := "Request supported EWMH frame geometry for a freshly observed client."
      inputSchema := objectWithTarget [("frame", .integers [("x", ⟨none, none, none⟩), ("y", ⟨none, none, none⟩),
        ("width", ⟨some 1, some 4294967295, none⟩), ("height", ⟨some 1, some 4294967295, none⟩)]
        ["x", "y", "width", "height"])] ["frame"] },
    { name := "applications_list"
      title := "List launchable applications"
      description := "List a bounded page of desktop entries visible under current provider policy."
      inputSchema := closed [("cursor", .integer ⟨some 0, some 4294967295, some 0⟩), ("limit", within 1 256)]
        (some ["limit"]) },
    { name := "application_launch"
      title := "Launch desktop application"
      description := "Launch one current policy-approved desktop ID without a shell."
      inputSchema := closed [("application", .string 9 256 (some .desktopId))] (some ["application"]) },
    { name := "pointer_move"
      title := "Move pointer within client"
      description := "Move the pointer once to a currently visible client-relative point while the " ++
        "operator seat remains enabled."
      inputSchema := objectWithTarget [("x", within 0 4294967295), ("y", within 0 4294967295)] ["x", "y"] },
    { name := "pointer_click"
      title := "Click within client"
      description := "Move to and click one currently visible client-relative point while the operator " ++
        "seat remains enabled."
      inputSchema := objectWithTarget [("x", within 0 4294967295), ("y", within 0 4294967295),
        ("button", .enumeration buttonNames)] ["x", "y", "button"] },
    { name := "pointer_slot_save"
      title := "Remember pointer click"
      description := "Save one previously verified client-relative click in the current provider " ++
        "session. A slot remembers coordinates, not a UI element; saving does not perform " ++
        "the click."
      inputSchema := objectWithTarget [("name", slotName), ("x", within 0 4294967295),
        ("y", within 0 4294967295), ("button", .enumeration buttonNames)] ["name", "x", "y", "button"] },
    { name := "pointer_slot_replay"
      title := "Replay remembered click"
      description := "Replay one remembered click using the target's freshly observed generation and " ++
        "all current provider geometry, visibility, hit-test, grant, and seat checks. " ++
        "Reobserve before relying on a slot after UI changes."
      inputSchema := closed [("name", slotName), ("generation", atLeast 0)] (some ["name", "generation"]) },
    { name := "pointer_slots_list"
      title := "List remembered clicks"
      description := "List the at most 32 pointer clicks remembered only in the current provider " ++
        "session."
      inputSchema := closed [] (some []) },
    { name := "keyboard_type"
      title := "Type text into client"
      description := "Type bounded text through the current X11 keyboard layout only when the target " ++
        "already owns keyboard focus."
      inputSchema := objectWithTarget [("text", .string 1 256 none)] ["text"] },
    { name := "keyboard_key"
      title := "Send key to client"
      description := "Send one complete layout-aware key or shortcut only when the target already owns " ++
        "keyboard focus."
      inputSchema := objectWithTarget [("key", .enumeration keyboardKeyNames), ("modifiers",
        .array 4 ["control", "alt", "shift", "super"] (some [])
          (some "Use canonical order: control, alt, shift, super."))] ["key"] },
    { name := "keyboard_write"
      title := "Write long-form text into client"
      description := "Type up to 4,096 characters and 16 KiB of preflighted multiline text through " ++
        "direct symbols in the current X11 keyboard layout. Refusal identifies the first " ++
        "unavailable scalar. Never change the user's XKB layout or mapping as a " ++
        "workaround. The target must retain keyboard focus; completion is reported " ++
        "exactly and may be interrupted."
      inputSchema := objectWithTarget [("text", .string 1 4096 none)] ["text"] },
    { name := "text_insert"
      title := "Transfer exact text to client"
      description := "Offer up to 16,384 Unicode scalars and 32 KiB of exact UTF-8 to one freshly " ++
        "observed focused target. This separately granted write-only operation replaces " ++
        "X11 clipboard ownership; a clipboard manager may retain the text. It never reads " ++
        "the prior clipboard and reports selection delivery, not application insertion."
      inputSchema := objectWithTarget [("text", .string 1 16384 none)] ["text"] },
    { name := "capture_obscured"
      title := "Capture client pixels"
      description := "Capture one freshly observed client's own pixels, including content covered by " ++
        "dialogs or other windows. This does not prove visibility, focus, or " ++
        "interactivity; use desktop_snapshot to inspect the active and newly added " ++
        "clients."
      inputSchema := target },
    { name := "capture_region"
      title := "Capture part of client"
      description := "Capture a bounded client-relative rectangle, including content covered by " ++
        "dialogs or other windows. This does not prove visibility, focus, or " ++
        "interactivity; use desktop_snapshot after UI-changing actions. The region may be " ++
        "at most 1,024 pixels on either side and 262,144 pixels total."
      inputSchema := objectWithTarget [("x", within 0 2047), ("y", within 0 2047), ("width", within 1 1024),
        ("height", within 1 1024)] ["x", "y", "width", "height"] } ]

def addContextSchema (s : InputSchema) : InputSchema :=
  ⟨some (s.properties.getD [] ++ [("context", atLeast 1)]), some (s.required.getD [] ++ ["context"])⟩

def buildModernTools : List Tool :=
  buildTools.map (fun tool =>
    if tool.name = "seat_status" then
      { tool with description := "Open one of at most eight Agent Seat contexts and report status; " ++
          "carry the returned context until seat_release, provider failure, or companion exit." }
    else { tool with inputSchema := addContextSchema tool.inputSchema }) ++
  [{ name := "seat_release"
     title := "Release Agent Seat context"
     description := "Release one explicit Agent Seat context when desktop work is complete."
     inputSchema := closed [("context", atLeast 1)] (some ["context"]) }]

inductive Era where
  | legacy | modern
  deriving DecidableEq

def tools : Era → List Tool
  | .legacy => buildTools
  | .modern => buildModernTools

def toolList (era : Era) : Json := .obj [("tools", .arr ((tools era).map Tool.json))]

/-! ## From arguments to calls -/

inductive CallError where
  | unknownTool
  | arguments (message : String)

section Translate

variable (reason : String → Json → String)

/-- The arguments of a tool as a request of the protocol. -/
def readArguments {α : Type} (c : Codec α) (name : String) (arguments : Json) (call : α → Call) :
    Except CallError Call :=
  match c.decode .stream arguments with
  | some request => .ok (call request)
  | none => .error (.arguments (reason name arguments))

def callOf (name : String) (arguments : Json) : Except CallError Call :=
  match name with
  | "seat_status" => readArguments reason Schema.empty name arguments fun _ => .seatStatus
  | "desktop_snapshot" => readArguments reason Schema.empty name arguments fun _ => .desktopSnapshot
  | "events_subscribe" => readArguments reason Schema.subscribeRequest name arguments .eventsSubscribe
  | "events_poll" => readArguments reason Schema.pollRequest name arguments .eventsPoll
  | "client_activate" => readArguments reason Schema.targetRequest name arguments .clientActivate
  | "client_close" => readArguments reason Schema.targetRequest name arguments .clientClose
  | "workspace_switch" => readArguments reason Schema.workspaceRequest name arguments .workspaceSwitch
  | "client_workspace" =>
    readArguments reason Schema.clientWorkspaceRequest name arguments .clientWorkspace
  | "client_state" => readArguments reason Schema.clientStateRequest name arguments .clientState
  | "client_geometry" =>
    readArguments reason Schema.clientGeometryRequest name arguments .clientGeometry
  | "applications_list" =>
    readArguments reason Schema.applicationListRequest name arguments .applicationsList
  | "application_launch" =>
    readArguments reason Schema.applicationLaunchRequest name arguments .applicationLaunch
  | "pointer_move" => readArguments reason Schema.pointerMoveRequest name arguments .pointerMove
  | "pointer_click" => readArguments reason Schema.pointerClickRequest name arguments .pointerClick
  | "keyboard_type" => readArguments reason Schema.keyboardTypeRequest name arguments .keyboardType
  | "keyboard_write" => readArguments reason Schema.keyboardWriteRequest name arguments .keyboardWrite
  | "keyboard_key" => readArguments reason Schema.keyboardKeyRequest name arguments .keyboardKey
  | "text_insert" => readArguments reason Schema.textInsertRequest name arguments .textInsert
  | "capture_obscured" => readArguments reason Schema.targetRequest name arguments .captureObscured
  | "capture_region" => readArguments reason Schema.captureRegionRequest name arguments .captureRegion
  | _ => .error .unknownTool

def translateCall (name : String) (arguments : Option Json) : Except CallError Call := do
  let call ← callOf reason name (arguments.getD (.obj []))
  call.validate.mapError .arguments
  pure call

end Translate

/-! ## Results of tools -/

inductive ToolContent where
  | text (text : String)
  | image (data : String)

structure ToolResult where
  content : List ToolContent
  structuredContent : Json
  isError : Bool

/-- `Value::to_string`. -/
def compact (value : Json) : String := (String.fromUTF8? ⟨value.render.toArray⟩).getD ""

def ToolContent.json : ToolContent → Json
  | .text content => .obj [("type", .str "text"), ("text", .str content)]
  | .image data => .obj [("type", .str "image"), ("data", .str data), ("mimeType", .str "image/png")]

def ToolResult.json (r : ToolResult) : Json :=
  .obj [("content", .arr (r.content.map ToolContent.json)),
    ("structuredContent", r.structuredContent), ("isError", .bool r.isError)]

def ToolResult.withContext (r : ToolResult) (context : Nat) : ToolResult :=
  let structured := match r.structuredContent with
    | .obj members => .obj (Assoc.insert "context" (.num context) members)
    | value => value
  match r.content with
  | .text _ :: rest => ⟨.text (compact structured) :: rest, structured, r.isError⟩
  | content => ⟨content, structured, r.isError⟩

def ToolResult.requiresProviderReconnect (r : ToolResult) : Bool :=
  (((get "body" r.structuredContent).bind (get "retry")).bind asStr).any (· = "reconnect")

def toolResult (structuredContent : Json) (isError : Bool) : ToolResult :=
  ⟨[.text (compact structuredContent)], structuredContent, isError⟩

def toolError (code retry message : String) : ToolResult :=
  toolResult (object [("status", .str "error"), ("body", object [("code", .str code),
    ("retry", .str retry), ("message", .str message)])]) true

/-- A result of status `ok` with a body of some kind. -/
def okBody (kind : String) (value : Json) : Json :=
  object [("status", .str "ok"), ("body", object [("kind", .str kind), ("value", value)])]

def captureInteractivityWarning : String :=
  "Target-owned pixels may be covered by another client and do not prove visibility, " ++
    "focus, or interactivity. Inspect every mutation result. After an action that may " ++
    "open a dialog or window, take desktop_snapshot and handle its active or newly added " ++
    "client before more input."

def captureContent (data : String) : List ToolContent :=
  [.image data, .text captureInteractivityWarning]

def toolOutcome : Outcome → ToolResult
  | .ok (.capture capture) =>
    ⟨captureContent capture.data.asStr, okBody "capture" (object
      [("target", toValue (Schema.targetRequest.encode capture.target)), ("width", .num capture.width),
        ("height", .num capture.height), ("format", Schema.captureFormat.encode capture.format)]),
      false⟩
  | .ok (.captureRegion capture) =>
    ⟨captureContent capture.data.asStr, okBody "capture_region" (object
      [("target", toValue (Schema.targetRequest.encode capture.target)),
        ("region", toValue (Schema.captureRegion.encode capture.region)),
        ("format", Schema.captureFormat.encode capture.format)]), false⟩
  | .ok reply => toolResult (toValue (Schema.outcome.encode (.ok reply))) false
  | .error error => toolResult (toValue (Schema.outcome.encode (.error error))) true

def staticResultTtlMs : Nat := 3600000

def serverInfo : Json :=
  object [("name", .str "agent-seat-mcp"), ("title", .str "Agent Seat"), ("version", .str "0.2.1")]

def modernResult : Json → Json
  | .obj members =>
    .obj (Assoc.insert "_meta" (object [("io.modelcontextprotocol/serverInfo", serverInfo)])
      (Assoc.insert "resultType" (.str "complete") members))
  | value => value

def modernToolResult (r : ToolResult) : Json := modernResult (toValue r.json)

end AgentSeat.Companion
