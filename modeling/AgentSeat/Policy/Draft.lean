/-
  The typed draft of a policy (`PolicyDraft` of `config.rs`) and its edits.

  A draft holds a policy twice: the raw value that was decoded from the text, and the document whose
  formatting and comments are to survive. Every setter writes both, by hand. Here the document is a
  tree of keys and values with comments, the decoder is what `serde` derives for `RawConfig` and its
  parts, and the parser and the printer of the text are parameters.

  A section is a table, in any of the three layouts. The derived decoder also takes a section written
  as an array of its fields; such a source is left out here.
-/
import AgentSeat.Lib.Document
import AgentSeat.Lib.Prog
import AgentSeat.Policy.Replace
import AgentSeat.Proto.Schema
import AgentSeat.Session.Policy

namespace AgentSeat.Policy

open AgentSeat.Lib AgentSeat.Proto AgentSeat.Session AgentSeat.X11

/-! ## Names -/

def clientScopeName : ClientScope → String
  | .none => "none"
  | .currentWorkspace => "current_workspace"
  | .allWorkspaces => "all_workspaces"

def launchModeName : LaunchMode → String
  | .deny => "deny"
  | .allowListed => "allow_listed"
  | .allowInstalled => "allow_installed"

def capabilityName : Capability → String
  | .observeStructure => "observe_structure"
  | .observeTitles => "observe_titles"
  | .observeEvents => "observe_events"
  | .manageActivate => "manage_activate"
  | .manageClose => "manage_close"
  | .manageWorkspace => "manage_workspace"
  | .manageState => "manage_state"
  | .manageGeometry => "manage_geometry"
  | .launchList => "launch_list"
  | .launchExecute => "launch_execute"
  | .inputPointer => "input_pointer"
  | .inputKeyboard => "input_keyboard"
  | .textTransfer => "text_transfer"
  | .captureObscured => "capture_obscured"

/-! ## Decoding -/

def decodeClientScope (node : Node) : Option ClientScope := do
  match ← node.variantName with
  | "none" => pure .none
  | "current_workspace" => pure .currentWorkspace
  | "all_workspaces" => pure .allWorkspaces
  | _ => none

def decodeLaunchMode (node : Node) : Option LaunchMode := do
  match ← node.variantName with
  | "deny" => pure .deny
  | "allow_listed" => pure .allowListed
  | "allow_installed" => pure .allowInstalled
  | _ => none

/-- The variant names are those of the protocol's schema. -/
def decodeCapability (node : Node) : Option Capability := do
  let name ← node.variantName
  Schema.capability.decode .buffer (.str name)

def decodeApplicationId (node : Node) : Option ApplicationId := do
  let text ← node.asText
  (BoundedText.new text).toOption

def decodeBounded {α : Type} {max : Nat} (read : Node → Option α) (node : Node) :
    Option (BoundedList α max) := do
  let values ← node.asList read
  (BoundedList.new values).toOption

def decodeGrant (t : Table) : Option RawGrant := do
  guard (t.onlyKeys ["uid", "capabilities"])
  let uid ← t.required "uid" (Node.asNat (2 ^ 32))
  let capabilities ← t.defaulted "capabilities" .empty (decodeBounded decodeCapability)
  pure ⟨uid, capabilities⟩

def decodeObservation (t : Table) : Option RawObservation := do
  guard (t.onlyKeys ["clients", "titles"])
  let clients ← t.defaulted "clients" .none decodeClientScope
  let titles ← t.defaulted "titles" false Node.asBool
  pure ⟨clients, titles⟩

def decodeLaunch (t : Table) : Option RawLaunch := do
  guard (t.onlyKeys ["mode", "allow", "deny", "allow_user_entries"])
  let mode ← t.defaulted "mode" .deny decodeLaunchMode
  let allow ← t.defaulted "allow" .empty (decodeBounded decodeApplicationId)
  let deny ← t.defaulted "deny" .empty (decodeBounded decodeApplicationId)
  let allowUserEntries ← t.defaulted "allow_user_entries" false Node.asBool
  pure ⟨mode, allow, deny, allowUserEntries⟩

def decodeInput (t : Table) : Option RawInput := do
  guard (t.onlyKeys ["provider_private_devices"])
  let providerPrivateDevices ← t.defaulted "provider_private_devices" false Node.asBool
  pure ⟨providerPrivateDevices⟩

def configKeys : List String :=
  ["enabled", "max_sessions", "max_requests_per_session", "io_timeout_ms", "grant", "observation",
    "launch", "input"]

def decodeConfig (t : Table) : Option RawConfig := do
  guard (t.onlyKeys configKeys)
  let enabled ← t.required "enabled" Node.asBool
  let maxSessions ← t.defaulted "max_sessions" 4 (Node.asNat (2 ^ 8))
  let maxRequestsPerSession ← t.defaulted "max_requests_per_session" 1024 (Node.asNat (2 ^ 16))
  let ioTimeoutMs ← t.defaulted "io_timeout_ms" 2000 (Node.asNat (2 ^ 32))
  let grant ← t.defaulted "grant" none (Node.asTable fun g => (decodeGrant g).map some)
  let observation ← t.defaulted "observation" {} (Node.asTable decodeObservation)
  let launch ← t.defaulted "launch" {} (Node.asTable decodeLaunch)
  let input ← t.defaulted "input" {} (Node.asTable decodeInput)
  pure ⟨enabled, maxSessions, maxRequestsPerSession, ioTimeoutMs, grant, observation, launch, input⟩

/-! ## Sources and drafts -/

/-- The text format: its parser, its printer, and what it says about a document that does not
    decode. -/
structure Toml where
  parse : String → Except String Table
  print : Table → String
  refusal : String → String

structure PolicyDraft where
  raw : RawConfig
  document : Table

section Drafts

variable (toml : Toml) (euid : UInt32)

def fromStr (source : String) : Except String RawConfig := do
  let document ← toml.parse source
  match decodeConfig document with
  | some raw => pure raw
  | none => throw (toml.refusal source)

def validateSource (source : String) : Except String (Bool × Config × RawConfig) := do
  refuseIf (source.utf8ByteSize > maxConfigBytes)
    ("candidate exceeds the " ++ toString maxConfigBytes ++ "-byte configuration bound")
  let raw ← fromStr toml source
  let config ← raw.validate euid.toNat
  pure (raw.enabled, config, raw)

/-- The draft of a source that `Config::read` accepts. -/
def readDraft (source : String) : Except String PolicyDraft := do
  let validated ← validateSource toml euid source
  let document ← toml.parse source
  pure ⟨validated.2.2, document⟩

def PolicyDraft.render (self : PolicyDraft) : Except String String := do
  let source := toml.print self.document
  let _ ← validateSource toml euid source
  pure source

end Drafts

/-! ## Setters -/

/-- Why a setter does not return: it refuses the edit, or the document has no place for a value. -/
inductive Stop where
  | refused (message : String)
  | panicked
  deriving DecidableEq

abbrev DM := Prog PolicyDraft Stop

def onDocument (f : Table → Table) : DM Unit :=
  Prog.update fun d => { d with document := f d.document }

/-- `self.document[inner][key] = node`. -/
def writeIn (inner key : String) (node : Node) : DM Unit := do
  let document ← Prog.read PolicyDraft.document
  match document.assignIn inner key node with
  | some written => onDocument fun _ => written
  | none => Prog.fail .panicked

def ensureTable (name : String) : DM Unit := onDocument (Table.ensure name (.table .header []))

def stringArray {α : Type} (display : α → String) (values : List α) : Node :=
  .array (values.map fun a => .text (display a))

section Setters

variable (euid : UInt32)

def replaceIfValid (candidate : RawConfig) : DM Unit := do
  let _ ← Prog.lift ((candidate.validate euid.toNat).mapError Stop.refused)
  Prog.update fun d => { d with raw := candidate }

def bounded {α : Type} {max : Nat} (values : List α) : DM (BoundedList α max) :=
  Prog.lift ((BoundedList.new values).mapError fun error => .refused error.display)

def setEnabled (enabled : Bool) : DM Unit := do
  Prog.update fun d => { d with raw := { d.raw with enabled := enabled } }
  onDocument (Table.assign "enabled" (.bool enabled))

def setResourceLimits (maxSessions : UInt8) (maxRequestsPerSession : UInt16)
    (ioTimeoutMs : UInt32) : DM Unit := do
  let raw ← Prog.read PolicyDraft.raw
  replaceIfValid euid { raw with
    maxSessions := maxSessions.toNat
    maxRequestsPerSession := maxRequestsPerSession.toNat
    ioTimeoutMs := ioTimeoutMs.toNat }
  onDocument (Table.assign "max_sessions" (.integer maxSessions.toNat))
  onDocument (Table.assign "max_requests_per_session" (.integer maxRequestsPerSession.toNat))
  onDocument (Table.assign "io_timeout_ms" (.integer ioTimeoutMs.toNat))

def PolicyDraft.capabilities (self : PolicyDraft) : List Capability :=
  match self.raw.grant with
  | some grant => grant.capabilities.asSlice
  | none => []

def setCapabilities (capabilities : List Capability) : DM Unit := do
  let capabilities ← bounded capabilities
  let raw ← Prog.read PolicyDraft.raw
  replaceIfValid euid { raw with grant := some ⟨euid.toNat, capabilities⟩ }
  ensureTable "grant"
  writeIn "grant" "uid" (.integer euid.toNat)
  let rendered ← Prog.read PolicyDraft.capabilities
  writeIn "grant" "capabilities" (stringArray capabilityName rendered)

def clearGrant : DM Unit := do
  Prog.update fun d => { d with raw := { d.raw with grant := none } }
  onDocument (Table.remove "grant")

def setObservation (clients : ClientScope) (titles : Bool) : DM Unit := do
  let raw ← Prog.read PolicyDraft.raw
  replaceIfValid euid { raw with observation := ⟨clients, titles⟩ }
  ensureTable "observation"
  writeIn "observation" "clients" (.text (clientScopeName clients))
  writeIn "observation" "titles" (.bool titles)

def PolicyDraft.launchAllow (self : PolicyDraft) : List ApplicationId := self.raw.launch.allow.asSlice
def PolicyDraft.launchDeny (self : PolicyDraft) : List ApplicationId := self.raw.launch.deny.asSlice

def setLaunch (mode : LaunchMode) (allow deny : List ApplicationId) (allowUserEntries : Bool) :
    DM Unit := do
  let allow ← bounded allow
  let deny ← bounded deny
  let raw ← Prog.read PolicyDraft.raw
  replaceIfValid euid { raw with launch := ⟨mode, allow, deny, allowUserEntries⟩ }
  ensureTable "launch"
  writeIn "launch" "mode" (.text (launchModeName mode))
  let allowed ← Prog.read PolicyDraft.launchAllow
  writeIn "launch" "allow" (stringArray BoundedText.asStr allowed)
  let denied ← Prog.read PolicyDraft.launchDeny
  writeIn "launch" "deny" (stringArray BoundedText.asStr denied)
  writeIn "launch" "allow_user_entries" (.bool allowUserEntries)

/-- The lists and the gate stay as they are. -/
def setLaunchMode (mode : LaunchMode) : DM Unit := do
  let d ← Prog.read id
  setLaunch euid mode d.launchAllow d.launchDeny d.raw.launch.allowUserEntries

/-! ## Edits -/

inductive Edit where
  | setEnabled (enabled : Bool)
  | setResourceLimits (maxSessions : UInt8) (maxRequestsPerSession : UInt16) (ioTimeoutMs : UInt32)
  | setCapabilities (capabilities : List Capability)
  | clearGrant
  | setObservation (clients : ClientScope) (titles : Bool)
  | setLaunchMode (mode : LaunchMode)
  | setLaunch (mode : LaunchMode) (allow deny : List ApplicationId) (allowUserEntries : Bool)

def PolicyDraft.edit : Edit → DM Unit
  | .setEnabled enabled => Policy.setEnabled enabled
  | .setResourceLimits maxSessions maxRequestsPerSession ioTimeoutMs =>
    Policy.setResourceLimits euid maxSessions maxRequestsPerSession ioTimeoutMs
  | .setCapabilities capabilities => Policy.setCapabilities euid capabilities
  | .clearGrant => Policy.clearGrant
  | .setObservation clients titles => Policy.setObservation euid clients titles
  | .setLaunchMode mode => Policy.setLaunchMode euid mode
  | .setLaunch mode allow deny allowUserEntries =>
    Policy.setLaunch euid mode allow deny allowUserEntries

/-- A draft after a sequence of edits, refused ones included. -/
def PolicyDraft.edited (edits : List Edit) (d : PolicyDraft) : PolicyDraft :=
  edits.foldl (fun d edit => (PolicyDraft.edit euid edit d).2) d

end Setters

end AgentSeat.Policy
