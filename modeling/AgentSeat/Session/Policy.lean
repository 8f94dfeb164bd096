/-
  The provider policy (`config.rs`): what the operator's file says, the checks it passes before a
  provider runs on it, and what it grants to a peer.

  A peer gets at most what it asks for: the granted list is the part of the requested list that the
  policy has. The dependencies between capabilities are checked here for the policy; nothing in
  `granted` checks them again for the part that a peer asked for.
-/
import AgentSeat.X11.Scan

namespace AgentSeat.Session

open AgentSeat.Proto AgentSeat.X11

def maxSessions : Nat := 32
def maxRequests : Nat := 4096
def minIoTimeoutMs : Nat := 50
def maxIoTimeoutMs : Nat := 10000
def maxPolicyCapabilities : Nat := 14

inductive LaunchMode where
  | deny | allowListed | allowInstalled
  deriving DecidableEq

/-! ## The policy as it is written -/

structure RawGrant where
  uid : Nat
  capabilities : BoundedList Capability maxPolicyCapabilities

structure RawObservation where
  clients : ClientScope := .none
  titles : Bool := false

structure RawLaunch where
  mode : LaunchMode := .deny
  allow : BoundedList ApplicationId maxApplications := .empty
  deny : BoundedList ApplicationId maxApplications := .empty
  allowUserEntries : Bool := false

structure RawInput where
  providerPrivateDevices : Bool := false

structure RawConfig where
  enabled : Bool
  maxSessions : Nat := 4
  maxRequestsPerSession : Nat := 1024
  ioTimeoutMs : Nat := 2000
  grant : Option RawGrant := none
  observation : RawObservation := {}
  launch : RawLaunch := {}
  input : RawInput := {}

/-! ## The policy a provider runs on -/

structure Grant where
  uid : Nat
  capabilities : BoundedList Capability maxPolicyCapabilities

structure ObservationPolicy where
  clients : ClientScope
  titles : Bool

structure LaunchPolicy where
  mode : LaunchMode
  allow : BoundedList ApplicationId maxApplications
  deny : BoundedList ApplicationId maxApplications
  allowUserEntries : Bool

structure InputPolicy where
  providerPrivateDevices : Bool

structure Config where
  maxSessions : Nat
  maxRequests : Nat
  ioTimeoutMs : Nat
  grant : Option Grant
  observation : ObservationPolicy
  launch : LaunchPolicy
  input : InputPolicy

/-- What of the requested capabilities the peer with this UID gets, in the order it asked. -/
def Config.granted (config : Config) (uid : Nat) (requested : List Capability) :
    Option (List Capability) :=
  (config.grant.filter fun grant => grant.uid = uid).map fun grant =>
    requested.filter fun capability => grant.capabilities.asSlice.contains capability

def LaunchPolicy.allowsAny (policy : LaunchPolicy) : Bool :=
  match policy.mode with
  | .deny => false
  | .allowListed => !policy.allow.asSlice.isEmpty
  | .allowInstalled => true

def LaunchPolicy.permits (policy : LaunchPolicy) (application : ApplicationId) (userEntry : Bool) :
    Bool :=
  if userEntry && !policy.allowUserEntries || policy.deny.asSlice.contains application then false
  else
    match policy.mode with
    | .deny => false
    | .allowListed => policy.allow.asSlice.contains application
    | .allowInstalled => true

/-- A policy that allows nothing permits nothing. -/
theorem LaunchPolicy.permits_allowsAny {policy : LaunchPolicy} {application : ApplicationId}
    {userEntry : Bool} (h : policy.permits application userEntry = true) :
    policy.allowsAny = true := by
  unfold permits at h
  unfold allowsAny
  split at h
  · simp at h
  · cases hmode : policy.mode with
    | deny => simp [hmode] at h
    | allowListed =>
      simp only [hmode, List.contains_iff_mem] at h
      simp [List.ne_nil_of_mem h]
    | allowInstalled => rfl

/-! ## Validation -/

def isManagement : Capability → Bool
  | .manageActivate | .manageClose | .manageWorkspace | .manageState | .manageGeometry => true
  | _ => false

def isInput : Capability → Bool
  | .inputPointer | .inputKeyboard | .textTransfer => true
  | _ => false

def RawGrant.validate (self : RawGrant) (providerUid : Nat) : Except String Grant := do
  let capabilities := self.capabilities.asSlice
  refuseIf (self.uid ≠ providerUid)
    ("grant.uid must equal the provider's effective UID " ++ toString providerUid)
  refuseIf (capabilities.zipIdx.any fun c => (capabilities.take c.2).contains c.1)
    "grant capabilities must not contain duplicates"
  refuseIf (capabilities.contains .observeTitles ∧ ¬ capabilities.contains .observeStructure)
    "observe_titles requires observe_structure"
  refuseIf (capabilities.contains .observeEvents ∧ ¬ capabilities.contains .observeStructure)
    "observe_events requires observe_structure"
  refuseIf (capabilities.any isManagement ∧ ¬ capabilities.contains .observeStructure)
    "management capabilities require observe_structure"
  refuseIf (capabilities.contains .launchExecute ∧ ¬ capabilities.contains .launchList)
    "launch_execute requires launch_list"
  refuseIf (capabilities.any isInput ∧ ¬ capabilities.contains .observeStructure)
    "input and text-transfer capabilities require observe_structure"
  refuseIf (capabilities.contains .captureObscured ∧ ¬ capabilities.contains .observeStructure)
    "capture_obscured requires observe_structure"
  pure ⟨self.uid, self.capabilities⟩

/-- A desktop id ends in `.desktop` and names no path. -/
def isCanonicalDesktopId (application : ApplicationId) : Bool :=
  !application.asStr.toList.isEmpty &&
    ".desktop".toList.isSuffixOf application.asStr.toList &&
    !application.asStr.toList.any fun c => c == '/' || c == '\x00'

/-- The loop of `validate_application_ids`; `seen` are the ids before this one. -/
def checkApplicationIds (field : String) (seen : List ApplicationId) :
    List ApplicationId → Except String Unit
  | [] => .ok ()
  | application :: rest =>
    if !isCanonicalDesktopId application then
      .error (field ++ " contains a non-canonical desktop ID")
    else if seen.contains application then
      .error (field ++ " must not contain duplicates")
    else checkApplicationIds field (seen ++ [application]) rest

def validateApplicationIds (field : String) (applications : List ApplicationId) :
    Except String Unit :=
  checkApplicationIds field [] applications

def RawLaunch.validate (self : RawLaunch) : Except String LaunchPolicy := do
  validateApplicationIds "launch.allow" self.allow.asSlice
  validateApplicationIds "launch.deny" self.deny.asSlice
  refuseIf (self.allow.asSlice.any fun application => self.deny.asSlice.contains application)
    "launch.allow and launch.deny must not overlap"
  pure ⟨self.mode, self.allow, self.deny, self.allowUserEntries⟩

def RawInput.validate (self : RawInput) : Except String InputPolicy :=
  .ok ⟨self.providerPrivateDevices⟩

def validateGrant (providerUid : Nat) : Option RawGrant → Except String (Option Grant)
  | none => .ok none
  | some grant => do
    let grant ← grant.validate providerUid
    pure (some grant)

def RawConfig.validate (self : RawConfig) (providerUid : Nat) : Except String Config := do
  refuseIf (self.maxSessions = 0 ∨ self.maxSessions > Session.maxSessions)
    ("max_sessions must be in 1..=" ++ toString Session.maxSessions)
  refuseIf (self.maxRequestsPerSession = 0 ∨ self.maxRequestsPerSession > Session.maxRequests)
    ("max_requests_per_session must be in 1..=" ++ toString Session.maxRequests)
  refuseIf (self.ioTimeoutMs < minIoTimeoutMs ∨ self.ioTimeoutMs > maxIoTimeoutMs)
    ("io_timeout_ms must be in " ++ toString minIoTimeoutMs ++ "..=" ++ toString maxIoTimeoutMs)
  let grant ← validateGrant providerUid self.grant
  let input ← self.input.validate
  let launch ← self.launch.validate
  pure ⟨self.maxSessions, self.maxRequestsPerSession, self.ioTimeoutMs, grant,
    ⟨self.observation.clients, self.observation.titles⟩, launch, input⟩

/-! ## What a validated policy guarantees -/

theorem RawConfig.validate_maxRequests {raw : RawConfig} {providerUid : Nat} {config : Config}
    (h : raw.validate providerUid = .ok config) :
    0 < config.maxRequests ∧ config.maxRequests ≤ Session.maxRequests := by
  unfold RawConfig.validate at h
  obtain ⟨-, -, h⟩ := Lib.except_bind_ok h
  obtain ⟨_, hrequests, h⟩ := Lib.except_bind_ok h
  obtain ⟨-, -, h⟩ := Lib.except_bind_ok h
  obtain ⟨grant, -, h⟩ := Lib.except_bind_ok h
  obtain ⟨input, -, h⟩ := Lib.except_bind_ok h
  obtain ⟨launch, -, h⟩ := Lib.except_bind_ok h
  have hrange := refuseIf_ok hrequests
  rw [← Except.ok.inj h]
  dsimp only
  omega

end AgentSeat.Session
