/-
  The review bundle of an enrollment (`agent-seat-activity-enroll.rs`, `build_bundle`).

  The units are their sources with one mark after the other replaced. What goes into them is a user
  ID, a session name, names made from these, and the paths of event nodes: nothing in it could be
  taken for another mark or for the end of a line, so each unit is its source with every place filled
  (`renderUnit_filled`).
-/
import AgentSeat.Broker.Inspect
import AgentSeat.Broker.Units

namespace AgentSeat.Broker

open AgentSeat.Lib AgentSeat.Lib.Json AgentSeat.Lib.Paths AgentSeat.Lib.Text AgentSeat.Lib.Template

/-! ## Options -/

/-- A session name as the command line accepts it. -/
def validSession (session : Bytes) : Bool :=
  session ≠ [] && session.length ≤ 64 && session.all Properties.isPlain

structure BundleOptions where
  uid : Nat
  uid_pos : 0 < uid
  uid_lt : uid < 2 ^ 32
  session : Bytes
  session_valid : validSession session = true

/-! ## Names -/

def brokerStem (uid : Nat) : Bytes := ascii "agent-seat-activity-broker-" ++ digits uid
def guardStem (uid : Nat) : Bytes := ascii "agent-seat-eligibility-guard-" ++ digits uid
def brokerServiceName (uid : Nat) : Bytes := brokerStem uid ++ ascii ".service"
def brokerSocketName (uid : Nat) : Bytes := brokerStem uid ++ ascii ".socket"
def guardServiceName (uid : Nat) : Bytes := guardStem uid ++ ascii ".service"
def guardSocketName (uid : Nat) : Bytes := guardStem uid ++ ascii ".socket"

def runtimeDirectory (uid : Nat) : Bytes := ascii "/run/agent-seat/" ++ digits uid
def brokerSocketPath (uid : Nat) : Bytes := runtimeDirectory uid ++ ascii "/activity.sock"
def eligibilitySocketPath (uid : Nat) : Bytes := runtimeDirectory uid ++ ascii "/eligibility.sock"
def enrollmentPath (uid : Nat) : Bytes := ascii "/etc/agent-seat/activity/" ++ digits uid
def installedInputSetPath (uid : Nat) : Bytes := enrollmentPath uid ++ ascii "/initial-input-set.v1"
def installedDeviceSetPath (uid : Nat) : Bytes := enrollmentPath uid ++ ascii "/enrolled-device-set.v1"

def brokerExec : Bytes := ascii "/usr/bin/agent-seat-activity-broker"
def guardExec : Bytes := ascii "/usr/bin/agent-seat-eligibility-guard"
def guardUser : Bytes := ascii "agent-seat-guard"

/-! ## Units -/

/-- What the manager is to open for a device: its node, under the name `event{index}`. -/
def openFileValue (node : Bytes) (index : Nat) : Bytes :=
  node ++ 58 :: (eventName index ++ ascii ":read-only")

def eventOpenFiles (devices : List InspectedDevice) : Bytes :=
  [10].intercalate (devices.zipIdx.map fun (device, index) =>
    ascii "OpenFile=" ++ openFileValue device.deviceNode index)

def eventDeviceAllow (devices : List InspectedDevice) : Bytes :=
  [10].intercalate (devices.map fun device => ascii "DeviceAllow=" ++ (device.deviceNode ++ ascii " r"))

def brokerServiceValues (uid : Nat) (devices : List InspectedDevice) : List (Bytes × Bytes) :=
  [(ascii "SOCKET_UNIT", brokerSocketName uid),
    (ascii "ELIGIBILITY_SOCKET_UNIT", guardSocketName uid),
    (ascii "BROKER_EXEC", brokerExec),
    (ascii "PROVIDER_UID", digits uid),
    (ascii "ELIGIBILITY_PATH", eligibilitySocketPath uid),
    (ascii "DEVICE_SET_PATH", installedDeviceSetPath uid),
    (ascii "EVENT_OPEN_FILES", eventOpenFiles devices),
    (ascii "EVENT_DEVICE_ALLOW", eventDeviceAllow devices)]

def brokerSocketValues (uid : Nat) : List (Bytes × Bytes) :=
  [(ascii "BROKER_SOCKET", brokerSocketPath uid), (ascii "PROVIDER_UID", digits uid)]

def guardServiceValues (uid : Nat) (session : Bytes) : List (Bytes × Bytes) :=
  [(ascii "ELIGIBILITY_SOCKET_UNIT", guardSocketName uid),
    (ascii "GUARD_EXEC", guardExec),
    (ascii "GUARD_USER", guardUser),
    (ascii "SESSION_ID", session),
    (ascii "PROVIDER_UID", digits uid),
    (ascii "INPUT_SET_PATH", installedInputSetPath uid)]

def guardSocketValues (uid : Nat) : List (Bytes × Bytes) :=
  [(ascii "ELIGIBILITY_SOCKET", eligibilitySocketPath uid),
    (ascii "ELIGIBILITY_SERVICE_UNIT", guardServiceName uid)]

/-- A source with its marks replaced one after the other. -/
def renderUnit (lines : List Bytes) (values : List (Bytes × Bytes)) : Bytes :=
  replaceAll 64 values (unlines 10 lines)

def markNames : List Bytes :=
  ["SOCKET_UNIT", "ELIGIBILITY_SOCKET_UNIT", "BROKER_EXEC", "PROVIDER_UID", "ELIGIBILITY_PATH",
    "EVENT_OPEN_FILES", "EVENT_DEVICE_ALLOW", "DEVICE_SET_PATH", "BROKER_SOCKET", "GUARD_EXEC",
    "GUARD_USER", "SESSION_ID", "INPUT_SET_PATH", "ELIGIBILITY_SOCKET",
    "ELIGIBILITY_SERVICE_UNIT"].map ascii

def containsText (pattern text : Bytes) : Bool := text.tails.any pattern.isPrefixOf

def unresolved (text : Bytes) : Bool := markNames.any fun name => containsText (marked 64 name) text

/-! ## The review record -/

def identityStrength (identity : DeviceIdentity) : Bytes :=
  if identity.serial.isSome then ascii "serial" else ascii "topology"

def reviewHead (options : BundleOptions) (inspection : InspectedInputSet) : List Bytes :=
  [ascii "AGENT SEAT EXPERIMENTAL INPUT REVIEW BUNDLE",
    [],
    ascii "review_only=true",
    ascii "supported=false",
    ascii "seat=" ++ supportedSeat,
    ascii "provider_uid=" ++ digits options.uid,
    ascii "session=" ++ options.session,
    ascii "device_count=" ++ digits inspection.devices.length,
    ascii "complete_input_class_count=" ++ digits inspection.mappings.length,
    ascii "input_set_file=initial-input-set.v1",
    ascii "device_set_file=enrolled-device-set.v1",
    ascii "installed_input_set=" ++ installedInputSetPath options.uid,
    [],
    ascii "This directory was generated without elevated privilege. It was not",
    ascii "installed, enabled, or started. Generic Openbox input remains gated on",
    ascii "a trusted lock transition and the documented hostile deployment tests.",
    [],
    ascii "units:",
    ascii "  " ++ brokerServiceName options.uid,
    ascii "  " ++ brokerSocketName options.uid,
    ascii "  " ++ guardServiceName options.uid,
    ascii "  " ++ guardSocketName options.uid]

def reviewDevice (device : InspectedDevice) : List Bytes :=
  [[],
    ascii "device=" ++ device.deviceNode,
    ascii "sysfs=" ++ device.sysfsPath,
    ascii "classes=" ++ [44].intercalate device.classes,
    ascii "identity_strength=" ++ identityStrength device.identity,
    ascii "coverage_evidence=topology+capabilities"]

def reviewTail : List Bytes :=
  [[],
    ascii "The desktop user and dynamic broker require no input-group membership.",
    ascii "PID 1 would open only the listed event nodes and pass read-only FDs."]

def renderReview (options : BundleOptions) (inspection : InspectedInputSet) : Bytes :=
  unlines 10 (reviewHead options inspection ++ inspection.devices.flatMap reviewDevice ++ reviewTail)

/-! ## The bundle -/

structure RenderedFile where
  name : Bytes
  contents : Bytes
  deriving DecidableEq

structure RenderedBundle where
  files : List RenderedFile

def enroll (device : InspectedDevice) : Option EnrolledDevice :=
  (EnrolledDevice.new device.eventNumber device.sysfsPath device.classes device.identity
    device.capabilities).toOption

def buildBundle (options : BundleOptions) (inspection : InspectedInputSet) : Option RenderedBundle :=
  let devices := inspection.devices
  if devices = [] ∨ devices.length > maxEventDescriptors then none
  else
    let brokerService := renderUnit brokerServiceLines (brokerServiceValues options.uid devices)
    let brokerSocket := renderUnit brokerSocketLines (brokerSocketValues options.uid)
    let guardService :=
      renderUnit guardServiceLines (guardServiceValues options.uid options.session)
    let guardSocket := renderUnit guardSocketLines (guardSocketValues options.uid)
    if [brokerService, brokerSocket, guardService, guardSocket].any unresolved then none
    else do
      let review := renderReview options inspection
      let inputSet ← (encodeInputSet inspection.mappings).toOption
      let enrolledDevices ← devices.mapM enroll
      let deviceSet ← (encodeDeviceSet enrolledDevices).toOption
      return ⟨[⟨brokerServiceName options.uid, brokerService⟩,
        ⟨brokerSocketName options.uid, brokerSocket⟩,
        ⟨guardServiceName options.uid, guardService⟩,
        ⟨guardSocketName options.uid, guardSocket⟩,
        ⟨ascii "initial-input-set.v1", inputSet⟩,
        ⟨ascii "enrolled-device-set.v1", deviceSet⟩,
        ⟨ascii "REVIEW.txt", review⟩]⟩

end AgentSeat.Broker
