/-
  Looking at the input devices of a machine: the enrollment tool's inspection and the guard's scan
  (`agent-seat-activity-enroll.rs`, `agent-seat-eligibility-guard.rs`).

  Both read the directory of the kernel's input class. The tool passes over names that are no event
  name, the guard refuses one that begins like an event name; the tool asks udev for the path of an
  event, the guard resolves the link itself. A machine is what they may find; what fails, and with
  which text, is left out.
-/
import AgentSeat.Broker.DeviceSet
import Mathlib.Data.List.Sort

namespace AgentSeat.Broker

open AgentSeat.Lib AgentSeat.Lib.Json AgentSeat.Lib.Paths AgentSeat.Lib.Text

/-! ## The machine -/

structure Node where
  charDevice : Bool
  rdev : Nat

/-- What there is to find: the names in the input class, which of them are links and what they
    resolve to, the device nodes, the answers of udev, and the attributes of a class entry that are
    direct files. -/
structure Machine where
  classNames : Option (List Bytes)
  isSymlink : Bytes → Bool
  canonicalize : Bytes → Option Bytes
  deviceNode : Nat → Option Node
  udevProperties : Nat → Option Bytes
  udevPath : Nat → Option Bytes
  sysfsAttribute : Bytes → Bytes → Option Bytes

/-- `event_number` of the enrollment tool. -/
def eventNumber (name : Bytes) : Option Nat := do
  if !validUtf8 name then none
  else do
    let number ← (ascii "event").isPrefixOf? name
    if number = [] ∨ !number.all isDigit then none
    else do
      let parsed ← parseU32 number
      if digits parsed = number then some parsed else none

/-- `event_number` of the guard. -/
def guardEventNumber (name : Bytes) : Option Nat := do
  if !validUtf8 name then none
  else do
    let value ← (ascii "event").isPrefixOf? name
    if value = [] ∨ !value.all isDigit then none
    else do
      let number ← parseU32 value
      if name = eventName number then some number else none

/-! ## Properties -/

def maxUdevOutputBytes : Nat := 16 * 1024
def maxSysfsPathBytes : Nat := 4 * 1024
def maxSysfsCapabilityBytes : Nat := 4 * 1024
def supportedSeat : Bytes := ascii "seat0"

def propertyNames : List Bytes :=
  ["ID_BUS", "ID_INPUT", "ID_INPUT_KEY", "ID_INPUT_KEYBOARD", "ID_INPUT_MOUSE", "ID_INPUT_TOUCHPAD",
    "ID_INPUT_TOUCHSCREEN", "ID_INPUT_TABLET", "ID_MODEL_ID", "ID_PATH", "ID_REVISION", "ID_SEAT",
    "ID_SERIAL_SHORT", "ID_VENDOR_ID"].map ascii

abbrev Properties := List (Bytes × Bytes)

namespace Properties

def parseLines (properties : Properties) : List Bytes → Option Properties
  | [] => some properties
  | line :: lines =>
    if line = [] then parseLines properties lines
    else do
      let (name, value) ← splitOnce 61 line
      if !propertyNames.contains name || (properties.lookup name).isSome then none
      else parseLines ((name, value) :: properties) lines

def parse (output : Bytes) : Option Properties :=
  if output.length > maxUdevOutputBytes || !validUtf8 output then none
  else parseLines [] (strLines output)

variable (properties : Properties)

def get (name : String) : Option Bytes := properties.lookup (ascii name)

def flag (name : String) : Option Bool :=
  match properties.get name with
  | none => some false
  | some value => if value = [49] then some true else none

/-- The characters of the name of a seat or of a session. -/
def isPlain (byte : UInt8) : Bool :=
  within 0x30 0x39 byte || within 0x41 0x5a byte || within 0x61 0x7a byte ||
    (ascii "_.-").contains byte

def seat : Option Bytes :=
  let seat := (properties.get "ID_SEAT").getD supportedSeat
  if seat = [] ∨ seat.length > 64 ∨ !seat.all isPlain then none else some seat

def classLabels : List (String × String) :=
  [("ID_INPUT_KEY", "key"), ("ID_INPUT_KEYBOARD", "keyboard"), ("ID_INPUT_MOUSE", "mouse"),
    ("ID_INPUT_TOUCHPAD", "touchpad"), ("ID_INPUT_TOUCHSCREEN", "touchscreen"),
    ("ID_INPUT_TABLET", "tablet")]

def relevantClasses : Option (List Bytes) := do
  if !(← properties.flag "ID_INPUT") then some []
  else
    let labels ← classLabels.mapM fun (property, label) => do
      return if ← properties.flag property then [ascii label] else []
    some labels.flatten

def identity : Option DeviceIdentity := do
  let path ← properties.get "ID_PATH"
  (DeviceIdentity.new path (properties.get "ID_BUS") (properties.get "ID_VENDOR_ID")
    (properties.get "ID_MODEL_ID") (properties.get "ID_REVISION")
    (properties.get "ID_SERIAL_SHORT")).toOption

end Properties

/-- `strip_suffix('\n')`, if there is one. -/
def stripLineEnd (text : Bytes) : Bytes := if text.getLast? = some 10 then text.dropLast else text

/-- The path udev reports, below `/sys`. What follows the root keeps its text, without separators and
    dots at its end. -/
def parseSysfsPath (output : Bytes) : Option Bytes :=
  let value := stripLineEnd output
  let pieces := (value.drop 1).splitOn 47
  let relative := [47].intercalate
    (pieces.reverse.dropWhile fun piece => piece = [] ∨ piece = [46]).reverse
  if output.length > maxSysfsPathBytes ∨ !validUtf8 output ∨ value = [] ∨ value.contains 10 ∨
      !(ascii "/devices/").isPrefixOf value ∨
      !(components relative).all (fun | .normal _ => true | _ => false) then none
  else some (ascii "/sys/" ++ relative)

def capabilityNames : List Bytes :=
  ["capabilities/abs", "capabilities/ev", "capabilities/ff", "capabilities/key", "capabilities/led",
    "capabilities/msc", "capabilities/rel", "capabilities/snd", "capabilities/sw",
    "properties"].map ascii

def readSysfsValue (m : Machine) (name relative : Bytes) : Option Bytes := do
  let bytes ← m.sysfsAttribute name relative
  let value := stripLineEnd bytes
  if bytes.length > maxSysfsCapabilityBytes ∨ !validUtf8 bytes ∨ value.contains 10 then none
  else some value

def readDeviceCapabilities (m : Machine) (name : Bytes) : Option DeviceCapabilities := do
  let values ← capabilityNames.mapM (readSysfsValue m name)
  (DeviceCapabilities.new values).toOption

/-! ## The inspection -/

structure InspectedDevice where
  eventNumber : Nat
  deviceNode : Bytes
  sysfsPath : Bytes
  classes : List Bytes
  identity : DeviceIdentity
  capabilities : DeviceCapabilities
  deviceId : Nat

structure InspectedInputSet where
  mappings : List InputClassMapping
  devices : List InspectedDevice

structure ObservedInputEvent where
  mapping : InputClassMapping
  deviceId : Nat

/-- `/dev/input/event{number}`. -/
def nodePath (number : Nat) : Bytes := ascii "/dev/input/" ++ eventName number

/-- One round of the loop of `inspect_devices`: the event, and a device if it is relevant. -/
def inspectEvent (m : Machine) (number : Nat) (name : Bytes) :
    Option (ObservedInputEvent × Option InspectedDevice) := do
  let node ← m.deviceNode number
  if !node.charDevice then none
  else do
    let canonicalClass ← m.canonicalize name
    let properties ← (m.udevProperties number).bind Properties.parse
    let capabilities ← readDeviceCapabilities m name
    let reportedSysfs ← (m.udevPath number).bind parseSysfsPath
    if !decide (SamePath canonicalClass reportedSysfs) then none
    else do
      let mapping ← (InputClassMapping.new number reportedSysfs).toOption
      let classes ← properties.relevantClasses
      let seat ← properties.seat
      if seat = supportedSeat ∧ classes ≠ [] then do
        let identity ← properties.identity
        some (⟨mapping, node.rdev⟩, some ⟨number, nodePath number, reportedSysfs, classes, identity,
          capabilities, node.rdev⟩)
      else some (⟨mapping, node.rdev⟩, none)

def inspectEvents (m : Machine) : List InspectedDevice → List ObservedInputEvent →
    List (Nat × Bytes) → Option (List InspectedDevice × List ObservedInputEvent)
  | devices, observed, [] => some (devices, observed)
  | devices, observed, (number, name) :: entries => do
    let (event, device) ← inspectEvent m number name
    if device.isSome ∧ devices.length ≥ maxEventDescriptors then none
    else inspectEvents m (devices ++ device.toList) (observed ++ [event]) entries

/-- Nothing about an event has changed at the end of the inspection. -/
def recheckEvent (m : Machine) (event : ObservedInputEvent) : Bool :=
  match m.deviceNode event.mapping.eventNumber, m.canonicalize (eventName event.mapping.eventNumber) with
  | some node, some canonicalClass => node.charDevice && node.rdev = event.deviceId &&
      decide (SamePath canonicalClass event.mapping.sysfsPath)
  | _, _ => false

def recheckDevice (m : Machine) (device : InspectedDevice) : Bool :=
  match (m.udevProperties device.eventNumber).bind Properties.parse with
  | none => false
  | some properties => properties.seat = some supportedSeat &&
      properties.relevantClasses = some device.classes &&
      properties.identity = some device.identity &&
      readDeviceCapabilities m (eventName device.eventNumber) = some device.capabilities

def sortEventEntries {α : Type} (entries : List (Nat × α)) : List (Nat × α) :=
  entries.insertionSort fun entry other => entry.1 ≤ other.1

def eventEntries (names : List Bytes) : List (Nat × Bytes) :=
  names.filterMap fun name => (eventNumber name).map fun number => (number, name)

def inspectDevices (m : Machine) : Option InspectedInputSet := do
  let names ← m.classNames
  let entries := eventEntries names
  if entries.length > maxInputClassMappings then none
  else do
    let (devices, observed) ← inspectEvents m [] [] (sortEventEntries entries)
    if devices = [] ∨ !observed.all (recheckEvent m) ∨ !devices.all (recheckDevice m) then none
    else some ⟨observed.map (·.mapping), devices⟩

/-! ## The scan of the guard -/

def inspectInputClassEntries (m : Machine) : List (Nat × Bytes) → List Bytes → Option (List (Nat × Bytes))
  | raw, [] => some (sortEventEntries raw)
  | raw, name :: names =>
    if !(ascii "event").isPrefixOf name then inspectInputClassEntries m raw names
    else do
      let number ← guardEventNumber name
      if raw.length ≥ maxInputClassMappings ∨ !m.isSymlink name then none
      else do
        let canonical ← m.canonicalize name
        inspectInputClassEntries m (raw ++ [(number, canonical)]) names

/-- `inspect_input_class` on a listing of the directory. -/
def inspectInputClass (m : Machine) (names : List Bytes) : Option (List InputClassMapping) := do
  let raw ← inspectInputClassEntries m [] names
  let mappings ← raw.mapM fun entry => (InputClassMapping.new entry.1 entry.2).toOption
  if mappings = [] then none else some mappings

/-! ## Event names -/

theorem eventNumber_some {name : Bytes} {number : Nat} (h : eventNumber name = some number) :
    name = eventName number := by
  unfold eventNumber at h
  split_ifs at h
  obtain ⟨text, htext, h⟩ := Option.bind_eq_some_iff.mp h
  split_ifs at h
  obtain ⟨parsed, -, h⟩ := Option.bind_eq_some_iff.mp h
  split_ifs at h with hdigits
  obtain rfl := Option.some.inj h
  rw [eq_of_isPrefixOf? htext, ← hdigits]
  rfl

/-- The two programs take the same names for event names. -/
theorem guardEventNumber_eq (name : Bytes) : guardEventNumber name = eventNumber name := by
  unfold guardEventNumber eventNumber
  split_ifs
  · rfl
  · cases htext : (ascii "event").isPrefixOf? name with
    | none => rfl
    | some text =>
      have hname := eq_of_isPrefixOf? htext
      have hiff (number : Nat) : name = eventName number ↔ digits number = text := by
        rw [hname]
        exact ⟨fun h => (List.append_cancel_left h).symm, fun h => h ▸ rfl⟩
      simp only [hiff]
      rfl

theorem eventNumber_of_other {name : Bytes} (h : (ascii "event").isPrefixOf name = false) :
    eventNumber name = none := by
  cases hnumber : eventNumber name with
  | none => rfl
  | some number =>
    rw [eventNumber_some hnumber] at h
    have hstarts : (ascii "event").isPrefixOf (eventName number) = true :=
      List.isPrefixOf_iff_prefix.mpr (List.prefix_append _ _)
    rw [hstarts] at h
    cases h

theorem eventEntries_fst (names : List Bytes) :
    (eventEntries names).map Prod.fst = names.filterMap eventNumber := by
  unfold eventEntries
  rw [List.map_filterMap]
  congr 1
  funext name
  cases eventNumber name <;> rfl

theorem eventEntries_name {names : List Bytes} {entry : Nat × Bytes} (h : entry ∈ eventEntries names) :
    entry.2 = eventName entry.1 := by
  obtain ⟨name, -, hentry⟩ := List.mem_filterMap.mp h
  obtain ⟨number, hnumber, rfl⟩ := Option.map_eq_some_iff.mp hentry
  exact eventNumber_some hnumber

/-! ## What the inspection has seen -/

/-- What the tool may rely on after a round. -/
def Seen (m : Machine) (number : Nat) (name : Bytes) (event : ObservedInputEvent) : Prop :=
  event.mapping.eventNumber = number ∧
    ∃ canonical, m.canonicalize name = some canonical ∧ SamePath canonical event.mapping.sysfsPath

/-- A device is one of the events, under the same number and path. -/
def Of (device : InspectedDevice) (mapping : InputClassMapping) : Prop :=
  device.eventNumber = mapping.eventNumber ∧ device.sysfsPath = mapping.sysfsPath ∧
    device.deviceNode = nodePath mapping.eventNumber

theorem InputClassMapping.new_ok {number : Nat} {path : Bytes} {mapping : InputClassMapping}
    (h : (InputClassMapping.new number path).toOption = some mapping) :
    mapping.eventNumber = number ∧ mapping.sysfsPath = path := by
  unfold InputClassMapping.new at h
  split_ifs at h
  · obtain rfl := Option.some.inj h
    exact ⟨rfl, rfl⟩
  · cases h

theorem inspectEvent_some {m : Machine} {number : Nat} {name : Bytes} {event : ObservedInputEvent}
    {device : Option InspectedDevice} (h : inspectEvent m number name = some (event, device)) :
    Seen m number name event ∧ ∀ d ∈ device, Of d event.mapping := by
  unfold inspectEvent at h
  obtain ⟨node, -, h⟩ := Option.bind_eq_some_iff.mp h
  split_ifs at h
  obtain ⟨canonical, hcanonical, h⟩ := Option.bind_eq_some_iff.mp h
  obtain ⟨properties, -, h⟩ := Option.bind_eq_some_iff.mp h
  obtain ⟨capabilities, -, h⟩ := Option.bind_eq_some_iff.mp h
  obtain ⟨reported, -, h⟩ := Option.bind_eq_some_iff.mp h
  split_ifs at h with hsame
  simp only [Bool.not_eq_true', decide_eq_false_iff_not, not_not] at hsame
  obtain ⟨mapping, hmapping, h⟩ := Option.bind_eq_some_iff.mp h
  obtain ⟨classes, -, h⟩ := Option.bind_eq_some_iff.mp h
  obtain ⟨seat, -, h⟩ := Option.bind_eq_some_iff.mp h
  obtain ⟨hnumber, hpath⟩ := InputClassMapping.new_ok hmapping
  have hseen : Seen m number name ⟨mapping, node.rdev⟩ := by
    refine ⟨hnumber, canonical, hcanonical, ?_⟩
    show SamePath canonical mapping.sysfsPath
    rw [hpath]
    exact hsame
  split_ifs at h
  · obtain ⟨identity, -, h⟩ := Option.bind_eq_some_iff.mp h
    obtain ⟨rfl, rfl⟩ := Prod.mk.inj (Option.some.inj h)
    refine ⟨hseen, fun d hd => ?_⟩
    obtain rfl := Option.some.inj hd
    exact ⟨hnumber.symm, hpath.symm, congrArg nodePath hnumber.symm⟩
  · obtain ⟨rfl, rfl⟩ := Prod.mk.inj (Option.some.inj h)
    exact ⟨hseen, fun d hd => by cases hd⟩

/-- The devices are some of the events, in the same order. -/
inductive Among : List InspectedDevice → List ObservedInputEvent → Prop
  | nil : Among [] []
  | skip {devices : List InspectedDevice} {events : List ObservedInputEvent}
      (event : ObservedInputEvent) (rest : Among devices events) : Among devices (event :: events)
  | take {devices : List InspectedDevice} {events : List ObservedInputEvent} {device : InspectedDevice}
      {event : ObservedInputEvent} (of : Of device event.mapping) (rest : Among devices events) :
      Among (device :: devices) (event :: events)

theorem inspectEvents_some {m : Machine} : ∀ {entries : List (Nat × Bytes)}
    {devices devices' : List InspectedDevice} {observed observed' : List ObservedInputEvent},
    devices.length ≤ maxEventDescriptors →
    inspectEvents m devices observed entries = some (devices', observed') →
      ∃ found events, devices' = devices ++ found ∧ observed' = observed ++ events ∧
        devices'.length ≤ maxEventDescriptors ∧ Among found events ∧
        List.Forall₂ (fun entry event => Seen m entry.1 entry.2 event) entries events
  | [], devices, _, observed, _, hcount, h => by
    obtain ⟨rfl, rfl⟩ := Prod.mk.inj (Option.some.inj h)
    exact ⟨[], [], by simp, by simp, hcount, .nil, .nil⟩
  | (number, name) :: entries, devices, devices', observed, observed', hcount, h => by
    unfold inspectEvents at h
    obtain ⟨⟨event, device⟩, hevent, h⟩ := Option.bind_eq_some_iff.mp h
    dsimp only at h
    split_ifs at h with hfull
    obtain ⟨hseen, hof⟩ := inspectEvent_some hevent
    have hroom : (devices ++ device.toList).length ≤ maxEventDescriptors := by
      cases device with
      | none => simpa using hcount
      | some d =>
        have hlt : devices.length < maxEventDescriptors :=
          Nat.lt_of_not_le fun hge => hfull ⟨rfl, hge⟩
        rw [List.length_append]
        exact hlt
    obtain ⟨found, events, hdevices, hobserved, hcount', hamong, hentries⟩ :=
      inspectEvents_some hroom h
    refine ⟨device.toList ++ found, event :: events, ?_, ?_, hcount', ?_, .cons hseen hentries⟩
    · rw [hdevices, List.append_assoc]
    · rw [hobserved]
      simp
    · cases device with
      | none => exact .skip event hamong
      | some d => exact .take (hof d rfl) hamong

theorem Among.of {devices : List InspectedDevice} {events : List ObservedInputEvent}
    (h : Among devices events) : ∀ device ∈ devices, ∃ event ∈ events, Of device event.mapping := by
  induction h with
  | nil => intro device hdevice; cases hdevice
  | skip event _ ih =>
    intro device hdevice
    obtain ⟨other, hother, hof⟩ := ih device hdevice
    exact ⟨other, List.mem_cons_of_mem event hother, hof⟩
  | take of _ ih =>
    intro device hdevice
    obtain rfl | hdevice := List.mem_cons.mp hdevice
    · exact ⟨_, List.mem_cons_self, of⟩
    · obtain ⟨other, hother, hof⟩ := ih device hdevice
      exact ⟨other, List.mem_cons_of_mem _ hother, hof⟩

theorem sortEventEntries_fst {α β : Type} {entries : List (Nat × α)} {others : List (Nat × β)}
    (h : (entries.map Prod.fst).Perm (others.map Prod.fst)) :
    (sortEventEntries entries).map Prod.fst = (sortEventEntries others).map Prod.fst := by
  have hsorted {γ : Type} (list : List (Nat × γ)) :
      ((sortEventEntries list).map Prod.fst).Pairwise (· ≤ ·) :=
    List.pairwise_map.mpr (List.pairwise_insertionSort _ list)
  have hperm {γ : Type} (list : List (Nat × γ)) :
      ((sortEventEntries list).map Prod.fst).Perm (list.map Prod.fst) :=
    (List.perm_insertionSort _ list).map Prod.fst
  exact ((hperm entries).trans (h.trans (hperm others).symm)).eq_of_pairwise'
    (hsorted entries) (hsorted others)

theorem seen_events {m : Machine} {entries : List (Nat × Bytes)} {events : List ObservedInputEvent}
    (h : List.Forall₂ (fun entry event => Seen m entry.1 entry.2 event) entries events)
    (hname : ∀ entry ∈ entries, entry.2 = eventName entry.1) :
    events.map (·.mapping.eventNumber) = entries.map Prod.fst ∧
      ∀ event ∈ events, ∃ canonical,
        m.canonicalize (eventName event.mapping.eventNumber) = some canonical ∧
          SamePath canonical event.mapping.sysfsPath := by
  induction h with
  | nil => exact ⟨rfl, fun event hevent => by cases hevent⟩
  | @cons entry event entries events hseen _ ih =>
    obtain ⟨hnumbers, hresolved⟩ := ih fun e he => hname e (List.mem_cons_of_mem entry he)
    obtain ⟨hnumber, hcanonical⟩ := hseen
    refine ⟨by rw [List.map_cons, List.map_cons, hnumber, hnumbers], fun other hother => ?_⟩
    obtain rfl | hother := List.mem_cons.mp hother
    · rw [hname entry List.mem_cons_self, ← hnumber] at hcanonical
      exact hcanonical
    · exact hresolved other hother

/-- What an inspection that succeeds has established. -/
structure Inspected (m : Machine) (inspection : InspectedInputSet) : Prop where
  names : ∃ names, m.classNames = some names ∧
    inspection.mappings.map (·.eventNumber) = (sortEventEntries (eventEntries names)).map Prod.fst
  resolved : ∀ mapping ∈ inspection.mappings, ∃ canonical,
    m.canonicalize (eventName mapping.eventNumber) = some canonical ∧
      SamePath canonical mapping.sysfsPath
  devices : ∀ device ∈ inspection.devices, ∃ mapping ∈ inspection.mappings, Of device mapping
  nonempty : inspection.devices ≠ []
  count : inspection.devices.length ≤ maxEventDescriptors

theorem inspectDevices_some {m : Machine} {inspection : InspectedInputSet}
    (h : inspectDevices m = some inspection) : Inspected m inspection := by
  unfold inspectDevices at h
  obtain ⟨names, hnames, h⟩ := Option.bind_eq_some_iff.mp h
  dsimp only at h
  split_ifs at h
  obtain ⟨⟨devices, observed⟩, hevents, h⟩ := Option.bind_eq_some_iff.mp h
  dsimp only at h
  split_ifs at h with hchecks
  obtain rfl := Option.some.inj h
  obtain ⟨found, events, hdevices, hobserved, hcount, hamong, hentries⟩ :=
    inspectEvents_some (Nat.zero_le _) hevents
  rw [List.nil_append] at hdevices hobserved
  subst hdevices hobserved
  have hname : ∀ entry ∈ sortEventEntries (eventEntries names), entry.2 = eventName entry.1 :=
    fun entry hentry => eventEntries_name ((List.mem_insertionSort _).mp hentry)
  obtain ⟨hnumbers, hresolved⟩ := seen_events hentries hname
  refine ⟨⟨names, hnames, ?_⟩, ?_, ?_, fun hnil => hchecks (.inl hnil), hcount⟩
  · show (observed.map (·.mapping)).map (·.eventNumber) = _
    rw [List.map_map]
    exact hnumbers
  · intro mapping hmapping
    obtain ⟨event, hevent, rfl⟩ := List.mem_map.mp hmapping
    exact hresolved event hevent
  · intro device hdevice
    obtain ⟨event, hevent, hof⟩ := hamong.of device hdevice
    exact ⟨event.mapping, List.mem_map_of_mem hevent, hof⟩

/-! ## What the guard has seen -/

theorem inspectInputClassEntries_some {m : Machine} : ∀ {names : List Bytes}
    {raw sorted : List (Nat × Bytes)}, inspectInputClassEntries m raw names = some sorted →
      ∃ found, sorted = sortEventEntries (raw ++ found) ∧
        found.map Prod.fst = names.filterMap eventNumber ∧
        ∀ entry ∈ found, m.canonicalize (eventName entry.1) = some entry.2
  | [], raw, sorted, h => by
    obtain rfl := Option.some.inj h
    exact ⟨[], by rw [List.append_nil], rfl, fun entry hentry => by cases hentry⟩
  | name :: names, raw, sorted, h => by
    unfold inspectInputClassEntries at h
    by_cases hother : (!(ascii "event").isPrefixOf name) = true
    · rw [if_pos hother] at h
      obtain ⟨found, hsorted, hnumbers, hresolved⟩ := inspectInputClassEntries_some h
      rw [Bool.not_eq_true'] at hother
      refine ⟨found, hsorted, ?_, hresolved⟩
      rw [List.filterMap_cons_none (eventNumber_of_other hother)]
      exact hnumbers
    · rw [if_neg hother] at h
      obtain ⟨number, hnumber, h⟩ := Option.bind_eq_some_iff.mp h
      rw [guardEventNumber_eq] at hnumber
      split_ifs at h
      obtain ⟨canonical, hcanonical, h⟩ := Option.bind_eq_some_iff.mp h
      obtain ⟨found, hsorted, hnumbers, hresolved⟩ := inspectInputClassEntries_some h
      refine ⟨(number, canonical) :: found, by rw [hsorted]; simp, ?_, fun entry hentry => ?_⟩
      · rw [List.filterMap_cons_some hnumber, List.map_cons, hnumbers]
      · obtain rfl | hentry := List.mem_cons.mp hentry
        · rw [eventNumber_some hnumber] at hcanonical
          exact hcanonical
        · exact hresolved entry hentry

theorem mapM_new {raw : List (Nat × Bytes)} {mappings : List InputClassMapping}
    (h : raw.mapM (fun entry => (InputClassMapping.new entry.1 entry.2).toOption) = some mappings) :
    raw = mappings.map fun mapping => (mapping.eventNumber, mapping.sysfsPath) := by
  induction raw generalizing mappings with
  | nil =>
    obtain rfl := Option.some.inj h
    rfl
  | cons entry raw ih =>
    rw [List.mapM_cons] at h
    obtain ⟨mapping, hmapping, h⟩ := Option.bind_eq_some_iff.mp h
    obtain ⟨rest, hrest, h⟩ := Option.bind_eq_some_iff.mp h
    obtain rfl := Option.some.inj h
    obtain ⟨hnumber, hpath⟩ := InputClassMapping.new_ok hmapping
    rw [List.map_cons, ← ih hrest, hnumber, hpath]

/-- Mappings with the same numbers, all resolved on the same machine, are the same. -/
theorem same_of_numbers {m : Machine} : ∀ {mappings others : List InputClassMapping},
    mappings.map (·.eventNumber) = others.map (·.eventNumber) →
    (∀ mapping ∈ mappings, ∃ canonical,
      m.canonicalize (eventName mapping.eventNumber) = some canonical ∧
        SamePath canonical mapping.sysfsPath) →
    (∀ other ∈ others, m.canonicalize (eventName other.eventNumber) = some other.sysfsPath) →
    List.Forall₂ InputClassMapping.Same mappings others
  | [], [], _, _, _ => .nil
  | [], _ :: _, h, _, _ => by cases h
  | _ :: _, [], h, _, _ => by cases h
  | mapping :: mappings, other :: others, h, hmappings, hothers => by
    obtain ⟨hnumber, hrest⟩ := List.cons.inj h
    have hnumber : mapping.eventNumber = other.eventNumber := hnumber
    obtain ⟨canonical, hcanonical, hsame⟩ := hmappings mapping List.mem_cons_self
    refine .cons ⟨hnumber, ?_⟩ (same_of_numbers hrest
      (fun m' hm' => hmappings m' (List.mem_cons_of_mem mapping hm'))
      fun o ho => hothers o (List.mem_cons_of_mem other ho))
    rw [hnumber, hothers other List.mem_cons_self] at hcanonical
    obtain rfl := Option.some.inj hcanonical
    exact hsame.symm

/-- The guard finds the map the tool has found, in whatever order the directory is listed to it. -/
theorem guard_scan_same {m : Machine} {inspection : InspectedInputSet} {names names' : List Bytes}
    {mappings : List InputClassMapping} (h : Inspected m inspection) (hnames : m.classNames = some names)
    (hlisted : names'.Perm names) (hscan : inspectInputClass m names' = some mappings) :
    List.Forall₂ InputClassMapping.Same inspection.mappings mappings := by
  unfold inspectInputClass at hscan
  obtain ⟨raw, hraw, hscan⟩ := Option.bind_eq_some_iff.mp hscan
  obtain ⟨scanned, hmapped, hscan⟩ := Option.bind_eq_some_iff.mp hscan
  split_ifs at hscan
  obtain rfl := Option.some.inj hscan
  obtain ⟨found, hsorted, hnumbers, hresolved⟩ := inspectInputClassEntries_some hraw
  rw [List.nil_append] at hsorted
  have hpairs := mapM_new hmapped
  obtain ⟨listed, hlisted', htool⟩ := h.names
  rw [hnames] at hlisted'
  obtain rfl := Option.some.inj hlisted'
  refine same_of_numbers ?_ h.resolved fun mapping hmapping => ?_
  · have hguard : scanned.map (·.eventNumber) = raw.map Prod.fst := by
      rw [hpairs, List.map_map]
      rfl
    rw [htool, hguard, hsorted]
    refine (sortEventEntries_fst ?_)
    rw [eventEntries_fst, hnumbers]
    exact (hlisted.filterMap eventNumber).symm
  · have hmem : (mapping.eventNumber, mapping.sysfsPath) ∈ raw := by
      rw [hpairs]
      exact List.mem_map_of_mem hmapping
    rw [hsorted] at hmem
    exact hresolved _ ((List.mem_insertionSort _).mp hmem)

end AgentSeat.Broker
