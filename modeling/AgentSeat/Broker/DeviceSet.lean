/-
  The record of the reviewed input devices (`device_set.rs`).

  A record is one line of nineteen fields for each device. The path of a device is checked less here
  than in the map of the input class: a tab or the end of a line in it would break the record, and of
  a path that is not a text only what can be shown of it is written.

  Main results:
  * `decode_encode_device_set`: a record is read back for paths that are texts without tabs and ends
    of lines.
  * `device_set_codec`: it is read back for no others; and what is accepted is written again byte for
    byte.
-/
import AgentSeat.Broker.InputSet
import AgentSeat.Lib.Prog
import Mathlib.Data.List.Forall2

namespace AgentSeat.Broker

open AgentSeat.Lib AgentSeat.Lib.Json AgentSeat.Lib.Paths AgentSeat.Lib.Text

def maxEventDescriptors : Nat := 32
def maxValueBytes : Nat := 1024
def maxCapabilityValueBytes : Nat := 4096
def maxDeviceSetBytes : Nat := 64 * 1024

inductive DeviceSetError where
  | invalid
  | tooLarge
  deriving DecidableEq

/-! ## Evidence -/

def validateValue (value : Bytes) : Bool :=
  value ≠ [] && value ≠ [45] && value.length ≤ maxValueBytes && value.all (within 0x20 0x7e)

/-- Two blanks in a row. -/
def hasDoubleBlank : Bytes → Bool
  | a :: b :: rest => a = 32 && b = 32 || hasDoubleBlank (b :: rest)
  | _ => false

def validateCapabilityValue (value : Bytes) : Bool :=
  value ≠ [] && value.length ≤ maxCapabilityValueBytes && value.head? ≠ some 32 &&
    value.getLast? ≠ some 32 && !hasDoubleBlank value &&
    value.all fun byte => byte = 32 || isDigit byte || within 0x61 0x66 byte

/-- What udev says about the identity of a device. -/
structure DeviceIdentity where
  path : Bytes
  bus : Option Bytes
  vendor : Option Bytes
  model : Option Bytes
  revision : Option Bytes
  serial : Option Bytes
  path_valid : validateValue path = true
  values_valid : [bus, vendor, model, revision, serial].all (·.all validateValue) = true
  paired : vendor.isSome = model.isSome
  deriving DecidableEq

def DeviceIdentity.new (path : Bytes) (bus vendor model revision serial : Option Bytes) :
    Except DeviceSetError DeviceIdentity :=
  if h : validateValue path = true ∧
      [bus, vendor, model, revision, serial].all (·.all validateValue) = true ∧
      vendor.isSome = model.isSome then
    .ok ⟨path, bus, vendor, model, revision, serial, h.1, h.2.1, h.2.2⟩
  else .error .invalid

/-- The ten bitmaps the kernel has for a device, in a fixed order. -/
structure DeviceCapabilities where
  values : List Bytes
  ten : values.length = 10
  valid : values.all validateCapabilityValue = true
  deriving DecidableEq

def DeviceCapabilities.new (values : List Bytes) : Except DeviceSetError DeviceCapabilities :=
  if h : values.length = 10 ∧ values.all validateCapabilityValue = true then
    .ok ⟨values, h.1, h.2⟩
  else .error .invalid

def validateSysfsPath (eventNumber : Nat) (path : Bytes) : Bool :=
  path.head? = some 47 && startsWith path (ascii "/sys/devices") &&
    fileName path = some (eventName eventNumber) && isSafeAbsolute path

def allowedClasses : List Bytes :=
  ["key", "keyboard", "mouse", "touchpad", "touchscreen", "tablet"].map ascii

def validateClasses (classes : List Bytes) : Bool :=
  classes ≠ [] && classes.length ≤ 6 && classes.all allowedClasses.contains &&
    ascending (classes.map allowedClasses.idxOf)

/-- A device with the evidence reviewed for it. -/
structure EnrolledDevice where
  eventNumber : Nat
  eventNumber_lt : eventNumber < 2 ^ 32
  sysfsPath : Bytes
  classes : List Bytes
  identity : DeviceIdentity
  capabilities : DeviceCapabilities
  sysfsPath_valid : validateSysfsPath eventNumber sysfsPath = true
  classes_valid : validateClasses classes = true

def EnrolledDevice.new (eventNumber : Nat) (sysfsPath : Bytes) (classes : List Bytes)
    (identity : DeviceIdentity) (capabilities : DeviceCapabilities) :
    Except DeviceSetError EnrolledDevice :=
  if h : eventNumber < 2 ^ 32 ∧ validateSysfsPath eventNumber sysfsPath = true ∧
      validateClasses classes = true then
    .ok ⟨eventNumber, h.1, sysfsPath, classes, identity, capabilities, h.2.1, h.2.2⟩
  else .error .invalid

/-! ## The record -/

def deviceSetHeader : Bytes := ascii "agent-seat-device-set\t1"

def optional (value : Option Bytes) : Bytes := value.getD [45]

/-- The path is written as it is displayed. -/
def EnrolledDevice.fields (device : EnrolledDevice) : List Bytes :=
  eventName device.eventNumber :: lossy device.sysfsPath :: [44].intercalate device.classes ::
    device.identity.path :: optional device.identity.bus :: optional device.identity.vendor ::
    optional device.identity.model :: optional device.identity.revision ::
    optional device.identity.serial :: device.capabilities.values

/-- The line of a device, without its end. -/
def EnrolledDevice.line (device : EnrolledDevice) : Bytes := [9].intercalate device.fields

def encodeDevices (output : Bytes) (previous : Option Nat) :
    List EnrolledDevice → Except DeviceSetError Bytes
  | [] => .ok output
  | device :: devices =>
    if previous.any (· ≥ device.eventNumber) then .error .invalid
    else
      let output := output ++ (device.line ++ [10])
      if output.length > maxDeviceSetBytes then .error .tooLarge
      else encodeDevices output (some device.eventNumber) devices

def encodeDeviceSet (devices : List EnrolledDevice) : Except DeviceSetError Bytes :=
  if devices = [] ∨ devices.length > maxEventDescriptors then .error .tooLarge
  else encodeDevices (deviceSetHeader ++ [10]) none devices

def parseOptional (value : Bytes) : Except DeviceSetError (Option Bytes) :=
  if value = [45] then .ok none
  else if validateValue value then .ok (some value)
  else .error .invalid

def canonicalEventNumber (value : Bytes) : Except DeviceSetError Nat :=
  match ((ascii "event").isPrefixOf? value).bind fun text =>
      (parseU32 text).filter fun number => digits number = text with
  | some number => .ok number
  | none => .error .invalid

def decodeDevice (line : Bytes) : Except DeviceSetError EnrolledDevice :=
  match line.splitOn 9 with
  | event :: sysfs :: classes :: path :: bus :: vendor :: model :: revision :: serial :: values => do
    let number ← canonicalEventNumber event
    let identity ← DeviceIdentity.new path (← parseOptional bus) (← parseOptional vendor)
      (← parseOptional model) (← parseOptional revision) (← parseOptional serial)
    let capabilities ← DeviceCapabilities.new values
    EnrolledDevice.new number sysfs (classes.splitOn 44) identity capabilities
  | _ => .error .invalid

def decodeDevices (devices : List EnrolledDevice) :
    List Bytes → Except DeviceSetError (List EnrolledDevice)
  | [] => .ok devices
  | line :: lines =>
    if devices.length ≥ maxEventDescriptors then .error .tooLarge
    else do
      let device ← decodeDevice line
      decodeDevices (devices ++ [device]) lines

/-- `str::lines`: a line may also end with a carriage return. -/
def strLines (text : Bytes) : List Bytes :=
  (splitTerminator 10 text).map fun line => if line.getLast? = some 13 then line.dropLast else line

def decodeDeviceSet (bytes : Bytes) : Except DeviceSetError (List EnrolledDevice) :=
  if bytes.length > maxDeviceSetBytes then .error .tooLarge
  else if !validUtf8 bytes then .error .invalid
  else match (deviceSetHeader ++ [10]).isPrefixOf? bytes with
    | none => .error .invalid
    | some body =>
      if body = [] ∨ body.getLast? ≠ some 10 then .error .invalid
      else do
        let devices ← decodeDevices [] (strLines body)
        let canonical ← encodeDeviceSet devices
        if canonical ≠ bytes then .error .invalid
        return devices

/-! ## What is written is what is read -/

/-- A field stays one field of one line, and text. -/
def Clean (field : Bytes) : Prop := 9 ∉ field ∧ 10 ∉ field ∧ validUtf8 field = true

theorem clean_of_forall {field : Bytes} (h : ∀ b ∈ field, 0x20 ≤ b ∧ b < 0x80) : Clean field := by
  refine ⟨fun hb => ?_, fun hb => ?_, validUtf8_of_ascii fun b hb => (h b hb).2⟩
  · exact absurd (h 9 hb).1 (by decide)
  · exact absurd (h 10 hb).1 (by decide)

theorem within_bounds {low high b : UInt8} (h : within low high b = true) : low ≤ b ∧ b ≤ high := by
  simpa [within] using h

theorem validateValue_clean {value : Bytes} (h : validateValue value = true) : Clean value := by
  simp only [validateValue, Bool.and_eq_true, List.all_eq_true] at h
  refine clean_of_forall fun b hb => ?_
  obtain ⟨hlow, hhigh⟩ := within_bounds (h.2 b hb)
  exact ⟨hlow, Nat.lt_of_le_of_lt hhigh (by decide)⟩

theorem validateCapabilityValue_clean {value : Bytes} (h : validateCapabilityValue value = true) :
    Clean value := by
  simp only [validateCapabilityValue, Bool.and_eq_true, List.all_eq_true, Bool.or_eq_true,
    decide_eq_true_eq] at h
  refine clean_of_forall fun b hb => ?_
  obtain (rfl | hdigit) | hletter := h.2 b hb
  · decide
  · obtain ⟨hlow, hhigh⟩ := within_bounds hdigit
    exact ⟨Nat.le_trans (by decide) hlow, Nat.lt_of_le_of_lt hhigh (by decide)⟩
  · obtain ⟨hlow, hhigh⟩ := within_bounds hletter
    exact ⟨Nat.le_trans (by decide) hlow, Nat.lt_of_le_of_lt hhigh (by decide)⟩

theorem eventName_clean (number : Nat) : Clean (eventName number) :=
  clean_of_forall fun _ hb => ⟨Nat.le_of_lt (eventName_ascii hb).1, (eventName_ascii hb).2⟩

theorem optional_clean {value : Option Bytes} (h : value.all validateValue = true) :
    Clean (optional value) := by
  cases value with
  | none => exact clean_of_forall (by decide +kernel)
  | some value => exact validateValue_clean h

theorem mem_intercalate {α : Type} {sep c : α} : ∀ {parts : List (List α)},
    c ∈ [sep].intercalate parts → c = sep ∨ ∃ part ∈ parts, c ∈ part
  | [], h => by simp at h
  | [part], h => .inr ⟨part, List.mem_singleton_self _, by simpa using h⟩
  | part :: next :: rest, h => by
    rw [List.intercalate_cons_cons, List.mem_append, List.mem_append] at h
    obtain (h | h) | h := h
    · exact .inr ⟨part, List.mem_cons_self, h⟩
    · exact .inl (List.mem_singleton.mp h)
    · obtain h | ⟨other, hother, h⟩ := mem_intercalate h
      · exact .inl h
      · exact .inr ⟨other, List.mem_cons_of_mem part hother, h⟩

theorem getLast?_intercalate {α : Type} (sep : α) (before : List (List α)) {last : List α}
    (h : last ≠ []) : ([sep].intercalate (before ++ [last])).getLast? = last.getLast? := by
  induction before with
  | nil => simp
  | cons part before ih =>
    obtain ⟨next, rest, hnext⟩ : ∃ next rest, before ++ [last] = next :: rest :=
      List.exists_cons_of_ne_nil (by simp)
    rw [List.cons_append, hnext, List.intercalate_cons_cons, List.getLast?_append, ← hnext, ih]
    cases hlast : last.getLast? with
    | none => exact absurd (List.getLast?_eq_none_iff.mp hlast) h
    | some b => rfl

theorem allowedClasses_letters : ∀ name ∈ allowedClasses, ∀ b ∈ name, within 0x61 0x7a b = true := by
  decide +kernel

theorem classes_letters {classes : List Bytes} (h : validateClasses classes = true) :
    ∀ name ∈ classes, ∀ b ∈ name, within 0x61 0x7a b = true := by
  simp only [validateClasses, Bool.and_eq_true, List.all_eq_true, List.contains_eq_mem,
    decide_eq_true_eq] at h
  exact fun name hname => allowedClasses_letters name (h.1.2 name hname)

theorem classes_clean {classes : List Bytes} (h : validateClasses classes = true) :
    Clean ([44].intercalate classes) := by
  refine clean_of_forall fun b hb => ?_
  obtain rfl | ⟨name, hname, hb⟩ := mem_intercalate hb
  · decide
  · obtain ⟨hlow, hhigh⟩ := within_bounds (classes_letters h name hname b hb)
    exact ⟨Nat.le_trans (by decide) hlow, Nat.lt_of_le_of_lt hhigh (by decide)⟩

theorem splitOn_classes {classes : List Bytes} (h : validateClasses classes = true) :
    ([44].intercalate classes).splitOn 44 = classes := by
  refine List.splitOn_intercalate 44 (fun name hname hcomma => ?_) ?_
  · have := within_bounds (classes_letters h name hname 44 hcomma)
    exact absurd this.1 (by decide)
  · simp only [validateClasses, Bool.and_eq_true, decide_eq_true_eq] at h
    exact h.1.1.1

theorem canonicalEventNumber_eventName {number : Nat} (h : number < 2 ^ 32) :
    canonicalEventNumber (eventName number) = .ok number := by
  unfold canonicalEventNumber eventName
  rw [isPrefixOf?_append]
  simp [parseU32_digits h, Option.filter]

theorem parseOptional_optional {value : Option Bytes} (h : value.all validateValue = true) :
    parseOptional (optional value) = .ok value := by
  cases value with
  | none => rfl
  | some value =>
    have hvalue : validateValue value = true := h
    have hdash : value ≠ [45] := by
      have hparts := hvalue
      simp only [validateValue, Bool.and_eq_true, decide_eq_true_eq] at hparts
      exact hparts.1.1.2
    show (if value = [45] then _ else if validateValue value = true then _ else _) = _
    rw [if_neg hdash, if_pos hvalue]
    rfl

namespace EnrolledDevice

variable (device : EnrolledDevice)

theorem identity_values : device.identity.bus.all validateValue = true ∧
    device.identity.vendor.all validateValue = true ∧
    device.identity.model.all validateValue = true ∧
    device.identity.revision.all validateValue = true ∧
    device.identity.serial.all validateValue = true := by
  have h := device.identity.values_valid
  simpa using h

theorem fields_clean (hpath : Clean device.sysfsPath) : ∀ field ∈ device.fields, Clean field := by
  obtain ⟨hbus, hvendor, hmodel, hrevision, hserial⟩ := device.identity_values
  intro field hfield
  simp only [fields, List.mem_cons] at hfield
  obtain rfl | rfl | rfl | rfl | rfl | rfl | rfl | rfl | rfl | hvalue := hfield
  · exact eventName_clean _
  · rw [lossy_of_validUtf8 hpath.2.2]
    exact hpath
  · exact classes_clean device.classes_valid
  · exact validateValue_clean device.identity.path_valid
  · exact optional_clean hbus
  · exact optional_clean hvendor
  · exact optional_clean hmodel
  · exact optional_clean hrevision
  · exact optional_clean hserial
  · exact validateCapabilityValue_clean (List.all_eq_true.mp device.capabilities.valid field hvalue)

theorem line_not_mem (hpath : Clean device.sysfsPath) : 10 ∉ device.line := by
  intro hmem
  obtain hsep | ⟨field, hfield, hmem⟩ := mem_intercalate hmem
  · exact absurd hsep (by decide)
  · exact (device.fields_clean hpath field hfield).2.1 hmem

/-- The last field is a bitmap, so no line ends with a carriage return. -/
theorem line_getLast? : device.line.getLast? ≠ some 13 := by
  have hne : device.capabilities.values ≠ [] := fun hnil => by
    have hten := device.capabilities.ten
    simp [hnil] at hten
  obtain ⟨init, last, hvalues⟩ : ∃ init last, device.capabilities.values = init ++ [last] :=
    ⟨_, _, (List.dropLast_append_getLast hne).symm⟩
  have hlast : validateCapabilityValue last = true :=
    List.all_eq_true.mp device.capabilities.valid last (by simp [hvalues])
  have hfields : ∃ before, device.fields = before ++ [last] := by
    unfold fields
    rw [hvalues]
    exact ⟨_ :: _ :: _ :: _ :: _ :: _ :: _ :: _ :: _ :: init, rfl⟩
  obtain ⟨before, hfields⟩ := hfields
  have hlast_ne : last ≠ [] := by
    simp only [validateCapabilityValue, Bool.and_eq_true, decide_eq_true_eq] at hlast
    exact hlast.1.1.1.1.1
  rw [line, hfields, getLast?_intercalate 9 before hlast_ne]
  intro hreturn
  simp only [validateCapabilityValue, Bool.and_eq_true, List.all_eq_true] at hlast
  exact absurd (hlast.2 13 (List.mem_of_getLast? hreturn)) (by decide)

theorem line_splitOn (hpath : Clean device.sysfsPath) : device.line.splitOn 9 = device.fields :=
  List.splitOn_intercalate 9 (fun field hfield => (device.fields_clean hpath field hfield).1)
    (List.cons_ne_nil _ _)

theorem decodeDevice_line (hpath : Clean device.sysfsPath) : decodeDevice device.line = .ok device := by
  obtain ⟨hbus, hvendor, hmodel, hrevision, hserial⟩ := device.identity_values
  have hidentity : DeviceIdentity.new device.identity.path device.identity.bus device.identity.vendor
      device.identity.model device.identity.revision device.identity.serial = .ok device.identity :=
    dif_pos ⟨device.identity.path_valid, device.identity.values_valid, device.identity.paired⟩
  have hcapabilities : DeviceCapabilities.new device.capabilities.values = .ok device.capabilities :=
    dif_pos ⟨device.capabilities.ten, device.capabilities.valid⟩
  have hdevice : EnrolledDevice.new device.eventNumber device.sysfsPath device.classes
      device.identity device.capabilities = .ok device :=
    dif_pos ⟨device.eventNumber_lt, device.sysfsPath_valid, device.classes_valid⟩
  unfold decodeDevice
  rw [device.line_splitOn hpath]
  unfold fields
  dsimp only
  rw [canonicalEventNumber_eventName device.eventNumber_lt, parseOptional_optional hbus,
    parseOptional_optional hvendor, parseOptional_optional hmodel, parseOptional_optional hrevision,
    parseOptional_optional hserial, splitOn_classes device.classes_valid,
    lossy_of_validUtf8 hpath.2.2]
  dsimp only [bind, Except.bind]
  rw [hidentity, hcapabilities]
  exact hdevice

end EnrolledDevice

theorem validUtf8_intercalate {sep : UInt8} (hsep : sep < 0x80) : ∀ {parts : List Bytes},
    (∀ part ∈ parts, validUtf8 part = true) → validUtf8 ([sep].intercalate parts) = true
  | [], _ => rfl
  | [part], h => by simpa using h part (List.mem_singleton_self part)
  | part :: next :: rest, h => by
    have ih := validUtf8_intercalate hsep fun p hp => h p (List.mem_cons_of_mem part hp)
    have hone : validUtf8 [sep] = true := validUtf8_of_ascii fun b hb => List.mem_singleton.mp hb ▸ hsep
    rw [List.intercalate_cons_cons]
    exact validUtf8_append (validUtf8_append (h part List.mem_cons_self) hone) ih

theorem encodeDevices_ok {bytes : Bytes} : ∀ {devices : List EnrolledDevice} {output : Bytes}
    {previous : Option Nat}, encodeDevices output previous devices = .ok bytes →
      bytes = output ++ unlines 10 (devices.map (·.line)) ∧
        (devices ≠ [] → bytes.length ≤ maxDeviceSetBytes)
  | [], output, _, h => by
    obtain rfl := Except.ok.inj h
    exact ⟨(List.append_nil output).symm, fun hne => absurd rfl hne⟩
  | device :: devices, output, previous, h => by
    unfold encodeDevices at h
    dsimp only at h
    split_ifs at h with hprevious hbound
    obtain ⟨hbytes, hlength⟩ := encodeDevices_ok h
    refine ⟨?_, fun _ => ?_⟩
    · rw [hbytes]
      simp [unlines]
    · cases devices with
      | nil =>
        rw [hbytes]
        simpa [unlines] using Nat.le_of_not_lt hbound
      | cons next rest => exact hlength (List.cons_ne_nil _ _)

theorem decodeDevices_lines : ∀ (devices found : List EnrolledDevice),
    (∀ device ∈ devices, Clean device.sysfsPath) →
    found.length + devices.length ≤ maxEventDescriptors →
      decodeDevices found (devices.map (·.line)) = .ok (found ++ devices)
  | [], found, _, _ => by simp [decodeDevices]
  | device :: devices, found, hclean, h => by
    rw [List.length_cons] at h
    have ih := decodeDevices_lines devices (found ++ [device])
      (fun d hd => hclean d (List.mem_cons_of_mem device hd)) (by
        rw [List.length_append, List.length_singleton]
        omega)
    unfold decodeDevices
    rw [List.map_cons]
    dsimp only
    rw [if_neg (by omega), device.decodeDevice_line (hclean device List.mem_cons_self)]
    show decodeDevices (found ++ [device]) (devices.map (·.line)) = _
    rw [ih]
    simp

theorem strLines_unlines {lines : List Bytes}
    (h : ∀ line ∈ lines, 10 ∉ line ∧ line.getLast? ≠ some 13) : strLines (unlines 10 lines) = lines := by
  unfold strLines
  rw [splitTerminator_unlines fun line hline => (h line hline).1]
  refine (List.map_congr_left fun line hline => ?_).trans (List.map_id lines)
  rw [if_neg (h line hline).2]
  rfl

theorem deviceSetHeader_not_mem : 10 ∉ deviceSetHeader := by decide +kernel

theorem deviceSetHeader_utf8 : validUtf8 (deviceSetHeader ++ [10]) = true := by decide +kernel

/-- Reading a record gives the devices it was written from. -/
theorem decode_encode_device_set {devices : List EnrolledDevice} {bytes : Bytes}
    (hclean : ∀ device ∈ devices, Clean device.sysfsPath) (h : encodeDeviceSet devices = .ok bytes) :
    decodeDeviceSet bytes = .ok devices := by
  have hencode := h
  unfold encodeDeviceSet at h
  split_ifs at h with hcount
  simp only [not_or, Nat.not_lt] at hcount
  obtain ⟨hbytes, hbound⟩ := encodeDevices_ok h
  have hbody : (deviceSetHeader ++ [10]).isPrefixOf? bytes = some (unlines 10 (devices.map (·.line))) := by
    rw [hbytes]
    exact isPrefixOf?_append _ _
  have hlines : ∀ line ∈ devices.map (·.line), 10 ∉ line ∧ line.getLast? ≠ some 13 := by
    intro line hline
    obtain ⟨device, hdevice, rfl⟩ := List.mem_map.mp hline
    exact ⟨device.line_not_mem (hclean device hdevice), device.line_getLast?⟩
  have hutf8 : validUtf8 bytes = true := by
    rw [hbytes]
    refine validUtf8_append deviceSetHeader_utf8 (validUtf8_unlines fun line hline => ?_)
    obtain ⟨device, hdevice, rfl⟩ := List.mem_map.mp hline
    exact validUtf8_intercalate (by decide) fun field hfield =>
      (device.fields_clean (hclean device hdevice) field hfield).2.2
  have hne : devices.map (·.line) ≠ [] := fun hnil => hcount.1 (List.map_eq_nil_iff.mp hnil)
  have hlast : (unlines 10 (devices.map (·.line))).getLast? = some 10 := getLast?_unlines hne
  have hfilled : ¬ (unlines 10 (devices.map (·.line)) = [] ∨
      (unlines 10 (devices.map (·.line))).getLast? ≠ some 10) := by
    rintro (hnil | hother)
    · rw [hnil] at hlast
      cases hlast
    · exact hother hlast
  unfold decodeDeviceSet
  rw [if_neg (Nat.not_lt_of_le (hbound hcount.1)), hutf8, hbody]
  simp only [Bool.not_true, Bool.false_eq_true, if_false]
  rw [if_neg hfilled, strLines_unlines hlines,
    decodeDevices_lines devices [] hclean (by simpa using hcount.2)]
  rw [List.nil_append]
  dsimp only [bind, Except.bind]
  rw [hencode]
  dsimp only
  rw [if_neg fun hdiffers => hdiffers rfl]
  rfl

/-! ## What is read is clean -/

theorem strLines_plain {text line : Bytes} (h : line ∈ strLines text) (hutf8 : validUtf8 text = true) :
    10 ∉ line ∧ validUtf8 line = true := by
  obtain ⟨piece, hpiece, rfl⟩ := List.mem_map.mp h
  have hmem : piece ∈ text.splitOn 10 := by
    unfold splitTerminator at hpiece
    dsimp only at hpiece
    split_ifs at hpiece
    · exact List.dropLast_subset _ hpiece
    · exact hpiece
  have hnewline : 10 ∉ piece := not_mem_of_mem_splitOn hmem
  have hpiece_utf8 : validUtf8 piece = true := validUtf8_splitOn (by decide) hutf8 piece hmem
  split_ifs with hreturn
  · obtain ⟨init, rfl⟩ := List.getLast?_eq_some_iff.mp hreturn
    rw [List.dropLast_concat]
    exact ⟨fun hin => hnewline (List.mem_append_left _ hin),
      (validUtf8_cut (t := []) (by decide) hpiece_utf8).1⟩
  · exact ⟨hnewline, hpiece_utf8⟩

theorem EnrolledDevice.of_new {eventNumber : Nat} {sysfsPath : Bytes} {classes : List Bytes}
    {identity : DeviceIdentity} {capabilities : DeviceCapabilities} {device : EnrolledDevice}
    (h : EnrolledDevice.new eventNumber sysfsPath classes identity capabilities = .ok device) :
    device.sysfsPath = sysfsPath := by
  unfold EnrolledDevice.new at h
  split_ifs at h
  obtain rfl := Except.ok.inj h
  rfl

/-- The path of a device that was read is a field of its line. -/
theorem decodeDevice_sysfsPath {line : Bytes} {device : EnrolledDevice}
    (h : decodeDevice line = .ok device) : device.sysfsPath ∈ line.splitOn 9 := by
  unfold decodeDevice at h
  split at h
  · rename_i event sysfs classes path bus vendor model revision serial values hfields
    obtain ⟨number, -, h⟩ := except_bind_ok h
    obtain ⟨bus', -, h⟩ := except_bind_ok h
    obtain ⟨vendor', -, h⟩ := except_bind_ok h
    obtain ⟨model', -, h⟩ := except_bind_ok h
    obtain ⟨revision', -, h⟩ := except_bind_ok h
    obtain ⟨serial', -, h⟩ := except_bind_ok h
    obtain ⟨identity, -, h⟩ := except_bind_ok h
    obtain ⟨capabilities, -, h⟩ := except_bind_ok h
    rw [EnrolledDevice.of_new h, hfields]
    simp
  · cases h

theorem decodeDevices_clean {lines : List Bytes} {found devices : List EnrolledDevice}
    (h : decodeDevices found lines = .ok devices)
    (hlines : ∀ line ∈ lines, 10 ∉ line ∧ validUtf8 line = true)
    (hfound : ∀ device ∈ found, Clean device.sysfsPath) :
    ∀ device ∈ devices, Clean device.sysfsPath := by
  induction lines generalizing found with
  | nil =>
    obtain rfl := Except.ok.inj h
    exact hfound
  | cons line lines ih =>
    unfold decodeDevices at h
    split_ifs at h
    obtain ⟨device, hdevice, h⟩ := except_bind_ok h
    refine ih h (fun other hother => hlines other (List.mem_cons_of_mem _ hother)) ?_
    intro other hother
    rcases List.mem_append.mp hother with hother | hother
    · exact hfound other hother
    · obtain ⟨hnewline, hutf8⟩ := hlines line List.mem_cons_self
      rw [List.mem_singleton.mp hother]
      have hfield := decodeDevice_sysfsPath hdevice
      exact ⟨not_mem_of_mem_splitOn hfield, fun hmem => hnewline (mem_of_mem_splitOn hfield hmem),
        validUtf8_splitOn (by decide) hutf8 _ hfield⟩

/-- What is accepted is written again byte for byte, and its paths are clean. -/
theorem decodeDeviceSet_ok {bytes : Bytes} {devices : List EnrolledDevice}
    (h : decodeDeviceSet bytes = .ok devices) : encodeDeviceSet devices = .ok bytes ∧
      ∀ device ∈ devices, Clean device.sysfsPath := by
  unfold decodeDeviceSet at h
  split_ifs at h with hlength hutf8
  cases hbody : (deviceSetHeader ++ [10]).isPrefixOf? bytes with
  | none =>
    rw [hbody] at h
    cases h
  | some body =>
    rw [hbody] at h
    dsimp only at h
    split_ifs at h with hempty
    obtain ⟨found, hfound, h⟩ := except_bind_ok h
    obtain ⟨canonical, hcanonical, h⟩ := except_bind_ok h
    split_ifs at h with hsame
    · cases h
    · obtain rfl := Except.ok.inj h
      rw [not_not] at hsame
      have hbytes : validUtf8 body = true := by
        have htext := eq_of_isPrefixOf? hbody
        rw [List.append_assoc, List.singleton_append] at htext
        rw [Bool.not_eq_true, Bool.not_eq_false', htext] at hutf8
        exact (validUtf8_cut (by decide) hutf8).2
      refine ⟨hsame ▸ hcanonical, decodeDevices_clean hfound (fun line hline => ?_) (by simp)⟩
      exact strLines_plain hline hbytes

/-! ## Which records are read back -/

/-- Devices as the code compares them. -/
structure EnrolledDevice.Same (device other : EnrolledDevice) : Prop where
  eventNumber : device.eventNumber = other.eventNumber
  sysfsPath : SamePath device.sysfsPath other.sysfsPath
  classes : device.classes = other.classes
  identity : device.identity = other.identity
  capabilities : device.capabilities = other.capabilities

def SameDevices (devices others : List EnrolledDevice) : Prop :=
  List.Forall₂ EnrolledDevice.Same devices others

theorem mem_splitOn {text : Bytes} {sep b : UInt8} (hb : b ∈ text) (hne : b ≠ sep) :
    ∃ piece ∈ text.splitOn sep, b ∈ piece := by
  have htext : [sep].intercalate (text.splitOn sep) = text := List.intercalate_splitOn sep
  rw [← htext] at hb
  exact (mem_intercalate hb).resolve_left hne

/-- A path that equals a clean one is clean: what is compared holds all that can be wrong with it. -/
theorem clean_of_samePath {path other : Bytes} (h : SamePath path other) (hclean : Clean path) :
    Clean other := by
  obtain ⟨htab, hnewline, hutf8⟩ := hclean
  have hnormal (piece : Bytes) (hpiece : piece ∈ other.splitOn 47) (hne : piece ≠ [])
      (hdot : piece ≠ [46]) (hup : piece ≠ [46, 46]) : piece ∈ path.splitOn 47 := by
    have hmem := normal_mem_components.mpr ⟨hpiece, hne, hdot, hup⟩
    rw [← show components path = components other from h] at hmem
    exact (normal_mem_components.mp hmem).1
  have hkept (b : UInt8) (hb : b ∈ other) (hslash : b ≠ 47) (hdot : b ≠ 46) : b ∈ path := by
    obtain ⟨piece, hpiece, hin⟩ := mem_splitOn hb hslash
    refine mem_of_mem_splitOn (hnormal piece hpiece ?_ ?_ ?_) hin
    all_goals
      rintro rfl
      simp [hdot] at hin
  refine ⟨fun hb => htab (hkept 9 hb (by decide) (by decide)),
    fun hb => hnewline (hkept 10 hb (by decide) (by decide)), ?_⟩
  have hother : [47].intercalate (other.splitOn 47) = other := List.intercalate_splitOn 47
  rw [← hother]
  refine validUtf8_intercalate (by decide) fun piece hpiece => ?_
  by_cases hdots : piece = [] ∨ piece = [46] ∨ piece = [46, 46]
  · rcases hdots with rfl | rfl | rfl <;> rfl
  · rw [not_or, not_or] at hdots
    exact validUtf8_splitOn (by decide) hutf8 piece
      (hnormal piece hpiece hdots.1 hdots.2.1 hdots.2.2)

theorem clean_of_read {bytes : Bytes} {devices others : List EnrolledDevice}
    (h : decodeDeviceSet bytes = .ok others) (hsame : SameDevices others devices) :
    ∀ device ∈ devices, Clean device.sysfsPath := by
  have hothers := (decodeDeviceSet_ok h).2
  clear h
  induction hsame with
  | nil => simp
  | cons hfirst _ ih =>
    intro device hdevice
    rcases List.mem_cons.mp hdevice with rfl | hdevice
    · exact clean_of_samePath hfirst.sysfsPath (hothers _ List.mem_cons_self)
    · exact ih (fun other hother => hothers other (List.mem_cons_of_mem _ hother)) device hdevice

theorem SameDevices.refl (devices : List EnrolledDevice) : SameDevices devices devices :=
  List.forall₂_same.mpr fun _ _ => ⟨rfl, rfl, rfl, rfl, rfl⟩

/-- A record that was written is read back exactly when every path is a text without tabs and ends of
    lines, as these devices or as equal ones. What is accepted is written again byte for byte. -/
theorem device_set_codec (devices : List EnrolledDevice) (bytes : Bytes) :
    (encodeDeviceSet devices = .ok bytes →
      (decodeDeviceSet bytes = .ok devices ↔ ∀ device ∈ devices, Clean device.sysfsPath) ∧
      ((∃ others, decodeDeviceSet bytes = .ok others ∧ SameDevices others devices) ↔
        ∀ device ∈ devices, Clean device.sysfsPath)) ∧
    (decodeDeviceSet bytes = .ok devices → encodeDeviceSet devices = .ok bytes) := by
  refine ⟨fun h => ⟨⟨fun hread => ?_, fun hclean => ?_⟩, fun hread => ?_, fun hclean => ?_⟩,
    fun h => (decodeDeviceSet_ok h).1⟩
  · exact (decodeDeviceSet_ok hread).2
  · exact decode_encode_device_set hclean h
  · obtain ⟨others, hothers, hsame⟩ := hread
    exact clean_of_read hothers hsame
  · exact ⟨devices, decode_encode_device_set hclean h, SameDevices.refl devices⟩

/-- A keyboard below a directory with a tab in its name. -/
def tabbedDevice : EnrolledDevice where
  eventNumber := 2
  eventNumber_lt := by decide
  sysfsPath := ascii "/sys/devices/a\tb/event2"
  classes := [ascii "key"]
  identity := ⟨ascii "topology", none, none, none, none, none, by decide +kernel, by decide, rfl⟩
  capabilities := ⟨List.replicate 10 (ascii "0"), rfl, by decide +kernel⟩
  sysfsPath_valid := by decide +kernel
  classes_valid := by decide +kernel

theorem device_set_tab : (∃ bytes, encodeDeviceSet [tabbedDevice] = .ok bytes) ∧
    ∀ bytes, encodeDeviceSet [tabbedDevice] = .ok bytes →
      decodeDeviceSet bytes ≠ .ok [tabbedDevice] := by
  refine ⟨?_, fun bytes _ hread => ?_⟩
  · have hok : (encodeDeviceSet [tabbedDevice]).isOk = true := by decide +kernel
    cases h : encodeDeviceSet [tabbedDevice] with
    | error e =>
      rw [h] at hok
      cases hok
    | ok bytes => exact ⟨bytes, rfl⟩
  · have hclean := (decodeDeviceSet_ok hread).2 tabbedDevice List.mem_cons_self
    exact hclean.1 (by decide +kernel)

end AgentSeat.Broker
