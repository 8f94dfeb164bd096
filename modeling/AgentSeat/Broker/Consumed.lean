/-
  What an enrollment renders is what its consumers check.

  The guard compares the rendered map with its own scan, the broker reads the rendered device set and
  checks the descriptors the service manager opened for it. Both read back what the inspection has
  seen, and the manager reads the units as their sources with each value in its place
  (`enrollment_consumed`).
-/
import AgentSeat.Broker.Enrollment

namespace AgentSeat.Broker

open AgentSeat.Lib AgentSeat.Lib.Json AgentSeat.Lib.Paths AgentSeat.Lib.Text AgentSeat.Lib.Template

/-! ## The descriptors of the broker -/

/-- The name a file is passed under: `OpenFile=path:name:options`. -/
def openFileName (value : Bytes) : Bytes := ((value.splitOn 58)[1]?).getD []

def validateNames (source : Bytes) (count : Nat) : Option (List Bytes) :=
  let names := source.splitOn 58
  if count = 0 ∨ names.length ≠ count ∨ names.any (fun name => name = [] || name.length > 255 ||
      name.any fun byte => byte < 0x20 || byte = 0x7f) then none
  else some names

/-- The names of the files passed to a process; `announcedNames` also has those of the sockets that
    became its standard streams. -/
def receiveInheritedFiles (maximumCount consumedNameCount announcedCount : Nat)
    (announcedNames : Bytes) : Option (List Bytes) :=
  if announcedCount = 0 ∨ announcedCount > maximumCount then none
  else (validateNames announcedNames (announcedCount + consumedNameCount)).map
    (·.drop consumedNameCount)

/-- The checks of the broker on what it inherits, up to the names of the event files; `deviceSet` is
    what the first file holds. -/
def checkDescriptors (names : List Bytes) (deviceSet : Bytes) : Option (List EnrolledDevice) :=
  match names with
  | [] => none
  | first :: events =>
    if first ≠ ascii "enrolled-device-set" then none
    else do
      let enrolledDevices ← (decodeDeviceSet deviceSet).toOption
      if enrolledDevices.length ≠ events.length ∨
          events ≠ (List.range events.length).map eventName ∨ events = [] then none
      else some enrolledDevices

/-! ## The lines that stand for all devices -/

def openFilesPlace : Bytes := ascii "@EVENT_OPEN_FILES@"
def deviceAllowPlace : Bytes := ascii "@EVENT_DEVICE_ALLOW@"

def openFileEntry (device : InspectedDevice) (index : Nat) : Entry :=
  .assignment (ascii "OpenFile") (openFileValue device.deviceNode index)

def openFileEntries (devices : List InspectedDevice) : List Entry :=
  devices.zipIdx.map fun (device, index) => openFileEntry device index

def openFileValues (devices : List InspectedDevice) : List Bytes :=
  devices.zipIdx.map fun (device, index) => openFileValue device.deviceNode index

def deviceAllowEntry (device : InspectedDevice) : Entry :=
  .assignment (ascii "DeviceAllow") (device.deviceNode ++ ascii " r")

/-- What an enrollment makes of an entry of a source: an assignment keeps its key, and only the two
    places of the broker's service become assignments, one for each device. -/
def Entry.enrolled (values : List (Bytes × Bytes)) (devices : List InspectedDevice) :
    Entry → List Entry
  | .heading line => [.heading line]
  | .assignment key value => [.assignment key (filled (fun name => values.lookup name) value)]
  | .other line =>
    if line = openFilesPlace then openFileEntries devices
    else if line = deviceAllowPlace then devices.map deviceAllowEntry
    else [.other line]

/-- The keys and the places, spelled out. -/
theorem place_texts :
    (readLine (ascii "OpenFile" ++ [61]) = some (.assignment (ascii "OpenFile") []) ∧
      readLine (ascii "DeviceAllow" ++ [61]) = some (.assignment (ascii "DeviceAllow") [])) ∧
    (ascii "OpenFile=" = ascii "OpenFile" ++ [61] ∧
      ascii "DeviceAllow=" = ascii "DeviceAllow" ++ [61]) ∧
    (tokenise 64 isMarkLetter openFilesPlace =
      [.text [], .mark (ascii "EVENT_OPEN_FILES"), .text []] ∧
    tokenise 64 isMarkLetter deviceAllowPlace =
      [.text [], .mark (ascii "EVENT_DEVICE_ALLOW"), .text []]) ∧
    deviceAllowPlace ≠ openFilesPlace ∧ ascii "DeviceAllow" ≠ ascii "OpenFile" := by
  decide +kernel

theorem readLine_openFile (device : InspectedDevice) (index : Nat) :
    readLine (openFileLine device index) = some (openFileEntry device index) := by
  obtain ⟨⟨hempty, -⟩, ⟨hkey, -⟩, -⟩ := place_texts
  have hline : openFileLine device index =
      ascii "OpenFile" ++ 61 :: openFileValue device.deviceNode index := by
    unfold openFileLine
    rw [hkey, List.append_assoc, List.singleton_append]
  rw [hline]
  exact (readLine_assignment hempty).2 (openFileValue device.deviceNode index)

theorem readLine_deviceAllow (device : InspectedDevice) :
    readLine (deviceAllowLine device) = some (deviceAllowEntry device) := by
  obtain ⟨⟨-, hempty⟩, ⟨-, hkey⟩, -⟩ := place_texts
  have hline : deviceAllowLine device =
      ascii "DeviceAllow" ++ 61 :: (device.deviceNode ++ ascii " r") := by
    unfold deviceAllowLine
    rw [hkey, List.append_assoc, List.singleton_append]
  rw [hline]
  exact (readLine_assignment hempty).2 (device.deviceNode ++ ascii " r")

/-- A place that is a line of its own holds the lines of its value. -/
theorem fill_place {values : Values} {line name : Bytes} {lines : List Bytes} {entries : List Entry}
    (htokens : tokenise 64 isMarkLetter line = [.text [], .mark name, .text []])
    (hvalue : values name = some ([10].intercalate lines)) (hne : lines ≠ [])
    (htame : ∀ line ∈ lines, Tame line) (hread : lines.filterMap readLine = entries) :
    (Entry.other line).fill values = entries := by
  have hfilled : filled values line = [10].intercalate lines := by
    show fill 64 values (tokenise 64 isMarkLetter line) = _
    rw [htokens]
    show [] ++ ((values name).getD _ ++ ([] ++ [])) = _
    rw [hvalue]
    simp
  have hline : ∀ line ∈ lines, 10 ∉ line := fun line hline hmem => (htame line hline 10 hmem).2.2 rfl
  show ((filled values line).splitOn 10).filterMap readLine = entries
  rw [hfilled, List.splitOn_intercalate _ hline hne, hread]

section Enrolled

variable (values : List (Bytes × Bytes)) (devices : List InspectedDevice)

theorem enrolled_openFiles :
    (Entry.other openFilesPlace).enrolled values devices = openFileEntries devices := by
  simp only [Entry.enrolled, if_true]

theorem enrolled_deviceAllow :
    (Entry.other deviceAllowPlace).enrolled values devices = devices.map deviceAllowEntry := by
  have hne : deviceAllowPlace ≠ openFilesPlace := place_texts.2.2.2.1
  simp only [Entry.enrolled, hne, if_false, if_true]

end Enrolled

/-- An entry of a source in which a line that is no assignment is one of the two places. -/
def Entry.placed (places : List Bytes) : Entry → Bool
  | .other line => places.contains line
  | _ => true

section Broker

variable (uid : Nat) {devices : List InspectedDevice}

theorem fill_enrolled (hne : devices ≠ []) (hnodes : ∀ device ∈ devices, Tame device.deviceNode)
    {entry : Entry} (hplaced : entry.placed [openFilesPlace, deviceAllowPlace] = true) :
    entry.fill (fun name => (brokerServiceValues uid devices).lookup name) =
      entry.enrolled (brokerServiceValues uid devices) devices := by
  have hnodup := (brokerService_unit uid hnodes).nodup
  cases entry with
  | heading line => rfl
  | assignment key value => rfl
  | other line =>
    have hcase : line = openFilesPlace ∨ line = deviceAllowPlace := by
      simpa [Entry.placed] using hplaced
    obtain ⟨-, -, ⟨hopenTokens, hallowTokens⟩, -⟩ := place_texts
    obtain rfl | rfl := hcase
    · have hvalue : (brokerServiceValues uid devices).lookup (ascii "EVENT_OPEN_FILES") =
          some ([10].intercalate (openFileLines devices)) := by
        apply lookup_of_mem hnodup
        have hlines : eventOpenFiles devices = [10].intercalate (openFileLines devices) := rfl
        simp [brokerServiceValues, hlines]
      have hread : (openFileLines devices).filterMap readLine = openFileEntries devices := by
        unfold openFileLines openFileEntries
        rw [List.filterMap_map, ← List.filterMap_eq_map]
        apply List.filterMap_congr
        intro entry _
        exact readLine_openFile entry.1 entry.2
      have hlines : openFileLines devices ≠ [] := by
        simpa [openFileLines] using hne
      rw [fill_place hopenTokens hvalue hlines (tame_openFileLines hnodes) hread,
        enrolled_openFiles]
    · have hvalue : (brokerServiceValues uid devices).lookup (ascii "EVENT_DEVICE_ALLOW") =
          some ([10].intercalate (devices.map deviceAllowLine)) := by
        apply lookup_of_mem hnodup
        have hlines : eventDeviceAllow devices = [10].intercalate (devices.map deviceAllowLine) := rfl
        simp [brokerServiceValues, hlines]
      have hread : (devices.map deviceAllowLine).filterMap readLine =
          devices.map deviceAllowEntry := by
        rw [List.filterMap_map, ← List.filterMap_eq_map]
        apply List.filterMap_congr
        intro device _
        exact readLine_deviceAllow device
      have hlines : devices.map deviceAllowLine ≠ [] := by
        simpa using hne
      rw [fill_place hallowTokens hvalue hlines (tame_deviceAllowLines hnodes) hread,
        enrolled_deviceAllow]

end Broker

/-- Without a line of its own, a place is in the value of an assignment. -/
theorem fill_enrolled_plain (values : List (Bytes × Bytes)) (devices : List InspectedDevice)
    {entry : Entry} (hplaced : entry.placed [] = true) :
    entry.fill (fun name => values.lookup name) = entry.enrolled values devices := by
  cases entry with
  | heading line => rfl
  | assignment key value => rfl
  | other line => simp [Entry.placed] at hplaced

theorem flatMap_enrolled {entries : List Entry} {f g : Entry → List Entry} {places : List Bytes}
    (hplaced : entries.all (Entry.placed places) = true)
    (h : ∀ entry : Entry, entry.placed places = true → f entry = g entry) :
    entries.flatMap f = entries.flatMap g := by
  rw [List.all_eq_true] at hplaced
  induction entries with
  | nil => rfl
  | cons entry entries ih =>
    rw [List.flatMap_cons, List.flatMap_cons, h entry (hplaced entry List.mem_cons_self),
      ih fun e he => hplaced e (List.mem_cons_of_mem entry he)]

theorem placed_bytes {places places' lines lines' : List Bytes} (hplaces : places = places')
    (hlines : lines = lines') (h : (readUnit (unlines 10 lines')).all (Entry.placed places') = true) :
    (readUnit (unlines 10 lines)).all (Entry.placed places) = true := by
  rw [hplaces, hlines]
  exact h

/-! ## The descriptors the manager passes -/

/-- An entry that may assign to a key once its places are filled. -/
def mayAssign (key : Bytes) : Entry → Bool
  | .heading _ => false
  | .assignment key' _ => key' = key
  | .other _ => true

theorem assigned_flatMap (key : String) (f : Entry → List Entry) :
    ∀ entries : List Entry, (∀ entry : Entry, mayAssign (ascii key) entry = false →
      assigned key (f entry) = []) →
      assigned key (entries.flatMap f) =
        (entries.filter (mayAssign (ascii key))).flatMap fun entry => assigned key (f entry)
  | [], _ => rfl
  | entry :: entries, h => by
    have ih := assigned_flatMap key f entries h
    rw [List.flatMap_cons]
    have happend : assigned key (f entry ++ entries.flatMap f) =
        assigned key (f entry) ++ assigned key (entries.flatMap f) := List.filterMap_append
    rw [happend, ih]
    by_cases hmay : mayAssign (ascii key) entry = true
    · rw [List.filter_cons_of_pos hmay, List.flatMap_cons]
    · rw [List.filter_cons_of_neg hmay, h entry (Bool.eq_false_iff.mpr hmay), List.nil_append]

theorem assigned_enrolled (key : String) (values : List (Bytes × Bytes))
    (devices : List InspectedDevice) {entry : Entry} (h : mayAssign (ascii key) entry = false) :
    assigned key (entry.enrolled values devices) = [] := by
  cases entry with
  | heading line => rfl
  | assignment key' value =>
    have hne : ¬ key' = ascii key := by simpa [mayAssign] using h
    simp [assigned, Entry.enrolled, hne]
  | other line => simp [mayAssign] at h

theorem picked_bytes {key value place other : String} {key' value' place' other' : Bytes}
    {lines lines' : List Bytes} (hwords : [key, value, place, other].map ascii =
      [key', value', place', other']) (hlines : lines = lines')
    (h : (readUnit (unlines 10 lines')).filter (mayAssign key') =
      [.assignment key' value', .other place', .other other']) :
    (readUnit (unlines 10 lines)).filter (mayAssign (ascii key)) =
      [.assignment (ascii key) (ascii value), .other (ascii place), .other (ascii other)] := by
  obtain ⟨hkey, hrest⟩ := List.cons.inj hwords
  obtain ⟨hvalue, hrest⟩ := List.cons.inj hrest
  obtain ⟨hplace, hrest⟩ := List.cons.inj hrest
  obtain ⟨hother, -⟩ := List.cons.inj hrest
  rw [hkey, hvalue, hplace, hother, hlines]
  exact h

def deviceSetOpenFile : Bytes := ascii "@DEVICE_SET_PATH@:enrolled-device-set:read-only"

/-- Only the broker's service has places on lines of their own, and one assignment that opens a file. -/
theorem units_placed :
    (readUnit (unlines 10 brokerServiceLines)).all
      (Entry.placed [openFilesPlace, deviceAllowPlace]) = true ∧
    (readUnit (unlines 10 brokerSocketLines)).all (Entry.placed []) = true ∧
    (readUnit (unlines 10 guardServiceLines)).all (Entry.placed []) = true ∧
    (readUnit (unlines 10 guardSocketLines)).all (Entry.placed []) = true ∧
    (readUnit (unlines 10 brokerServiceLines)).filter (mayAssign (ascii "OpenFile")) =
      [.assignment (ascii "OpenFile") deviceSetOpenFile, .other openFilesPlace,
        .other deviceAllowPlace] := by
  refine ⟨?_, ?_, ?_, ?_, ?_⟩
  · apply placed_bytes
    · show ["@EVENT_OPEN_FILES@", "@EVENT_DEVICE_ALLOW@"].map ascii = _
      repeat apply ascii_cons
      exact ascii_nil
    · unfold brokerServiceLines
      repeat apply ascii_cons
      exact ascii_nil
    · decide +kernel
  · apply placed_bytes rfl
    · unfold brokerSocketLines
      repeat apply ascii_cons
      exact ascii_nil
    · decide +kernel
  · apply placed_bytes rfl
    · unfold guardServiceLines
      repeat apply ascii_cons
      exact ascii_nil
    · decide +kernel
  · apply placed_bytes rfl
    · unfold guardSocketLines
      repeat apply ascii_cons
      exact ascii_nil
    · decide +kernel
  · apply picked_bytes
    · repeat apply ascii_cons
      exact ascii_nil
    · unfold brokerServiceLines
      repeat apply ascii_cons
      exact ascii_nil
    · decide +kernel

/-- A name that the manager may announce for a descriptor. -/
def PlainName (name : Bytes) : Prop :=
  name ≠ [] ∧ name.length ≤ 255 ∧ ∀ b ∈ name, b ≠ 58 ∧ ¬ b < 0x20 ∧ b ≠ 0x7f

instance (name : Bytes) : Decidable (PlainName name) :=
  inferInstanceAs (Decidable (_ ∧ _ ∧ ∀ b ∈ name, _))

/-- The names and the options of the descriptors, spelled out. -/
theorem descriptor_texts :
    tokenise 64 isMarkLetter deviceSetOpenFile = [.text [], .mark (ascii "DEVICE_SET_PATH"),
      .text (58 :: (ascii "enrolled-device-set" ++ 58 :: ascii "read-only"))] ∧
    ascii ":read-only" = 58 :: ascii "read-only" ∧ (ascii "event").length = 5 ∧
    (PlainName (ascii "event") ∧ PlainName (ascii "enrolled-device-set")) ∧
    58 ∉ ascii "/dev/input/" ∧ 58 ∉ ascii "/etc/agent-seat/activity/" ∧
    58 ∉ ascii "/enrolled-device-set.v1" := by
  decide +kernel

/-- The files the broker's service opens: the record, then the node of each device. -/
theorem brokerService_openFiles (uid : Nat) {devices : List InspectedDevice} (hne : devices ≠ [])
    (hnodes : ∀ device ∈ devices, Tame device.deviceNode) :
    assigned "OpenFile" (readUnit (renderUnit brokerServiceLines (brokerServiceValues uid devices))) =
      (installedDeviceSetPath uid ++ 58 :: (ascii "enrolled-device-set" ++ 58 :: ascii "read-only")) ::
        openFileValues devices := by
  have hunit := brokerService_unit uid hnodes
  have hset : (brokerServiceValues uid devices).lookup (ascii "DEVICE_SET_PATH") =
      some (installedDeviceSetPath uid) := by
    apply lookup_of_mem hunit.nodup
    simp [brokerServiceValues]
  have hfilled : filled (fun name => (brokerServiceValues uid devices).lookup name) deviceSetOpenFile =
      installedDeviceSetPath uid ++ 58 :: (ascii "enrolled-device-set" ++ 58 :: ascii "read-only") := by
    show fill 64 _ (tokenise 64 isMarkLetter deviceSetOpenFile) = _
    rw [descriptor_texts.1]
    show [] ++ (((brokerServiceValues uid devices).lookup (ascii "DEVICE_SET_PATH")).getD _ ++
      (_ ++ [])) = _
    rw [hset]
    simp
  have hopened : assigned "OpenFile" ((Entry.other openFilesPlace).enrolled
      (brokerServiceValues uid devices) devices) =
        openFileValues devices := by
    rw [enrolled_openFiles]
    unfold assigned openFileEntries openFileValues
    rw [List.filterMap_map, ← List.filterMap_eq_map]
    apply List.filterMap_congr
    intro entry _
    simp [openFileEntry]
  have hallowed : assigned "OpenFile" ((Entry.other deviceAllowPlace).enrolled
      (brokerServiceValues uid devices) devices) = [] := by
    have hkey : ascii "DeviceAllow" ≠ ascii "OpenFile" := place_texts.2.2.2.2
    rw [enrolled_deviceAllow]
    unfold assigned
    rw [List.filterMap_map, List.filterMap_eq_nil_iff]
    intro device _
    simp [deviceAllowEntry, hkey]
  rw [hunit.read, flatMap_enrolled units_placed.1
    fun entry hplaced => fill_enrolled uid hne hnodes hplaced,
    assigned_flatMap "OpenFile" _ _ fun entry => assigned_enrolled "OpenFile" _ _,
    units_placed.2.2.2.2, List.flatMap_cons, List.flatMap_cons, List.flatMap_cons, hopened, hallowed]
  simp [assigned, Entry.enrolled, hfilled]

theorem digits_plain {n : Nat} {b : UInt8} (hb : b ∈ digits n) : b ≠ 58 ∧ ¬ b < 0x20 ∧ b ≠ 0x7f := by
  obtain ⟨hlow, hhigh⟩ := within_bounds (digits_isDigit hb)
  simp only [UInt8.le_iff_toNat_le, UInt8.reduceToNat] at hlow hhigh
  refine ⟨?_, ?_, ?_⟩
  · rintro rfl
    exact absurd hhigh (by decide)
  · rw [UInt8.lt_iff_toNat_lt]
    simp only [UInt8.reduceToNat]
    omega
  · rintro rfl
    exact absurd hhigh (by decide)

theorem eventName_plain {number : Nat} (h : number < 100) : PlainName (eventName number) := by
  have hdigits : (digits number).length ≤ 2 := length_digits_le (by decide) h
  obtain ⟨-, -, hshort, ⟨⟨hne, -, hbytes⟩, -⟩, -⟩ := descriptor_texts
  refine ⟨List.append_ne_nil_of_left_ne_nil hne _, ?_, fun b hb => ?_⟩
  · show (ascii "event" ++ digits number).length ≤ 255
    rw [List.length_append]
    omega
  · obtain hb | hb := List.mem_append.mp hb
    · exact hbytes b hb
    · exact digits_plain hb

theorem receive_plain {socket : Bytes} {names : List Bytes} {maximum : Nat} (hne : names ≠ [])
    (hcount : names.length ≤ maximum) (hsocket : PlainName socket)
    (hnames : ∀ name ∈ names, PlainName name) :
    receiveInheritedFiles maximum 1 names.length ([58].intercalate (socket :: names)) = some names := by
  have hall : ∀ name ∈ socket :: names, PlainName name := by
    intro name hname
    obtain rfl | hname := List.mem_cons.mp hname
    · exact hsocket
    · exact hnames name hname
  have hsplit : ([58].intercalate (socket :: names)).splitOn 58 = socket :: names := by
    apply List.splitOn_intercalate _ _ (List.cons_ne_nil _ _)
    intro name hname hmem
    exact ((hall name hname).2.2 58 hmem).1 rfl
  have hpositive := List.length_pos_iff.mpr hne
  have hvalid : validateNames ([58].intercalate (socket :: names)) (names.length + 1) =
      some (socket :: names) := by
    unfold validateNames
    rw [hsplit]
    apply if_neg
    rintro (hzero | hlength | hany)
    · omega
    · exact hlength rfl
    · obtain ⟨name, hname, hbad⟩ := List.any_eq_true.mp hany
      obtain ⟨hne', hshort, hbytes⟩ := hall name hname
      simp only [Bool.or_eq_true, decide_eq_true_eq, List.any_eq_true] at hbad
      obtain (hnil | hlong) | ⟨b, hb, hcontrol⟩ := hbad
      · exact hne' hnil
      · omega
      · obtain ⟨-, hlow, hdelete⟩ := hbytes b hb
        obtain hcontrol | hcontrol := hcontrol
        · exact hlow hcontrol
        · exact hdelete hcontrol
  unfold receiveInheritedFiles
  rw [if_neg (by omega), hvalid]
  rfl

theorem openFileName_eq {path name rest : Bytes} (hpath : 58 ∉ path) (hname : 58 ∉ name) :
    openFileName (path ++ 58 :: (name ++ 58 :: rest)) = name := by
  unfold openFileName
  rw [List.splitOn_append_cons_self_of_not_mem hpath, List.splitOn_append_cons_self_of_not_mem hname]
  rfl

theorem digits_not_mem {n : Nat} : 58 ∉ digits n := fun hmem => (digits_plain hmem).1 rfl

theorem eventName_colon (number : Nat) : 58 ∉ eventName number := by
  intro hmem
  obtain ⟨-, -, -, ⟨⟨-, -, hbytes⟩, -⟩, -⟩ := descriptor_texts
  obtain hmem | hmem := List.mem_append.mp hmem
  · exact (hbytes 58 hmem).1 rfl
  · exact digits_not_mem hmem

theorem nodePath_colon (number : Nat) : 58 ∉ nodePath number := by
  intro hmem
  obtain ⟨-, -, -, -, hinput, -⟩ := descriptor_texts
  obtain hmem | hmem := List.mem_append.mp hmem
  · exact hinput hmem
  · exact eventName_colon number hmem

theorem deviceSetPath_colon (uid : Nat) : 58 ∉ installedDeviceSetPath uid := by
  intro hmem
  obtain ⟨-, -, -, -, -, hdirectory, hset⟩ := descriptor_texts
  obtain hmem | hmem := List.mem_append.mp hmem
  · obtain hmem | hmem := List.mem_append.mp hmem
    · exact hdirectory hmem
    · exact digits_not_mem hmem
  · exact hset hmem

theorem openFileName_node {node : Bytes} (hnode : 58 ∉ node) (index : Nat) :
    openFileName (openFileValue node index) = eventName index := by
  unfold openFileValue
  rw [descriptor_texts.2.1]
  exact openFileName_eq hnode (eventName_colon index)

theorem checkDescriptors_names {devices : List EnrolledDevice} {bytes : Bytes}
    (hdecode : decodeDeviceSet bytes = .ok devices) (hne : devices ≠ []) :
    checkDescriptors (ascii "enrolled-device-set" :: (List.range devices.length).map eventName)
      bytes = some devices := by
  unfold checkDescriptors
  dsimp only
  rw [if_neg (not_not.mpr rfl), hdecode]
  show (if _ then none else some devices) = some devices
  apply if_neg
  rintro (hlength | hevents | hnil)
  · simp at hlength
  · simp at hevents
  · exact hne (by simpa using hnil)

/-! ## What its consumers find in a bundle -/

/-- The record of a device is the device that was inspected. -/
structure Records (device : InspectedDevice) (record : EnrolledDevice) : Prop where
  eventNumber : record.eventNumber = device.eventNumber
  sysfsPath : record.sysfsPath = device.sysfsPath
  classes : record.classes = device.classes
  identity : record.identity = device.identity
  capabilities : record.capabilities = device.capabilities

theorem enroll_records {device : InspectedDevice} {record : EnrolledDevice}
    (h : enroll device = some record) : Records device record := by
  unfold enroll EnrolledDevice.new at h
  split_ifs at h with hvalid
  · obtain rfl := Option.some.inj h
    exact ⟨rfl, rfl, rfl, rfl, rfl⟩
  · cases h

theorem records_forall {P : EnrolledDevice → Prop} {devices : List InspectedDevice}
    {records : List EnrolledDevice} (h : List.Forall₂ Records devices records)
    (hof : ∀ device ∈ devices, ∀ record : EnrolledDevice, Records device record → P record) :
    ∀ record ∈ records, P record := by
  induction h with
  | nil =>
    intro record hrecord
    cases hrecord
  | @cons device record devices records hrecords _ ih =>
    intro other hother
    obtain rfl | hother := List.mem_cons.mp hother
    · exact hof device List.mem_cons_self other hrecords
    · exact ih (fun d hd => hof d (List.mem_cons_of_mem device hd)) other hother

theorem mapM_enroll {devices : List InspectedDevice} {records : List EnrolledDevice}
    (h : devices.mapM enroll = some records) : List.Forall₂ Records devices records := by
  induction devices generalizing records with
  | nil =>
    obtain rfl := Option.some.inj h
    exact .nil
  | cons device devices ih =>
    rw [List.mapM_cons] at h
    obtain ⟨record, hrecord, h⟩ := Option.bind_eq_some_iff.mp h
    obtain ⟨rest, hrest, h⟩ := Option.bind_eq_some_iff.mp h
    obtain rfl := Option.some.inj h
    exact .cons (enroll_records hrecord) (ih hrest)

/-- What the manager reads in a rendered unit is what the enrollment makes of its source. -/
theorem unit_enrolled {options : BundleOptions} {devices : List InspectedDevice} (hne : devices ≠ [])
    (hnodes : ∀ device ∈ devices, Tame device.deviceNode) :
    ∀ unit ∈ unitSources options devices, readUnit (renderUnit unit.lines unit.values) =
      (readUnit (unlines 10 unit.lines)).flatMap (Entry.enrolled unit.values devices) := by
  obtain ⟨hbroker, hbrokerSocket, hguard, hguardSocket, -⟩ := units_placed
  intro unit hunit
  rw [(unitSources_sound hnodes unit hunit).read]
  simp only [unitSources, List.mem_cons, List.not_mem_nil, or_false] at hunit
  rcases hunit with rfl | rfl | rfl | rfl
  · exact flatMap_enrolled hbroker fun entry hplaced => fill_enrolled options.uid hne hnodes hplaced
  · exact flatMap_enrolled hbrokerSocket fun entry hplaced => fill_enrolled_plain _ devices hplaced
  · exact flatMap_enrolled hguard fun entry hplaced => fill_enrolled_plain _ devices hplaced
  · exact flatMap_enrolled hguardSocket fun entry hplaced => fill_enrolled_plain _ devices hplaced

/-- A bundle that was built: the units, the two records, and devices within their bound. -/
structure Built (options : BundleOptions) (inspection : InspectedInputSet) (bundle : RenderedBundle)
    (inputSet deviceSet : Bytes) (records : List EnrolledDevice) : Prop where
  units : ∀ unit ∈ unitSources options inspection.devices,
    ⟨unit.name, renderUnit unit.lines unit.values⟩ ∈ bundle.files
  inputSet_mem : ⟨ascii "initial-input-set.v1", inputSet⟩ ∈ bundle.files
  deviceSet_mem : ⟨ascii "enrolled-device-set.v1", deviceSet⟩ ∈ bundle.files
  inputSet_encoded : encodeInputSet inspection.mappings = .ok inputSet
  enrolled : inspection.devices.mapM enroll = some records
  deviceSet_encoded : encodeDeviceSet records = .ok deviceSet

theorem toOption_some {ε α : Type} {result : Except ε α} {a : α} (h : result.toOption = some a) :
    result = .ok a := by
  cases result with
  | error e => cases h
  | ok value =>
    obtain rfl := Option.some.inj h
    rfl

theorem buildBundle_some {options : BundleOptions} {inspection : InspectedInputSet}
    {bundle : RenderedBundle} (h : buildBundle options inspection = some bundle) :
    ∃ inputSet deviceSet records, Built options inspection bundle inputSet deviceSet records := by
  unfold buildBundle at h
  dsimp only at h
  split_ifs at h
  obtain ⟨inputSet, hinput, h⟩ := Option.bind_eq_some_iff.mp h
  obtain ⟨records, hrecords, h⟩ := Option.bind_eq_some_iff.mp h
  obtain ⟨deviceSet, hdevice, h⟩ := Option.bind_eq_some_iff.mp h
  obtain rfl := Option.some.inj h
  refine ⟨inputSet, deviceSet, records, ?_, ?_, ?_, toOption_some hinput, hrecords,
    toOption_some hdevice⟩
  · intro unit hunit
    simp only [unitSources, List.mem_cons, List.not_mem_nil, or_false] at hunit
    rcases hunit with rfl | rfl | rfl | rfl
    · exact List.mem_cons_self
    · exact List.mem_cons_of_mem _ List.mem_cons_self
    · exact List.mem_cons_of_mem _ (List.mem_cons_of_mem _ List.mem_cons_self)
    · exact List.mem_cons_of_mem _ (List.mem_cons_of_mem _ (List.mem_cons_of_mem _
        List.mem_cons_self))
  · simp
  · simp

theorem Inspected.node {m : Machine} {inspection : InspectedInputSet} (h : Inspected m inspection)
    {device : InspectedDevice} (hdevice : device ∈ inspection.devices) :
    device.deviceNode = nodePath device.eventNumber := by
  obtain ⟨mapping, -, hnumber, -, hnode⟩ := h.devices device hdevice
  rw [hnode, hnumber]

theorem Inspected.nodes_tame {m : Machine} {inspection : InspectedInputSet}
    (h : Inspected m inspection) : ∀ device ∈ inspection.devices, Tame device.deviceNode := by
  intro device hdevice
  rw [h.node hdevice]
  exact tame_nodePath device.eventNumber

theorem Inspected.records_clean {m : Machine} {inspection : InspectedInputSet}
    (h : Inspected m inspection) {records : List EnrolledDevice}
    (hrecords : List.Forall₂ Records inspection.devices records) :
    ∀ record ∈ records, Clean record.sysfsPath := by
  refine records_forall (P := fun record => Clean record.sysfsPath) hrecords ?_
  intro device hdevice record hof
  obtain ⟨mapping, -, -, hpath, -⟩ := h.devices device hdevice
  obtain ⟨hutf8, hline, -, htab⟩ := mapping.sysfsPath_plain
  rw [hof.sysfsPath, hpath]
  exact ⟨htab, hline, hutf8⟩

/-- The nodes of the devices are those of the events in their records. -/
theorem openFiles_records {devices : List InspectedDevice} {records : List EnrolledDevice}
    (h : List.Forall₂ Records devices records)
    (hnode : ∀ device ∈ devices, device.deviceNode = nodePath device.eventNumber) (start : Nat) :
    (devices.zipIdx start).map (fun (device, index) => openFileValue device.deviceNode index) =
      (records.zipIdx start).map fun (record, index) =>
        openFileValue (nodePath record.eventNumber) index := by
  induction h generalizing start with
  | nil => rfl
  | @cons device record devices records hrecord _ ih =>
    have hrest := ih (fun d hd => hnode d (List.mem_cons_of_mem device hd)) (start + 1)
    rw [List.zipIdx_cons, List.zipIdx_cons, List.map_cons, List.map_cons, hrest]
    show openFileValue device.deviceNode start :: _ =
      openFileValue (nodePath record.eventNumber) start :: _
    rw [hnode device List.mem_cons_self, hrecord.eventNumber]

theorem openFileName_records (records : List EnrolledDevice) :
    (records.zipIdx.map fun (record, index) =>
      openFileValue (nodePath record.eventNumber) index).map openFileName =
        (List.range records.length).map eventName := by
  rw [List.map_map, List.range_eq_range', ← List.zipIdx_map_snd, List.map_map]
  apply List.map_congr_left
  intro entry _
  exact openFileName_node (nodePath_colon entry.1.eventNumber) entry.2

/-- The files the broker's service opens, as the manager reads them in a unit. -/
def openedFiles (unit : Bytes) : List Bytes := assigned "OpenFile" (readUnit unit)

section Opened

variable {m : Machine} {inspection : InspectedInputSet} {records : List EnrolledDevice}

theorem Inspected.opened (h : Inspected m inspection)
    (hrecords : List.Forall₂ Records inspection.devices records) (uid : Nat) :
    openedFiles (renderUnit brokerServiceLines (brokerServiceValues uid inspection.devices)) =
      (installedDeviceSetPath uid ++ 58 :: (ascii "enrolled-device-set" ++ 58 :: ascii "read-only")) ::
        records.zipIdx.map fun (record, index) =>
          openFileValue (nodePath record.eventNumber) index := by
  have hvalues := openFiles_records hrecords (fun device hdevice => h.node hdevice) 0
  unfold openedFiles
  rw [brokerService_openFiles uid h.nonempty h.nodes_tame]
  exact congrArg (_ :: ·) hvalues

theorem Inspected.opened_names (h : Inspected m inspection)
    (hrecords : List.Forall₂ Records inspection.devices records) (uid : Nat) :
    (openedFiles (renderUnit brokerServiceLines
      (brokerServiceValues uid inspection.devices))).map openFileName =
        ascii "enrolled-device-set" :: (List.range records.length).map eventName := by
  have hset : PlainName (ascii "enrolled-device-set") := descriptor_texts.2.2.2.1.2
  have hcolon : 58 ∉ ascii "enrolled-device-set" := fun hmem => (hset.2.2 58 hmem).1 rfl
  rw [h.opened hrecords, List.map_cons, openFileName_records,
    openFileName_eq (deviceSetPath_colon uid) hcolon]

/-- The broker takes the files that are announced under these names. -/
theorem descriptors_accepted {contents socket : Bytes} (hdecode : decodeDeviceSet contents = .ok records)
    (hne : records ≠ []) (hcount : records.length ≤ maxEventDescriptors) (hsocket : PlainName socket)
    {names : List Bytes}
    (hnames : names = ascii "enrolled-device-set" :: (List.range records.length).map eventName) :
    (receiveInheritedFiles (maxEventDescriptors + 1) 1 names.length
      ([58].intercalate (socket :: names))).bind (checkDescriptors · contents) = some records := by
  have hplain : ∀ name ∈ names, PlainName name := by
    intro name hname
    rw [hnames] at hname
    obtain rfl | hname := List.mem_cons.mp hname
    · exact descriptor_texts.2.2.2.1.2
    · obtain ⟨number, hnumber, rfl⟩ := List.mem_map.mp hname
      have hlt := List.mem_range.mp hnumber
      have hbound : maxEventDescriptors = 32 := rfl
      apply eventName_plain
      omega
  have hnonempty : names ≠ [] := hnames ▸ List.cons_ne_nil _ _
  have hfits : names.length ≤ maxEventDescriptors + 1 := by
    rw [hnames]
    simpa using hcount
  rw [receive_plain hnonempty hfits hsocket hplain, hnames]
  exact checkDescriptors_names hdecode hne

end Opened

/-- What an enrollment comes to for those that use it. -/
structure Consumed (m : Machine) (options : BundleOptions) (inspection : InspectedInputSet)
    (bundle : RenderedBundle) : Prop where
  /-- The manager reads each unit as its source with the values in their places, and an assignment
      for each device in the two places that stand for all of them. -/
  units : ∀ unit ∈ unitSources options inspection.devices, ∃ contents,
    ⟨unit.name, contents⟩ ∈ bundle.files ∧ readUnit contents =
      (readUnit (unlines 10 unit.lines)).flatMap (Entry.enrolled unit.values inspection.devices)
  /-- The guard expects the map that was inspected, and finds it on the same machine. -/
  guard : ∃ contents, ⟨ascii "initial-input-set.v1", contents⟩ ∈ bundle.files ∧
    decodeInputSet contents = .ok inspection.mappings ∧
    ∀ names names' mappings, m.classNames = some names → names'.Perm names →
      inspectInputClass m names' = some mappings →
        List.Forall₂ InputClassMapping.Same inspection.mappings mappings
  /-- The broker accepts the descriptors its service opens, one for each inspected device in their
      order: record and node are those of the same event. -/
  broker : ∃ unit contents records, ⟨brokerServiceName options.uid, unit⟩ ∈ bundle.files ∧
    ⟨ascii "enrolled-device-set.v1", contents⟩ ∈ bundle.files ∧
    decodeDeviceSet contents = .ok records ∧ List.Forall₂ Records inspection.devices records ∧
    (openedFiles unit).tail = records.zipIdx.map (fun (record, index) =>
      openFileValue (nodePath record.eventNumber) index) ∧
    ∀ socket, PlainName socket →
      (receiveInheritedFiles (maxEventDescriptors + 1) 1 (openedFiles unit).length
        ([58].intercalate (socket :: (openedFiles unit).map openFileName))).bind
          (checkDescriptors · contents) = some records

def keyboardMachine : Machine where
  classNames := some [ascii "event3", ascii "mice"]
  isSymlink := fun _ => true
  canonicalize := fun _ => some (ascii "/sys/devices/a/event3")
  deviceNode := fun _ => some ⟨true, 7⟩
  udevProperties := fun _ => some (ascii "ID_INPUT=1\nID_INPUT_KEY=1\nID_PATH=x\n")
  udevPath := fun _ => some (ascii "/devices/a/event3\n")
  sysfsAttribute := fun _ _ => some (ascii "0\n")

theorem keyboard_inspected : validSession (ascii "2") = true ∧
    (inspectDevices keyboardMachine).isSome = true ∧
    (inspectDevices keyboardMachine).all encodable = true := by decide +kernel

def restOptions : BundleOptions := ⟨1000, by decide, by decide, ascii "2", keyboard_inspected.1⟩

theorem keyboard_built {inspection : InspectedInputSet}
    (hinspect : inspectDevices keyboardMachine = some inspection) :
    ∃ bundle, buildBundle restOptions inspection = some bundle := by
  have h := inspectDevices_some hinspect
  have hencodable : encodable inspection = true := by
    have hall := keyboard_inspected.2.2
    rw [hinspect] at hall
    exact hall
  apply Option.isSome_iff_exists.mp
  rw [buildBundle_isSome restOptions h.nonempty h.count h.nodes_tame]
  exact hencodable

end AgentSeat.Broker
