/-
  One file for one list? (`initial_input_set.rs` and `device_set.rs`)

  Both manifests are checked line by line, and written again they are the same bytes. Their paths are
  checked by their components, and so is their equality. A path may be spelled with slashes and dots
  that say nothing; such a manifest is accepted and equals another one.

  Main result:
  * `manifests_canonical_iff`: the accepted manifests are normalized, and equal only if they are the
    same bytes, exactly when their paths are spelled out.
-/
import AgentSeat.Broker.DeviceSet

namespace AgentSeat.Broker

open AgentSeat.Lib AgentSeat.Lib.Json AgentSeat.Lib.Paths AgentSeat.Lib.Text

/-! ## The paths of a file -/

/-- The second field of a line, if it has one. -/
def pathField (line : Bytes) : Option Bytes := (line.splitOn 9)[1]?

/-- The second fields of the lines after the header. -/
def writtenPaths (file : Bytes) : List Bytes := (file.splitOn 10).tail.filterMap pathField

/-- In the file's paths there is nothing but names between slashes. -/
def SpelledOut (file : Bytes) : Prop := ∀ path ∈ writtenPaths file, spelledOut path = true

instance (file : Bytes) : Decidable (SpelledOut file) := inferInstanceAs (Decidable (∀ _ ∈ _, _))

/-- A normalized absolute path whose last component is the name of the event. -/
def NormalizedEvent (eventNumber : Nat) (path : Bytes) : Prop :=
  ∃ names, Normalized names path ∧ names.getLast? = some (eventName eventNumber)

theorem writtenPaths_lines {header : Bytes} {lines : List Bytes} (hheader : 10 ∉ header)
    (hlines : ∀ line ∈ lines, 10 ∉ line) :
    writtenPaths (unlines 10 (header :: lines)) = lines.filterMap pathField := by
  have hall : ∀ line ∈ header :: lines, 10 ∉ line := by
    intro line hline
    rcases List.mem_cons.mp hline with rfl | hline
    · exact hheader
    · exact hlines line hline
  unfold writtenPaths
  rw [splitOn_unlines hall, List.cons_append, List.tail_cons, List.filterMap_append]
  exact List.append_nil _

theorem filterMap_pathField {α : Type} {line path : α → Bytes} {entries : List α}
    (h : ∀ entry ∈ entries, pathField (line entry) = some (path entry)) :
    (entries.map line).filterMap pathField = entries.map path := by
  induction entries with
  | nil => rfl
  | cons entry entries ih =>
    rw [List.map_cons, List.filterMap_cons_some (h entry List.mem_cons_self), List.map_cons,
      ih fun other hother => h other (List.mem_cons_of_mem _ hother)]

/-! ## The map of the input class -/

theorem InputClassMapping.sysfsPath_safe (mapping : InputClassMapping) :
    mapping.sysfsPath.head? = some 47 ∧ isSafeAbsolute mapping.sysfsPath = true ∧
      fileName mapping.sysfsPath = some (eventName mapping.eventNumber) := by
  have h := mapping.valid
  simp only [validSysfsPath, Bool.and_eq_true, decide_eq_true_eq] at h
  obtain ⟨⟨⟨-, hstarts⟩, hname⟩, hsafe⟩ := h
  exact ⟨head?_of_startsWith rfl hstarts, hsafe, hname⟩

theorem writtenPaths_inputSet {file : Bytes} {mappings : List InputClassMapping}
    (h : decodeInputSet file = .ok mappings) : writtenPaths file = mappings.map (·.sysfsPath) := by
  obtain ⟨-, -, rfl⟩ := decodeInputSet_ok h
  rw [writtenPaths_lines inputSetHeader_plain.1 fun line hline => ?_]
  · refine filterMap_pathField fun mapping _ => ?_
    have hevent : 9 ∉ eventName mapping.eventNumber := eventName_not_mem (by decide)
    unfold InputClassMapping.line pathField
    rw [List.splitOn_append_cons_self_of_not_mem hevent,
      List.splitOn_eq_singleton mapping.sysfsPath_plain.2.2.2]
    rfl
  · obtain ⟨mapping, -, rfl⟩ := List.mem_map.mp hline
    exact mapping.line_not_mem

def SameMappings (mappings others : List InputClassMapping) : Prop :=
  List.Forall₂ InputClassMapping.Same mappings others

/-! ## The record of the devices -/

theorem EnrolledDevice.sysfsPath_safe (device : EnrolledDevice) :
    device.sysfsPath.head? = some 47 ∧ isSafeAbsolute device.sysfsPath = true ∧
      fileName device.sysfsPath = some (eventName device.eventNumber) := by
  have h := device.sysfsPath_valid
  simp only [validateSysfsPath, Bool.and_eq_true, decide_eq_true_eq] at h
  obtain ⟨⟨⟨habsolute, -⟩, hname⟩, hsafe⟩ := h
  exact ⟨habsolute, hsafe, hname⟩

theorem writtenPaths_deviceSet {file : Bytes} {devices : List EnrolledDevice}
    (h : decodeDeviceSet file = .ok devices) : writtenPaths file = devices.map (·.sysfsPath) := by
  obtain ⟨hencode, hclean⟩ := decodeDeviceSet_ok h
  unfold encodeDeviceSet at hencode
  split_ifs at hencode
  have hfile : file = unlines 10 (deviceSetHeader :: devices.map (·.line)) := by
    rw [(encodeDevices_ok hencode).1]
    simp [unlines]
  rw [hfile, writtenPaths_lines deviceSetHeader_not_mem fun line hline => ?_]
  · refine filterMap_pathField fun device hdevice => ?_
    unfold pathField
    rw [device.line_splitOn (hclean device hdevice)]
    unfold EnrolledDevice.fields
    rw [lossy_of_validUtf8 (hclean device hdevice).2.2]
    rfl
  · obtain ⟨device, hdevice, rfl⟩ := List.mem_map.mp hline
    exact device.line_not_mem (hclean device hdevice)

/-! ## Normalized, and one file for one list -/

/-- For every path: spelled out is normalized, when the components are safe and end with the event. -/
theorem normalizedEvent_iff {eventNumber : Nat} {path : Bytes} (habsolute : path.head? = some 47)
    (hsafe : isSafeAbsolute path = true) (hname : fileName path = some (eventName eventNumber)) :
    NormalizedEvent eventNumber path ↔ spelledOut path = true := by
  constructor
  · intro h
    obtain ⟨names, hnormalized, -⟩ := h
    exact hnormalized.spelledOut
  · exact fun h => normalized_of_spelledOut habsolute hsafe hname h

/-- Two files that were accepted: all paths are normalized, and the files are the same when their
    lists are equal. -/
structure Canonical {Entry : Type} (number : Entry → Nat) (path : Entry → Bytes)
    (Same : Entry → Entry → Prop) (file other : Bytes) (entries others : List Entry) : Prop where
  normalized : ∀ entry ∈ entries, NormalizedEvent (number entry) (path entry)
  other_normalized : ∀ entry ∈ others, NormalizedEvent (number entry) (path entry)
  unique : List.Forall₂ Same entries others → file = other

/-- What the two manifests have in common: the paths of the entries are safe, and the paths of the
    file; the list is written as the file; equal entries with one path are the same. -/
structure Manifest (Entry : Type) where
  decodes : Bytes → List Entry → Prop
  number : Entry → Nat
  path : Entry → Bytes
  Same : Entry → Entry → Prop
  safe : ∀ entry : Entry, (path entry).head? = some 47 ∧ isSafeAbsolute (path entry) = true ∧
    fileName (path entry) = some (eventName (number entry))
  paths : ∀ (file : Bytes) (entries : List Entry), decodes file entries →
    writtenPaths file = entries.map path
  written : ∀ (file other : Bytes) (entries : List Entry), decodes file entries →
    decodes other entries → file = other
  samePath : ∀ entry other : Entry, Same entry other → SamePath (path entry) (path other)
  eq_of_path : ∀ entry other : Entry, Same entry other → path entry = path other → entry = other

namespace Manifest

variable {Entry : Type} (m : Manifest Entry) {file other : Bytes} {entries others : List Entry}

theorem normalized_iff (h : m.decodes file entries) :
    (∀ entry ∈ entries, NormalizedEvent (m.number entry) (m.path entry)) ↔ SpelledOut file := by
  have hentry (entry : Entry) :
      NormalizedEvent (m.number entry) (m.path entry) ↔ spelledOut (m.path entry) = true := by
    obtain ⟨habsolute, hsafe, hname⟩ := m.safe entry
    exact normalizedEvent_iff habsolute hsafe hname
  unfold SpelledOut
  rw [m.paths file entries h, List.forall_mem_map]
  exact forall₂_congr fun entry _ => hentry entry

/-- Equal lists with paths that are spelled out are one list. -/
theorem eq_of_same (hsame : List.Forall₂ m.Same entries others)
    (h : ∀ entry ∈ entries, spelledOut (m.path entry) = true)
    (h' : ∀ entry ∈ others, spelledOut (m.path entry) = true) : entries = others := by
  induction hsame with
  | nil => rfl
  | @cons entry entry' rest rest' hfirst hrest ih =>
    have hpath : m.path entry = m.path entry' :=
      eq_of_samePath (m.safe entry).1 (m.safe entry').1 (h entry List.mem_cons_self)
        (h' entry' List.mem_cons_self) (m.samePath entry entry' hfirst)
    rw [m.eq_of_path entry entry' hfirst hpath,
      ih (fun e he => h e (List.mem_cons_of_mem _ he)) fun e he => h' e (List.mem_cons_of_mem _ he)]

theorem canonical_iff (h : m.decodes file entries) (h' : m.decodes other others) :
    Canonical m.number m.path m.Same file other entries others ↔
      SpelledOut file ∧ SpelledOut other := by
  constructor
  · exact fun hcanonical => ⟨(m.normalized_iff h).mp hcanonical.normalized,
      (m.normalized_iff h').mp hcanonical.other_normalized⟩
  · intro hspelled
    refine ⟨(m.normalized_iff h).mpr hspelled.1, (m.normalized_iff h').mpr hspelled.2,
      fun hsame => ?_⟩
    have hentries : ∀ entry ∈ entries, spelledOut (m.path entry) = true := by
      have hall := hspelled.1
      unfold SpelledOut at hall
      rwa [m.paths file entries h, List.forall_mem_map] at hall
    have hothers : ∀ entry ∈ others, spelledOut (m.path entry) = true := by
      have hall := hspelled.2
      unfold SpelledOut at hall
      rwa [m.paths other others h', List.forall_mem_map] at hall
    obtain rfl := m.eq_of_same hsame hentries hothers
    exact m.written file other entries h h'

end Manifest

def inputSetManifest : Manifest InputClassMapping where
  decodes file mappings := decodeInputSet file = .ok mappings
  number := InputClassMapping.eventNumber
  path := InputClassMapping.sysfsPath
  Same := InputClassMapping.Same
  safe := InputClassMapping.sysfsPath_safe
  paths _ _ h := writtenPaths_inputSet h
  written _ _ _ h h' :=
    Except.ok.inj ((encode_decode_input_set h).symm.trans (encode_decode_input_set h'))
  samePath _ _ h := h.2
  eq_of_path mapping other h hpath := by
    cases mapping
    cases other
    obtain ⟨hnumber, -⟩ := h
    congr

def deviceSetManifest : Manifest EnrolledDevice where
  decodes file devices := decodeDeviceSet file = .ok devices
  number := EnrolledDevice.eventNumber
  path := EnrolledDevice.sysfsPath
  Same := EnrolledDevice.Same
  safe := EnrolledDevice.sysfsPath_safe
  paths _ _ h := writtenPaths_deviceSet h
  written _ _ _ h h' := Except.ok.inj ((decodeDeviceSet_ok h).1.symm.trans (decodeDeviceSet_ok h').1)
  samePath _ _ h := h.sysfsPath
  eq_of_path device other h hpath := by
    obtain ⟨hnumber, -, hclasses, hidentity, hcapabilities⟩ := h
    cases device
    cases other
    congr

/-- Of both manifests, for every two files that are accepted: their paths are normalized, and equal
    lists come from the same bytes, exactly when there is nothing but names between the slashes of
    the files' paths. -/
theorem manifests_canonical_iff (file other : Bytes) :
    (∀ mappings others, decodeInputSet file = .ok mappings → decodeInputSet other = .ok others →
      (Canonical InputClassMapping.eventNumber InputClassMapping.sysfsPath InputClassMapping.Same
        file other mappings others ↔ SpelledOut file ∧ SpelledOut other)) ∧
    ∀ devices others, decodeDeviceSet file = .ok devices → decodeDeviceSet other = .ok others →
      (Canonical EnrolledDevice.eventNumber EnrolledDevice.sysfsPath EnrolledDevice.Same
        file other devices others ↔ SpelledOut file ∧ SpelledOut other) :=
  ⟨fun _ _ h h' => inputSetManifest.canonical_iff h h',
    fun _ _ h h' => deviceSetManifest.canonical_iff h h'⟩

/-- A map with one event, below a directory that is named or written with two slashes. -/
def plainFile : Bytes := ascii "ASIS\t1\nevent2\t/sys/devices/a/event2\n"
def doubledFile : Bytes := ascii "ASIS\t1\nevent2\t/sys/devices//a/event2\n"

/-- Both are accepted and equal, and one is not normalized. -/
theorem two_spellings : ∃ mapping other : InputClassMapping,
    decodeInputSet plainFile = .ok [mapping] ∧ decodeInputSet doubledFile = .ok [other] ∧
      SameMappings [mapping] [other] ∧ plainFile ≠ doubledFile ∧
        ¬ NormalizedEvent other.eventNumber other.sysfsPath := by
  refine ⟨⟨2, by decide, ascii "/sys/devices/a/event2", by decide +kernel⟩,
    ⟨2, by decide, ascii "/sys/devices//a/event2", by decide +kernel⟩, by decide +kernel,
    by decide +kernel, ?_, by decide +kernel, fun hnormalized => ?_⟩
  · exact List.Forall₂.cons ⟨rfl, by decide +kernel⟩ List.Forall₂.nil
  · obtain ⟨names, hnames, -⟩ := hnormalized
    have hspelled := hnames.spelledOut
    exact absurd hspelled (by decide +kernel)

end AgentSeat.Broker
