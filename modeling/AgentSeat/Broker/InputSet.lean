/-
  The complete map of the kernel's input-event class, as a manifest (`initial_input_set.rs`).

  Names and paths are bytes as the system has them. Two paths are the same if their components are;
  what is written to a manifest is the text of a path, so what is read back is that text.
-/
import AgentSeat.Lib.Paths
import AgentSeat.Lib.Text

namespace AgentSeat.Broker

open AgentSeat.Lib AgentSeat.Lib.Json AgentSeat.Lib.Paths AgentSeat.Lib.Text

/-! ## Mappings -/

def maxInputClassMappings : Nat := 256
def maxInputSetBytes : Nat := 64 * 1024

/-- `event{number}`. -/
def eventName (number : Nat) : Bytes := ascii "event" ++ digits number

def validSysfsPath (eventNumber : Nat) (path : Bytes) : Bool :=
  validUtf8 path && !path.contains 0 && !path.contains 10 && !path.contains 13 &&
    !path.contains 9 && startsWith path (ascii "/sys/devices") &&
    fileName path = some (eventName eventNumber) && isSafeAbsolute path

/-- One event number with the path it resolves to. -/
structure InputClassMapping where
  eventNumber : Nat
  eventNumber_lt : eventNumber < 2 ^ 32
  sysfsPath : Bytes
  valid : validSysfsPath eventNumber sysfsPath = true
  deriving DecidableEq

/-- Mappings as the code compares them. -/
def InputClassMapping.Same (mapping other : InputClassMapping) : Prop :=
  mapping.eventNumber = other.eventNumber ∧ SamePath mapping.sysfsPath other.sysfsPath

inductive InputSetError where
  | malformed
  | boundExceeded
  deriving DecidableEq

def InputClassMapping.new (eventNumber : Nat) (sysfsPath : Bytes) :
    Except InputSetError InputClassMapping :=
  if h : eventNumber < 2 ^ 32 ∧ validSysfsPath eventNumber sysfsPath = true then
    .ok ⟨eventNumber, h.1, sysfsPath, h.2⟩
  else .error .malformed

/-- Each number is greater than the one before it. -/
def ascending : List Nat → Bool
  | number :: next :: rest => number < next && ascending (next :: rest)
  | _ => true

def validateOrder (mappings : List InputClassMapping) : Except InputSetError Unit :=
  if mappings.length > maxInputClassMappings then .error .boundExceeded
  else if mappings = [] then .error .malformed
  else if ascending (mappings.map (·.eventNumber)) then .ok ()
  else .error .malformed

/-! ## The manifest -/

def inputSetHeader : Bytes := ascii "ASIS\t1"

/-- The line of a mapping, without its end. -/
def InputClassMapping.line (mapping : InputClassMapping) : Bytes :=
  eventName mapping.eventNumber ++ 9 :: mapping.sysfsPath

def encodeMappings (output : Bytes) : List InputClassMapping → Except InputSetError Bytes
  | [] => .ok output
  | mapping :: mappings =>
    let output := output ++ (mapping.line ++ [10])
    if output.length > maxInputSetBytes then .error .boundExceeded
    else encodeMappings output mappings

def encodeInputSet (mappings : List InputClassMapping) : Except InputSetError Bytes := do
  validateOrder mappings
  encodeMappings (inputSetHeader ++ [10]) mappings

def parseEventName (value : Bytes) : Option Nat := do
  let number ← (ascii "event").isPrefixOf? value
  if number = [] ∨ !number.all isDigit then none
  else do
    let parsed ← parseU32 number
    if value = eventName parsed then some parsed else none

def decodeLine (line : Bytes) : Except InputSetError InputClassMapping :=
  match splitOnce 9 line with
  | none => .error .malformed
  | some (event, path) =>
    if path.contains 9 then .error .malformed
    else match parseEventName event with
      | none => .error .malformed
      | some number => InputClassMapping.new number path

def decodeMappings (mappings : List InputClassMapping) :
    List Bytes → Except InputSetError (List InputClassMapping)
  | [] => .ok mappings
  | line :: lines =>
    if mappings.length ≥ maxInputClassMappings then .error .boundExceeded
    else do
      let mapping ← decodeLine line
      decodeMappings (mappings ++ [mapping]) lines

def decodeInputSet (source : Bytes) : Except InputSetError (List InputClassMapping) :=
  if source.length > maxInputSetBytes then .error .boundExceeded
  else if source.getLast? ≠ some 10 then .error .malformed
  else if !validUtf8 source then .error .malformed
  else match splitTerminator 10 source with
    | [] => .error .malformed
    | header :: lines =>
      if header ≠ inputSetHeader then .error .malformed
      else do
        let mappings ← decodeMappings [] lines
        validateOrder mappings
        return mappings

/-! ## What is written is what is read -/

theorem eventName_ascii {number : Nat} {b : UInt8} (hb : b ∈ eventName number) :
    0x20 < b ∧ b < 0x80 := by
  obtain hb | hb := List.mem_append.mp hb
  · have hall : ∀ b ∈ ascii "event", 0x20 < b ∧ b < 0x80 := by decide +kernel
    exact hall b hb
  · have hdigit := digits_isDigit hb
    simp only [isDigit, within, Bool.and_eq_true, decide_eq_true_eq] at hdigit
    exact ⟨Nat.lt_of_lt_of_le (by decide) hdigit.1, Nat.lt_of_le_of_lt hdigit.2 (by decide)⟩

theorem eventName_not_mem {number : Nat} {b : UInt8} (hb : b ≤ 0x20) : b ∉ eventName number :=
  fun hmem => absurd hb (Nat.not_le_of_lt (eventName_ascii hmem).1)

theorem eventName_injective {number other : Nat} (h : eventName number = eventName other) :
    number = other := by
  have hdigits : digits number = digits other := List.append_cancel_left h
  rw [← number_digits number, hdigits, number_digits]

theorem parseEventName_eventName {number : Nat} (h : number < 2 ^ 32) :
    parseEventName (eventName number) = some number := by
  have hdigits : (digits number).all isDigit = true :=
    List.all_eq_true.mpr fun b hb => digits_isDigit hb
  unfold parseEventName eventName
  rw [isPrefixOf?_append]
  show (if digits number = [] ∨ !(digits number).all isDigit then none else _) = _
  rw [if_neg, parseU32_digits h]
  · exact if_pos rfl
  · simp [digits_ne_nil, hdigits]

theorem parseEventName_some {value : Bytes} {number : Nat} (h : parseEventName value = some number) :
    value = eventName number := by
  unfold parseEventName at h
  obtain ⟨digits, -, h⟩ := Option.bind_eq_some_iff.mp h
  split_ifs at h
  obtain ⟨parsed, -, h⟩ := Option.bind_eq_some_iff.mp h
  split_ifs at h with hvalue
  obtain rfl := Option.some.inj h
  exact hvalue

namespace InputClassMapping

variable (mapping : InputClassMapping)

theorem sysfsPath_plain : validUtf8 mapping.sysfsPath = true ∧ 10 ∉ mapping.sysfsPath ∧
    13 ∉ mapping.sysfsPath ∧ 9 ∉ mapping.sysfsPath := by
  have h := mapping.valid
  simp only [validSysfsPath, Bool.and_eq_true, Bool.not_eq_true', List.contains_eq_mem,
    decide_eq_false_iff_not] at h
  obtain ⟨⟨⟨⟨⟨⟨⟨hutf8, -⟩, hline⟩, hreturn⟩, htab⟩, -⟩, -⟩, -⟩ := h
  exact ⟨hutf8, hline, hreturn, htab⟩

theorem new_self : InputClassMapping.new mapping.eventNumber mapping.sysfsPath = .ok mapping :=
  dif_pos ⟨mapping.eventNumber_lt, mapping.valid⟩

theorem decodeLine_line : decodeLine mapping.line = .ok mapping := by
  obtain ⟨-, -, -, htab⟩ := mapping.sysfsPath_plain
  have hevent : 9 ∉ eventName mapping.eventNumber := eventName_not_mem (by decide)
  have hpath : mapping.sysfsPath.contains 9 = false := by simpa using htab
  unfold decodeLine line
  rw [splitOnce_append _ hevent]
  simp only [hpath, Bool.false_eq_true, if_false, parseEventName_eventName mapping.eventNumber_lt]
  exact mapping.new_self

theorem line_not_mem : 10 ∉ mapping.line := by
  intro hmem
  obtain hmem | hmem := List.mem_append.mp hmem
  · exact eventName_not_mem (by decide) hmem
  · obtain hmem | hmem := List.mem_cons.mp hmem
    · exact absurd hmem (by decide)
    · exact mapping.sysfsPath_plain.2.1 hmem

theorem line_utf8 : validUtf8 mapping.line = true := by
  refine validUtf8_append ?_ (validUtf8_append (show validUtf8 [9] = true from rfl)
    mapping.sysfsPath_plain.1)
  exact validUtf8_of_ascii fun b hb => (eventName_ascii hb).2

end InputClassMapping

theorem encodeMappings_ok {bytes : Bytes} : ∀ {mappings : List InputClassMapping} {output : Bytes},
    encodeMappings output mappings = .ok bytes →
      bytes = output ++ unlines 10 (mappings.map (·.line)) ∧
        (mappings ≠ [] → bytes.length ≤ maxInputSetBytes)
  | [], output, h => by
    obtain rfl := Except.ok.inj h
    exact ⟨(List.append_nil output).symm, fun hne => absurd rfl hne⟩
  | mapping :: mappings, output, h => by
    unfold encodeMappings at h
    dsimp only at h
    split_ifs at h with hbound
    obtain ⟨hbytes, hlength⟩ := encodeMappings_ok h
    refine ⟨?_, fun _ => ?_⟩
    · rw [hbytes]
      simp [unlines]
    · cases mappings with
      | nil =>
        rw [hbytes]
        simpa [unlines] using Nat.le_of_not_lt hbound
      | cons next rest => exact hlength (List.cons_ne_nil _ _)

theorem decodeMappings_lines : ∀ (mappings found : List InputClassMapping),
    found.length + mappings.length ≤ maxInputClassMappings →
      decodeMappings found (mappings.map (·.line)) = .ok (found ++ mappings)
  | [], found, _ => by simp [decodeMappings]
  | mapping :: mappings, found, h => by
    rw [List.length_cons] at h
    have ih := decodeMappings_lines mappings (found ++ [mapping]) (by
      rw [List.length_append, List.length_singleton]
      omega)
    unfold decodeMappings
    rw [List.map_cons]
    dsimp only
    rw [if_neg (by omega), mapping.decodeLine_line]
    show decodeMappings (found ++ [mapping]) (mappings.map (·.line)) = _
    rw [ih]
    simp

theorem validateOrder_ok {mappings : List InputClassMapping} (h : validateOrder mappings = .ok ()) :
    mappings ≠ [] ∧ mappings.length ≤ maxInputClassMappings ∧
      ascending (mappings.map (·.eventNumber)) = true := by
  unfold validateOrder at h
  split_ifs at h with hlength hempty hascending
  exact ⟨hempty, Nat.le_of_not_lt hlength, hascending⟩

theorem inputSetHeader_plain : 10 ∉ inputSetHeader ∧ validUtf8 inputSetHeader = true := by
  decide +kernel

/-- Reading a manifest gives the mappings it was written from, text for text. -/
theorem decode_encode_input_set {mappings : List InputClassMapping} {bytes : Bytes}
    (h : encodeInputSet mappings = .ok bytes) : decodeInputSet bytes = .ok mappings := by
  unfold encodeInputSet at h
  cases horder : validateOrder mappings with
  | error error => rw [horder] at h; cases h
  | ok done =>
    rw [horder] at h
    obtain ⟨hne, hcount, -⟩ := validateOrder_ok horder
    obtain ⟨hbytes, hbound⟩ := encodeMappings_ok h
    have hlines : bytes = unlines 10 (inputSetHeader :: mappings.map (·.line)) := by
      rw [hbytes]
      simp [unlines]
    have hsplit : splitTerminator 10 bytes = inputSetHeader :: mappings.map (·.line) := by
      rw [hlines]
      refine splitTerminator_unlines fun line hline => ?_
      obtain rfl | hline := List.mem_cons.mp hline
      · exact inputSetHeader_plain.1
      · obtain ⟨mapping, -, rfl⟩ := List.mem_map.mp hline
        exact mapping.line_not_mem
    have hutf8 : validUtf8 bytes = true := by
      rw [hlines]
      refine validUtf8_unlines fun line hline => ?_
      obtain rfl | hline := List.mem_cons.mp hline
      · exact inputSetHeader_plain.2
      · obtain ⟨mapping, -, rfl⟩ := List.mem_map.mp hline
        exact mapping.line_utf8
    have hlast : bytes.getLast? = some 10 := by
      rw [hlines]
      exact getLast?_unlines (List.cons_ne_nil _ _)
    unfold decodeInputSet
    rw [if_neg (Nat.not_lt_of_le (hbound hne)), if_neg (fun h => h hlast), hutf8, hsplit]
    simp only [Bool.not_true, Bool.false_eq_true, if_false, ne_eq, not_true_eq_false]
    rw [decodeMappings_lines mappings [] (by simpa using hcount)]
    show (validateOrder mappings >>= fun _ => pure mappings) = _
    rw [horder]
    rfl

/-! ## What is read is what is written -/

theorem InputClassMapping.of_new {eventNumber : Nat} {sysfsPath : Bytes}
    {mapping : InputClassMapping} (h : InputClassMapping.new eventNumber sysfsPath = .ok mapping) :
    mapping.eventNumber = eventNumber ∧ mapping.sysfsPath = sysfsPath := by
  unfold InputClassMapping.new at h
  split_ifs at h
  obtain rfl := Except.ok.inj h
  exact ⟨rfl, rfl⟩

theorem decodeLine_ok {line : Bytes} {mapping : InputClassMapping} (h : decodeLine line = .ok mapping) :
    line = mapping.line := by
  unfold decodeLine at h
  cases hsplit : splitOnce 9 line with
  | none => rw [hsplit] at h; cases h
  | some parts =>
    obtain ⟨event, path⟩ := parts
    rw [hsplit] at h
    dsimp only at h
    split_ifs at h with htab
    cases hevent : parseEventName event with
    | none => rw [hevent] at h; cases h
    | some number =>
      rw [hevent] at h
      obtain ⟨hnumber, hpath⟩ := InputClassMapping.of_new h
      unfold InputClassMapping.line
      rw [hnumber, hpath, ← parseEventName_some hevent]
      exact (splitOnce_some hsplit).1

theorem decodeMappings_ok {lines : List Bytes} {found mappings : List InputClassMapping}
    (h : decodeMappings found lines = .ok mappings) :
    ∃ rest, mappings = found ++ rest ∧ lines = rest.map (·.line) := by
  induction lines generalizing found with
  | nil =>
    obtain rfl := Except.ok.inj h
    exact ⟨[], (List.append_nil found).symm, rfl⟩
  | cons line lines ih =>
    unfold decodeMappings at h
    split_ifs at h
    cases hline : decodeLine line with
    | error e => rw [hline] at h; cases h
    | ok mapping =>
      rw [hline] at h
      obtain ⟨rest, hmappings, hlines⟩ := ih h
      refine ⟨mapping :: rest, ?_, ?_⟩
      · rw [hmappings, List.append_assoc, List.singleton_append]
      · rw [decodeLine_ok hline, hlines, List.map_cons]

theorem encodeMappings_fits {mappings : List InputClassMapping} {output : Bytes}
    (h : (output ++ unlines 10 (mappings.map (·.line))).length ≤ maxInputSetBytes) :
    encodeMappings output mappings = .ok (output ++ unlines 10 (mappings.map (·.line))) := by
  induction mappings generalizing output with
  | nil => simp [encodeMappings, unlines]
  | cons mapping mappings ih =>
    have hnext : output ++ unlines 10 ((mapping :: mappings).map (·.line)) =
        (output ++ (mapping.line ++ [10])) ++ unlines 10 (mappings.map (·.line)) := by
      simp [unlines]
    rw [hnext] at h ⊢
    have hlength := h
    rw [List.length_append] at hlength
    unfold encodeMappings
    dsimp only
    rw [if_neg (by omega)]
    exact ih h

/-- A manifest that is accepted: its order, and its bytes as lines. -/
theorem decodeInputSet_ok {source : Bytes} {mappings : List InputClassMapping}
    (h : decodeInputSet source = .ok mappings) : source.length ≤ maxInputSetBytes ∧
      validateOrder mappings = .ok () ∧
        source = unlines 10 (inputSetHeader :: mappings.map (·.line)) := by
  unfold decodeInputSet at h
  split_ifs at h with hlength hlast hutf8
  have hsource := splitTerminator_of_getLast? (not_not.mp hlast)
  cases hsplit : splitTerminator 10 source with
  | nil => rw [hsplit] at h; cases h
  | cons header lines =>
    rw [hsplit] at h hsource
    dsimp only at h
    split_ifs at h with hheader
    cases hmappings : decodeMappings [] lines with
    | error e => rw [hmappings] at h; cases h
    | ok found =>
      rw [hmappings] at h
      cases horder : validateOrder found with
      | error e =>
        replace h : (validateOrder found >>= fun _ => pure found) = Except.ok mappings := h
        rw [horder] at h
        cases h
      | ok done =>
        replace h : (validateOrder found >>= fun _ => pure found) = Except.ok mappings := h
        rw [horder] at h
        obtain rfl := Except.ok.inj h
        obtain ⟨rest, hfound, hlines⟩ := decodeMappings_ok hmappings
        rw [List.nil_append] at hfound
        rw [hlines, ← hfound, not_not.mp hheader] at hsource
        exact ⟨Nat.le_of_not_lt hlength, horder, hsource.symm⟩

/-- Writing what was read gives the manifest, byte for byte. -/
theorem encode_decode_input_set {source : Bytes} {mappings : List InputClassMapping}
    (h : decodeInputSet source = .ok mappings) : encodeInputSet mappings = .ok source := by
  obtain ⟨hlength, horder, hsource⟩ := decodeInputSet_ok h
  have hlines : source = (inputSetHeader ++ [10]) ++ unlines 10 (mappings.map (·.line)) := by
    rw [hsource]
    simp [unlines]
  unfold encodeInputSet
  rw [horder]
  show encodeMappings (inputSetHeader ++ [10]) mappings = .ok source
  rw [hlines] at hlength ⊢
  exact encodeMappings_fits hlength

theorem ascending_pairwise : ∀ {numbers : List Nat}, ascending numbers = true →
    numbers.Pairwise (· < ·)
  | [], _ => List.Pairwise.nil
  | [number], _ => List.pairwise_singleton _ _
  | number :: next :: rest, h => by
    unfold ascending at h
    rw [Bool.and_eq_true, decide_eq_true_eq] at h
    have ih := ascending_pairwise h.2
    refine List.pairwise_cons.mpr ⟨fun other hother => ?_, ih⟩
    rcases List.mem_cons.mp hother with rfl | hother
    · exact h.1
    · exact Nat.lt_trans h.1 ((List.pairwise_cons.mp ih).1 other hother)

/-- The manifest of the input class is a code: what is written is read back text for text, what is
    accepted is written again byte for byte, and only ordered, bounded, nonempty lists are accepted. -/
theorem input_set_codec :
    (∀ mappings bytes, encodeInputSet mappings = .ok bytes → decodeInputSet bytes = .ok mappings) ∧
    (∀ bytes mappings, decodeInputSet bytes = .ok mappings → encodeInputSet mappings = .ok bytes) ∧
    ∀ bytes mappings, decodeInputSet bytes = .ok mappings → mappings ≠ [] ∧
      mappings.length ≤ 256 ∧ (mappings.map (·.eventNumber)).Pairwise (· < ·) := by
  refine ⟨fun _ _ h => decode_encode_input_set h, fun _ _ h => encode_decode_input_set h,
    fun bytes mappings h => ?_⟩
  obtain ⟨hne, hcount, hascending⟩ := validateOrder_ok (decodeInputSet_ok h).2.1
  exact ⟨hne, hcount, ascending_pairwise hascending⟩

end AgentSeat.Broker
