/-
  The kernel's messages about devices (`UeventMonitor` of `agent-seat-eligibility-guard.rs`).

  A message is a header and fields, each with a zero at its end. The guard reads all messages that
  wait for it and stops when one of them is about an input device, or is not a message it can read.

  Main result:
  * `drain_reports`: what is reported is exactly whether one of the messages is about an input
    device, and a queue with anything else than well-formed messages of the kernel is an error.
-/
import AgentSeat.Lib.Text

namespace AgentSeat.Broker

open AgentSeat.Lib AgentSeat.Lib.Json AgentSeat.Lib.Text

/-! ## The code -/

def maxUeventBytes : Nat := 16 * 1024
def maxUeventFields : Nat := 128

/-- The address a datagram comes from. The kernel's own has port 0. -/
inductive UeventSource where
  | netlink (pid : Nat)
  | other
  deriving DecidableEq

structure Datagram where
  bytes : List UInt8
  source : Option UeventSource

/-- What waits at the socket; `EAGAIN` is the answer when nothing does. -/
inductive Arrival where
  | datagram (d : Datagram)
  | failure (errno : Nat)

inductive UeventError where
  | truncated
  | invalidSource
  | userspaceSender
  | noSource
  | lost (errno : Nat)
  | incomplete
  | noHeader
  | malformedHeader
  | interiorTerminator
  | tooManyFields
  | invalidSubsystem
  | noSubsystem
  | invalidPath
  deriving DecidableEq

def subsystemKey : List UInt8 := ascii "SUBSYSTEM="

/-- The variables of the loop over the fields. -/
structure FieldScan where
  count : Nat
  subsystem : Option (List UInt8)
  ended : Bool

def scanField (s : FieldScan) (field : List UInt8) : Except UeventError FieldScan :=
  if field = [] then .ok { s with ended := true }
  else if s.ended then .error .interiorTerminator
  else if s.count + 1 > maxUeventFields then .error .tooManyFields
  else match subsystemKey.isPrefixOf? field with
    | none => .ok { s with count := s.count + 1 }
    | some value =>
      if value = [] ∨ s.subsystem.isSome then .error .invalidSubsystem
      else .ok { s with count := s.count + 1, subsystem := some value }

def scanFields (s : FieldScan) : List (List UInt8) → Except UeventError FieldScan
  | [] => .ok s
  | field :: fields => do
    let next ← scanField s field
    scanFields next fields

def subsystemOf (path : List UInt8) (s : FieldScan) : Except UeventError Bool :=
  match s.subsystem with
  | none => .error .noSubsystem
  | some subsystem =>
    if subsystem = ascii "input" ∧ !(ascii "/devices/").isPrefixOf path then .error .invalidPath
    else .ok (subsystem = ascii "input")

def isInputUevent (message : List UInt8) : Except UeventError Bool :=
  if message.getLast? ≠ some 0 then .error .incomplete
  else match message.splitOn 0 with
    | [] => .error .noHeader
    | header :: fields =>
      match splitOnce 64 header with
      | none => .error .malformedHeader
      | some (action, path) =>
        if action = [] ∨ path.head? ≠ some 47 then .error .malformedHeader
        else do
          let scan ← scanFields ⟨1, none, false⟩ fields
          subsystemOf path scan

/-- One turn of the loop of `drain`. The buffer gets no more than it has room for, and the call
    says how long the datagram was. -/
def readDatagram (d : Datagram) : Except UeventError Bool :=
  let initialized := d.bytes.take maxUeventBytes
  let received := d.bytes.length
  match d.source with
  | none => .error .noSource
  | some source =>
    if received > maxUeventBytes ∨ initialized.length ≠ received then .error .truncated
    else match source with
      | .other => .error .invalidSource
      | .netlink pid => if pid ≠ 0 then .error .userspaceSender else isInputUevent initialized

def drainFrom (changed : Bool) : List Arrival → Except UeventError Bool
  | [] => .ok changed
  | .failure errno :: _ => .error (.lost errno)
  | .datagram d :: queue => do
    let input ← readDatagram d
    drainFrom (changed || input) queue

def drain (queue : List Arrival) : Except UeventError Bool := drainFrom false queue

/-! ## The accepted form -/

/-- A well-formed message. -/
structure Uevent where
  action : List UInt8
  path : List UInt8
  fields : List (List UInt8)
  subsystem : List UInt8
  /-- Zeros after the last field. -/
  padding : Nat
  action_ne : action ≠ []
  header_plain : 64 ∉ action ∧ 0 ∉ action ∧ 0 ∉ path
  absolute : path.head? = some 47
  fields_plain : ∀ field ∈ fields, field ≠ [] ∧ 0 ∉ field
  bounded : fields.length + 1 ≤ maxUeventFields
  one_subsystem : fields.filter subsystemKey.isPrefixOf = [subsystemKey ++ subsystem]
  subsystem_ne : subsystem ≠ []
  device : subsystem = ascii "input" → (ascii "/devices/").isPrefixOf path = true

namespace Uevent

def header (u : Uevent) : List UInt8 := u.action ++ 64 :: u.path

/-- The bytes of a message. -/
def render (u : Uevent) : List UInt8 :=
  unlines 0 (u.header :: u.fields) ++ List.replicate u.padding 0

def IsInput (u : Uevent) : Prop := u.subsystem = ascii "input"

instance (u : Uevent) : Decidable u.IsInput := inferInstanceAs (Decidable (_ = _))

end Uevent

/-- The whole of a message, sent by the kernel. -/
def FromKernel (u : Uevent) (arrival : Arrival) : Prop :=
  arrival = .datagram ⟨u.render, some (.netlink 0)⟩ ∧ u.render.length ≤ maxUeventBytes

/-! ## The loop over the fields -/

/-- The values of the fields that say which subsystem it is. -/
def subsystemValues (fields : List (List UInt8)) : List (List UInt8) :=
  fields.filterMap subsystemKey.isPrefixOf?

theorem subsystemValues_cons (field : List UInt8) (fields : List (List UInt8)) :
    subsystemValues (field :: fields) =
      (subsystemKey.isPrefixOf? field).toList ++ subsystemValues fields := by
  unfold subsystemValues
  cases h : subsystemKey.isPrefixOf? field with
  | none => rw [List.filterMap_cons_none h]; rfl
  | some value => rw [List.filterMap_cons_some h]; rfl

theorem filter_subsystem (fields : List (List UInt8)) :
    fields.filter subsystemKey.isPrefixOf = (subsystemValues fields).map (subsystemKey ++ ·) := by
  induction fields with
  | nil => rfl
  | cons field fields ih =>
    rw [subsystemValues_cons, List.map_append, ← ih]
    have hsome := List.isSome_isPrefixOf?_eq_isPrefixOf subsystemKey field
    cases h : subsystemKey.isPrefixOf? field with
    | none =>
      rw [h] at hsome
      rw [List.filter_cons_of_neg (by simp [← hsome])]
      rfl
    | some value =>
      rw [h] at hsome
      rw [List.filter_cons_of_pos (by simp [← hsome]), eq_of_isPrefixOf? h]
      rfl

/-- After an empty field, only empty ones are read. -/
theorem scanFields_ended {s s' : FieldScan} (hended : s.ended = true) {pieces : List (List UInt8)}
    (h : scanFields s pieces = .ok s') : (∀ piece ∈ pieces, piece = []) ∧ s' = s := by
  induction pieces with
  | nil => exact ⟨by simp, (Except.ok.inj h).symm⟩
  | cons piece pieces ih =>
    unfold scanFields scanField at h
    by_cases hpiece : piece = []
    · have hsame : ({ s with ended := true } : FieldScan) = s := by rw [← hended]
      rw [if_pos hpiece, hsame] at h
      obtain ⟨hrest, hs⟩ := ih h
      refine ⟨fun other hother => ?_, hs⟩
      rcases List.mem_cons.mp hother with rfl | hother
      · exact hpiece
      · exact hrest other hother
    · rw [if_neg hpiece, if_pos hended] at h
      cases h

theorem scanFields_padding (s : FieldScan) (padding : Nat) :
    ∃ s', scanFields s (List.replicate padding []) = .ok s' ∧ s'.subsystem = s.subsystem := by
  induction padding generalizing s with
  | zero => exact ⟨s, rfl, rfl⟩
  | succ padding ih => exact ih { s with ended := true }

/-- A field that is read: there is room for it, and it names a subsystem only if none is known. -/
theorem scanField_ok {s next : FieldScan} {field : List UInt8} (hfield : field ≠ [])
    (hended : s.ended = false) (h : scanField s field = .ok next) :
    next.count = s.count + 1 ∧ next.count ≤ maxUeventFields ∧ next.ended = false ∧
      next.subsystem.toList = s.subsystem.toList ++ (subsystemKey.isPrefixOf? field).toList ∧
        subsystemKey.isPrefixOf? field ≠ some [] := by
  unfold scanField at h
  rw [if_neg hfield, if_neg (by simp [hended])] at h
  split_ifs at h with hcount
  cases hvalue : subsystemKey.isPrefixOf? field with
  | none =>
    rw [hvalue] at h
    obtain rfl := Except.ok.inj h
    exact ⟨rfl, Nat.le_of_not_lt hcount, hended, by simp, by simp⟩
  | some value =>
    rw [hvalue] at h
    dsimp only at h
    split_ifs at h with hbad
    obtain rfl := Except.ok.inj h
    simp only [not_or, Bool.not_eq_true, Option.isSome_eq_false_iff, Option.isNone_iff_eq_none] at hbad
    exact ⟨rfl, Nat.le_of_not_lt hcount, hended, by simp [hbad.2], by simpa using hbad.1⟩

/-- What has been read when the loop is done. -/
structure Scanned (s : FieldScan) (pieces fields : List (List UInt8)) (padding : Nat)
    (s' : FieldScan) : Prop where
  pieces : pieces = fields ++ List.replicate padding []
  plain : ∀ field ∈ fields, field ≠ []
  bounded : fields ≠ [] → s.count + fields.length ≤ maxUeventFields
  values : s'.subsystem.toList = s.subsystem.toList ++ subsystemValues fields
  values_ne : [] ∉ subsystemValues fields

theorem scanFields_scanned {s s' : FieldScan} (hended : s.ended = false)
    {pieces : List (List UInt8)} (h : scanFields s pieces = .ok s') :
    ∃ fields padding, Scanned s pieces fields padding s' := by
  induction pieces generalizing s with
  | nil =>
    obtain rfl := Except.ok.inj h
    exact ⟨[], 0, rfl, by simp, by simp, by simp [subsystemValues], by simp [subsystemValues]⟩
  | cons piece pieces ih =>
    by_cases hpiece : piece = []
    · have hrest : scanFields { s with ended := true } pieces = .ok s' := by
        unfold scanFields scanField at h
        rw [if_pos hpiece] at h
        exact h
      obtain ⟨hempty, hs⟩ := scanFields_ended rfl hrest
      refine ⟨[], pieces.length + 1, ?_, by simp, by simp, by simp [hs, subsystemValues],
        by simp [subsystemValues]⟩
      rw [List.nil_append, List.replicate_succ, hpiece]
      exact congrArg _ (List.eq_replicate_iff.mpr ⟨rfl, hempty⟩)
    · unfold scanFields at h
      cases hfirst : scanField s piece with
      | error e =>
        rw [hfirst] at h
        cases h
      | ok next =>
        rw [hfirst] at h
        obtain ⟨hcount, hbound, hnext, hvalue, hvalue_ne⟩ := scanField_ok hpiece hended hfirst
        obtain ⟨fields, padding, hscanned⟩ := ih hnext h
        refine ⟨piece :: fields, padding, ?_, ?_, fun _ => ?_, ?_, ?_⟩
        · rw [hscanned.pieces]
          rfl
        · intro field hfield
          rcases List.mem_cons.mp hfield with rfl | hfield
          · exact hpiece
          · exact hscanned.plain field hfield
        · rw [List.length_cons]
          cases fields with
          | nil =>
            simp only [List.length_nil]
            omega
          | cons other rest =>
            have hrest := hscanned.bounded (List.cons_ne_nil _ _)
            omega
        · rw [hscanned.values, hvalue, subsystemValues_cons, List.append_assoc]
        · rw [subsystemValues_cons]
          intro hmem
          rcases List.mem_append.mp hmem with hmem | hmem
          · exact hvalue_ne (Option.mem_toList.mp hmem)
          · exact hscanned.values_ne hmem

theorem scanFields_complete (padding : Nat) {s : FieldScan} (hended : s.ended = false)
    {fields : List (List UInt8)} (hplain : ∀ field ∈ fields, field ≠ [])
    (hbound : s.count + fields.length ≤ maxUeventFields)
    (hvalues : (s.subsystem.toList ++ subsystemValues fields).length ≤ 1)
    (hvalues_ne : [] ∉ subsystemValues fields) :
    ∃ s', scanFields s (fields ++ List.replicate padding []) = .ok s' ∧
      s'.subsystem.toList = s.subsystem.toList ++ subsystemValues fields := by
  induction fields generalizing s with
  | nil =>
    obtain ⟨s', hs', hsubsystem⟩ := scanFields_padding s padding
    exact ⟨s', hs', by simp [hsubsystem, subsystemValues]⟩
  | cons field fields ih =>
    have hfield : field ≠ [] := hplain field List.mem_cons_self
    have hrest : ∀ other ∈ fields, other ≠ [] := fun other hother =>
      hplain other (List.mem_cons_of_mem _ hother)
    rw [List.length_cons] at hbound
    rw [subsystemValues_cons] at hvalues hvalues_ne
    rw [List.cons_append, scanFields, scanField, if_neg hfield, if_neg (by simp [hended]),
      if_neg (by omega), subsystemValues_cons]
    cases hvalue : subsystemKey.isPrefixOf? field with
    | none =>
      rw [hvalue] at hvalues hvalues_ne
      exact @ih { s with count := s.count + 1 } hended hrest (by show s.count + 1 + _ ≤ _; omega)
        hvalues hvalues_ne
    | some value =>
      rw [hvalue] at hvalues hvalues_ne
      simp only [Option.toList_some, List.length_append, List.length_cons,
        List.singleton_append, List.mem_cons, not_or] at hvalues hvalues_ne
      have hnone : s.subsystem = none := by
        cases hs : s.subsystem with
        | none => rfl
        | some known =>
          rw [hs, Option.toList_some, List.length_singleton] at hvalues
          omega
      have hvalue_ne : value ≠ [] := fun h => hvalues_ne.1 h.symm
      dsimp only
      rw [if_neg (by simp [hnone, hvalue_ne])]
      have hroom : ([value] ++ subsystemValues fields).length ≤ 1 := by
        rw [List.length_append, List.length_singleton]
        omega
      obtain ⟨s', hs', hsubsystem⟩ := @ih { s with count := s.count + 1, subsystem := some value }
        hended hrest (by show s.count + 1 + _ ≤ _; omega) hroom hvalues_ne.2
      exact ⟨s', hs', by simpa [hnone] using hsubsystem⟩

/-! ## One message -/

namespace Uevent

variable (u : Uevent)

theorem header_not_mem : 0 ∉ u.header := by
  obtain ⟨-, haction, hpath⟩ := u.header_plain
  intro hmem
  rcases List.mem_append.mp hmem with hmem | hmem
  · exact haction hmem
  · rcases List.mem_cons.mp hmem with hmem | hmem
    · exact absurd hmem (by decide)
    · exact hpath hmem

theorem header_ne : u.header ≠ [] := by simp [header]

theorem render_eq : u.render = unlines 0 (u.header :: u.fields ++ List.replicate u.padding []) := by
  unfold render unlines
  rw [List.flatMap_append, List.flatMap_replicate]
  simp

theorem splitOn_render : u.render.splitOn 0 =
    u.header :: (u.fields ++ List.replicate (u.padding + 1) []) := by
  rw [render_eq, splitOn_unlines]
  · simp [List.replicate_succ']
  · intro line hline
    rcases List.mem_append.mp hline with hline | hline
    · rcases List.mem_cons.mp hline with rfl | hline
      · exact u.header_not_mem
      · exact (u.fields_plain line hline).2
    · rw [(List.mem_replicate.mp hline).2]
      exact List.not_mem_nil

theorem values : subsystemValues u.fields = [u.subsystem] := by
  have hone := u.one_subsystem
  rw [filter_subsystem] at hone
  obtain ⟨value, hvalues, hvalue⟩ := List.map_eq_singleton_iff.mp hone
  rw [hvalues, List.append_cancel_left hvalue]

/-- A well-formed message is read for what it is. -/
theorem isInputUevent_render : isInputUevent u.render = .ok (decide u.IsInput) := by
  have hlast : u.render.getLast? = some 0 := by
    rw [render_eq]
    exact getLast?_unlines (by simp)
  have hheader : splitOnce 64 u.header = some (u.action, u.path) :=
    splitOnce_append u.path u.header_plain.1
  obtain ⟨scan, hscan, hsubsystem⟩ := @scanFields_complete (u.padding + 1) ⟨1, none, false⟩ rfl
    u.fields (fun field hfield => (u.fields_plain field hfield).1)
    (by have := u.bounded; show 1 + _ ≤ _; omega) (by simp [values])
    (by simpa [values] using u.subsystem_ne.symm)
  have hknown : scan.subsystem = some u.subsystem := by
    simpa [values] using hsubsystem
  unfold isInputUevent
  rw [if_neg (fun h => h hlast), splitOn_render]
  dsimp only
  rw [hheader]
  dsimp only
  rw [if_neg (by simp [u.action_ne, u.absolute]), hscan]
  show subsystemOf u.path scan = _
  unfold subsystemOf
  rw [hknown]
  dsimp only
  rw [if_neg fun hbad => by simp [u.device hbad.1] at hbad]
  rfl

end Uevent

theorem subsystemOf_ok {path : List UInt8} {scan : FieldScan} {input : Bool}
    (h : subsystemOf path scan = .ok input) : ∃ subsystem, scan.subsystem = some subsystem ∧
      (subsystem = ascii "input" → (ascii "/devices/").isPrefixOf path = true) := by
  unfold subsystemOf at h
  cases hsubsystem : scan.subsystem with
  | none =>
    rw [hsubsystem] at h
    cases h
  | some subsystem =>
    rw [hsubsystem] at h
    dsimp only at h
    split_ifs at h with hbad
    refine ⟨subsystem, rfl, fun hinput => ?_⟩
    by_contra hpath
    rw [Bool.not_eq_true] at hpath
    exact hbad ⟨hinput, by rw [hpath]; rfl⟩

/-- The empty piece at the end is not a field. -/
theorem Scanned.last {s s' : FieldScan} {rest fields : List (List UInt8)} {padding : Nat}
    (h : Scanned s (rest ++ [[]]) fields padding s') :
    ∃ k, rest = fields ++ List.replicate k [] := by
  cases padding with
  | zero =>
    have hpieces := h.pieces
    rw [List.replicate_zero, List.append_nil] at hpieces
    have hmem : [] ∈ fields := hpieces ▸ List.mem_append_right rest (List.mem_singleton_self [])
    exact absurd rfl (h.plain [] hmem)
  | succ k =>
    have hpieces := h.pieces
    rw [List.replicate_succ', ← List.append_assoc] at hpieces
    exact ⟨k, List.append_cancel_right hpieces⟩

/-- Whatever is read is a well-formed message. -/
theorem isInputUevent_ok {message : List UInt8} {input : Bool} (h : isInputUevent message = .ok input) :
    ∃ u : Uevent, u.render = message := by
  unfold isInputUevent at h
  split_ifs at h with hlast
  obtain ⟨pieces, hpieces, hne, hmessage⟩ := splitOn_of_getLast? (not_not.mp hlast)
  obtain ⟨header, rest, rfl⟩ := List.exists_cons_of_ne_nil hne
  have hplain : ∀ piece ∈ header :: rest ++ [[]], 0 ∉ piece := by
    rw [← hpieces]
    exact fun piece hpiece => not_mem_of_mem_splitOn hpiece
  rw [hpieces, List.cons_append] at h
  dsimp only at h
  cases hheader : splitOnce 64 header with
  | none =>
    rw [hheader] at h
    cases h
  | some parts =>
    obtain ⟨action, path⟩ := parts
    obtain ⟨hsplit, hat⟩ := splitOnce_some hheader
    rw [hheader] at h
    dsimp only at h
    split_ifs at h with hbad
    rw [not_or, not_not] at hbad
    cases hscan : scanFields ⟨1, none, false⟩ (rest ++ [[]]) with
    | error e =>
      rw [hscan] at h
      cases h
    | ok scan =>
      rw [hscan] at h
      obtain ⟨fields, padding, hscanned⟩ := scanFields_scanned rfl hscan
      obtain ⟨padding, hrest⟩ := hscanned.last
      obtain ⟨subsystem, hsubsystem, hdevice⟩ := subsystemOf_ok h
      have hvalues : subsystemValues fields = [subsystem] := by
        have hlist := hscanned.values
        rw [hsubsystem] at hlist
        exact hlist.symm
      have hone : fields.filter subsystemKey.isPrefixOf = [subsystemKey ++ subsystem] := by
        rw [filter_subsystem, hvalues]
        rfl
      have hfields : fields ≠ [] := fun hnil => by simp [hnil, subsystemValues] at hvalues
      have hbounded := hscanned.bounded hfields
      have hheader_plain : 0 ∉ action ++ 64 :: path := by
        rw [← hsplit]
        exact hplain header (by simp)
      have hzero : 0 ∉ action ∧ 0 ∉ path :=
        ⟨fun hmem => hheader_plain (List.mem_append_left _ hmem),
          fun hmem => hheader_plain (List.mem_append_right _ (List.mem_cons_of_mem _ hmem))⟩
      have hrender : unlines 0 ((action ++ 64 :: path) :: fields ++ List.replicate padding []) =
          message := by
        rw [hmessage, hrest, hsplit]
        rfl
      refine ⟨{
        action := action
        path := path
        fields := fields
        subsystem := subsystem
        padding := padding
        action_ne := hbad.1
        header_plain := ⟨hat, hzero⟩
        absolute := hbad.2
        fields_plain := fun field hfield => ⟨hscanned.plain field hfield, ?_⟩
        bounded := by show _ ≤ maxUeventFields; rw [Nat.add_comm]; exact hbounded
        one_subsystem := hone
        subsystem_ne := fun hnil => hscanned.values_ne (by rw [hvalues, hnil]; simp)
        device := hdevice }, ?_⟩
      · refine hplain field ?_
        rw [hrest]
        simp [hfield]
      · exact (Uevent.render_eq _).trans hrender

theorem isInputUevent_ok_iff {message : List UInt8} {input : Bool} :
    isInputUevent message = .ok input ↔ ∃ u : Uevent, u.render = message ∧ decide u.IsInput = input := by
  constructor
  · intro h
    obtain ⟨u, rfl⟩ := isInputUevent_ok h
    rw [u.isInputUevent_render] at h
    exact ⟨u, rfl, Except.ok.inj h⟩
  · intro h
    obtain ⟨u, rfl, rfl⟩ := h
    exact u.isInputUevent_render

/-! ## The queue -/

/-- A well-formed message of the kernel, whole. -/
def WellFormed (arrival : Arrival) : Prop := ∃ u : Uevent, FromKernel u arrival

/-- A well-formed message about an input device. -/
def AboutInput (arrival : Arrival) : Prop := ∃ u : Uevent, FromKernel u arrival ∧ u.IsInput

theorem AboutInput.wellFormed {arrival : Arrival} (h : AboutInput arrival) : WellFormed arrival := by
  obtain ⟨u, hu, -⟩ := h
  exact ⟨u, hu⟩

/-- The bytes of a message say what it is about. -/
theorem FromKernel.aboutInput_iff {u : Uevent} {arrival : Arrival} (h : FromKernel u arrival) :
    AboutInput arrival ↔ u.IsInput := by
  refine ⟨fun hinput => ?_, fun hinput => ⟨u, h, hinput⟩⟩
  obtain ⟨other, hother, hinput⟩ := hinput
  have hrender : u.render = other.render := by
    have hsame := h.1.symm.trans hother.1
    injection hsame with hsame
    injection hsame
  have hread := u.isInputUevent_render
  rw [hrender, other.isInputUevent_render, decide_eq_true hinput] at hread
  exact of_decide_eq_true (Except.ok.inj hread).symm

/-- A datagram is read exactly when it is a whole message of the kernel. -/
theorem readDatagram_ok_iff {d : Datagram} {input : Bool} :
    readDatagram d = .ok input ↔
      WellFormed (.datagram d) ∧ (input = true ↔ AboutInput (.datagram d)) := by
  constructor
  · intro h
    unfold readDatagram at h
    cases hsource : d.source with
    | none =>
      rw [hsource] at h
      cases h
    | some source =>
      rw [hsource] at h
      dsimp only at h
      split_ifs at h with htruncated
      simp only [not_or, Nat.not_lt, not_not] at htruncated
      cases source with
      | other => cases h
      | netlink pid =>
        dsimp only at h
        split_ifs at h with hpid
        rw [List.take_of_length_le htruncated.1] at h
        obtain ⟨u, hrender, hinput⟩ := isInputUevent_ok_iff.mp h
        have hu : FromKernel u (.datagram d) := by
          refine ⟨?_, by rw [hrender]; exact htruncated.1⟩
          rw [hrender, ← not_not.mp hpid, ← hsource]
        exact ⟨⟨u, hu⟩, by rw [hu.aboutInput_iff, ← hinput, decide_eq_true_iff]⟩
  · intro h
    obtain ⟨⟨u, hu⟩, hinput⟩ := h
    rw [hu.aboutInput_iff, ← decide_eq_true_iff (p := u.IsInput), ← Bool.eq_iff_iff] at hinput
    obtain ⟨hd, hlength⟩ := hu
    injection hd with hd
    rw [hd]
    unfold readDatagram
    dsimp only
    rw [List.take_of_length_le hlength, if_neg (by omega), if_neg (by simp), hinput]
    exact u.isInputUevent_render

/-- What one turn adds to the flag, and from it what a whole queue does. -/
theorem drainFrom_ok_iff {changed b : Bool} {queue : List Arrival} :
    drainFrom changed queue = .ok b ↔ (∀ arrival ∈ queue, WellFormed arrival) ∧
      (b = true ↔ changed = true ∨ ∃ arrival ∈ queue, AboutInput arrival) := by
  induction queue generalizing changed with
  | nil =>
    unfold drainFrom
    rw [Except.ok.injEq, Bool.eq_iff_iff]
    simp [iff_comm]
  | cons arrival queue ih =>
    cases arrival with
    | failure errno =>
      have hnot : ¬ WellFormed (.failure errno) := by
        intro hwell
        obtain ⟨u, hu, -⟩ := hwell
        cases hu
      simp [drainFrom, hnot]
    | datagram d =>
      unfold drainFrom
      cases hread : readDatagram d with
      | error e =>
        have hnot : ¬ WellFormed (.datagram d) := by
          intro hwell
          obtain ⟨u, hu⟩ := hwell
          have hok : readDatagram d = .ok (decide u.IsInput) :=
            readDatagram_ok_iff.mpr ⟨⟨u, hu⟩, by rw [hu.aboutInput_iff, decide_eq_true_iff]⟩
          rw [hread] at hok
          cases hok
        constructor
        · intro h
          cases h
        · intro h
          exact absurd (h.1 _ List.mem_cons_self) hnot
      | ok input =>
        obtain ⟨hwell, hinput⟩ := readDatagram_ok_iff.mp hread
        show drainFrom (changed || input) queue = .ok b ↔ _
        rw [ih, Bool.or_eq_true, hinput]
        simp only [List.mem_cons, exists_eq_or_imp, forall_eq_or_imp, hwell, true_and, or_assoc]

/-! ## What is reported -/

/-- What the guard learns from a queue. -/
structure DrainReports (queue : List Arrival) : Prop where
  changed : drain queue = .ok true ↔
    (∀ arrival ∈ queue, WellFormed arrival) ∧ ∃ arrival ∈ queue, AboutInput arrival
  unchanged : drain queue = .ok false ↔
    (∀ arrival ∈ queue, WellFormed arrival) ∧ ¬ ∃ arrival ∈ queue, AboutInput arrival
  failed : (∃ e, drain queue = .error e) ↔ ¬ ∀ arrival ∈ queue, WellFormed arrival
  /-- A field that says input is seen, wherever it stands and whatever is around it. -/
  noticed : ∀ d, .datagram d ∈ queue → ascii "SUBSYSTEM=input" ∈ d.bytes.splitOn 0 →
    drain queue ≠ .ok false

theorem Uevent.isInput_of_field {u : Uevent} (h : ascii "SUBSYSTEM=input" ∈ u.render.splitOn 0) :
    u.IsInput := by
  rw [u.splitOn_render] at h
  have hfield : ascii "SUBSYSTEM=input" ∈ u.fields := by
    rcases List.mem_cons.mp h with heq | h
    · have hat : 64 ∈ ascii "SUBSYSTEM=input" := by
        rw [heq]
        exact List.mem_append_right _ List.mem_cons_self
      exact absurd hat (by decide)
    · rcases List.mem_append.mp h with h | h
      · exact h
      · exact absurd (List.mem_replicate.mp h).2 (by decide)
  have hfilter : ascii "SUBSYSTEM=input" ∈ u.fields.filter subsystemKey.isPrefixOf :=
    List.mem_filter.mpr ⟨hfield, by decide⟩
  rw [u.one_subsystem, List.mem_singleton] at hfilter
  have hsplit : ascii "SUBSYSTEM=input" = subsystemKey ++ ascii "input" := by decide
  exact (List.append_cancel_left (hsplit.symm.trans hfilter)).symm

/-- For every queue: a change is reported exactly when all that waits are well-formed messages of the
    kernel and one of them is about an input device; no change, when none is; everything else is an
    error. -/
theorem drain_reports (queue : List Arrival) : DrainReports queue := by
  have hok (b : Bool) : drain queue = .ok b ↔ (∀ arrival ∈ queue, WellFormed arrival) ∧
      (b = true ↔ ∃ arrival ∈ queue, AboutInput arrival) := by
    unfold drain
    simpa using @drainFrom_ok_iff false b queue
  have hunchanged : drain queue = .ok false ↔
      (∀ arrival ∈ queue, WellFormed arrival) ∧ ¬ ∃ arrival ∈ queue, AboutInput arrival := by
    simpa using hok false
  refine ⟨by simpa using hok true, hunchanged, ⟨fun h => ?_, fun h => ?_⟩, fun d hd hfield hsame => ?_⟩
  · obtain ⟨e, he⟩ := h
    intro hwell
    by_cases hinput : ∃ arrival ∈ queue, AboutInput arrival
    · have htrue := (hok true).mpr ⟨hwell, by simpa using hinput⟩
      rw [he] at htrue
      cases htrue
    · have hfalse := hunchanged.mpr ⟨hwell, hinput⟩
      rw [he] at hfalse
      cases hfalse
  · cases hdrain : drain queue with
    | error e => exact ⟨e, rfl⟩
    | ok b => exact absurd ((hok b).mp hdrain).1 h
  · obtain ⟨hwell, hnone⟩ := hunchanged.mp hsame
    obtain ⟨u, hu⟩ := hwell _ hd
    refine hnone ⟨_, hd, u, hu, Uevent.isInput_of_field ?_⟩
    have hrender := hu.1
    injection hrender with hrender
    rw [hrender] at hfield
    exact hfield

end AgentSeat.Broker
