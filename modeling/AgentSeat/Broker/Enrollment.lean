/-
  The units of an enrollment are their sources with the values in their places.

  No value could be taken for a mark, goes on in the next line or ends its own, but for the two places
  that stand for a line for each device. So a rendered unit is its source with every place filled
  (`renderUnit_filled`), the manager reads it as that (`UnitSource.Sound.read`), and the search for
  marks that were left refuses none (`buildBundle_isSome`).
-/
import AgentSeat.Broker.Bundle
import Mathlib.Data.List.Infix

namespace AgentSeat.Broker

open AgentSeat.Lib AgentSeat.Lib.Json AgentSeat.Lib.Paths AgentSeat.Lib.Text AgentSeat.Lib.Template

/-! ## Values that stay in their places -/

/-- Nothing that ends a place, a line or a value early. -/
def Tame (value : Bytes) : Prop := ∀ b ∈ value, b ≠ 64 ∧ b ≠ 92 ∧ b ≠ 10

instance (value : Bytes) : Decidable (Tame value) := inferInstanceAs (Decidable (∀ b ∈ value, _))

theorem Tame.append {value other : Bytes} (h : Tame value) (h' : Tame other) : Tame (value ++ other) := by
  intro b hb
  obtain hb | hb := List.mem_append.mp hb
  · exact h b hb
  · exact h' b hb

/-- The texts of the source around the values. -/
def unitTexts : List String :=
  ["agent-seat-activity-broker-", "agent-seat-eligibility-guard-", ".service", ".socket",
    "/run/agent-seat/", "/activity.sock", "/eligibility.sock", "/etc/agent-seat/activity/",
    "/initial-input-set.v1", "/enrolled-device-set.v1", "/usr/bin/agent-seat-activity-broker",
    "/usr/bin/agent-seat-eligibility-guard", "agent-seat-guard", "OpenFile=", "DeviceAllow=", " r",
    "/dev/input/", "event", ":read-only"]

/-- Neither these texts nor the characters of a session name end anything early. -/
theorem texts_tame : (∀ text ∈ unitTexts, Tame (ascii text)) ∧ Tame [58] ∧
    ∀ b ∈ ([64, 92, 10] : Bytes), Properties.isPlain b = false := by decide +kernel

theorem tame_texts : ∀ text ∈ unitTexts, Tame (ascii text) := texts_tame.1

theorem tame_digits (number : Nat) : Tame (digits number) := by
  intro b hb
  obtain ⟨hlow, hhigh⟩ := within_bounds (digits_isDigit hb)
  refine ⟨?_, ?_, ?_⟩ <;> rintro rfl
  · exact absurd hhigh (by decide)
  · exact absurd hhigh (by decide)
  · exact absurd hlow (by decide)

theorem tame_session {session : Bytes} (h : validSession session = true) : Tame session := by
  have hother := texts_tame.2.2
  simp only [validSession, Bool.and_eq_true, List.all_eq_true] at h
  intro b hb
  have hplain := h.2 b hb
  have hne : ∀ c ∈ ([64, 92, 10] : Bytes), b ≠ c := by
    rintro c hc rfl
    rw [hother b hc] at hplain
    cases hplain
  exact ⟨hne 64 (by simp), hne 92 (by simp), hne 10 (by simp)⟩

theorem tame_eventName (number : Nat) : Tame (eventName number) :=
  Tame.append (tame_texts _ (by simp [unitTexts])) (tame_digits number)

theorem tame_nodePath (number : Nat) : Tame (nodePath number) :=
  Tame.append (tame_texts _ (by simp [unitTexts])) (tame_eventName number)

theorem tame_openFileValue {node : Bytes} (h : Tame node) (index : Nat) :
    Tame (openFileValue node index) := by
  have hoptions : Tame (ascii ":read-only") := tame_texts _ (by simp [unitTexts])
  exact h.append (texts_tame.2.1.append ((tame_eventName index).append hoptions))

/-! ## The units -/

/-- The places of the broker's unit that stand for a line for each device. -/
def listPlaces : List Bytes := ["EVENT_OPEN_FILES", "EVENT_DEVICE_ALLOW"].map ascii

theorem isMarkLetter_at : isMarkLetter 64 = false := by decide

/-- The conditions on a source that do not depend on the values. -/
def sound (places lines names : List Bytes) : Bool :=
  tidy 64 isMarkLetter (tokenise 64 isMarkLetter (unlines 10 lines)) &&
    lines.all (steady places) && names.all (isName isMarkLetter) && decide names.Nodup

/-- Every place of a unit has a value, and one separator at most stands outside the places. -/
def settled (lines names : List Bytes) : Bool :=
  decide (lone 64 (tokenise 64 isMarkLetter (unlines 10 lines)) ≤ 1) &&
    (tokenise 64 isMarkLetter (unlines 10 lines)).all (Token.named names)

def checked (places lines names : List Bytes) : Bool := sound places lines names && settled lines names

theorem checked_bytes {places places' lines lines' names : List Bytes} (hplaces : places = places')
    (hlines : lines = lines') (h : checked places' lines' names = true) :
    checked places lines names = true := by
  rw [hplaces, hlines]
  exact h

theorem checked_iff {places lines names : List Bytes} : checked places lines names = true ↔
    sound places lines names = true ∧ settled lines names = true := by
  unfold checked
  rw [Bool.and_eq_true]

theorem units_checked :
    checked listPlaces brokerServiceLines ((brokerServiceValues 0 []).map Prod.fst) = true ∧
    checked listPlaces brokerSocketLines ((brokerSocketValues 0).map Prod.fst) = true ∧
    checked listPlaces guardServiceLines ((guardServiceValues 0 []).map Prod.fst) = true ∧
    checked listPlaces guardSocketLines ((guardSocketValues 0).map Prod.fst) = true := by
  refine ⟨?_, ?_, ?_, ?_⟩
  · apply checked_bytes
    · unfold listPlaces
      repeat apply ascii_cons
      exact ascii_nil
    · unfold brokerServiceLines
      repeat apply ascii_cons
      exact ascii_nil
    · decide +kernel
  · apply checked_bytes
    · unfold listPlaces
      repeat apply ascii_cons
      exact ascii_nil
    · unfold brokerSocketLines
      repeat apply ascii_cons
      exact ascii_nil
    · decide +kernel
  · apply checked_bytes
    · unfold listPlaces
      repeat apply ascii_cons
      exact ascii_nil
    · unfold guardServiceLines
      repeat apply ascii_cons
      exact ascii_nil
    · decide +kernel
  · apply checked_bytes
    · unfold listPlaces
      repeat apply ascii_cons
      exact ascii_nil
    · unfold guardSocketLines
      repeat apply ascii_cons
      exact ascii_nil
    · decide +kernel

/-! ## Each unit is its source with the values in their places -/

theorem renderUnit_filled {places lines : List Bytes} {values : List (Bytes × Bytes)}
    (hsound : sound places lines (values.map Prod.fst) = true)
    (hfree : ∀ value ∈ values, 64 ∉ value.2) :
    renderUnit lines values = filled (fun name => values.lookup name) (unlines 10 lines) := by
  simp only [sound, Bool.and_eq_true, List.all_map, List.all_eq_true, Function.comp_apply,
    decide_eq_true_eq] at hsound
  obtain ⟨⟨⟨htidy, -⟩, hnames⟩, hnodup⟩ := hsound
  exact replaceAll_text isMarkLetter_at htidy hnames hnodup hfree

theorem mem_of_lookup_some {values : List (Bytes × Bytes)} {name value : Bytes}
    (h : values.lookup name = some value) : (name, value) ∈ values := by
  obtain ⟨before, after, heq, -⟩ := List.lookup_eq_some_iff.mp h
  rw [heq]
  exact List.mem_append_right before List.mem_cons_self

theorem lookup_of_mem {values : List (Bytes × Bytes)} {name value : Bytes}
    (hnodup : (values.map Prod.fst).Nodup) (h : (name, value) ∈ values) :
    values.lookup name = some value := by
  induction values with
  | nil => cases h
  | cons pair values ih =>
    obtain ⟨other, found⟩ := pair
    obtain ⟨hfresh, hnodup⟩ := List.nodup_cons.mp hnodup
    rw [List.lookup_cons]
    obtain heq | hlater := List.mem_cons.mp h
    · obtain ⟨rfl, rfl⟩ := Prod.mk.inj heq
      rw [beq_self_eq_true]
    · have hne : name ≠ other := fun heq => hfresh (List.mem_map.mpr ⟨_, hlater, heq⟩)
      rw [beq_eq_false_iff_ne.mpr hne]
      exact ih hnodup hlater

/-- What the manager reads in a rendered unit: the entries of its source, each filled in. -/
theorem readUnit_render {places lines : List Bytes} {values : List (Bytes × Bytes)}
    (hsound : sound places lines (values.map Prod.fst) = true)
    (hplaced : ∀ value ∈ values, 64 ∉ value.2 ∧ 92 ∉ value.2 ∧ (value.1 ∉ places → 10 ∉ value.2)) :
    readUnit (renderUnit lines values) =
      (readUnit (unlines 10 lines)).flatMap (Entry.fill fun name => values.lookup name) := by
  rw [renderUnit_filled hsound fun value hvalue => (hplaced value hvalue).1]
  simp only [sound, Bool.and_eq_true] at hsound
  apply readUnit_fill hsound.1.1.2
  intro name value hvalue
  have hmem := mem_of_lookup_some hvalue
  exact (hplaced _ hmem).2

theorem Tame.place {value : Bytes} (h : Tame value) (name : Bytes) (places : List Bytes) :
    64 ∉ value ∧ 92 ∉ value ∧ (name ∉ places → 10 ∉ value) :=
  ⟨fun hmem => (h 64 hmem).1 rfl, fun hmem => (h 92 hmem).2.1 rfl,
    fun _ hmem => (h 10 hmem).2.2 rfl⟩

theorem tame_names (uid : Nat) : Tame (brokerServiceName uid) ∧ Tame (brokerSocketName uid) ∧
    Tame (guardServiceName uid) ∧ Tame (guardSocketName uid) := by
  have hdigits := tame_digits uid
  have hbroker : Tame (brokerStem uid) := (tame_texts _ (by simp [unitTexts])).append hdigits
  have hguard : Tame (guardStem uid) := (tame_texts _ (by simp [unitTexts])).append hdigits
  have hservice : Tame (ascii ".service") := tame_texts _ (by simp [unitTexts])
  have hsocket : Tame (ascii ".socket") := tame_texts _ (by simp [unitTexts])
  exact ⟨hbroker.append hservice, hbroker.append hsocket, hguard.append hservice,
    hguard.append hsocket⟩

theorem tame_runtimeDirectory (uid : Nat) : Tame (runtimeDirectory uid) :=
  (tame_texts _ (by simp [unitTexts])).append (tame_digits uid)

theorem tame_enrollmentPath (uid : Nat) : Tame (enrollmentPath uid) :=
  (tame_texts _ (by simp [unitTexts])).append (tame_digits uid)

/-- Lines of their own in the places that may hold them. -/
theorem lines_place {values : List Bytes} (h : ∀ value ∈ values, Tame value) {name : Bytes}
    (hname : name ∈ listPlaces) :
    64 ∉ [10].intercalate values ∧ 92 ∉ [10].intercalate values ∧
      (name ∉ listPlaces → 10 ∉ [10].intercalate values) := by
  refine ⟨fun hmem => ?_, fun hmem => ?_, fun hnot => absurd hname hnot⟩
  · obtain heq | ⟨value, hvalue, hmem⟩ := mem_intercalate hmem
    · exact absurd heq (by decide)
    · exact (h value hvalue 64 hmem).1 rfl
  · obtain heq | ⟨value, hvalue, hmem⟩ := mem_intercalate hmem
    · exact absurd heq (by decide)
    · exact (h value hvalue 92 hmem).2.1 rfl

/-- The assignment that opens the node of a device under a name of its own. -/
def openFileLine (device : InspectedDevice) (index : Nat) : Bytes :=
  ascii "OpenFile=" ++ openFileValue device.deviceNode index

def openFileLines (devices : List InspectedDevice) : List Bytes :=
  devices.zipIdx.map fun (device, index) => openFileLine device index

def deviceAllowLine (device : InspectedDevice) : Bytes :=
  ascii "DeviceAllow=" ++ (device.deviceNode ++ ascii " r")

theorem tame_openFileLines {devices : List InspectedDevice}
    (hnodes : ∀ device ∈ devices, Tame device.deviceNode) :
    ∀ line ∈ openFileLines devices, Tame line := by
  intro line hline
  obtain ⟨⟨device, index⟩, hmem, rfl⟩ := List.mem_map.mp hline
  have hdevice : device ∈ devices := by
    have hget := (List.mem_zipIdx hmem).2.2
    rw [hget]
    exact List.getElem_mem _
  have hkey : Tame (ascii "OpenFile=") := tame_texts _ (by simp [unitTexts])
  exact hkey.append (tame_openFileValue (hnodes device hdevice) index)

theorem tame_deviceAllowLines {devices : List InspectedDevice}
    (hnodes : ∀ device ∈ devices, Tame device.deviceNode) :
    ∀ line ∈ devices.map deviceAllowLine, Tame line := by
  intro line hline
  obtain ⟨device, hdevice, rfl⟩ := List.mem_map.mp hline
  have hkey : Tame (ascii "DeviceAllow=") := tame_texts _ (by simp [unitTexts])
  have haccess : Tame (ascii " r") := tame_texts _ (by simp [unitTexts])
  exact hkey.append ((hnodes device hdevice).append haccess)

/-! ### The units of an enrollment -/

/-- A unit of the bundle: its name, its source and what goes into its places. -/
structure UnitSource where
  name : Bytes
  lines : List Bytes
  values : List (Bytes × Bytes)

def unitSources (options : BundleOptions) (devices : List InspectedDevice) : List UnitSource :=
  [⟨brokerServiceName options.uid, brokerServiceLines, brokerServiceValues options.uid devices⟩,
    ⟨brokerSocketName options.uid, brokerSocketLines, brokerSocketValues options.uid⟩,
    ⟨guardServiceName options.uid, guardServiceLines,
      guardServiceValues options.uid options.session⟩,
    ⟨guardSocketName options.uid, guardSocketLines, guardSocketValues options.uid⟩]

/-- Every value of a unit stays in its places. -/
structure UnitSource.Sound (unit : UnitSource) : Prop where
  source : sound listPlaces unit.lines (unit.values.map Prod.fst) = true
  values : ∀ value ∈ unit.values,
    64 ∉ value.2 ∧ 92 ∉ value.2 ∧ (value.1 ∉ listPlaces → 10 ∉ value.2)

theorem UnitSource.Sound.nodup {unit : UnitSource} (h : unit.Sound) :
    (unit.values.map Prod.fst).Nodup := by
  have hsource := h.source
  simp only [sound, Bool.and_eq_true, decide_eq_true_eq] at hsource
  exact hsource.2

theorem UnitSource.Sound.read {unit : UnitSource} (h : unit.Sound) :
    readUnit (renderUnit unit.lines unit.values) =
      (readUnit (unlines 10 unit.lines)).flatMap (Entry.fill fun name => unit.values.lookup name) :=
  readUnit_render h.source h.values

theorem brokerService_unit (uid : Nat) {devices : List InspectedDevice}
    (hnodes : ∀ device ∈ devices, Tame device.deviceNode) :
    UnitSource.Sound ⟨brokerServiceName uid, brokerServiceLines, brokerServiceValues uid devices⟩ := by
  refine ⟨(checked_iff.mp units_checked.1).1, fun value hvalue => ?_⟩
  obtain ⟨-, hsocket, -, hguardSocket⟩ := tame_names uid
  have hopen := tame_openFileLines hnodes
  have hallow := tame_deviceAllowLines hnodes
  have hfirst : ascii "EVENT_OPEN_FILES" ∈ listPlaces := by simp [listPlaces]
  have hsecond : ascii "EVENT_DEVICE_ALLOW" ∈ listPlaces := by simp [listPlaces]
  simp only [brokerServiceValues, List.mem_cons, List.not_mem_nil, or_false] at hvalue
  rcases hvalue with rfl | rfl | rfl | rfl | rfl | rfl | rfl | rfl
  · exact hsocket.place _ _
  · exact hguardSocket.place _ _
  · exact (tame_texts _ (by simp [unitTexts])).place _ _
  · exact (tame_digits uid).place _ _
  · exact ((tame_runtimeDirectory uid).append (tame_texts _ (by simp [unitTexts]))).place _ _
  · exact ((tame_enrollmentPath uid).append (tame_texts _ (by simp [unitTexts]))).place _ _
  · exact lines_place hopen hfirst
  · exact lines_place hallow hsecond

theorem brokerSocket_unit (uid : Nat) :
    UnitSource.Sound ⟨brokerSocketName uid, brokerSocketLines, brokerSocketValues uid⟩ := by
  refine ⟨(checked_iff.mp units_checked.2.1).1, fun value hvalue => ?_⟩
  simp only [brokerSocketValues, List.mem_cons, List.not_mem_nil, or_false] at hvalue
  rcases hvalue with rfl | rfl
  · exact ((tame_runtimeDirectory uid).append (tame_texts _ (by simp [unitTexts]))).place _ _
  · exact (tame_digits uid).place _ _

theorem guardService_unit (uid : Nat) {session : Bytes} (hsession : Tame session) :
    UnitSource.Sound ⟨guardServiceName uid, guardServiceLines, guardServiceValues uid session⟩ := by
  refine ⟨(checked_iff.mp units_checked.2.2.1).1, fun value hvalue => ?_⟩
  obtain ⟨-, -, -, hguardSocket⟩ := tame_names uid
  simp only [guardServiceValues, List.mem_cons, List.not_mem_nil, or_false] at hvalue
  rcases hvalue with rfl | rfl | rfl | rfl | rfl | rfl
  · exact hguardSocket.place _ _
  · exact (tame_texts _ (by simp [unitTexts])).place _ _
  · exact (tame_texts _ (by simp [unitTexts])).place _ _
  · exact hsession.place _ _
  · exact (tame_digits uid).place _ _
  · exact ((tame_enrollmentPath uid).append (tame_texts _ (by simp [unitTexts]))).place _ _

theorem guardSocket_unit (uid : Nat) :
    UnitSource.Sound ⟨guardSocketName uid, guardSocketLines, guardSocketValues uid⟩ := by
  refine ⟨(checked_iff.mp units_checked.2.2.2).1, fun value hvalue => ?_⟩
  obtain ⟨-, -, hguard, -⟩ := tame_names uid
  simp only [guardSocketValues, List.mem_cons, List.not_mem_nil, or_false] at hvalue
  rcases hvalue with rfl | rfl
  · exact ((tame_runtimeDirectory uid).append (tame_texts _ (by simp [unitTexts]))).place _ _
  · exact hguard.place _ _

theorem unitSources_sound {options : BundleOptions} {devices : List InspectedDevice}
    (hnodes : ∀ device ∈ devices, Tame device.deviceNode) :
    ∀ unit ∈ unitSources options devices, unit.Sound := by
  intro unit hunit
  simp only [unitSources, List.mem_cons, List.not_mem_nil, or_false] at hunit
  rcases hunit with rfl | rfl | rfl | rfl
  · exact brokerService_unit options.uid hnodes
  · exact brokerSocket_unit options.uid
  · exact guardService_unit options.uid (tame_session options.session_valid)
  · exact guardSocket_unit options.uid

/-! ## Nothing is left unresolved -/

/-- A mark that is left has two separators, and a rendered unit has one at most. -/
theorem unresolved_render {unit : UnitSource} (h : unit.Sound)
    (hsettled : settled unit.lines (unit.values.map Prod.fst) = true) :
    unresolved (renderUnit unit.lines unit.values) = false := by
  simp only [settled, Bool.and_eq_true, decide_eq_true_eq, List.all_eq_true] at hsettled
  obtain ⟨hlone, hnamed⟩ := hsettled
  have hfilled : renderUnit unit.lines unit.values =
      filled (fun name => unit.values.lookup name) (unlines 10 unit.lines) :=
    renderUnit_filled h.source fun value hvalue => (h.values value hvalue).1
  have hvalues : ∀ name, .mark name ∈ tokenise 64 isMarkLetter (unlines 10 unit.lines) →
      ∃ value, unit.values.lookup name = some value ∧ 64 ∉ value := by
    intro name hname
    have hmem : name ∈ unit.values.map Prod.fst := List.contains_iff_mem.mp (hnamed _ hname)
    obtain ⟨⟨_, value⟩, hvalue, rfl⟩ := List.mem_map.mp hmem
    exact ⟨value, lookup_of_mem h.nodup hvalue, (h.values _ hvalue).1⟩
  have hcount : (renderUnit unit.lines unit.values).count 64 ≤ 1 := by
    rw [hfilled]
    show (fill 64 _ (tokenise 64 isMarkLetter (unlines 10 unit.lines))).count 64 ≤ 1
    rw [count_fill hvalues]
    exact hlone
  unfold unresolved
  rw [List.any_eq_false]
  intro name _ hcontains
  obtain ⟨tail, htail, hprefixed⟩ := List.any_eq_true.mp hcontains
  have hmark : (marked 64 name).Sublist (renderUnit unit.lines unit.values) :=
    (List.isPrefixOf_iff_prefix.mp hprefixed).sublist.trans ((List.mem_tails _ _).mp htail).sublist
  have htwo : 2 ≤ (marked 64 name).count 64 := by
    simp [marked, List.count_append]
  have hle := hmark.count_le 64
  omega

theorem unitSources_resolved {options : BundleOptions} {devices : List InspectedDevice}
    (hnodes : ∀ device ∈ devices, Tame device.deviceNode) :
    ∀ unit ∈ unitSources options devices, unresolved (renderUnit unit.lines unit.values) = false := by
  obtain ⟨hbroker, hbrokerSocket, hguard, hguardSocket⟩ := units_checked
  intro unit hunit
  apply unresolved_render (unitSources_sound hnodes unit hunit)
  simp only [unitSources, List.mem_cons, List.not_mem_nil, or_false] at hunit
  rcases hunit with rfl | rfl | rfl | rfl
  · exact (checked_iff.mp hbroker).2
  · exact (checked_iff.mp hbrokerSocket).2
  · exact (checked_iff.mp hguard).2
  · exact (checked_iff.mp hguardSocket).2

/-- Whether the records of an inspection can be written down. -/
def encodable (inspection : InspectedInputSet) : Bool :=
  (encodeInputSet inspection.mappings).toOption.isSome &&
    ((inspection.devices.mapM enroll).bind fun records =>
      (encodeDeviceSet records).toOption).isSome

/-- The search for marks that were left never refuses a bundle: with devices within their bound only
    the records can. -/
theorem buildBundle_isSome (options : BundleOptions) {inspection : InspectedInputSet}
    (hne : inspection.devices ≠ []) (hcount : inspection.devices.length ≤ maxEventDescriptors)
    (hnodes : ∀ device ∈ inspection.devices, Tame device.deviceNode) :
    (buildBundle options inspection).isSome = encodable inspection := by
  have hresolved : ∀ unit ∈ unitSources options inspection.devices,
      unresolved (renderUnit unit.lines unit.values) = false := unitSources_resolved hnodes
  simp only [unitSources, List.forall_mem_cons, List.not_mem_nil, false_implies, implies_true,
    and_true] at hresolved
  obtain ⟨hbroker, hbrokerSocket, hguard, hguardSocket⟩ := hresolved
  unfold buildBundle encodable
  dsimp only
  rw [if_neg (by simp only [hne, false_or]; omega), if_neg]
  · cases (encodeInputSet inspection.mappings).toOption <;>
      cases inspection.devices.mapM enroll <;> simp
    rename_i records
    cases (encodeDeviceSet records).toOption <;> simp
  · simp [hbroker, hbrokerSocket, hguard, hguardSocket]

end AgentSeat.Broker
