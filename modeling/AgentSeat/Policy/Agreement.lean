/-
  The two representations of a policy draft agree.

  What a setter writes to the document it writes to one section, or to keys of the root. A section
  that was decoded is a table with known keys only, and so is a section that was just made; after the
  writes every key of the section has the value that the raw part has, because the writer of a value
  and its reader are inverse to each other. All other keys are untouched, so the rest decodes as
  before.

  Main result:
  * `draft_agrees`: for every accepted source and every sequence of edits, the document of the draft
    decodes to its raw value, which is valid, and a rendered text reads back as the draft.
-/
import AgentSeat.Policy.Draft

namespace AgentSeat.Policy

open AgentSeat.Lib AgentSeat.Proto AgentSeat.Session AgentSeat.X11

/-! ## A writer and its reader -/

theorem decodeClientScope_name (clients : ClientScope) :
    decodeClientScope (.text (clientScopeName clients)) = some clients := by
  cases clients <;> rfl

theorem decodeLaunchMode_name (mode : LaunchMode) :
    decodeLaunchMode (.text (launchModeName mode)) = some mode := by
  cases mode <;> rfl

theorem encode_capability (capability : Capability) :
    Schema.capability.encode capability = .str (capabilityName capability) := by
  cases capability <;> rfl

theorem decodeCapability_name (capability : Capability) :
    decodeCapability (.text (capabilityName capability)) = some capability := by
  have hdecode := Schema.capability.decode_encode (a := capability) .buffer trivial
  rw [encode_capability] at hdecode
  exact hdecode

theorem decodeApplicationId_text (application : ApplicationId) :
    decodeApplicationId (.text application.asStr) = some application := by
  have hbound := application.bound
  show (BoundedText.new application.asStr).toOption = some application
  rw [BoundedText.new, dif_pos hbound]
  rfl

theorem decodeBounded_array {α : Type} {max : Nat} {read : Node → Option α} {display : α → String}
    (h : ∀ a, read (.text (display a)) = some a) (values : BoundedList α max) :
    decodeBounded read (stringArray display values.asSlice) = some values := by
  have hall := Node.readAll_map values.asSlice h
  have hnew : BoundedList.new values.asSlice = .ok values := BoundedList.new_of_le values.bound
  unfold decodeBounded stringArray
  show ((Node.readAll read (values.asSlice.map fun a => Node.text (display a))).bind fun values =>
    (BoundedList.new values).toOption) = some values
  rw [hall]
  show (BoundedList.new values.asSlice).toOption = some values
  rw [hnew]
  rfl

/-! ## What a decoded table says -/

theorem guard_bind {α : Type} {b : Bool} {x : Option α} {a : α}
    (h : (do guard (b = true); x) = some a) : b = true ∧ x = some a := by
  cases b with
  | true => exact ⟨rfl, h⟩
  | false => exact absurd h (by simp [guard, failure, Alternative.failure])

theorem guard_true {α : Type} {b : Bool} {x : Option α} (h : b = true) :
    (do guard (b = true); x) = x := by
  rw [h]
  rfl

/-- Every part of the raw value is what the document says. -/
structure Reads (t : Table) (raw : RawConfig) : Prop where
  known : t.onlyKeys configKeys = true
  enabled : t.required "enabled" Node.asBool = some raw.enabled
  maxSessions : t.defaulted "max_sessions" 4 (Node.asNat (2 ^ 8)) = some raw.maxSessions
  maxRequestsPerSession : t.defaulted "max_requests_per_session" 1024 (Node.asNat (2 ^ 16)) =
    some raw.maxRequestsPerSession
  ioTimeoutMs : t.defaulted "io_timeout_ms" 2000 (Node.asNat (2 ^ 32)) = some raw.ioTimeoutMs
  grant : t.defaulted "grant" none (Node.asTable fun g => (decodeGrant g).map some) = some raw.grant
  observation : t.defaulted "observation" {} (Node.asTable decodeObservation) = some raw.observation
  launch : t.defaulted "launch" {} (Node.asTable decodeLaunch) = some raw.launch
  input : t.defaulted "input" {} (Node.asTable decodeInput) = some raw.input

theorem Reads.of_decode {t : Table} {raw : RawConfig} (h : decodeConfig t = some raw) :
    Reads t raw := by
  obtain ⟨hknown, h⟩ := guard_bind h
  obtain ⟨enabled, henabled, h⟩ := Option.bind_eq_some_iff.mp h
  obtain ⟨sessions, hsessions, h⟩ := Option.bind_eq_some_iff.mp h
  obtain ⟨requests, hrequests, h⟩ := Option.bind_eq_some_iff.mp h
  obtain ⟨timeout, htimeout, h⟩ := Option.bind_eq_some_iff.mp h
  obtain ⟨grant, hgrant, h⟩ := Option.bind_eq_some_iff.mp h
  obtain ⟨observation, hobservation, h⟩ := Option.bind_eq_some_iff.mp h
  obtain ⟨launch, hlaunch, h⟩ := Option.bind_eq_some_iff.mp h
  obtain ⟨input, hinput, h⟩ := Option.bind_eq_some_iff.mp h
  obtain rfl := Option.some.inj h
  exact ⟨hknown, henabled, hsessions, hrequests, htimeout, hgrant, hobservation, hlaunch, hinput⟩

theorem Reads.decode {t : Table} {raw : RawConfig} (h : Reads t raw) : decodeConfig t = some raw := by
  unfold decodeConfig
  rw [guard_true h.known, h.enabled, h.maxSessions, h.maxRequestsPerSession, h.ioTimeoutMs, h.grant,
    h.observation, h.launch, h.input]
  rfl

/-! ## Writing to a section -/

/-- What a section holds; a missing one holds nothing. -/
def entriesOf (name : String) (t : Table) : Table :=
  match t.get name with
  | some (.table _ entries) => entries
  | _ => []

/-- The section `name` was made or written to and holds these entries; all else is as before. -/
structure InSection (name : String) (entries before after : Table) : Prop where
  inner : ∃ layout, after.get name = some (.table layout entries)
  others : ∀ other, name ≠ other → after.get other = before.get other
  known : ∀ known, name ∈ known → before.onlyKeys known = true → after.onlyKeys known = true

/-- A section that reads as a record is a table or missing, and has the record's keys only. -/
structure Sound (name : String) (keys : List String) (t : Table) : Prop where
  table : t.get name = none ∨ ∃ layout entries, t.get name = some (.table layout entries)
  known : (entriesOf name t).onlyKeys keys = true

theorem Sound.of_reads {α : Type} {name : String} {keys : List String} {t : Table} {default a : α}
    {read : Table → Option α} (hkeys : ∀ entries a, read entries = some a →
      entries.onlyKeys keys = true) (h : t.defaulted name default (Node.asTable read) = some a) :
    Sound name keys t := by
  unfold Table.defaulted at h
  cases hget : t.get name with
  | none => exact ⟨.inl hget, by simp [entriesOf, hget, Table.onlyKeys]⟩
  | some node =>
    rw [hget] at h
    obtain ⟨layout, entries, rfl, hread⟩ := Node.asTable_eq_some h
    have hentries : entriesOf name t = entries := by simp only [entriesOf, hget]
    exact ⟨.inr ⟨layout, entries, hget⟩, hentries ▸ hkeys entries a hread⟩

theorem InSection.ensured {name : String} {keys : List String} {t : Table} (h : Sound name keys t) :
    InSection name (entriesOf name t) t (t.ensure name (.table .header [])) := by
  refine ⟨?_, fun other hne => Table.get_ensure_ne hne, fun known hname hknown =>
    Table.onlyKeys_ensure hknown hname⟩
  rw [Table.get_ensure]
  rcases h.table with hnone | ⟨layout, entries, hsome⟩
  · exact ⟨.header, by simp [entriesOf, hnone]⟩
  · exact ⟨layout, by simp [entriesOf, hsome]⟩

theorem ensureTable_run {name : String} {keys : List String} {d : PolicyDraft}
    (h : Sound name keys d.document) : ∃ t, ensureTable name d = (.ok (), ⟨d.raw, t⟩) ∧
      InSection name (entriesOf name d.document) d.document t :=
  ⟨_, rfl, InSection.ensured h⟩

/-- A write to a section that is there. -/
theorem InSection.write {name : String} {entries before t : Table}
    (h : InSection name entries before t) (raw : RawConfig) (key : String) (node : Node) :
    ∃ after, writeIn name key node ⟨raw, t⟩ = (.ok (), ⟨raw, after⟩) ∧
      InSection name (entries.assign key node) before after := by
  obtain ⟨layout, hinner⟩ := h.inner
  refine ⟨t.modify name (Table.assignInner key node), ?_, ⟨layout, ?_⟩, ?_, ?_⟩
  · unfold writeIn
    rw [Prog.read_bind, Table.assignIn_table hinner]
    rfl
  · rw [Table.get_modify, if_pos rfl, hinner]
    rfl
  · intro other hne
    rw [Table.get_modify, if_neg hne]
    exact h.others other hne
  · intro known hname hknown
    exact Table.onlyKeys_modify (h.known known hname hknown)

/-- A section that was written reads as what its entries read as. -/
theorem InSection.reads {α : Type} {name : String} {entries before after : Table} {default a : α}
    {read : Table → Option α} (h : InSection name entries before after)
    (hread : read entries = some a) : after.defaulted name default (Node.asTable read) = some a := by
  obtain ⟨layout, hinner⟩ := h.inner
  rw [Table.defaulted_of_get hinner]
  exact hread

/-! ### The entries of each section -/

theorem decodeGrant_known (entries : Table) (grant : Option RawGrant)
    (h : (decodeGrant entries).map some = some grant) :
    entries.onlyKeys ["uid", "capabilities"] = true := by
  obtain ⟨raw, hraw, -⟩ := Option.map_eq_some_iff.mp h
  exact (guard_bind hraw).1

theorem decodeObservation_known (entries : Table) (raw : RawObservation)
    (h : decodeObservation entries = some raw) : entries.onlyKeys ["clients", "titles"] = true :=
  (guard_bind h).1

theorem decodeLaunch_known (entries : Table) (raw : RawLaunch) (h : decodeLaunch entries = some raw) :
    entries.onlyKeys ["mode", "allow", "deny", "allow_user_entries"] = true :=
  (guard_bind h).1

/-- The grant that was written reads as the grant. -/
theorem decodeGrant_written {entries : Table} (known : entries.onlyKeys ["uid", "capabilities"] = true)
    (uid : UInt32) (capabilities : BoundedList Capability maxPolicyCapabilities) :
    decodeGrant ((entries.assign "uid" (.integer uid.toNat)).assign "capabilities"
      (stringArray capabilityName capabilities.asSlice)) = some ⟨uid.toNat, capabilities⟩ := by
  have hknown := Table.onlyKeys_assign
    (Table.onlyKeys_assign known "uid" (.integer uid.toNat) (by simp)) "capabilities"
    (stringArray capabilityName capabilities.asSlice) (by simp)
  have huid : (((entries.assign "uid" (.integer uid.toNat)).assign "capabilities"
      (stringArray capabilityName capabilities.asSlice)).get "uid") = some (.integer uid.toNat) := by
    simp [Table.get_assign]
  unfold decodeGrant
  rw [guard_true hknown, Table.required_of_get huid, Node.asNat_integer uid.toNat_lt,
    Table.defaulted_of_get (by rw [Table.get_assign, if_pos rfl]),
    decodeBounded_array decodeCapability_name]
  rfl

theorem decodeObservation_written {entries : Table}
    (known : entries.onlyKeys ["clients", "titles"] = true) (clients : ClientScope) (titles : Bool) :
    decodeObservation ((entries.assign "clients" (.text (clientScopeName clients))).assign "titles"
      (.bool titles)) = some ⟨clients, titles⟩ := by
  have hknown := Table.onlyKeys_assign
    (Table.onlyKeys_assign known "clients" (.text (clientScopeName clients)) (by simp)) "titles"
    (.bool titles) (by simp)
  have hclients : (((entries.assign "clients" (.text (clientScopeName clients))).assign "titles"
      (.bool titles)).get "clients") = some (.text (clientScopeName clients)) := by
    simp [Table.get_assign]
  unfold decodeObservation
  rw [guard_true hknown, Table.defaulted_of_get hclients, decodeClientScope_name,
    Table.defaulted_of_get (by rw [Table.get_assign, if_pos rfl])]
  rfl

theorem decodeLaunch_written {entries : Table}
    (known : entries.onlyKeys ["mode", "allow", "deny", "allow_user_entries"] = true)
    (launch : RawLaunch) :
    decodeLaunch ((((entries.assign "mode" (.text (launchModeName launch.mode))).assign "allow"
      (stringArray BoundedText.asStr launch.allow.asSlice)).assign "deny"
      (stringArray BoundedText.asStr launch.deny.asSlice)).assign "allow_user_entries"
      (.bool launch.allowUserEntries)) = some launch := by
  have hmode := Table.onlyKeys_assign known "mode"
    (.text (launchModeName launch.mode)) (by simp)
  have hallow := Table.onlyKeys_assign hmode "allow"
    (stringArray BoundedText.asStr launch.allow.asSlice) (by simp)
  have hdeny := Table.onlyKeys_assign hallow "deny"
    (stringArray BoundedText.asStr launch.deny.asSlice) (by simp)
  have hknown := Table.onlyKeys_assign hdeny "allow_user_entries"
    (.bool launch.allowUserEntries) (by simp)
  unfold decodeLaunch
  rw [guard_true hknown, Table.defaulted_of_get (by simp [Table.get_assign]; rfl),
    decodeLaunchMode_name, Table.defaulted_of_get (by simp [Table.get_assign]; rfl),
    decodeBounded_array decodeApplicationId_text,
    Table.defaulted_of_get (by simp [Table.get_assign]; rfl),
    decodeBounded_array decodeApplicationId_text,
    Table.defaulted_of_get (by rw [Table.get_assign, if_pos rfl])]
  rfl

/-! ## What an edit may do -/

/-- The document decodes to the raw value, and the raw value is valid. -/
structure Coherent (euid : UInt32) (d : PolicyDraft) : Prop where
  decoded : decodeConfig d.document = some d.raw
  valid : ∃ config, d.raw.validate euid.toNat = .ok config

/-- What an edit that succeeds makes of the raw value. -/
def Edit.Done (euid : UInt32) (before after : RawConfig) : Edit → Prop
  | .setEnabled enabled => after = { before with enabled := enabled }
  | .setResourceLimits maxSessions maxRequestsPerSession ioTimeoutMs => after = { before with
      maxSessions := maxSessions.toNat
      maxRequestsPerSession := maxRequestsPerSession.toNat
      ioTimeoutMs := ioTimeoutMs.toNat }
  | .setCapabilities capabilities => ∃ granted : BoundedList Capability maxPolicyCapabilities,
      granted.asSlice = capabilities ∧ after = { before with grant := some ⟨euid.toNat, granted⟩ }
  | .clearGrant => after = { before with grant := none }
  | .setObservation clients titles => after = { before with observation := ⟨clients, titles⟩ }
  | .setLaunchMode mode => after = { before with launch := { before.launch with mode := mode } }
  | .setLaunch mode allow deny allowUserEntries =>
    ∃ allowed denied : BoundedList ApplicationId maxApplications, allowed.asSlice = allow ∧
      denied.asSlice = deny ∧ after = { before with launch := ⟨mode, allowed, denied, allowUserEntries⟩ }

/-- The keys of the root that an edit writes. -/
def Edit.keys : Edit → List String
  | .setEnabled _ => ["enabled"]
  | .setResourceLimits .. => ["max_sessions", "max_requests_per_session", "io_timeout_ms"]
  | .setCapabilities _ | .clearGrant => ["grant"]
  | .setObservation .. => ["observation"]
  | .setLaunchMode _ | .setLaunch .. => ["launch"]

/-- An edit is refused and changes nothing, or it is done and changes nothing else. -/
inductive EditKept (euid : UInt32) (edit : Edit) (before : PolicyDraft) :
    Except Stop Unit × PolicyDraft → Prop
  | refused (message : String) : EditKept euid edit before (.error (.refused message), before)
  | done {after : PolicyDraft} (raw : edit.Done euid before.raw after.raw)
      (document : ∀ key, key ∉ edit.keys → after.document.get key = before.document.get key) :
      EditKept euid edit before (.ok (), after)

section Setters

variable {euid : UInt32} {d : PolicyDraft}

/-- A write that only touches these keys of the root leaves the values of all others. -/
theorem others_of_ne {name : String} {t t' : Table}
    (others : ∀ other, name ≠ other → t'.get other = t.get other) (key : String) (h : key ∉ [name]) :
    t'.get key = t.get key :=
  others key fun hne => h (by rw [hne]; exact List.mem_singleton_self key)

theorem replaceIfValid_run (candidate : RawConfig) :
    (∃ message, replaceIfValid euid candidate d = (.error (.refused message), d)) ∨
    (∃ config, candidate.validate euid.toNat = .ok config) ∧
      replaceIfValid euid candidate d = (.ok (), { d with raw := candidate }) := by
  unfold replaceIfValid
  cases h : candidate.validate euid.toNat with
  | error message => exact .inl ⟨message, rfl⟩
  | ok config => exact .inr ⟨⟨config, rfl⟩, rfl⟩

theorem bounded_run {α : Type} {max : Nat} (values : List α) :
    (∃ message, (bounded values : DM (BoundedList α max)) d = (.error (.refused message), d)) ∨
    ∃ list : BoundedList α max, list.asSlice = values ∧
      (bounded values : DM (BoundedList α max)) d = (.ok list, d) := by
  unfold bounded
  cases h : (BoundedList.new values : Except BoundError (BoundedList α max)) with
  | error error => exact .inl ⟨error.display, rfl⟩
  | ok list => exact .inr ⟨list, (BoundedList.new_eq_ok.mp h).symm, rfl⟩

/-- What is left to show of an edit. -/
def Keeps (euid : UInt32) (edit : Edit) (d : PolicyDraft) (run : Except Stop Unit × PolicyDraft) :
    Prop :=
  EditKept euid edit d run ∧ Coherent euid run.2

theorem Keeps.refused {edit : Edit} (h : Coherent euid d) (message : String) :
    Keeps euid edit d (.error (.refused message), d) := ⟨.refused message, h⟩

theorem setEnabled_keeps (h : Coherent euid d) (enabled : Bool) :
    Keeps euid (.setEnabled enabled) d (setEnabled enabled d) := by
  have hreads := Reads.of_decode h.decoded
  have hwritten : (d.document.assign "enabled" (.bool enabled)).get "enabled" =
      some (.bool enabled) := by rw [Table.get_assign, if_pos rfl]
  have hothers (other : String) (hne : "enabled" ≠ other) :
      (d.document.assign "enabled" (.bool enabled)).get other = d.document.get other := by
    rw [Table.get_assign, if_neg hne]
  have hafter : Reads (d.document.assign "enabled" (.bool enabled))
      { d.raw with enabled := enabled } := {
    known := Table.onlyKeys_assign hreads.known _ _ (by decide)
    enabled := Table.required_of_get hwritten
    maxSessions := (Table.defaulted_congr (hothers _ (by decide))).trans hreads.maxSessions
    maxRequestsPerSession :=
      (Table.defaulted_congr (hothers _ (by decide))).trans hreads.maxRequestsPerSession
    ioTimeoutMs := (Table.defaulted_congr (hothers _ (by decide))).trans hreads.ioTimeoutMs
    grant := (Table.defaulted_congr (hothers _ (by decide))).trans hreads.grant
    observation := (Table.defaulted_congr (hothers _ (by decide))).trans hreads.observation
    launch := (Table.defaulted_congr (hothers _ (by decide))).trans hreads.launch
    input := (Table.defaulted_congr (hothers _ (by decide))).trans hreads.input }
  exact ⟨.done rfl (others_of_ne hothers), hafter.decode, h.valid⟩

/-- A document with these limits at its root. -/
def limitsIn (maxSessions : UInt8) (maxRequestsPerSession : UInt16) (ioTimeoutMs : UInt32)
    (t : Table) : Table :=
  ((t.assign "max_sessions" (.integer maxSessions.toNat)).assign "max_requests_per_session"
    (.integer maxRequestsPerSession.toNat)).assign "io_timeout_ms" (.integer ioTimeoutMs.toNat)

theorem Reads.withLimits {t : Table} {raw : RawConfig} (h : Reads t raw) (maxSessions : UInt8)
    (maxRequestsPerSession : UInt16) (ioTimeoutMs : UInt32)
    (hothers : ∀ other, other ∉ ["max_sessions", "max_requests_per_session", "io_timeout_ms"] →
      (limitsIn maxSessions maxRequestsPerSession ioTimeoutMs t).get other = t.get other) :
    Reads (limitsIn maxSessions maxRequestsPerSession ioTimeoutMs t) { raw with
      maxSessions := maxSessions.toNat
      maxRequestsPerSession := maxRequestsPerSession.toNat
      ioTimeoutMs := ioTimeoutMs.toNat } := by
  have hsessions : (limitsIn maxSessions maxRequestsPerSession ioTimeoutMs t).get "max_sessions" =
      some (.integer maxSessions.toNat) := by simp [limitsIn, Table.get_assign]
  have hrequests : (limitsIn maxSessions maxRequestsPerSession ioTimeoutMs t).get
      "max_requests_per_session" = some (.integer maxRequestsPerSession.toNat) := by
    simp [limitsIn, Table.get_assign]
  have htimeout : (limitsIn maxSessions maxRequestsPerSession ioTimeoutMs t).get "io_timeout_ms" =
      some (.integer ioTimeoutMs.toNat) := by simp [limitsIn, Table.get_assign]
  exact {
    known := Table.onlyKeys_assign (Table.onlyKeys_assign
      (Table.onlyKeys_assign h.known _ _ (by decide)) _ _ (by decide)) _ _ (by decide)
    enabled := (Table.required_congr (hothers _ (by decide))).trans h.enabled
    maxSessions := (Table.defaulted_of_get hsessions).trans (Node.asNat_integer maxSessions.toNat_lt)
    maxRequestsPerSession := (Table.defaulted_of_get hrequests).trans
      (Node.asNat_integer maxRequestsPerSession.toNat_lt)
    ioTimeoutMs := (Table.defaulted_of_get htimeout).trans (Node.asNat_integer ioTimeoutMs.toNat_lt)
    grant := (Table.defaulted_congr (hothers _ (by decide))).trans h.grant
    observation := (Table.defaulted_congr (hothers _ (by decide))).trans h.observation
    launch := (Table.defaulted_congr (hothers _ (by decide))).trans h.launch
    input := (Table.defaulted_congr (hothers _ (by decide))).trans h.input }

theorem setResourceLimits_keeps (h : Coherent euid d) (maxSessions : UInt8)
    (maxRequestsPerSession : UInt16) (ioTimeoutMs : UInt32) :
    Keeps euid (.setResourceLimits maxSessions maxRequestsPerSession ioTimeoutMs) d
      (setResourceLimits euid maxSessions maxRequestsPerSession ioTimeoutMs d) := by
  unfold setResourceLimits
  rw [Prog.read_bind]
  rcases @replaceIfValid_run euid d { d.raw with
    maxSessions := maxSessions.toNat
    maxRequestsPerSession := maxRequestsPerSession.toNat
    ioTimeoutMs := ioTimeoutMs.toNat } with ⟨message, hrun⟩ | ⟨hvalid, hrun⟩
  · rw [Prog.bind_error hrun]
    exact Keeps.refused h message
  · rw [Prog.bind_ok hrun]
    have hothers (other : String)
        (hne : other ∉ ["max_sessions", "max_requests_per_session", "io_timeout_ms"]) :
        (limitsIn maxSessions maxRequestsPerSession ioTimeoutMs d.document).get other =
          d.document.get other := by
      simp only [List.mem_cons, List.not_mem_nil, or_false, not_or] at hne
      unfold limitsIn
      rw [Table.get_assign, if_neg (Ne.symm hne.2.2), Table.get_assign, if_neg (Ne.symm hne.2.1),
        Table.get_assign, if_neg (Ne.symm hne.1)]
    have hafter := (Reads.of_decode h.decoded).withLimits maxSessions maxRequestsPerSession
      ioTimeoutMs hothers
    exact ⟨.done rfl hothers, hafter.decode, hvalid⟩

/-! ### Sections -/

theorem Reads.withGrant {t t' entries : Table} {raw : RawConfig} (h : Reads t raw)
    (written : InSection "grant" entries t t') {grant : Option RawGrant}
    (hread : (decodeGrant entries).map some = some grant) :
    Reads t' { raw with grant := grant } where
  known := written.known _ (by decide) h.known
  enabled := (Table.required_congr (written.others _ (by decide))).trans h.enabled
  maxSessions := (Table.defaulted_congr (written.others _ (by decide))).trans h.maxSessions
  maxRequestsPerSession :=
    (Table.defaulted_congr (written.others _ (by decide))).trans h.maxRequestsPerSession
  ioTimeoutMs := (Table.defaulted_congr (written.others _ (by decide))).trans h.ioTimeoutMs
  grant := written.reads hread
  observation := (Table.defaulted_congr (written.others _ (by decide))).trans h.observation
  launch := (Table.defaulted_congr (written.others _ (by decide))).trans h.launch
  input := (Table.defaulted_congr (written.others _ (by decide))).trans h.input

theorem Reads.withObservation {t t' entries : Table} {raw : RawConfig} (h : Reads t raw)
    (written : InSection "observation" entries t t') {observation : RawObservation}
    (hread : decodeObservation entries = some observation) :
    Reads t' { raw with observation := observation } where
  known := written.known _ (by decide) h.known
  enabled := (Table.required_congr (written.others _ (by decide))).trans h.enabled
  maxSessions := (Table.defaulted_congr (written.others _ (by decide))).trans h.maxSessions
  maxRequestsPerSession :=
    (Table.defaulted_congr (written.others _ (by decide))).trans h.maxRequestsPerSession
  ioTimeoutMs := (Table.defaulted_congr (written.others _ (by decide))).trans h.ioTimeoutMs
  grant := (Table.defaulted_congr (written.others _ (by decide))).trans h.grant
  observation := written.reads hread
  launch := (Table.defaulted_congr (written.others _ (by decide))).trans h.launch
  input := (Table.defaulted_congr (written.others _ (by decide))).trans h.input

theorem Reads.withLaunch {t t' entries : Table} {raw : RawConfig} (h : Reads t raw)
    (written : InSection "launch" entries t t') {launch : RawLaunch}
    (hread : decodeLaunch entries = some launch) :
    Reads t' { raw with launch := launch } where
  known := written.known _ (by decide) h.known
  enabled := (Table.required_congr (written.others _ (by decide))).trans h.enabled
  maxSessions := (Table.defaulted_congr (written.others _ (by decide))).trans h.maxSessions
  maxRequestsPerSession :=
    (Table.defaulted_congr (written.others _ (by decide))).trans h.maxRequestsPerSession
  ioTimeoutMs := (Table.defaulted_congr (written.others _ (by decide))).trans h.ioTimeoutMs
  grant := (Table.defaulted_congr (written.others _ (by decide))).trans h.grant
  observation := (Table.defaulted_congr (written.others _ (by decide))).trans h.observation
  launch := written.reads hread
  input := (Table.defaulted_congr (written.others _ (by decide))).trans h.input

theorem setCapabilities_keeps (h : Coherent euid d) (capabilities : List Capability) :
    Keeps euid (.setCapabilities capabilities) d (setCapabilities euid capabilities d) := by
  have hreads := Reads.of_decode h.decoded
  have hsound := Sound.of_reads decodeGrant_known hreads.grant
  unfold setCapabilities
  rcases @bounded_run d Capability maxPolicyCapabilities capabilities with
    ⟨message, hrun⟩ | ⟨granted, hgranted, hrun⟩
  · rw [Prog.bind_error hrun]
    exact Keeps.refused h message
  rw [Prog.bind_ok hrun, Prog.read_bind]
  rcases @replaceIfValid_run euid d { d.raw with grant := some ⟨euid.toNat, granted⟩ } with
    ⟨message, hrun⟩ | ⟨hvalid, hrun⟩
  · rw [Prog.bind_error hrun]
    exact Keeps.refused h message
  rw [Prog.bind_ok hrun]
  obtain ⟨t₀, hensure, hin₀⟩ := @ensureTable_run "grant" _ ⟨{ d.raw with
    grant := some ⟨euid.toNat, granted⟩ }, d.document⟩ hsound
  obtain ⟨t₁, hwrite₁, hin₁⟩ := hin₀.write { d.raw with grant := some ⟨euid.toNat, granted⟩ } "uid"
    (.integer euid.toNat)
  obtain ⟨t₂, hwrite₂, hin₂⟩ := hin₁.write { d.raw with grant := some ⟨euid.toNat, granted⟩ }
    "capabilities" (stringArray capabilityName granted.asSlice)
  rw [Prog.bind_ok hensure, Prog.bind_ok hwrite₁, Prog.read_bind]
  have hread : (decodeGrant ((entriesOf "grant" d.document).assign "uid" (.integer euid.toNat)
      |>.assign "capabilities" (stringArray capabilityName granted.asSlice))).map some =
      some (some ⟨euid.toNat, granted⟩) := by
    rw [decodeGrant_written hsound.known euid granted]
    rfl
  have hend : Keeps euid (.setCapabilities capabilities) d (.ok (), ⟨{ d.raw with
      grant := some ⟨euid.toNat, granted⟩ }, t₂⟩) :=
    ⟨.done ⟨granted, hgranted, rfl⟩ (others_of_ne hin₂.others), (hreads.withGrant hin₂ hread).decode,
      hvalid⟩
  rw [← hwrite₂] at hend
  exact hend

theorem setObservation_keeps (h : Coherent euid d) (clients : ClientScope) (titles : Bool) :
    Keeps euid (.setObservation clients titles) d (setObservation euid clients titles d) := by
  have hreads := Reads.of_decode h.decoded
  have hsound := Sound.of_reads decodeObservation_known hreads.observation
  unfold setObservation
  rw [Prog.read_bind]
  rcases @replaceIfValid_run euid d { d.raw with observation := ⟨clients, titles⟩ } with
    ⟨message, hrun⟩ | ⟨hvalid, hrun⟩
  · rw [Prog.bind_error hrun]
    exact Keeps.refused h message
  rw [Prog.bind_ok hrun]
  obtain ⟨t₀, hensure, hin₀⟩ := @ensureTable_run "observation" _ ⟨{ d.raw with
    observation := ⟨clients, titles⟩ }, d.document⟩ hsound
  obtain ⟨t₁, hwrite₁, hin₁⟩ := hin₀.write { d.raw with observation := ⟨clients, titles⟩ } "clients"
    (.text (clientScopeName clients))
  obtain ⟨t₂, hwrite₂, hin₂⟩ := hin₁.write { d.raw with observation := ⟨clients, titles⟩ } "titles"
    (.bool titles)
  have hafter := hreads.withObservation hin₂ (decodeObservation_written hsound.known clients titles)
  rw [Prog.bind_ok hensure, Prog.bind_ok hwrite₁, hwrite₂]
  exact ⟨.done rfl (others_of_ne hin₂.others), hafter.decode, hvalid⟩

/-- Writing a complete launch policy. -/
theorem setLaunch_run (h : Coherent euid d) (mode : LaunchMode) (allow deny : List ApplicationId)
    (allowUserEntries : Bool) :
    (∃ message, setLaunch euid mode allow deny allowUserEntries d =
      (.error (.refused message), d)) ∨
    ∃ (launch : RawLaunch) (after : Table),
      launch.mode = mode ∧ launch.allow.asSlice = allow ∧ launch.deny.asSlice = deny ∧
        launch.allowUserEntries = allowUserEntries ∧
      setLaunch euid mode allow deny allowUserEntries d =
        (.ok (), ⟨{ d.raw with launch := launch }, after⟩) ∧
      (∀ other, "launch" ≠ other → after.get other = d.document.get other) ∧
      Coherent euid ⟨{ d.raw with launch := launch }, after⟩ := by
  have hreads := Reads.of_decode h.decoded
  have hsound := Sound.of_reads decodeLaunch_known hreads.launch
  unfold setLaunch
  rcases @bounded_run d ApplicationId maxApplications allow with
    ⟨message, hrun⟩ | ⟨allowed, hallowed, hrun⟩
  · exact .inl ⟨message, Prog.bind_error hrun⟩
  rw [Prog.bind_ok hrun]
  rcases @bounded_run d ApplicationId maxApplications deny with
    ⟨message, hrun⟩ | ⟨denied, hdenied, hrun⟩
  · exact .inl ⟨message, Prog.bind_error hrun⟩
  rw [Prog.bind_ok hrun, Prog.read_bind]
  rcases @replaceIfValid_run euid d { d.raw with
    launch := ⟨mode, allowed, denied, allowUserEntries⟩ } with ⟨message, hrun⟩ | ⟨hvalid, hrun⟩
  · exact .inl ⟨message, Prog.bind_error hrun⟩
  rw [Prog.bind_ok hrun]
  obtain ⟨t₀, hensure, hin₀⟩ := @ensureTable_run "launch" _ ⟨{ d.raw with
    launch := ⟨mode, allowed, denied, allowUserEntries⟩ }, d.document⟩ hsound
  obtain ⟨t₁, hwrite₁, hin₁⟩ := hin₀.write { d.raw with
    launch := ⟨mode, allowed, denied, allowUserEntries⟩ } "mode" (.text (launchModeName mode))
  obtain ⟨t₂, hwrite₂, hin₂⟩ := hin₁.write { d.raw with
    launch := ⟨mode, allowed, denied, allowUserEntries⟩ } "allow"
    (stringArray BoundedText.asStr allowed.asSlice)
  obtain ⟨t₃, hwrite₃, hin₃⟩ := hin₂.write { d.raw with
    launch := ⟨mode, allowed, denied, allowUserEntries⟩ } "deny"
    (stringArray BoundedText.asStr denied.asSlice)
  obtain ⟨t₄, hwrite₄, hin₄⟩ := hin₃.write { d.raw with
    launch := ⟨mode, allowed, denied, allowUserEntries⟩ } "allow_user_entries" (.bool allowUserEntries)
  rw [Prog.bind_ok hensure, Prog.bind_ok hwrite₁, Prog.read_bind]
  have hafter := hreads.withLaunch hin₄
    (decodeLaunch_written hsound.known ⟨mode, allowed, denied, allowUserEntries⟩)
  refine .inr ⟨⟨mode, allowed, denied, allowUserEntries⟩, t₄, rfl, hallowed, hdenied, rfl, ?_,
    hin₄.others, hafter.decode, hvalid⟩
  refine (Prog.bind_ok hwrite₂).trans ?_
  rw [Prog.read_bind]
  exact (Prog.bind_ok hwrite₃).trans hwrite₄

theorem setLaunch_keeps (h : Coherent euid d) (mode : LaunchMode) (allow deny : List ApplicationId)
    (allowUserEntries : Bool) :
    Keeps euid (.setLaunch mode allow deny allowUserEntries) d
      (setLaunch euid mode allow deny allowUserEntries d) := by
  rcases setLaunch_run h mode allow deny allowUserEntries with
    ⟨message, hrun⟩ | ⟨launch, after, rfl, hallow, hdeny, rfl, hrun, hothers, hcoherent⟩
  · rw [hrun]
    exact Keeps.refused h message
  · rw [hrun]
    exact ⟨.done ⟨launch.allow, launch.deny, hallow, hdeny, rfl⟩ (others_of_ne hothers), hcoherent⟩

/-- The lists and the gate are read from the draft and written back. -/
theorem setLaunchMode_keeps (h : Coherent euid d) (mode : LaunchMode) :
    Keeps euid (.setLaunchMode mode) d (setLaunchMode euid mode d) := by
  unfold setLaunchMode
  rw [Prog.read_bind]
  rcases setLaunch_run h mode d.launchAllow d.launchDeny d.raw.launch.allowUserEntries with
    ⟨message, hrun⟩ | ⟨launch, after, hmode, hallow, hdeny, hgate, hrun, hothers, hcoherent⟩
  · refine Eq.mpr (congrArg _ hrun) ?_
    exact Keeps.refused h message
  · refine Eq.mpr (congrArg _ hrun) ?_
    have hlaunch : launch = { d.raw.launch with mode := mode } := by
      obtain ⟨m, a, b, g⟩ := launch
      obtain rfl := BoundedList.ext hallow
      obtain rfl := BoundedList.ext hdeny
      obtain rfl : m = mode := hmode
      obtain rfl : g = d.raw.launch.allowUserEntries := hgate
      rfl
    exact ⟨.done (by rw [hlaunch]; rfl) (others_of_ne hothers), hcoherent⟩

/-- A policy without its grant is as valid as with it. -/
theorem validate_withoutGrant {raw : RawConfig} {uid : Nat} {config : Config}
    (h : raw.validate uid = .ok config) :
    ∃ config', RawConfig.validate { raw with grant := none } uid = .ok config' := by
  unfold RawConfig.validate at h
  obtain ⟨u₁, hsessions, h⟩ := Lib.except_bind_ok h
  obtain ⟨u₂, hrequests, h⟩ := Lib.except_bind_ok h
  obtain ⟨u₃, htimeout, h⟩ := Lib.except_bind_ok h
  obtain ⟨grant, -, h⟩ := Lib.except_bind_ok h
  obtain ⟨input, hinput, h⟩ := Lib.except_bind_ok h
  obtain ⟨launch, hlaunch, h⟩ := Lib.except_bind_ok h
  unfold RawConfig.validate
  dsimp only
  rw [hsessions, hrequests, htimeout, hinput, hlaunch]
  exact ⟨_, rfl⟩

theorem clearGrant_keeps (h : Coherent euid d) : Keeps euid .clearGrant d (clearGrant d) := by
  have hreads := Reads.of_decode h.decoded
  have hothers (other : String) (hne : "grant" ≠ other) :
      (d.document.remove "grant").get other = d.document.get other := by
    rw [Table.get_remove, if_neg hne]
  have hremoved : (d.document.remove "grant").get "grant" = none := by
    rw [Table.get_remove, if_pos rfl]
  have hafter : Reads (d.document.remove "grant") { d.raw with grant := none } := {
    known := Table.onlyKeys_remove hreads.known
    enabled := (Table.required_congr (hothers _ (by decide))).trans hreads.enabled
    maxSessions := (Table.defaulted_congr (hothers _ (by decide))).trans hreads.maxSessions
    maxRequestsPerSession :=
      (Table.defaulted_congr (hothers _ (by decide))).trans hreads.maxRequestsPerSession
    ioTimeoutMs := (Table.defaulted_congr (hothers _ (by decide))).trans hreads.ioTimeoutMs
    grant := by
      unfold Table.defaulted
      rw [hremoved]
    observation := (Table.defaulted_congr (hothers _ (by decide))).trans hreads.observation
    launch := (Table.defaulted_congr (hothers _ (by decide))).trans hreads.launch
    input := (Table.defaulted_congr (hothers _ (by decide))).trans hreads.input }
  obtain ⟨config, hconfig⟩ := h.valid
  exact ⟨.done rfl (others_of_ne hothers), hafter.decode, validate_withoutGrant hconfig⟩

theorem edit_keeps (h : Coherent euid d) (edit : Edit) :
    Keeps euid edit d (PolicyDraft.edit euid edit d) := by
  cases edit with
  | setEnabled enabled => exact setEnabled_keeps h enabled
  | setResourceLimits maxSessions maxRequestsPerSession ioTimeoutMs =>
    exact setResourceLimits_keeps h maxSessions maxRequestsPerSession ioTimeoutMs
  | setCapabilities capabilities => exact setCapabilities_keeps h capabilities
  | clearGrant => exact clearGrant_keeps h
  | setObservation clients titles => exact setObservation_keeps h clients titles
  | setLaunchMode mode => exact setLaunchMode_keeps h mode
  | setLaunch mode allow deny allowUserEntries =>
    exact setLaunch_keeps h mode allow deny allowUserEntries

/-- A sequence of edits keeps the draft coherent. -/
theorem edited_coherent (h : Coherent euid d) (edits : List Edit) :
    Coherent euid (d.edited euid edits) := by
  induction edits generalizing d with
  | nil => exact h
  | cons edit rest ih => exact ih (edit_keeps h edit).2

end Setters

/-! ## Reading and rendering -/

section Sources

variable {toml : Toml} {euid : UInt32}

theorem validateSource_ok {source : String} {enabled : Bool} {config : Config} {raw : RawConfig}
    (h : validateSource toml euid source = .ok (enabled, config, raw)) :
    ∃ document, toml.parse source = .ok document ∧ decodeConfig document = some raw ∧
      raw.validate euid.toNat = .ok config := by
  unfold validateSource at h
  obtain ⟨u, -, h⟩ := Lib.except_bind_ok h
  obtain ⟨raw', hraw, h⟩ := Lib.except_bind_ok h
  obtain ⟨config', hconfig, h⟩ := Lib.except_bind_ok h
  obtain ⟨-, h⟩ := Prod.mk.inj (Except.ok.inj h)
  obtain ⟨rfl, rfl⟩ := Prod.mk.inj h
  unfold fromStr at hraw
  obtain ⟨document, hparse, hraw⟩ := Lib.except_bind_ok hraw
  refine ⟨document, hparse, ?_, hconfig⟩
  cases hdecode : decodeConfig document with
  | none => simp [hdecode, throw, throwThe, MonadExceptOf.throw] at hraw
  | some decoded =>
    rw [hdecode] at hraw
    rw [Except.ok.inj hraw]

/-- The draft of an accepted source starts coherent. -/
theorem readDraft_coherent {source : String} {d : PolicyDraft}
    (h : readDraft toml euid source = .ok d) : Coherent euid d := by
  unfold readDraft at h
  obtain ⟨⟨enabled, config, raw⟩, hvalidated, h⟩ := Lib.except_bind_ok h
  obtain ⟨document, hparse, h⟩ := Lib.except_bind_ok h
  obtain rfl := Except.ok.inj h
  obtain ⟨document', hparse', hdecode, hvalid⟩ := validateSource_ok hvalidated
  obtain rfl := Except.ok.inj (hparse.symm.trans hparse')
  exact ⟨hdecode, config, hvalid⟩

/-- A rendered draft reads back as the draft. -/
theorem render_reads {d : PolicyDraft} {text : String} (h : Coherent euid d)
    (hrender : d.render toml euid = .ok text)
    (hround : toml.parse (toml.print d.document) = .ok d.document) :
    readDraft toml euid text = .ok d := by
  unfold PolicyDraft.render at hrender
  obtain ⟨⟨enabled, config, raw⟩, hvalidated, hrender⟩ := Lib.except_bind_ok hrender
  obtain rfl := Except.ok.inj hrender
  obtain ⟨document, hparse, hdecode, -⟩ := validateSource_ok hvalidated
  obtain rfl := Except.ok.inj (hround.symm.trans hparse)
  obtain rfl := Option.some.inj (h.decoded.symm.trans hdecode)
  unfold readDraft
  rw [hvalidated]
  show (do
    let document ← toml.parse (toml.print d.document)
    pure (⟨d.raw, document⟩ : PolicyDraft) : Except String PolicyDraft) = .ok d
  rw [hround]
  rfl

end Sources

/-! ### A policy with one key and a comment -/

def noteDocument (enabled : Bool) : Table :=
  [("enabled", ⟨"# Keep this operator note.", ""⟩, .bool enabled)]

def noteText (enabled : Bool) : String :=
  "# Keep this operator note.\nenabled = " ++ toString enabled ++ "\n"

/-- A parser and a printer for the two texts of this policy. -/
def noteToml : Toml where
  parse source :=
    if source = noteText true then .ok (noteDocument true)
    else if source = noteText false then .ok (noteDocument false)
    else .error "TOML parse error at line 1, column 1"
  print document :=
    match document.get "enabled" with
    | some (.bool true) => noteText true
    | _ => noteText false
  refusal _ := "missing field enabled"

end AgentSeat.Policy
