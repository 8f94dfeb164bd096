/-
  The published schemas and the arguments the companion takes.

  The companion does not look at its schemas: it reads the arguments of a tool as a request of the
  protocol and checks that. `schemas_cover` compares the two: arguments that are taken are valid against
  the schema of their tool, if and only if their records are spelled as objects and their names as
  strings, and they do not launch the desktop entry without a name.
-/
import AgentSeat.Companion.Schemas
import AgentSeat.Companion.Server

namespace AgentSeat.Companion

open AgentSeat.Lib AgentSeat.Proto

/-! ## The tools -/

section Tools

theorem reads_any {max k : Nat} {hk : 0 < k} {hmax : max < 10 ^ k} {V : Nat → Prop} :
    Reads (Codec.nat max k hk hmax) V (atLeast 0) := by
  refine reads_nat fun n _ _ => ⟨fun low hlow => ?_, by simp⟩
  have hzero : low = 0 := (Option.some.inj hlow).symm
  omega

/-- A number between bounds that its type or its check keeps. -/
theorem reads_within {max k : Nat} {hk : 0 < k} {hmax : max < 10 ^ k} {V : Nat → Prop} {low high : Nat}
    {default : Option Int} (h : ∀ n, n ≤ max → V n → low ≤ n ∧ n ≤ high) :
    Reads (Codec.nat max k hk hmax) V (.integer ⟨some (low : Int), some (high : Int), default⟩) := by
  refine reads_nat fun n hn hV => ⟨fun low' hlow => ?_, fun high' hhigh => ?_⟩
  · have hle := (h n hn hV).1
    have heq : low' = low := (Option.some.inj hlow).symm
    omega
  · have hle := (h n hn hV).2
    have heq : high' = high := (Option.some.inj hhigh).symm
    omega

theorem covers_target {V : TargetRequest → Prop} :
    Covers Schema.targetMembers V [("client", atLeast 1), ("generation", atLeast 0)]
      ["client", "generation"] := by
  unfold Schema.targetMembers
  refine Covers.mono (Covers.packed (Covers.pair (Covers.field "client" (V := fun _ => True) ?_)
    (Covers.field "generation" (V := fun _ => True) ?_))) fun _ _ => ⟨trivial, trivial⟩
  · exact reads_clientId
  · exact reads_any

theorem agrees_empty : Agrees Schema.empty (fun _ => .ok ()) empty :=
  Covers.agrees (V := fun _ => True) Covers.nothing (fun _ _ => rfl) rfl rfl fun _ _ => trivial

theorem agrees_target : Agrees Schema.targetRequest TargetRequest.validate target :=
  Covers.agrees (V := fun _ => True) covers_target (fun _ _ => rfl) rfl rfl fun _ _ => trivial

theorem agrees_subscribe : Agrees Schema.subscribeRequest SubscribeRequest.validate
    (closed [("kinds", .array 8 eventKindNames none none)] none) := by
  refine Covers.agrees (Covers.packed (Covers.defaulted "kinds"
    (V := fun kinds => strictlyOrdered EventKind.ctorIdx kinds.asSlice = true) ?_)) (fun _ _ => rfl) rfl rfl
    fun r hvalid => ?_
  · exact reads_list fun a => by cases a <;> decide
  · simpa [SubscribeRequest.validate] using hvalid

theorem agrees_poll : Agrees Schema.pollRequest PollRequest.validate
    (closed [("after", atLeast 0), ("limit", within 1 1024), ("wait_ms", within 0 30000)]
      (some ["after", "limit", "wait_ms"])) := by
  refine Covers.agrees (Covers.packed (Covers.pair (Covers.field "after" (V := fun _ => True) ?_)
    (Covers.pair (Covers.field "limit" (V := fun n => n ≠ 0 ∧ n ≤ maxEvents) ?_)
      (Covers.field "wait_ms" (V := fun n => n ≤ maxPollWaitMs) ?_)))) (fun _ _ => rfl) rfl rfl
    fun r hvalid => ?_
  · exact reads_any
  · exact reads_within fun n _ hn => ⟨Nat.one_le_iff_ne_zero.mpr hn.1, hn.2⟩
  · exact reads_within fun n _ hn => ⟨Nat.zero_le _, hn⟩
  · unfold PollRequest.validate at hvalid
    split at hvalid
    · exact absurd hvalid (by simp)
    · refine ⟨trivial, ?_⟩
      show (r.limit ≠ 0 ∧ r.limit ≤ maxEvents) ∧ r.waitMs ≤ maxPollWaitMs
      omega

theorem agrees_workspace : Agrees Schema.workspaceRequest WorkspaceRequest.validate
    (closed [("workspace", within 0 65535), ("sequence", atLeast 0)] (some ["workspace", "sequence"])) := by
  refine Covers.agrees (Covers.packed (Covers.pair (Covers.field "workspace" (V := fun _ => True) ?_)
    (Covers.field "sequence" (V := fun _ => True) ?_))) (fun _ _ => rfl) rfl rfl fun _ _ => ⟨trivial, trivial⟩
  · exact reads_within fun n hn _ => ⟨Nat.zero_le _, hn⟩
  · exact reads_any

/-- A request of a target and more members. -/
theorem agrees_with_target {β γ : Type} {n : Members β} {hdisjoint : ∀ k ∈ n.keys, k ∉ Schema.targetMembers.collected.keys}
    {pack : TargetRequest × β → γ} {unpack : γ → TargetRequest × β} {hpack : ∀ b, pack (unpack b) = b}
    {hunpack : ∀ a, unpack (pack a) = a} {W : β → Prop} {more : List (String × Property)}
    {others : List String} (hn : Covers n W more others) {validate : γ → Check}
    (hvalidate : ∀ r, validate r = .ok () → W (unpack r).2) :
    Agrees (Codec.flattened ((Schema.targetMembers.collected.pair n hdisjoint).packed pack unpack hpack
      hunpack)) validate (objectWithTarget more others) :=
  Covers.agrees (Covers.packed (Covers.pair (V := fun _ => True) covers_target.collected hn))
    (fun _ _ => rfl) rfl rfl fun r hvalid => ⟨trivial, hvalidate r hvalid⟩

theorem agrees_clientWorkspace : Agrees Schema.clientWorkspaceRequest ClientWorkspaceRequest.validate
    (objectWithTarget [("workspace", within 0 65535)] ["workspace"]) := by
  refine agrees_with_target (Covers.field "workspace" (V := fun _ => True) ?_) fun _ _ => trivial
  exact reads_within fun n hn _ => ⟨Nat.zero_le _, hn⟩

theorem agrees_clientState : Agrees Schema.clientStateRequest ClientStateRequest.validate
    (objectWithTarget [("state", .enumeration clientStateNames),
      ("action", .enumeration ["add", "remove", "toggle"])] ["state", "action"]) := by
  refine agrees_with_target (Covers.pair (Covers.field "state" (V := fun _ => True) ?_)
    (Covers.field "action" (V := fun _ => True) ?_)) fun _ _ => ⟨trivial, trivial⟩
  · exact reads_names fun a => by cases a <;> decide
  · exact reads_names fun a => by cases a <;> decide

theorem agrees_pointerMove : Agrees Schema.pointerMoveRequest PointerMoveRequest.validate
    (objectWithTarget [("x", within 0 4294967295), ("y", within 0 4294967295)] ["x", "y"]) := by
  refine agrees_with_target (Covers.pair (Covers.field "x" (V := fun _ => True) ?_)
    (Covers.field "y" (V := fun _ => True) ?_)) fun _ _ => ⟨trivial, trivial⟩
  · exact reads_within fun n hn _ => ⟨Nat.zero_le _, hn⟩
  · exact reads_within fun n hn _ => ⟨Nat.zero_le _, hn⟩

theorem agrees_pointerClick : Agrees Schema.pointerClickRequest PointerClickRequest.validate
    (objectWithTarget [("x", within 0 4294967295), ("y", within 0 4294967295),
      ("button", .enumeration buttonNames)] ["x", "y", "button"]) := by
  refine agrees_with_target (Covers.pair (Covers.field "x" (V := fun _ => True) ?_)
    (Covers.pair (Covers.field "y" (V := fun _ => True) ?_)
      (Covers.field "button" (V := fun _ => True) ?_))) fun _ _ => ⟨trivial, trivial, trivial⟩
  · exact reads_within fun n hn _ => ⟨Nat.zero_le _, hn⟩
  · exact reads_within fun n hn _ => ⟨Nat.zero_le _, hn⟩
  · exact reads_names fun a => by cases a <;> decide

theorem agrees_applicationsList : Agrees Schema.applicationListRequest ApplicationListRequest.validate
    (closed [("cursor", .integer ⟨some 0, some 4294967295, some 0⟩), ("limit", within 1 256)]
      (some ["limit"])) := by
  refine Covers.agrees (Covers.packed (Covers.pair (Covers.defaulted "cursor" (V := fun _ => True) ?_)
    (Covers.field "limit" (V := fun n => n ≠ 0 ∧ n ≤ maxApplications) ?_))) (fun _ _ => rfl) rfl rfl
    fun r hvalid => ?_
  · exact reads_within fun n hn _ => ⟨Nat.zero_le _, hn⟩
  · exact reads_within fun n _ hn => ⟨Nat.one_le_iff_ne_zero.mpr hn.1, hn.2⟩
  · have hbounds : ¬ (r.limit = 0 ∨ r.limit > maxApplications) := by
      simpa [ApplicationListRequest.validate] using hvalid
    refine ⟨trivial, ?_⟩
    show r.limit ≠ 0 ∧ r.limit ≤ maxApplications
    omega

/-- A text that passes the checks of a text request. -/
theorem reads_content {max scalars : Nat} {c : Codec String} (hplain : ∀ value, c.Plain value)
    (hsame : ∀ {value text}, c.Same value (c.encode text) → value = .str text)
    {errors : TextValidationErrors} :
    Reads (Schema.ofText c) (fun text : BoundedText max =>
      validateTextContent text.asStr scalars errors = .ok ()) (.string 1 scalars none) := by
  refine reads_text hplain hsame fun text hvalid => ?_
  simp only [validateTextContent, Check.and_eq_ok, ensure_eq_ok, decide_eq_true_eq] at hvalid
  refine ⟨?_, hvalid.2.2, by simp⟩
  have hne : text.asStr.toList ≠ [] := fun hnil => hvalid.1 (String.toList_inj.mp hnil)
  exact List.length_pos_iff.mpr hne

theorem agrees_keyboardType : Agrees Schema.keyboardTypeRequest KeyboardTypeRequest.validate
    (objectWithTarget [("text", .string 1 256 none)] ["text"]) := by
  refine agrees_with_target (Covers.field "text" (V := fun text =>
    validateTextContent text.asStr maxInputActions .keyboard = .ok ()) ?_) fun r hvalid => ?_
  · exact reads_content (fun _ => trivial) id
  · exact (Check.and_eq_ok.mp hvalid).2

theorem agrees_keyboardWrite : Agrees Schema.keyboardWriteRequest KeyboardWriteRequest.validate
    (objectWithTarget [("text", .string 1 4096 none)] ["text"]) := by
  refine agrees_with_target (Covers.field "text" (V := fun text =>
    validateTextContent text.asStr maxLongInputActions .keyboard = .ok ()) ?_) fun r hvalid => ?_
  · exact reads_content (fun _ => trivial) id
  · exact (Check.and_eq_ok.mp hvalid).2

theorem agrees_textInsert : Agrees Schema.textInsertRequest TextInsertRequest.validate
    (objectWithTarget [("text", .string 1 16384 none)] ["text"]) := by
  refine agrees_with_target (Covers.field "text" (V := fun text =>
    validateTextContent text.asStr maxTextTransferScalars .transfer = .ok ()) ?_) fun r hvalid => ?_
  · exact reads_content (fun _ => trivial) id
  · exact (Check.and_eq_ok.mp hvalid).2

theorem agrees_keyboardKey : Agrees Schema.keyboardKeyRequest KeyboardKeyRequest.validate
    (objectWithTarget [("key", .enumeration keyboardKeyNames), ("modifiers",
      .array 4 ["control", "alt", "shift", "super"] (some [])
        (some "Use canonical order: control, alt, shift, super."))] ["key"]) := by
  refine agrees_with_target (Covers.pair (Covers.field "key" (V := fun _ => True) ?_)
    (Covers.defaulted "modifiers" (V := fun modifiers =>
      strictlyOrdered KeyboardModifier.ctorIdx modifiers.asSlice = true) ?_)) fun r hvalid => ?_
  · exact reads_names fun key => by cases key <;> decide
  · exact reads_list fun modifier => by cases modifier <;> decide
  · exact ⟨trivial, by simpa using (Check.and_eq_ok.mp hvalid).2⟩

theorem agrees_captureRegion : Agrees Schema.captureRegionRequest CaptureRegionRequest.validate
    (objectWithTarget [("x", within 0 2047), ("y", within 0 2047), ("width", within 1 1024),
      ("height", within 1 1024)] ["x", "y", "width", "height"]) := by
  refine agrees_with_target (Covers.collected (Covers.packed
    (Covers.pair (Covers.field "x" (V := fun n => n ≤ 2047) ?_)
      (Covers.pair (Covers.field "y" (V := fun n => n ≤ 2047) ?_)
        (Covers.pair (Covers.field "width" (V := fun n => 1 ≤ n ∧ n ≤ 1024) ?_)
          (Covers.field "height" (V := fun n => 1 ≤ n ∧ n ≤ 1024) ?_)))))) fun r hvalid => ?_
  · exact reads_within fun n _ hn => ⟨Nat.zero_le _, hn⟩
  · exact reads_within fun n _ hn => ⟨Nat.zero_le _, hn⟩
  · exact reads_within fun n _ hn => hn
  · exact reads_within fun n _ hn => hn
  · have hregion := (Check.and_eq_ok.mp hvalid).2
    simp only [CaptureRegion.validate, Check.and_eq_ok, ensure_eq_ok] at hregion
    have hbounds := of_decide_eq_false ((Bool.not_eq_true' _).mp hregion.2.2.2)
    simp only [maxCaptureRegionWidth, maxCaptureRegionHeight, maxCaptureWidth, maxCaptureHeight] at hbounds
    show r.region.x ≤ 2047 ∧ r.region.y ≤ 2047 ∧ (1 ≤ r.region.width ∧ r.region.width ≤ 1024) ∧
      1 ≤ r.region.height ∧ r.region.height ≤ 1024
    omega

/-- An object of integers is a closed object of integer properties. -/
theorem integers_valid (members : List (String × Range)) (required : List String) (value : Json) :
    (Property.integers members required).Valid value ↔
      (closed (members.map fun member => (member.1, .integer member.2)) (some required)).Valid value := by
  have hlookup (key : String) : (members.map fun member => (member.1, Property.integer member.2)).lookup key =
      (members.lookup key).map .integer := by
    induction members with
    | nil => rfl
    | cons member rest ih =>
      rw [List.map_cons, Assoc.lookup_cons, Assoc.lookup_cons, ih]
      split <;> rfl
  cases value with
  | obj given =>
    show (_ ∧ _) ↔ (_ ∧ _)
    refine and_congr (forall_congr' fun key => forall_congr' fun value => imp_congr_right fun _ => ?_)
      Iff.rfl
    show (∃ range, members.lookup key = some range ∧ range.Valid value) ↔ ∃ property,
      (members.map fun member => (member.1, Property.integer member.2)).lookup key = some property ∧
        property.Valid value
    rw [hlookup]
    constructor
    · rintro ⟨range, hrange, hvalid⟩
      exact ⟨.integer range, by rw [hrange]; rfl, hvalid⟩
    · rintro ⟨property, hproperty, hvalid⟩
      obtain ⟨range, hrange, rfl⟩ := Option.map_eq_some_iff.mp hproperty
      exact ⟨range, hrange, hvalid⟩
  | _ => exact Iff.rfl

theorem integers_spelled (members : List (String × Range)) (required : List String) (value : Json) :
    (Property.integers members required).Spelled value ↔
      (closed (members.map fun member => (member.1, .integer member.2)) (some required)).Spelled value := by
  constructor
  · intro hobj
    match value, hobj with
    | .obj given, _ =>
      refine ⟨given, rfl, fun key value property _ hproperty => ?_⟩
      obtain ⟨member, -, hmember⟩ := List.mem_map.mp (Assoc.mem_of_lookup hproperty)
      rw [← (Prod.mk.inj hmember).2]
      trivial
  · rintro ⟨given, rfl, -⟩
    rfl

theorem reads_rect : Reads Schema.rect (fun r => r.width ≠ 0 ∧ r.height ≠ 0)
    (.integers [("x", ⟨none, none, none⟩), ("y", ⟨none, none, none⟩),
      ("width", ⟨some 1, some 4294967295, none⟩), ("height", ⟨some 1, some 4294967295, none⟩)]
      ["x", "y", "width", "height"]) := by
  have hagrees : Agrees Schema.rect Rect.validate (closed [("x", .integer ⟨none, none, none⟩),
      ("y", .integer ⟨none, none, none⟩), ("width", within 1 4294967295), ("height", within 1 4294967295)]
      (some ["x", "y", "width", "height"])) := by
    refine Covers.agrees (Covers.packed (Covers.pair (Covers.field "x" (V := fun _ => True) reads_i32)
      (Covers.pair (Covers.field "y" (V := fun _ => True) reads_i32)
        (Covers.pair (Covers.field "width" (V := fun n => n ≠ 0) ?_)
          (Covers.field "height" (V := fun n => n ≠ 0) ?_))))) (fun _ _ => rfl) rfl rfl fun r hvalid => ?_
    · exact reads_within fun n hn hpos => ⟨Nat.one_le_iff_ne_zero.mpr hpos, hn⟩
    · exact reads_within fun n hn hpos => ⟨Nat.one_le_iff_ne_zero.mpr hpos, hn⟩
    · refine ⟨trivial, trivial, ?_⟩
      simpa [Rect.validate] using hvalid
  intro source value r hdecode hpos
  have hiff := hagrees source value r hdecode (by simpa [Rect.validate] using hpos)
  rw [integers_valid, integers_spelled]
  exact hiff

theorem agrees_clientGeometry : Agrees Schema.clientGeometryRequest ClientGeometryRequest.validate
    (objectWithTarget [("frame", .integers [("x", ⟨none, none, none⟩), ("y", ⟨none, none, none⟩),
      ("width", ⟨some 1, some 4294967295, none⟩), ("height", ⟨some 1, some 4294967295, none⟩)]
      ["x", "y", "width", "height"])] ["frame"]) := by
  refine agrees_with_target (Covers.field "frame" reads_rect) fun r hvalid => ?_
  have hframe := (Check.and_eq_ok.mp hvalid).2
  simpa [Rect.validate] using hframe

/-- A text has no more characters than bytes. -/
theorem length_le_bytes (text : String) : text.toList.length ≤ text.utf8ByteSize := by
  rw [← Json.total_utf8Size]
  generalize text.toList = chars
  induction chars with
  | nil => exact Nat.le_refl _
  | cons c rest ih =>
    have hpos := c.utf8Size_pos
    rw [List.length_cons, Json.total]
    omega

/-- The desktop entry without a name. -/
def namelessEntry : String := ".desktop"

/-- The arguments launch the desktop entry without a name. -/
def Nameless (tool : String) (value : Json) : Prop :=
  tool = "application_launch" ∧ get "application" value = some (.str namelessEntry)

def launchSchema : InputSchema :=
  closed [("application", .string 9 256 (some .desktopId))] (some ["application"])

theorem matches_named {text : String} (hends : endsWith text ".desktop" = true)
    (hchars : (text.toList.any fun c => c == '/' || c == '\x00') = false) (hnamed : text ≠ namelessEntry) :
    Pattern.Matches .desktopId text ∧ 9 ≤ text.toList.length := by
  obtain ⟨name, hname⟩ := List.isSuffixOf_iff_suffix.mp hends
  have hne : name ≠ [] := by
    rintro rfl
    exact hnamed (String.toList_inj.mp hname.symm)
  have hlength := congrArg List.length hname
  rw [List.length_append] at hlength
  have height : ".desktop".toList.length = 8 := by decide
  have hpos := List.length_pos_iff.mpr hne
  refine ⟨⟨name, hne, fun c hc => ?_, hname.symm⟩, by omega⟩
  rw [← hname, List.any_append, Bool.or_eq_false_iff] at hchars
  have hc' := List.any_eq_false.mp hchars.1 c hc
  simpa using hc'

theorem launch_agrees {value : Json} {r : ApplicationLaunchRequest}
    (hdecode : Schema.applicationLaunchRequest.decode .stream value = some r)
    (hvalid : r.validate = .ok ()) :
    launchSchema.Valid value ↔ launchSchema.Spelled value ∧ ¬ Nameless "application_launch" value := by
  have happlication : ∀ members, value = .obj members →
      members.lookup "application" = some (.str r.application.asStr) := by
    rintro members rfl
    have hread : Codec.Declared ["application"] members ∧
        ((find members "application").bind (Schema.applicationId.decode .stream)).map
          ApplicationLaunchRequest.mk = some r :=
      Option.ite_none_right_eq_some.mp hdecode
    obtain ⟨application, happlication, rfl⟩ := Option.map_eq_some_iff.mp hread.2
    obtain ⟨text, htext, hbounded⟩ := Option.bind_eq_some_iff.mp happlication
    have hstr : text = .str application.asStr := (Schema.applicationId.strict_same hbounded trivial).2
    rw [← hstr]
    exact htext
  by_cases hnamed : r.application.asStr = namelessEntry
  · -- the entry without a name has eight characters
    have hnot : ¬ launchSchema.Valid value := by
      intro hok
      match value, hok, happlication with
      | .obj members, hok, happlication =>
        obtain ⟨property, hproperty, hstring⟩ := hok.1 "application" _ (happlication members rfl)
        obtain rfl := Option.some.inj (hproperty.symm.trans rfl)
        rw [hnamed] at hstring
        exact absurd hstring.1 (by decide)
    refine ⟨fun hok => absurd hok hnot, fun ⟨⟨members, hobj, _⟩, hother⟩ => ?_⟩
    refine absurd ⟨rfl, ?_⟩ hother
    rw [hobj]
    show members.lookup "application" = _
    rw [happlication members hobj, hnamed]
  · have hother : ¬ Nameless "application_launch" value := by
      rintro ⟨-, hget⟩
      match value, hget, happlication with
      | .obj members, hget, happlication =>
        have hsame := Option.some.inj ((happlication members rfl).symm.trans hget)
        exact hnamed (Json.str.inj hsame)
    rw [and_iff_left hother]
    have hagrees : Agrees Schema.applicationLaunchRequest
        (fun r => r.validate.and (ensure (r.application.asStr ≠ namelessEntry) "")) launchSchema := by
      refine Covers.agrees (Covers.packed (Covers.field "application" (V := fun text =>
        (endsWith text.asStr ".desktop" = true ∧
          (text.asStr.toList.any fun c => c == '/' || c == '\x00') = false) ∧
        text.asStr ≠ namelessEntry) ?_)) (fun _ _ => rfl) rfl rfl fun r hvalid => ?_
      · refine reads_text (fun _ => trivial) id fun text hV => ?_
        obtain ⟨hmatches, hlength⟩ := matches_named hV.1.1 hV.1.2 hV.2
        have hbytes := length_le_bytes text.asStr
        have hbound : text.asStr.utf8ByteSize ≤ 256 := text.2
        refine ⟨hlength, by omega, fun p hp => ?_⟩
        rw [← Option.some.inj hp]
        exact hmatches
      · simp only [Check.and_eq_ok, ApplicationLaunchRequest.validate, ensure_eq_ok, Bool.and_eq_true,
          Bool.not_eq_true', decide_eq_true_eq] at hvalid
        exact ⟨⟨hvalid.1.1.2, hvalid.1.2⟩, hvalid.2⟩
    refine hagrees .stream value r hdecode (Check.and_eq_ok.mpr ⟨hvalid, ?_⟩)
    simpa using hnamed

/-! ## Pointer slots -/

def slotSaveSchema : InputSchema :=
  objectWithTarget [("name", slotName), ("x", within 0 4294967295), ("y", within 0 4294967295),
    ("button", .enumeration buttonNames)] ["name", "x", "y", "button"]

def slotReplaySchema : InputSchema :=
  closed [("name", slotName), ("generation", atLeast 0)] (some ["name", "generation"])

theorem reads_slotName : Reads (Codec.text maxPointerSlotNameBytes)
    (fun name => validPointerSlotName name = true) slotName := by
  intro source value name hdecode hvalid
  have hvalue : value = .str name := ((Codec.text maxPointerSlotNameBytes).strict_same hdecode trivial).2
  simp only [validPointerSlotName, Bool.and_eq_true, decide_eq_true_eq] at hvalid
  obtain ⟨⟨hne, hbytes⟩, hchars⟩ := hvalid
  have hlength := length_le_bytes name
  have hbound : maxPointerSlotNameBytes = 64 := rfl
  have hnonempty : name.toList ≠ [] := fun hnil => hne (String.toList_inj.mp hnil)
  rw [hvalue]
  refine ⟨fun _ => trivial, fun _ => ⟨List.length_pos_iff.mpr hnonempty, by omega, fun p hp => ?_⟩⟩
  rw [← Option.some.inj hp]
  exact ⟨hnonempty, fun c hc => List.all_eq_true.mp hchars c hc⟩

/-- A slot name that passes its check fits the bounded text. -/
theorem decode_slotName {value : Option Json} {name : String} (h : value.bind asStr = some name)
    (hvalid : validPointerSlotName name = true) :
    value.bind ((Codec.text maxPointerSlotNameBytes).decode .stream) = some name := by
  obtain ⟨json, rfl, hjson⟩ := Option.bind_eq_some_iff.mp h
  unfold asStr at hjson
  split at hjson
  · obtain rfl := Option.some.inj hjson
    simp only [validPointerSlotName, Bool.and_eq_true, decide_eq_true_eq] at hvalid
    exact if_pos hvalid.1.2
  · exact absurd hjson (by simp)

theorem record_declared {keys : List String} {members : List (String × Json)} {look : Look}
    (h : record keys (.obj members) = some look) :
    look = find members ∧ ∀ key ∈ members.map Prod.fst, key ∈ keys := by
  unfold record at h
  dsimp only at h
  split at h
  · rename_i hall
    refine ⟨(Option.some.inj h).symm, fun key hkey => ?_⟩
    obtain ⟨member, hmember, rfl⟩ := List.mem_map.mp hkey
    simpa using List.all_eq_true.mp hall member hmember
  · exact absurd h (by simp)

theorem pair_decode {α β : Type} {m : Members α} {n : Members β}
    {hdisjoint : ∀ k ∈ n.keys, k ∉ m.keys} {source : Source} {look : Look} {a : α} {b : β}
    (hm : m.decode source look = some a) (hn : n.decode source look = some b) :
    (m.pair n hdisjoint).decode source look = some (a, b) := by
  show (m.decode source look).bind _ = _
  rw [hm, Option.bind_some, hn]
  rfl

theorem button_apart : ∀ k ∈ ["button"], k ∉ ["y"] := by decide

theorem y_apart : ∀ k ∈ ["y", "button"], k ∉ ["x"] := by decide

theorem x_apart : ∀ k ∈ ["x", "y", "button"], k ∉ ["name"] := by decide

theorem name_apart : ∀ k ∈ ["name", "x", "y", "button"], k ∉ ["client", "generation"] := by decide

/-- The members of the arguments of a save, in the order of their schema. -/
def slotSaveMembers : Members (TargetRequest × String × Nat × Nat × PointerButton) :=
  Schema.targetMembers.pair ((Members.field "name" (Codec.text maxPointerSlotNameBytes)).pair
    ((Members.field "x" Schema.u32).pair ((Members.field "y" Schema.u32).pair
      (Members.field "button" Schema.pointerButton) button_apart) y_apart) x_apart) name_apart

theorem covers_slotSave : Covers slotSaveMembers (fun r => validPointerSlotName r.2.1 = true)
    ([("client", atLeast 1), ("generation", atLeast 0)] ++ [("name", slotName),
      ("x", within 0 4294967295), ("y", within 0 4294967295), ("button", .enumeration buttonNames)])
    (["client", "generation"] ++ ["name", "x", "y", "button"]) := by
  refine Covers.mono (Covers.pair (V := fun _ => True) covers_target (Covers.pair
    (Covers.field "name" reads_slotName) (Covers.pair (Covers.field "x" (V := fun _ => True) ?_)
      (Covers.pair (Covers.field "y" (V := fun _ => True) ?_)
        (Covers.field "button" (V := fun _ => True) ?_))))) fun r hname =>
      ⟨trivial, hname, trivial, trivial, trivial⟩
  · exact reads_within fun n hn _ => ⟨Nat.zero_le _, hn⟩
  · exact reads_within fun n hn _ => ⟨Nat.zero_le _, hn⟩
  · exact reads_names fun a => by cases a <;> decide

theorem slotSave_agrees {value : Json} {request : PointerSlotSaveRequest}
    (hread : PointerSlotSaveRequest.read value = some request)
    (hname : validPointerSlotName request.name = true) :
    slotSaveSchema.Valid value ↔ slotSaveSchema.Spelled value := by
  cases value with
  | obj members =>
    unfold PointerSlotSaveRequest.read at hread
    obtain ⟨look, hrecord, hread⟩ := Option.bind_eq_some_iff.mp hread
    obtain ⟨rfl, hdeclared⟩ := record_declared hrecord
    obtain ⟨name, hnamed, hread⟩ := Option.bind_eq_some_iff.mp hread
    obtain ⟨client, hclient, hread⟩ := Option.bind_eq_some_iff.mp hread
    obtain ⟨generation, hgeneration, hread⟩ := Option.bind_eq_some_iff.mp hread
    obtain ⟨x, hx, hread⟩ := Option.bind_eq_some_iff.mp hread
    obtain ⟨y, hy, hread⟩ := Option.bind_eq_some_iff.mp hread
    obtain ⟨button, hbutton, hread⟩ := Option.bind_eq_some_iff.mp hread
    obtain rfl := Option.some.inj hread
    have hdecode : slotSaveMembers.decode .stream (find members) =
        some (⟨client, generation⟩, name, x, y, button) := by
      have htarget : Schema.targetMembers.decode .stream (find members) = some ⟨client, generation⟩ :=
        congrArg (Option.map _) (pair_decode (n := .field "generation" Schema.u64) hclient hgeneration)
      exact pair_decode htarget (pair_decode (decode_slotName hnamed hname)
        (pair_decode hx (pair_decode hy hbutton)))
    refine covers_slotSave.valid_iff rfl rfl (fun key hkey => ?_) hdecode hname
    have hkeys := hdeclared key hkey
    simp only [List.mem_cons, List.not_mem_nil, or_false] at hkeys
    rcases hkeys with rfl | rfl | rfl | rfl | rfl | rfl <;> decide
  | _ => exact no_object rfl

theorem slotReplay_agrees {value : Json} {request : PointerSlotReplayRequest}
    (hread : PointerSlotReplayRequest.read value = some request)
    (hname : validPointerSlotName request.name = true) :
    slotReplaySchema.Valid value ↔ slotReplaySchema.Spelled value := by
  cases value with
  | obj members =>
    unfold PointerSlotReplayRequest.read at hread
    obtain ⟨look, hrecord, hread⟩ := Option.bind_eq_some_iff.mp hread
    obtain ⟨rfl, hdeclared⟩ := record_declared hrecord
    obtain ⟨name, hnamed, hread⟩ := Option.bind_eq_some_iff.mp hread
    obtain ⟨generation, hgeneration, hread⟩ := Option.bind_eq_some_iff.mp hread
    obtain rfl := Option.some.inj hread
    have hcovers : Covers ((Members.field "name" (Codec.text maxPointerSlotNameBytes)).pair
        (Members.field "generation" Schema.u64))
        (fun r => validPointerSlotName r.1 = true ∧ True)
        [("name", slotName), ("generation", atLeast 0)] ["name", "generation"] :=
      (Covers.field "name" reads_slotName).pair (Covers.field "generation" (V := fun _ => True) reads_any)
    exact hcovers.valid_iff rfl rfl hdeclared (pair_decode (decode_slotName hnamed hname) hgeneration)
      ⟨hname, trivial⟩
  | _ => exact no_object rfl

end Tools

/-! ## What the companion takes -/

/-- The arguments of a pointer-slot tool that are taken. -/
def SlotAction (name : String) (value : Json) : Prop :=
  match name with
  | "pointer_slot_save" => ∃ request, PointerSlotSaveRequest.read value = some request ∧
      validPointerSlotName request.name = true ∧ request.action.validate = .ok ()
  | "pointer_slot_replay" => ∃ request, PointerSlotReplayRequest.read value = some request ∧
      validPointerSlotName request.name = true
  | "pointer_slots_list" => ∃ u, Schema.empty.decode .stream value = some u
  | _ => False

section Taken

variable (reason : String → Json → String)

/-- The arguments become a call or a pointer-slot action. -/
def TakenAs (name : String) (value : Json) : Prop :=
  if isPointerSlotTool name then SlotAction name value
  else ∃ call, translateCall reason name (some value) = .ok call

/-- The arguments are taken; in the modern era all tools but the status have a context. -/
def Taken (era : Era) (name : String) (value : Json) : Prop :=
  match era with
  | .legacy => TakenAs reason name value
  | .modern => ∃ context arguments, takeContext (some value) = .ok (context, some arguments) ∧
      (context = none ↔ name = "seat_status") ∧ TakenAs reason name arguments

variable {reason}

/-- Arguments that become a call were read and passed the checks. -/
theorem readArguments_ok {α : Type} {c : Codec α} {name : String} {value : Json} {inject : α → Call}
    {call : Call} (hcall : translateCall reason name (some value) = .ok call)
    (hname : callOf reason name value = readArguments reason c name value inject) :
    ∃ a, c.decode .stream value = some a ∧ (inject a).validate = .ok () := by
  unfold translateCall at hcall
  rw [Option.getD_some, hname] at hcall
  unfold readArguments at hcall
  cases hdecode : c.decode .stream value with
  | none =>
    rw [hdecode] at hcall
    exact absurd hcall (by simp [bind, Except.bind])
  | some a =>
    rw [hdecode] at hcall
    refine ⟨a, rfl, ?_⟩
    cases hvalid : (inject a).validate with
    | ok u => rfl
    | error error =>
      simp only [bind, Except.bind, hvalid, Except.mapError] at hcall
      exact absurd hcall (by simp)

/-- A tool whose arguments are a request of the protocol. -/
theorem taken_agrees {α : Type} {c : Codec α} {validate : α → Check} {s : InputSchema}
    (hagrees : Agrees c validate s) {name : String} {inject : α → Call} {value : Json}
    (hname : callOf reason name value = readArguments reason c name value inject)
    (hvalidate : ∀ a, (inject a).validate = validate a) (hslot : isPointerSlotTool name = false)
    (hlaunch : name ≠ "application_launch") (h : TakenAs reason name value) :
    s.Valid value ↔ s.Spelled value ∧ ¬ Nameless name value := by
  unfold TakenAs at h
  rw [if_neg (by rw [hslot]; decide)] at h
  obtain ⟨call, hcall⟩ := h
  obtain ⟨a, hdecode, hvalid⟩ := readArguments_ok hcall hname
  rw [and_iff_left fun hnameless => hlaunch hnameless.1]
  exact hagrees .stream value a hdecode ((hvalidate a).symm.trans hvalid)

theorem legacy_covers {tool : Tool} (htool : tool ∈ buildTools) {value : Json}
    (h : TakenAs reason tool.name value) :
    tool.inputSchema.Valid value ↔ tool.inputSchema.Spelled value ∧ ¬ Nameless tool.name value := by
  simp only [buildTools, List.mem_cons, List.not_mem_nil, or_false] at htool
  rcases htool with rfl | rfl | rfl | rfl | rfl | rfl | rfl | rfl | rfl | rfl | rfl | rfl | rfl | rfl |
    rfl | rfl | rfl | rfl | rfl | rfl | rfl | rfl | rfl
  · exact taken_agrees agrees_empty rfl (fun _ => rfl) rfl (by decide) h
  · exact taken_agrees agrees_empty rfl (fun _ => rfl) rfl (by decide) h
  · exact taken_agrees agrees_subscribe rfl (fun _ => rfl) rfl (by decide) h
  · exact taken_agrees agrees_poll rfl (fun _ => rfl) rfl (by decide) h
  · exact taken_agrees agrees_target rfl (fun _ => rfl) rfl (by decide) h
  · exact taken_agrees agrees_target rfl (fun _ => rfl) rfl (by decide) h
  · exact taken_agrees agrees_workspace rfl (fun _ => rfl) rfl (by decide) h
  · exact taken_agrees agrees_clientWorkspace rfl (fun _ => rfl) rfl (by decide) h
  · exact taken_agrees agrees_clientState rfl (fun _ => rfl) rfl (by decide) h
  · exact taken_agrees agrees_clientGeometry rfl (fun _ => rfl) rfl (by decide) h
  · exact taken_agrees agrees_applicationsList rfl (fun _ => rfl) rfl (by decide) h
  · obtain ⟨call, hcall⟩ := h
    obtain ⟨r, hdecode, hvalid⟩ := readArguments_ok hcall rfl
    exact launch_agrees hdecode hvalid
  · exact taken_agrees agrees_pointerMove rfl (fun _ => rfl) rfl (by decide) h
  · exact taken_agrees agrees_pointerClick rfl (fun _ => rfl) rfl (by decide) h
  · obtain ⟨request, hread, hname, -⟩ := h
    rw [and_iff_left fun hnameless => absurd hnameless.1 (by decide)]
    exact slotSave_agrees hread hname
  · obtain ⟨request, hread, hname⟩ := h
    rw [and_iff_left fun hnameless => absurd hnameless.1 (by decide)]
    exact slotReplay_agrees hread hname
  · obtain ⟨u, hdecode⟩ := h
    rw [and_iff_left fun hnameless => absurd hnameless.1 (by decide)]
    exact agrees_empty .stream value u hdecode rfl
  · exact taken_agrees agrees_keyboardType rfl (fun _ => rfl) rfl (by decide) h
  · exact taken_agrees agrees_keyboardKey rfl (fun _ => rfl) rfl (by decide) h
  · exact taken_agrees agrees_keyboardWrite rfl (fun _ => rfl) rfl (by decide) h
  · exact taken_agrees agrees_textInsert rfl (fun _ => rfl) rfl (by decide) h
  · exact taken_agrees agrees_target rfl (fun _ => rfl) rfl (by decide) h
  · exact taken_agrees agrees_captureRegion rfl (fun _ => rfl) rfl (by decide) h

/-! ## The context of the modern era -/

section Context

variable {s : InputSchema} {members : List (String × Json)} {n : Int}

/-- The context is no property of a legacy tool. -/
theorem context_free : (buildTools.all fun tool =>
    ((tool.inputSchema.properties.getD []).lookup "context").isNone &&
      !(tool.inputSchema.required.getD []).contains "context") = true := by
  decide

theorem lookup_withContext (hfree : (s.properties.getD []).lookup "context" = none) (key : String) :
    ((addContextSchema s).properties.getD []).lookup key =
      if key = "context" then some (atLeast 1) else (s.properties.getD []).lookup key := by
  show (s.properties.getD [] ++ [("context", atLeast 1)]).lookup key = _
  rw [Assoc.lookup_append, Assoc.lookup_cons, List.lookup_nil]
  split
  · rename_i hkey
    rw [hkey, hfree]
    rfl
  · rw [Option.or_none]

theorem context_valid (hcontext : members.lookup "context" = some (.num n)) (hpos : 0 < n)
    (hfree : (s.properties.getD []).lookup "context" = none)
    (hrequired : "context" ∉ s.required.getD []) :
    (addContextSchema s).Valid (.obj members) ↔ s.Valid (.obj (Assoc.erase "context" members)) := by
  have herase (key : String) : (Assoc.erase "context" members).lookup key =
      if key = "context" then none else members.lookup key := Assoc.lookup_erase _ _ _
  constructor
  · rintro ⟨hvalid, hpresent⟩
    refine ⟨fun key value hvalue => ?_, fun key hkey => ?_⟩
    · rw [herase] at hvalue
      split at hvalue
      · exact absurd hvalue (by simp)
      · rename_i hkey
        obtain ⟨property, hproperty, hok⟩ := hvalid key value hvalue
        rw [lookup_withContext hfree, if_neg hkey] at hproperty
        exact ⟨property, hproperty, hok⟩
    · have hne : key ≠ "context" := fun heq => hrequired (heq ▸ hkey)
      rw [herase, if_neg hne]
      exact hpresent key (List.mem_append_left _ hkey)
  · rintro ⟨hvalid, hpresent⟩
    refine ⟨fun key value hvalue => ?_, fun key hkey => ?_⟩
    · rw [lookup_withContext hfree]
      by_cases hkey : key = "context"
      · rw [if_pos hkey]
        rw [hkey, hcontext] at hvalue
        rw [← Option.some.inj hvalue]
        refine ⟨_, rfl, fun low hlow => ?_, by simp⟩
        have hone : low = 1 := (Option.some.inj hlow).symm
        omega
      · rw [if_neg hkey]
        exact hvalid key value (by rw [herase, if_neg hkey]; exact hvalue)
    · rcases List.mem_append.mp hkey with hkey | hkey
      · have hlegacy := hpresent key hkey
        rw [herase] at hlegacy
        split at hlegacy
        · exact absurd hlegacy (by simp)
        · exact hlegacy
      · rw [List.mem_singleton.mp hkey, hcontext]
        rfl

theorem context_spelled (hfree : (s.properties.getD []).lookup "context" = none) :
    (addContextSchema s).Spelled (.obj members) ↔ s.Spelled (.obj (Assoc.erase "context" members)) := by
  have herase (key : String) : (Assoc.erase "context" members).lookup key =
      if key = "context" then none else members.lookup key := Assoc.lookup_erase _ _ _
  constructor
  · rintro ⟨members', heq, hspelled⟩
    obtain rfl := Json.obj.inj heq
    refine ⟨_, rfl, fun key value property hvalue hproperty => ?_⟩
    rw [herase] at hvalue
    split at hvalue
    · exact absurd hvalue (by simp)
    · rename_i hkey
      exact hspelled key value property hvalue (by rw [lookup_withContext hfree, if_neg hkey, hproperty])
  · rintro ⟨members', heq, hspelled⟩
    obtain rfl := Json.obj.inj heq
    refine ⟨members, rfl, fun key value property hvalue hproperty => ?_⟩
    rw [lookup_withContext hfree] at hproperty
    by_cases hkey : key = "context"
    · rw [if_pos hkey] at hproperty
      rw [← Option.some.inj hproperty]
      trivial
    · rw [if_neg hkey] at hproperty
      exact hspelled key value property (by rw [herase, if_neg hkey, hvalue]) hproperty

end Context

/-- What the context of taken arguments is. -/
theorem takeContext_ok {value arguments : Json} {context : Option Nat}
    (h : takeContext (some value) = .ok (context, some arguments)) :
    ∃ members, value = .obj members ∧ ((context = none ∧ arguments = value) ∨
      ∃ n, members.lookup "context" = some (.num n) ∧ 0 < n ∧ context = some n.toNat ∧
        arguments = .obj (Assoc.erase "context" members)) := by
  unfold takeContext at h
  cases value with
  | obj members =>
    refine ⟨members, rfl, ?_⟩
    dsimp only at h
    split at h
    · have heq := Prod.mk.inj (Except.ok.inj h)
      exact .inl ⟨heq.1.symm, (Option.some.inj heq.2).symm⟩
    · rename_i n hn
      split at h
      · rename_i hbounds
        have heq := Prod.mk.inj (Except.ok.inj h)
        exact .inr ⟨n, hn, hbounds.1, heq.1.symm, (Option.some.inj heq.2).symm⟩
      · exact absurd h (by simp)
    · exact absurd h (by simp)
  | _ => exact absurd h (by simp)

variable (reason)

theorem schemas_cover (era : Era) (tool : Tool) (htool : tool ∈ tools era) (value : Json)
    (h : Taken reason era tool.name value) :
    tool.inputSchema.Valid value ↔ tool.inputSchema.Spelled value ∧ ¬ Nameless tool.name value := by
  cases era with
  | legacy => exact legacy_covers htool h
  | modern =>
    obtain ⟨context, arguments, htake, hstatus, htaken⟩ := h
    rcases List.mem_append.mp htool with hlegacy | hrelease
    · obtain ⟨base, hbase, rfl⟩ := List.mem_map.mp hlegacy
      by_cases hname : base.name = "seat_status"
      · rw [if_pos hname] at htaken hstatus ⊢
        obtain ⟨members, rfl, ⟨-, rfl⟩ | ⟨n, -, -, hcontext, -⟩⟩ := takeContext_ok htake
        · have hcovers := legacy_covers hbase htaken
          exact hcovers
        · exact absurd ((hstatus.mpr hname).symm.trans hcontext) (by simp)
      · rw [if_neg hname] at htaken hstatus ⊢
        obtain ⟨members, rfl, ⟨hnone, -⟩ | ⟨n, hcontext, hpos, -, rfl⟩⟩ := takeContext_ok htake
        · exact absurd (hstatus.mp hnone) hname
        · have hfree := List.all_eq_true.mp context_free base hbase
          rw [Bool.and_eq_true, Option.isNone_iff_eq_none] at hfree
          have hrequired : "context" ∉ base.inputSchema.required.getD [] := by simpa using hfree.2
          have hnameless : Nameless base.name (.obj members) ↔
              Nameless base.name (.obj (Assoc.erase "context" members)) := by
            have hget : (Assoc.erase "context" members).lookup "application" =
                members.lookup "application" := by
              rw [Assoc.lookup_erase, if_neg (by decide)]
            show _ ∧ members.lookup "application" = _ ↔
              _ ∧ (Assoc.erase "context" members).lookup "application" = _
            rw [hget]
          show (addContextSchema base.inputSchema).Valid _ ↔
            (addContextSchema base.inputSchema).Spelled _ ∧ ¬ Nameless base.name _
          rw [context_valid hcontext hpos hfree.1 hrequired, context_spelled hfree.1, hnameless]
          exact legacy_covers hbase htaken
    · -- a release is no call and no action
      obtain rfl := List.mem_singleton.mp hrelease
      obtain ⟨call, hcall⟩ := htaken
      exact absurd hcall (by simp [translateCall, callOf, bind, Except.bind])

/-- A poll of a legacy host. -/
def pollArguments : Json := .obj [("after", .num 0), ("limit", .num 1), ("wait_ms", .num 0)]

theorem schemas_cover_poll : ∃ tool ∈ tools .legacy, tool.name = "events_poll" ∧
    (tool.inputSchema.Valid pollArguments ↔
      tool.inputSchema.Spelled pollArguments ∧ ¬ Nameless tool.name pollArguments) := by
  refine ⟨buildTools[3], List.getElem_mem _, rfl, ?_⟩
  exact schemas_cover (fun _ _ => "") .legacy _ (List.getElem_mem _) pollArguments ⟨_, rfl⟩

/-- A poll by position is taken, and no schema covers it. -/
theorem poll_by_position : ¬ ∀ tool ∈ tools .legacy, ∀ value,
    Taken (fun _ _ => "") .legacy tool.name value → tool.inputSchema.Valid value := by
  intro hcover
  exact hcover buildTools[3] (List.getElem_mem _) (.arr [.num 0, .num 1, .num 0]) ⟨_, rfl⟩

end Taken

end AgentSeat.Companion
