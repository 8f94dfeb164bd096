/-
  The command lines of the broker and of the guard (`Arguments::parse` of `main.rs` and of
  `agent-seat-eligibility-guard.rs`).

  The service manager cuts the `ExecStart` of a unit into words, and each program goes through its
  own once. An argument is bytes, and one that is no UTF-8 is refused. What a refusal is about is
  kept, its text is not. The programs of an enrollment run with what was enrolled
  (`commands_understood`).
-/
import AgentSeat.Broker.Consumed

namespace AgentSeat.Broker

open AgentSeat.Lib AgentSeat.Lib.Json AgentSeat.Lib.Paths AgentSeat.Lib.Text AgentSeat.Lib.Template

inductive ArgumentError where
  | notUtf8
  | repeated (argument : Bytes)
  | noValue (argument : Bytes)
  | notNumber (argument : Bytes)
  | unknown (argument : Bytes)
  | missing (argument : String)
  | malformedSession
  | unsupportedSeat
  | unboundedSocket
  | exclusiveEndpoints
  | noEndpoint
  deriving DecidableEq

/-! ## The broker -/

/-- `value` of the guard; the broker has it as a part of `parse_u32`. -/
def parseValue (argument value : Bytes) : Except ArgumentError Bytes :=
  if validUtf8 value then .ok value else .error (.noValue argument)

/-- `parse_u32` of the broker, `number` of the guard. -/
def parseNumber (argument value : Bytes) : Except ArgumentError Nat :=
  (parseValue argument value).bind fun text =>
    match parseU32 text with
    | some number => .ok number
    | none => .error (.notNumber argument)

/-- What the broker does with its arguments: it prints its usage, or serves a user. -/
inductive BrokerCommand where
  | help
  | serve (uid : Nat)
  deriving DecidableEq

/-- The loop of `Arguments::parse`; `uid` is what it has read so far. -/
def parseBrokerArguments (uid : Option Nat) : List Bytes → Except ArgumentError BrokerCommand
  | [] =>
    match uid with
    | some uid => .ok (.serve uid)
    | none => .error (.missing "--uid")
  | argument :: arguments =>
    if !validUtf8 argument then .error .notUtf8
    else if argument = ascii "--uid" then
      if uid.isSome then .error (.repeated argument)
      else match arguments with
        | [] => .error (.noValue argument)
        | value :: arguments =>
          (parseNumber argument value).bind fun uid => parseBrokerArguments (some uid) arguments
    else if argument = ascii "--help" then .ok .help
    else .error (.unknown argument)

/-! ## The guard -/

inductive GuardOption where
  | help | session | uid | seat | socket | listenStdin | peerUid
  deriving DecidableEq

def GuardOption.texts : List (String × GuardOption) :=
  [("-h", .help), ("--help", .help), ("--session", .session), ("--uid", .uid), ("--seat", .seat),
    ("--socket", .socket), ("--listen-stdin", .listenStdin), ("--peer-uid", .peerUid)]

def GuardOption.ofArgument (argument : Bytes) : Option GuardOption :=
  (texts.map fun entry => (ascii entry.1, entry.2)).lookup argument

inductive Endpoint where
  | path (path : Bytes)
  | standardInput
  deriving DecidableEq

/-- `Arguments` of the guard. -/
structure GuardArguments where
  session : Bytes
  uid : Nat
  seat : Bytes
  endpoint : Endpoint
  peerUid : Nat
  deriving DecidableEq

/-- What the loop of `Arguments::parse` has read so far. -/
structure GuardOptions where
  session : Option Bytes
  uid : Option Nat
  seat : Option Bytes
  socket : Option Bytes
  listenStdin : Bool
  peerUid : Option Nat
  deriving DecidableEq

def maxSocketPathBytes : Nat := 100

namespace GuardOptions

def nothing : GuardOptions := ⟨none, none, none, none, false, none⟩

/-- Whether an option was given before. -/
def given (o : GuardOptions) : GuardOption → Bool
  | .help => false
  | .session => o.session.isSome
  | .uid => o.uid.isSome
  | .seat => o.seat.isSome
  | .socket => o.socket.isSome
  | .listenStdin => o.listenStdin
  | .peerUid => o.peerUid.isSome

/-- An option with the value that follows it. -/
def set (o : GuardOptions) (argument value : Bytes) : GuardOption → Except ArgumentError GuardOptions
  | .session => (parseValue argument value).map fun session => { o with session := some session }
  | .uid => (parseNumber argument value).map fun uid => { o with uid := some uid }
  | .seat => (parseValue argument value).map fun seat => { o with seat := some seat }
  | .socket => (parseValue argument value).map fun socket => { o with socket := some socket }
  | .peerUid => (parseNumber argument value).map fun uid => { o with peerUid := some uid }
  | _ => .error (.unknown argument)

/-- The loop of `Arguments::parse`; its help is for those that ask for nothing else. -/
def parse (o : GuardOptions) : List Bytes → Except ArgumentError (Option GuardOptions)
  | [] => .ok (some o)
  | argument :: arguments =>
    if !validUtf8 argument then .error .notUtf8
    else match GuardOption.ofArgument argument with
      | none => .error (.unknown argument)
      | some option =>
        if option = .help then
          if o = nothing ∧ arguments = [] then .ok none else .error (.unknown argument)
        else if o.given option then .error (.repeated argument)
        else if option = .listenStdin then parse { o with listenStdin := true } arguments
        else match arguments with
          | [] => .error (.noValue argument)
          | value :: arguments => (o.set argument value option).bind fun o => parse o arguments

def required {α : Type} (argument : String) : Option α → Except ArgumentError α
  | some value => .ok value
  | none => .error (.missing argument)

def endpoint (o : GuardOptions) : Except ArgumentError Endpoint :=
  match o.socket, o.listenStdin with
  | some socket, false =>
    if !isAbsolute socket ∨ socket.length > maxSocketPathBytes then .error .unboundedSocket
    else .ok (.path socket)
  | none, true => .ok .standardInput
  | some _, true => .error .exclusiveEndpoints
  | none, false => .error .noEndpoint

/-- The checks after the loop, in their order. -/
def check (o : GuardOptions) : Except ArgumentError GuardArguments := do
  let session ← required "--session" o.session
  if !validSession session then .error .malformedSession
  else do
    let seat ← required "--seat" o.seat
    if seat ≠ supportedSeat then .error .unsupportedSeat
    else do
      let endpoint ← o.endpoint
      let uid ← required "--uid" o.uid
      return ⟨session, uid, seat, endpoint, o.peerUid.getD 0⟩

end GuardOptions

/-- `Arguments::parse` on the arguments after the name of the program; nothing is left to run after
    the usage was printed. -/
def parseGuardArguments (arguments : List Bytes) : Except ArgumentError (Option GuardArguments) := do
  match ← GuardOptions.nothing.parse arguments with
  | some o => return some (← o.check)
  | none => return none

/-! ## Words -/

/-- The characters that quote, escape, expand or separate in a command line: `"$%';\`. -/
def expanded : Bytes := [34, 36, 37, 39, 59, 92]

/-- The words of a command line, if the manager would change nothing in them. -/
def commandWords (line : Bytes) : Option (List Bytes) :=
  if line.any expanded.contains then none else some ((line.splitOn 32).filter (· ≠ []))

def PlainWord (word : Bytes) : Prop := word ≠ [] ∧ ∀ b ∈ word, b ∉ 32 :: expanded

instance (word : Bytes) : Decidable (PlainWord word) :=
  inferInstanceAs (Decidable (_ ∧ ∀ b ∈ word, _))

theorem commandWords_plain {words : List Bytes} (hne : words ≠ []) (h : ∀ word ∈ words, PlainWord word) :
    commandWords ([32].intercalate words) = some words := by
  have hnone : ([32].intercalate words).any expanded.contains = false := by
    rw [List.any_eq_false]
    intro b hb hspecial
    have hmem : b ∈ expanded := List.contains_iff_mem.mp hspecial
    obtain rfl | ⟨word, hword, hb⟩ := mem_intercalate hb
    · exact absurd hmem (by decide)
    · exact (h word hword).2 b hb (List.mem_cons_of_mem 32 hmem)
  have hsplit : ([32].intercalate words).splitOn 32 = words := by
    apply List.splitOn_intercalate _ _ hne
    intro word hword hmem
    exact (h word hword).2 32 hmem List.mem_cons_self
  unfold commandWords
  rw [hnone, hsplit]
  simp only [Bool.false_eq_true, if_false, Option.some.injEq, List.filter_eq_self, decide_eq_true_eq]
  exact fun word hword => (h word hword).1

/-! ## The command lines of the units -/

def brokerCommand : Bytes := ascii "@BROKER_EXEC@ --uid @PROVIDER_UID@"

def guardCommand : Bytes :=
  ascii "@GUARD_EXEC@ --session @SESSION_ID@ --uid @PROVIDER_UID@ --seat seat0 --listen-stdin --peer-uid 0"

/-- The arguments of the guard after the user. -/
def guardFixed : List Bytes := ["--seat", "seat0", "--listen-stdin", "--peer-uid", "0"].map ascii

/-- The command lines as they are written, and the arguments as they are read. -/
theorem command_texts :
    (tokenise 64 isMarkLetter brokerCommand = [.text [], .mark (ascii "BROKER_EXEC"),
        .text (32 :: (ascii "--uid" ++ [32])), .mark (ascii "PROVIDER_UID"), .text []] ∧
      tokenise 64 isMarkLetter guardCommand = [.text [], .mark (ascii "GUARD_EXEC"),
        .text (32 :: (ascii "--session" ++ [32])), .mark (ascii "SESSION_ID"),
        .text (32 :: (ascii "--uid" ++ [32])), .mark (ascii "PROVIDER_UID"),
        .text (32 :: [32].intercalate guardFixed)]) ∧
    (∀ word ∈ brokerExec :: guardExec :: ascii "--session" :: ascii "--uid" :: guardFixed,
      PlainWord word ∧ validUtf8 word = true) ∧
    (∀ b ∈ 32 :: expanded, Properties.isPlain b = false ∧ isDigit b = false) ∧
    GuardOption.texts.all (fun entry => validUtf8 (ascii entry.1) &&
      GuardOption.ofArgument (ascii entry.1) = some entry.2) = true ∧
    ascii "ExecStart" ≠ ascii "OpenFile" ∧ ascii "ExecStart" ≠ ascii "DeviceAllow" ∧
    parseU32 (ascii "0") = some 0 ∧ ∀ b ∈ ascii "_.-", b < 0x80 := by
  decide +kernel

theorem picked_one {key value : String} {key' value' : Bytes} {lines lines' : List Bytes}
    (hwords : [key, value].map ascii = [key', value']) (hlines : lines = lines')
    (h : (readUnit (unlines 10 lines')).filter (mayAssign key') = [.assignment key' value']) :
    (readUnit (unlines 10 lines)).filter (mayAssign (ascii key)) =
      [.assignment (ascii key) (ascii value)] := by
  obtain ⟨hkey, hrest⟩ := List.cons.inj hwords
  obtain ⟨hvalue, -⟩ := List.cons.inj hrest
  rw [hkey, hvalue, hlines]
  exact h

theorem units_command :
    (readUnit (unlines 10 brokerServiceLines)).filter (mayAssign (ascii "ExecStart")) =
      [.assignment (ascii "ExecStart") brokerCommand, .other openFilesPlace,
        .other deviceAllowPlace] ∧
    (readUnit (unlines 10 guardServiceLines)).filter (mayAssign (ascii "ExecStart")) =
      [.assignment (ascii "ExecStart") guardCommand] := by
  refine ⟨?_, ?_⟩
  · apply picked_bytes
    · repeat apply ascii_cons
      exact ascii_nil
    · unfold brokerServiceLines
      repeat apply ascii_cons
      exact ascii_nil
    · decide +kernel
  · apply picked_one
    · repeat apply ascii_cons
      exact ascii_nil
    · unfold guardServiceLines
      repeat apply ascii_cons
      exact ascii_nil
    · decide +kernel

theorem plain_digits (n : Nat) : PlainWord (digits n) := by
  refine ⟨digits_ne_nil n, fun b hb hmem => ?_⟩
  have hnot := (command_texts.2.2.1 b hmem).2
  rw [digits_isDigit hb] at hnot
  cases hnot

theorem plain_session {session : Bytes} (h : validSession session = true) : PlainWord session := by
  simp only [validSession, Bool.and_eq_true, List.all_eq_true, decide_eq_true_eq] at h
  refine ⟨h.1.1, fun b hb hmem => ?_⟩
  have hnot := (command_texts.2.2.1 b hmem).1
  rw [h.2 b hb] at hnot
  cases hnot

theorem broker_command (uid : Nat) {devices : List InspectedDevice}
    (hnodes : ∀ device ∈ devices, Tame device.deviceNode) :
    filled (fun name => (brokerServiceValues uid devices).lookup name) brokerCommand =
      [32].intercalate [brokerExec, ascii "--uid", digits uid] := by
  have hnodup := (brokerService_unit uid hnodes).nodup
  have hexec : (brokerServiceValues uid devices).lookup (ascii "BROKER_EXEC") = some brokerExec := by
    apply lookup_of_mem hnodup
    simp [brokerServiceValues]
  have huid : (brokerServiceValues uid devices).lookup (ascii "PROVIDER_UID") = some (digits uid) := by
    apply lookup_of_mem hnodup
    simp [brokerServiceValues]
  show fill 64 _ (tokenise 64 isMarkLetter brokerCommand) = _
  rw [command_texts.1.1]
  simp only [fill, hexec, huid, Option.getD_some]
  simp [List.intercalate]

theorem guard_command (uid : Nat) {session : Bytes} (hsession : Tame session) :
    filled (fun name => (guardServiceValues uid session).lookup name) guardCommand =
      [32].intercalate (guardExec :: ascii "--session" :: session :: ascii "--uid" :: digits uid ::
        guardFixed) := by
  have hnodup := (guardService_unit uid hsession).nodup
  have hexec : (guardServiceValues uid session).lookup (ascii "GUARD_EXEC") = some guardExec := by
    apply lookup_of_mem hnodup
    simp [guardServiceValues]
  have hname : (guardServiceValues uid session).lookup (ascii "SESSION_ID") = some session := by
    apply lookup_of_mem hnodup
    simp [guardServiceValues]
  have huid : (guardServiceValues uid session).lookup (ascii "PROVIDER_UID") = some (digits uid) := by
    apply lookup_of_mem hnodup
    simp [guardServiceValues]
  show fill 64 _ (tokenise 64 isMarkLetter guardCommand) = _
  rw [command_texts.1.2]
  simp only [fill, hexec, hname, huid, Option.getD_some]
  simp [List.intercalate, guardFixed]

/-! ## What the programs read -/

theorem parseValue_utf8 {argument value : Bytes} (h : validUtf8 value = true) :
    parseValue argument value = .ok value := if_pos h

theorem digits_utf8 (n : Nat) : validUtf8 (digits n) = true := by
  apply validUtf8_of_ascii
  intro b hb
  obtain ⟨-, hhigh⟩ := within_bounds (digits_isDigit hb)
  exact UInt8.lt_of_le_of_lt hhigh (by decide)

theorem parseNumber_digits {argument : Bytes} {n : Nat} (h : n < 2 ^ 32) :
    parseNumber argument (digits n) = .ok n := by
  unfold parseNumber
  rw [parseValue_utf8 (digits_utf8 n)]
  simp only [Except.bind, parseU32_digits h]

theorem session_utf8 {session : Bytes} (h : validSession session = true) :
    validUtf8 session = true := by
  simp only [validSession, Bool.and_eq_true, List.all_eq_true] at h
  apply validUtf8_of_ascii
  intro b hb
  have hplain := h.2 b hb
  simp only [Properties.isPlain, Bool.or_eq_true] at hplain
  obtain ((hplain | hplain) | hplain) | hplain := hplain
  · exact UInt8.lt_of_le_of_lt (within_bounds hplain).2 (by decide)
  · exact UInt8.lt_of_le_of_lt (within_bounds hplain).2 (by decide)
  · exact UInt8.lt_of_le_of_lt (within_bounds hplain).2 (by decide)
  · exact command_texts.2.2.2.2.2.2.2 b (List.contains_iff_mem.mp hplain)

theorem broker_reads {uid : Nat} (h : uid < 2 ^ 32) :
    parseBrokerArguments none [ascii "--uid", digits uid] = .ok (.serve uid) := by
  have hutf8 : validUtf8 (ascii "--uid") = true := (command_texts.2.1 _ (by simp)).2
  simp [parseBrokerArguments, hutf8, parseNumber_digits h, Except.bind]

section Options

variable {o o' : GuardOptions} {arguments : List Bytes}

theorem ofArgument_text {text : String} {option : GuardOption}
    (htext : (text, option) ∈ GuardOption.texts) :
    validUtf8 (ascii text) = true ∧ GuardOption.ofArgument (ascii text) = some option := by
  have hall := command_texts.2.2.2.1
  rw [List.all_eq_true] at hall
  have hread := hall _ htext
  simpa using hread

/-- One option with its value. -/
theorem parse_value {text : String} {option : GuardOption} {value : Bytes}
    (htext : (text, option) ∈ GuardOption.texts) (hhelp : option ≠ .help) (hflag : option ≠ .listenStdin)
    (hgiven : o.given option = false) (hset : o.set (ascii text) value option = .ok o') :
    o.parse (ascii text :: value :: arguments) = o'.parse arguments := by
  obtain ⟨hutf8, hread⟩ := ofArgument_text htext
  rw [GuardOptions.parse]
  simp [hutf8, hread, hhelp, hflag, hgiven, hset, Except.bind]

theorem parse_flag (h : o.listenStdin = false) :
    o.parse (ascii "--listen-stdin" :: arguments) =
      GuardOptions.parse { o with listenStdin := true } arguments := by
  have htext : ("--listen-stdin", GuardOption.listenStdin) ∈ GuardOption.texts := by
    simp [GuardOption.texts]
  obtain ⟨hutf8, hread⟩ := ofArgument_text htext
  rw [GuardOptions.parse]
  simp [hutf8, hread, GuardOptions.given, h]

end Options

theorem guard_parse {session : Bytes} {uid : Nat} (hsession : validSession session = true)
    (huid : uid < 2 ^ 32) : GuardOptions.nothing.parse
      (ascii "--session" :: session :: ascii "--uid" :: digits uid :: guardFixed) =
        .ok (some ⟨some session, some uid, some (ascii "seat0"), none, true, some 0⟩) := by
  have hfixed : guardFixed = ascii "--seat" :: ascii "seat0" :: ascii "--listen-stdin" ::
      ascii "--peer-uid" :: [ascii "0"] := rfl
  have hseat : validUtf8 (ascii "seat0") = true := (command_texts.2.1 _ (by simp [guardFixed])).2
  have hzero : parseNumber (ascii "--peer-uid") (ascii "0") = .ok 0 := by
    unfold parseNumber
    rw [parseValue_utf8 (command_texts.2.1 _ (by simp [guardFixed])).2]
    simp only [Except.bind, command_texts.2.2.2.2.2.2.1]
  have first : GuardOptions.nothing.set (ascii "--session") session .session =
      .ok ⟨some session, none, none, none, false, none⟩ := by
    unfold GuardOptions.set
    rw [parseValue_utf8 (session_utf8 hsession)]
    rfl
  have second : GuardOptions.set ⟨some session, none, none, none, false, none⟩ (ascii "--uid")
      (digits uid) .uid = .ok ⟨some session, some uid, none, none, false, none⟩ := by
    unfold GuardOptions.set
    rw [parseNumber_digits huid]
    rfl
  have third : GuardOptions.set ⟨some session, some uid, none, none, false, none⟩ (ascii "--seat")
      (ascii "seat0") .seat = .ok ⟨some session, some uid, some (ascii "seat0"), none, false, none⟩ := by
    unfold GuardOptions.set
    rw [parseValue_utf8 hseat]
    rfl
  have last : GuardOptions.set ⟨some session, some uid, some (ascii "seat0"), none, true, none⟩
      (ascii "--peer-uid") (ascii "0") .peerUid =
        .ok ⟨some session, some uid, some (ascii "seat0"), none, true, some 0⟩ := by
    unfold GuardOptions.set
    rw [hzero]
    rfl
  rw [hfixed, parse_value (by simp [GuardOption.texts]) (by decide) (by decide) rfl first,
    parse_value (by simp [GuardOption.texts]) (by decide) (by decide) rfl second,
    parse_value (by simp [GuardOption.texts]) (by decide) (by decide) rfl third, parse_flag rfl,
    parse_value (by simp [GuardOption.texts]) (by decide) (by decide) rfl last]
  rfl

theorem guard_reads {session : Bytes} {uid : Nat} (hsession : validSession session = true)
    (huid : uid < 2 ^ 32) :
    parseGuardArguments (ascii "--session" :: session :: ascii "--uid" :: digits uid :: guardFixed) =
      .ok (some ⟨session, uid, supportedSeat, .standardInput, 0⟩) := by
  have hcheck : GuardOptions.check ⟨some session, some uid, some (ascii "seat0"), none, true, some 0⟩ =
      .ok ⟨session, uid, supportedSeat, .standardInput, 0⟩ := by
    simp [GuardOptions.check, GuardOptions.required, GuardOptions.endpoint, hsession, supportedSeat,
      bind, Except.bind, pure, Except.pure]
  unfold parseGuardArguments
  rw [guard_parse hsession huid]
  show (GuardOptions.check ⟨some session, some uid, some (ascii "seat0"), none, true, some 0⟩).bind
    (fun arguments => .ok (some arguments)) = _
  rw [hcheck]
  rfl

/-! ## What the programs of an enrollment run with -/

/-- The command lines of a bundle, as the manager and then the programs read them. -/
structure Commanded (options : BundleOptions) (bundle : RenderedBundle) : Prop where
  broker : ∃ unit line arguments, ⟨brokerServiceName options.uid, unit⟩ ∈ bundle.files ∧
    assigned "ExecStart" (readUnit unit) = [line] ∧ commandWords line = some (brokerExec :: arguments) ∧
    parseBrokerArguments none arguments = .ok (.serve options.uid)
  guard : ∃ unit line arguments, ⟨guardServiceName options.uid, unit⟩ ∈ bundle.files ∧
    assigned "ExecStart" (readUnit unit) = [line] ∧ commandWords line = some (guardExec :: arguments) ∧
    parseGuardArguments arguments =
      .ok (some ⟨options.session, options.uid, supportedSeat, .standardInput, 0⟩)

section Assigned

variable (options : BundleOptions) {devices : List InspectedDevice} (hne : devices ≠ [])
  (hnodes : ∀ device ∈ devices, Tame device.deviceNode)

include hne hnodes in
theorem broker_execStart : assigned "ExecStart"
    (readUnit (renderUnit brokerServiceLines (brokerServiceValues options.uid devices))) =
      [[32].intercalate [brokerExec, ascii "--uid", digits options.uid]] := by
  have hunit : (⟨brokerServiceName options.uid, brokerServiceLines,
      brokerServiceValues options.uid devices⟩ : UnitSource) ∈ unitSources options devices :=
    List.mem_cons_self
  obtain ⟨-, -, -, -, hopen, hallow, -, -⟩ := command_texts
  have hopened : assigned "ExecStart" ((Entry.other openFilesPlace).enrolled
      (brokerServiceValues options.uid devices) devices) = [] := by
    rw [enrolled_openFiles]
    unfold assigned openFileEntries
    rw [List.filterMap_map, List.filterMap_eq_nil_iff]
    intro entry _
    simp [openFileEntry, hopen.symm]
  have hallowed : assigned "ExecStart" ((Entry.other deviceAllowPlace).enrolled
      (brokerServiceValues options.uid devices) devices) = [] := by
    rw [enrolled_deviceAllow]
    unfold assigned
    rw [List.filterMap_map, List.filterMap_eq_nil_iff]
    intro device _
    simp [deviceAllowEntry, hallow.symm]
  rw [unit_enrolled hne hnodes _ hunit,
    assigned_flatMap "ExecStart" _ _ fun entry => assigned_enrolled "ExecStart" _ _,
    units_command.1, List.flatMap_cons, List.flatMap_cons, List.flatMap_cons, hopened, hallowed]
  simp [assigned, Entry.enrolled, broker_command options.uid hnodes]

include hne hnodes in
theorem guard_execStart : assigned "ExecStart"
    (readUnit (renderUnit guardServiceLines (guardServiceValues options.uid options.session))) =
      [[32].intercalate (guardExec :: ascii "--session" :: options.session :: ascii "--uid" ::
        digits options.uid :: guardFixed)] := by
  have hunit : (⟨guardServiceName options.uid, guardServiceLines,
      guardServiceValues options.uid options.session⟩ : UnitSource) ∈ unitSources options devices := by
    simp [unitSources]
  have hcommand := guard_command options.uid (tame_session options.session_valid)
  rw [unit_enrolled hne hnodes _ hunit,
    assigned_flatMap "ExecStart" _ _ fun entry => assigned_enrolled "ExecStart" _ _,
    units_command.2, List.flatMap_cons]
  simp [assigned, Entry.enrolled, hcommand]

end Assigned

end AgentSeat.Broker
