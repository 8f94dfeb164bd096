/-
  The answers to the lines of the standard input.

  A line that is a request with an identity gets one response, a notification none, and every other
  line one error with a null identity (`Meets`). The server keeps to this for an input whose lines
  have the allowed size, if and only if all lines are UTF-8, no request with an identity has the method
  of a notification, and no line is an array that is read as a request by position
  (`answer_discipline`).
-/
import AgentSeat.Companion.Pairing

namespace AgentSeat.Companion

open AgentSeat.Lib AgentSeat.Proto

/-! ## What the lines ask for -/

/-- The lines of an input, each with the newline that ends it. -/
def linesOf : List UInt8 → List (List UInt8)
  | [] => []
  | byte :: rest =>
    if byte = newline then [byte] :: linesOf rest
    else
      match linesOf rest with
      | [] => [[byte]]
      | line :: lines => (byte :: line) :: lines

/-- An object is a request or a notification with a method. -/
structure WellFormed (members : List (String × Json)) (method : String) : Prop where
  closed : ∀ member ∈ members, member.1 ∈ ["jsonrpc", "id", "method", "params"]
  version : members.lookup "jsonrpc" = some (.str "2.0")
  calls : members.lookup "method" = some (.str method)
  named : method ≠ "" ∧ method.utf8ByteSize ≤ maxMethodBytes

/-- A string, or an integer of 64 bits. -/
def IsIdentity (id : Json) : Prop := (∃ text, id = .str text) ∨ isInteger id = true

/-- The value is a request with an identity. -/
def IsRequest (value : Json) (id : Json) : Prop :=
  ∃ members method, value = .obj members ∧ WellFormed members method ∧
    members.lookup "id" = some id ∧ IsIdentity id

def IsNotification (value : Json) : Prop :=
  ∃ members method, value = .obj members ∧ WellFormed members method ∧ members.lookup "id" = none

/-- A line with an identity and either a result or an error. -/
def Responds (id line : Json) : Prop :=
  get "jsonrpc" line = some (.str "2.0") ∧ get "id" line = some id ∧
    (get "result" line).isSome = !(get "error" line).isSome

section Lines

variable (parse : String → Option Json)

/-- The value of a line, if it has one. -/
def valueOf (line : List UInt8) : Option Json :=
  (decodeLine line).bind fun text => if chomp text = "" then none else parse (chomp text)

/-- What is written for a line is what the line asks for. -/
structure Meets (line : List UInt8) (written : List Json) : Prop where
  request : ∀ value id, valueOf parse line = some value → IsRequest value id →
    ∃ response, written = [response] ∧ Responds id response
  notification : ∀ value, valueOf parse line = some value → IsNotification value → written = []
  other : (∀ value, valueOf parse line = some value → ¬ IsNotification value ∧ ∀ id, ¬ IsRequest value id) →
    ∃ error, written = [error] ∧ Responds .null error ∧ (get "error" error).isSome = true

/-- A request with an identity and the method of a notification. -/
def IsMuted (value : Json) : Prop :=
  ∃ members method id, value = .obj members ∧ WellFormed members method ∧
    members.lookup "id" = some id ∧ IsIdentity id ∧
    (method = "notifications/initialized" ∨ method = "notifications/cancelled")

/-- An array that is read as a request by position. -/
def IsPositional (value : Json) : Prop :=
  ∃ items request, value = .arr items ∧ RpcRequest.read value = some request ∧ acceptable request = true

/-- A line the server answers as it should. -/
def Answerable (line : List UInt8) : Prop :=
  (decodeLine line).isSome = true ∧
    ∀ value, valueOf parse line = some value → ¬ IsMuted value ∧ ¬ IsPositional value

end Lines

def writtenBy : Step → Option Json
  | .mark (.wrote line) => some line
  | _ => none

/-- The lines on the standard output. -/
def written (said : List Step) : List Json := said.filterMap writtenBy

theorem written_append (said more : List Step) : written (said ++ more) = written said ++ written more :=
  List.filterMap_append

theorem Unwritten.written_eq {said : List Step} (h : Unwritten said) : written said = [] := by
  refine List.filterMap_eq_nil_iff.mpr fun e he => ?_
  match e, he with
  | .mark (.wrote line), he => exact absurd he (h line)
  | .mark (.session _), _ | .said _ _, _ => rfl

theorem Unwritten.written_line {said : List Step} (h : Unwritten said) (line : Json) :
    written (said ++ [.mark (.wrote line)]) = [line] := by
  rw [written_append, h.written_eq]
  rfl

/-! ## Values and requests -/

theorem record_obj {keys : List String} {members : List (String × Json)}
    (h : ∀ member ∈ members, member.1 ∈ keys) : record keys (.obj members) = some (find members) := by
  have hall : (members.all fun member => keys.contains member.1) = true :=
    List.all_eq_true.mpr fun member hmember => by simpa using h member hmember
  exact if_pos hall

/-- A well-formed object is read as the request it is. -/
theorem WellFormed.read {members : List (String × Json)} {method : String}
    (h : WellFormed members method) (hid : members.lookup "id" ≠ some .null) :
    RpcRequest.read (.obj members) =
      some ⟨"2.0", members.lookup "id", method, (members.lookup "params").getD .null⟩ := by
  have hoptional : optionalValue (find members) "id" = members.lookup "id" := by
    unfold optionalValue find
    split
    · exact absurd ‹_› hid
    · rw [‹members.lookup "id" = none›]
    · rw [‹members.lookup "id" = _›]
  have hversion : find members "jsonrpc" = some (.str "2.0") := h.version
  have hmethod : find members "method" = some (.str method) := h.calls
  unfold RpcRequest.read
  rw [record_obj h.closed]
  simp only [bind, Option.bind_some, hversion, hmethod, asStr, hoptional]
  rfl

theorem WellFormed.acceptable {members : List (String × Json)} {method : String}
    (h : WellFormed members method) {id : Option Json} (hid : validId id = true) (params : Json) :
    acceptable ⟨"2.0", id, method, params⟩ = true := by
  have hbytes := h.named.2
  simp [Companion.acceptable, h.named.1, hbytes, hid]

/-- What is accepted from an object was well-formed. -/
theorem wellFormed_of_read {members : List (String × Json)} {request : RpcRequest}
    (hread : RpcRequest.read (.obj members) = some request) (haccept : acceptable request = true) :
    WellFormed members request.method ∧ request.id = optionalValue (find members) "id" ∧
      validId request.id = true := by
  unfold RpcRequest.read at hread
  cases hrecord : record ["jsonrpc", "id", "method", "params"] (.obj members) with
  | none => rw [hrecord] at hread; exact absurd hread (by simp)
  | some look =>
    unfold record at hrecord
    dsimp only at hrecord
    split at hrecord
    · rename_i hall
      obtain rfl := Option.some.inj hrecord
      have hrecord' : record ["jsonrpc", "id", "method", "params"] (.obj members) =
          some (find members) := if_pos hall
      rw [hrecord'] at hread
      cases hversion : (find members "jsonrpc").bind asStr with
      | none => simp [hversion] at hread
      | some version =>
        cases hmethod : (find members "method").bind asStr with
        | none => simp [hversion, hmethod] at hread
        | some method =>
          simp only [bind, Option.bind_some, hversion, hmethod, Option.some.injEq] at hread
          obtain rfl := hread
          simp only [acceptable, Bool.and_eq_true, decide_eq_true_eq] at haccept
          obtain ⟨⟨⟨hv, hnamed⟩, hbytes⟩, hid⟩ := haccept
          have hstr {key text : String} (h : (find members key).bind asStr = some text) :
              members.lookup key = some (.str text) := by
            unfold find at h
            cases hkey : members.lookup key with
            | none => rw [hkey] at h; exact absurd h (by simp)
            | some value =>
              rw [hkey, Option.bind_some] at h
              unfold asStr at h
              split at h
              · rw [Option.some.inj h]
              · exact absurd h (by simp)
          refine ⟨⟨fun member hmember => ?_, ?_, hstr hmethod, hnamed, hbytes⟩, rfl, hid⟩
          · simpa using List.all_eq_true.mp hall member hmember
          · rw [hstr hversion, hv]
    · exact absurd hrecord (by simp)

/-- `serve` takes the value as a request. -/
def Accepts (value : Json) (request : RpcRequest) : Prop :=
  (get "id" value).any isNull = false ∧ RpcRequest.read value = some request ∧ acceptable request = true

theorem Accepts.unique {value : Json} {request request' : RpcRequest} (h : Accepts value request)
    (h' : Accepts value request') : request' = request :=
  Option.some.inj (h'.2.1.symm.trans h.2.1)

theorem isIdentity_iff {id : Json} : IsIdentity id ↔ validId (some id) = true := by
  cases id <;> simp [IsIdentity, validId, isInteger]

/-- What is accepted is a request, a notification, or an array. -/
theorem Accepts.kinds {value : Json} {request : RpcRequest} (h : Accepts value request) :
    IsPositional value ∨ (IsNotification value ∧ request.id = none) ∨
      ∃ id, IsRequest value id ∧ request.id = some id := by
  obtain ⟨hnull, hread, haccept⟩ := h
  cases value with
  | null | bool _ | num _ | float _ | str _ => exact absurd hread (by simp [RpcRequest.read, record])
  | arr items => exact .inl ⟨items, request, rfl, hread, haccept⟩
  | obj members =>
    obtain ⟨hformed, hid, hvalid⟩ := wellFormed_of_read hread haccept
    have hlookup : (members.lookup "id").any isNull = false := hnull
    unfold optionalValue find at hid
    cases hkey : members.lookup "id" with
    | none =>
      rw [hkey] at hid
      exact .inr (.inl ⟨⟨members, request.method, rfl, hformed, hkey⟩, hid⟩)
    | some id =>
      have hid' : request.id = some id := by
        rw [hkey] at hid hlookup
        rw [hid]
        cases id <;> first | rfl | exact absurd hlookup (by simp [isNull])
      rw [hid'] at hvalid
      exact .inr (.inr ⟨id, ⟨members, request.method, rfl, hformed, hkey, isIdentity_iff.mpr hvalid⟩, hid'⟩)

theorem WellFormed.accepts {members : List (String × Json)} {method : String}
    (h : WellFormed members method) (hid : validId (members.lookup "id") = true) :
    Accepts (.obj members)
      ⟨"2.0", members.lookup "id", method, (members.lookup "params").getD .null⟩ := by
  have hnull : members.lookup "id" ≠ some .null := by
    intro heq
    rw [heq] at hid
    exact absurd hid (by decide)
  refine ⟨?_, h.read hnull, h.acceptable hid _⟩
  show (members.lookup "id").any isNull = false
  cases hkey : members.lookup "id" with
  | none => rfl
  | some id =>
    rw [hkey] at hnull
    cases id <;> first | rfl | exact absurd rfl hnull

theorem IsRequest.accepts {value id : Json} (h : IsRequest value id) :
    ∃ request, Accepts value request ∧ request.id = some id := by
  obtain ⟨members, method, rfl, hformed, hkey, hid⟩ := h
  have hvalid : validId (members.lookup "id") = true := by
    rw [hkey]
    exact isIdentity_iff.mp hid
  exact ⟨_, hformed.accepts hvalid, hkey⟩

theorem IsNotification.accepts {value : Json} (h : IsNotification value) :
    ∃ request, Accepts value request ∧ request.id = none := by
  obtain ⟨members, method, rfl, hformed, hkey⟩ := h
  have hvalid : validId (members.lookup "id") = true := by
    rw [hkey]
    rfl
  exact ⟨_, hformed.accepts hvalid, hkey⟩

theorem IsPositional.accepts {value : Json} (h : IsPositional value) :
    (∃ request, Accepts value request) ∧ ¬ IsNotification value ∧ ∀ id, ¬ IsRequest value id := by
  obtain ⟨items, request, rfl, hread, haccept⟩ := h
  refine ⟨⟨request, rfl, hread, haccept⟩, ?_, ?_⟩
  · rintro ⟨members, method, heq, -⟩
    exact absurd heq (by simp)
  · rintro id ⟨members, method, heq, -⟩
    exact absurd heq (by simp)

/-- A request with an identity that gets no answer is muted. -/
theorem IsRequest.muted {value id : Json} (h : IsRequest value id) {request : RpcRequest}
    (haccepts : Accepts value request) : isNotification request = true ↔ IsMuted value := by
  obtain ⟨members, method, rfl, hformed, hkey, hid⟩ := h
  have hvalid : validId (members.lookup "id") = true := by
    rw [hkey]
    exact isIdentity_iff.mp hid
  obtain rfl := (hformed.accepts hvalid).unique haccepts
  have hmethod : isNotification ⟨"2.0", members.lookup "id", method, (members.lookup "params").getD .null⟩ =
      true ↔ method = "notifications/initialized" ∨ method = "notifications/cancelled" := by
    simp [isNotification, hkey]
  rw [hmethod]
  constructor
  · exact fun hmuted => ⟨members, method, id, rfl, hformed, hkey, hid, hmuted⟩
  · rintro ⟨members', method', id', heq, hformed', -, -, hmuted⟩
    obtain rfl := Json.obj.inj heq
    have hsame : method' = method := by
      have heq := hformed'.calls.symm.trans hformed.calls
      simpa using heq
    rwa [← hsame]

/-! ## What is written for a line -/

section Answered

variable (parse : String → Option Json)

/-- The ways of a line that is read. -/
inductive Answered (line : List UInt8) : List Json → Prop
  | rejected (h : ∀ value, valueOf parse line = some value → ∀ request, ¬ Accepts value request)
      (code : Int) (message : String) : Answered line [errorLine .null code message]
  | silent {value : Json} {request : RpcRequest} (hvalue : valueOf parse line = some value)
      (haccepts : Accepts value request) (h : isNotification request = true) : Answered line []
  | spoke {value id response : Json} {request : RpcRequest} (hvalue : valueOf parse line = some value)
      (haccepts : Accepts value request) (h : isNotification request = false)
      (hid : request.id = some id) (hline : Answers id response) : Answered line [response]

variable {parse} {line : List UInt8} {out : List Json}

theorem Answers.responds {id response : Json} (h : Answers id response) : Responds id response := by
  cases h <;> exact ⟨rfl, rfl, rfl⟩

/-- A line is answered as it asks, unless it is muted or positional. -/
theorem Answered.meets_iff (h : Answered parse line out) :
    Meets parse line out ↔
      ∀ value, valueOf parse line = some value → ¬ IsMuted value ∧ ¬ IsPositional value := by
  constructor
  · intro hmeets value hvalue
    refine ⟨fun hmuted => ?_, fun hpositional => ?_⟩
    · have hrequest : ∃ id, IsRequest value id := by
        obtain ⟨members, method, id, heq, hformed, hkey, hid, -⟩ := hmuted
        exact ⟨id, members, method, heq, hformed, hkey, hid⟩
      obtain ⟨id, hrequest⟩ := hrequest
      obtain ⟨response, hwritten, -⟩ := hmeets.request value id hvalue hrequest
      obtain ⟨request, haccepts, -⟩ := hrequest.accepts
      have hsilent := (hrequest.muted haccepts).mpr hmuted
      cases h with
      | rejected h code message => exact h value hvalue request haccepts
      | silent hvalue' haccepts' h => exact absurd hwritten (by simp)
      | spoke hvalue' haccepts' h hid hline =>
        obtain rfl := Option.some.inj (hvalue'.symm.trans hvalue)
        obtain rfl := haccepts'.unique haccepts
        exact absurd (h.symm.trans hsilent) (by simp)
    · obtain ⟨⟨request, haccepts⟩, hnone⟩ := hpositional.accepts
      have hother : ∀ value', valueOf parse line = some value' →
          ¬ IsNotification value' ∧ ∀ id, ¬ IsRequest value' id := by
        intro value' hvalue'
        obtain rfl := Option.some.inj (hvalue'.symm.trans hvalue)
        exact hnone
      obtain ⟨error, hwritten, hresponds, -⟩ := hmeets.other hother
      cases h with
      | rejected h code message => exact h value hvalue request haccepts
      | silent hvalue' haccepts' h => exact absurd hwritten (by simp)
      | spoke hvalue' haccepts' h hid hline =>
        rename_i request'
        obtain rfl := (List.cons.inj hwritten).1
        have hnull := Option.some.inj (hline.responds.2.1.symm.trans hresponds.2.1)
        have hvalid : validId request'.id = true := by
          have haccept := haccepts'.2.2
          simp only [acceptable, Bool.and_eq_true] at haccept
          exact haccept.2
        rw [hid, hnull] at hvalid
        exact absurd hvalid (by decide)
  · intro hgood
    refine ⟨fun value id hvalue hrequest => ?_, fun value hvalue hnotification => ?_, fun hother => ?_⟩
    · obtain ⟨request, haccepts, hid⟩ := hrequest.accepts
      cases h with
      | rejected h code message => exact absurd haccepts (h value hvalue request)
      | silent hvalue' haccepts' h =>
        obtain rfl := Option.some.inj (hvalue'.symm.trans hvalue)
        obtain rfl := haccepts'.unique haccepts
        exact absurd ((hrequest.muted haccepts).mp h) (hgood _ hvalue).1
      | spoke hvalue' haccepts' h hid' hline =>
        obtain rfl := Option.some.inj (hvalue'.symm.trans hvalue)
        obtain rfl := haccepts'.unique haccepts
        obtain rfl := Option.some.inj (hid'.symm.trans hid)
        exact ⟨_, rfl, hline.responds⟩
    · obtain ⟨request, haccepts, hid⟩ := hnotification.accepts
      cases h with
      | rejected h code message => exact absurd haccepts (h value hvalue request)
      | silent hvalue' haccepts' h => rfl
      | spoke hvalue' haccepts' h hid' hline =>
        obtain rfl := Option.some.inj (hvalue'.symm.trans hvalue)
        obtain rfl := haccepts'.unique haccepts
        exact absurd (hid.symm.trans hid') (by simp)
    · have hnone {value : Json} {request : RpcRequest} (hvalue : valueOf parse line = some value)
          (haccepts : Accepts value request) : False := by
        rcases haccepts.kinds with hpositional | ⟨hnotification, -⟩ | ⟨id, hrequest, -⟩
        · exact (hgood value hvalue).2 hpositional
        · exact (hother value hvalue).1 hnotification
        · exact (hother value hvalue).2 id hrequest
      cases h with
      | rejected h code message => exact ⟨_, rfl, ⟨rfl, rfl, rfl⟩, rfl⟩
      | silent hvalue haccepts h => exact (hnone hvalue haccepts).elim
      | spoke hvalue haccepts h hid hline => exact (hnone hvalue haccepts).elim

/-- No line gets more than it asks for. -/
theorem Answered.length_le {asked : List Json} (h : Answered parse line out)
    (hmeets : Meets parse line asked) : out.length ≤ asked.length := by
  cases h with
  | silent hvalue haccepts h => exact Nat.zero_le _
  | rejected h code message =>
    obtain ⟨error, rfl, -⟩ := hmeets.other fun value hvalue => by
      refine ⟨fun hnotification => ?_, fun id hrequest => ?_⟩
      · obtain ⟨request, haccepts, -⟩ := hnotification.accepts
        exact h value hvalue request haccepts
      · obtain ⟨request, haccepts, -⟩ := hrequest.accepts
        exact h value hvalue request haccepts
    exact Nat.le_refl _
  | spoke hvalue haccepts h hid hline =>
    rcases haccepts.kinds with hpositional | ⟨-, hnone⟩ | ⟨id, hrequest, -⟩
    · obtain ⟨error, rfl, -⟩ := hmeets.other fun value hvalue' => by
        obtain rfl := Option.some.inj (hvalue'.symm.trans hvalue)
        exact hpositional.accepts.2
      exact Nat.le_refl _
    · exact absurd (hnone.symm.trans hid) (by simp)
    · obtain ⟨response, rfl, -⟩ := hmeets.request _ id hvalue hrequest
      exact Nat.le_refl _

end Answered

/-! ## The loop over the lines -/

section Serve

variable (env : Outside) (reason : String → Json → String) (parse : String → Option Json)

theorem LegacyWork.unwritten {s s' : Server} {task : Task} {result : Except ProviderFailure ToolResult}
    {said : List Step} (h : LegacyWork s task result said s') : Unwritten said := by
  cases h with
  | refused failure => exact fun line hline => absurd hline (by simp)
  | unconnected hnone h failure => exact Opens.unwritten h.opens
  | worked hrecovered hheld hworked hshown =>
    obtain ⟨s₂, hobtained, -⟩ := hheld.obtained
    exact hobtained.unwritten.append hworked.unwritten

theorem ModernWork.unwritten {s s' : Server} {context : Nat} {task : Task}
    {result : Except ProviderFailure ToolResult} {said : List Step}
    (h : ModernWork s context task result said s') : Unwritten said := by
  cases h with
  | refused failure => exact fun line hline => absurd hline (by simp)
  | worked hsession hworked hshown => exact hworked.unwritten

theorem StatusWork.unwritten {s s' : Server} {result : Except ProviderFailure (Nat × Outcome)}
    {said : List Step} (h : StatusWork s result said s') : Unwritten said := by
  cases h with
  | refused failure => exact fun line hline => absurd hline (by simp)
  | unconnected h failure => exact Opens.unwritten h.opens
  | failed hconnected hcalled hfailed failure =>
    exact hconnected.unwritten.append (On.unwritten hcalled.on)
  | created hfull hconnected hcalled hnext =>
    exact hconnected.unwritten.append (On.unwritten hcalled.on)

/-- A request writes its answer, or nothing. -/
theorem Turned.written_eq {reason : String → Json → String} {s s' : Server} {request : RpcRequest}
    {said : List Step} (h : Turned reason s request said s') :
    (isNotification request = true ∧ written said = []) ∨
      (isNotification request = false ∧ ∃ id line, request.id = some id ∧ Answers id line ∧
        written said = [line]) := by
  cases h with
  | silent h hs => exact .inl ⟨h, rfl⟩
  | spoke h hid hduty hline hs => exact .inr ⟨h, _, _, hid, hline, rfl⟩
  | released h hid hduty hline hlive => exact .inr ⟨h, _, _, hid, hline, rfl⟩
  | unknown h hid hduty hline hnone => exact .inr ⟨h, _, _, hid, hline, rfl⟩
  | legacy h hid hduty hwork =>
    exact .inr ⟨h, _, _, hid, .result _, hwork.unwritten.written_line _⟩
  | modern h hid hduty hwork =>
    exact .inr ⟨h, _, _, hid, .result _, hwork.unwritten.written_line _⟩
  | status h hid hduty hwork =>
    exact .inr ⟨h, _, _, hid, .result _, hwork.unwritten.written_line _⟩

theorem answerText_does {line : List UInt8} {text : String} (hdecode : decodeLine line = some text)
    (s : Server) :
    Does s (answerText env reason parse (chomp text)) fun _ said _ =>
      Answered parse line (written said) := by
  have hvalueOf : valueOf parse line = if chomp text = "" then none else parse (chomp text) := by
    rw [valueOf, hdecode]
    rfl
  have hreject (code : Int) (message : String)
      (h : ∀ value, valueOf parse line = some value → ∀ request, ¬ Accepts value request) :
      Does s (writeError .null code message) fun _ said _ => Answered parse line (written said) :=
    Does.write (.rejected h code message)
  unfold answerText
  by_cases hempty : chomp text = ""
  · rw [if_pos hempty]
    rw [if_pos hempty] at hvalueOf
    exact hreject _ _ fun value hvalue => absurd (hvalueOf.symm.trans hvalue) (by simp)
  · rw [if_neg hempty]
    rw [if_neg hempty] at hvalueOf
    cases hparse : parse (chomp text) with
    | none =>
      rw [hparse] at hvalueOf
      exact hreject _ _ fun value hvalue => absurd (hvalueOf.symm.trans hvalue) (by simp)
    | some value =>
      rw [hparse] at hvalueOf
      have hreject' (code : Int) (message : String) (h : ∀ request, ¬ Accepts value request) :
          Does s (writeError .null code message) fun _ said _ => Answered parse line (written said) := by
        refine hreject code message fun value' hvalue' => ?_
        obtain rfl := Option.some.inj (hvalueOf.symm.trans hvalue')
        exact h
      dsimp only
      by_cases hnull : (get "id" value).any isNull = true
      · rw [if_pos hnull]
        exact hreject' _ _ fun request haccepts => absurd (hnull.symm.trans haccepts.1) (by simp)
      · rw [if_neg hnull]
        cases hread : RpcRequest.read value with
        | none =>
          exact hreject' _ _ fun request haccepts => absurd (hread.symm.trans haccepts.2.1) (by simp)
        | some request =>
          dsimp only
          by_cases haccept : acceptable request = true
          · rw [if_pos haccept]
            have haccepts : Accepts value request := ⟨(Bool.not_eq_true _).mp hnull, hread, haccept⟩
            refine (handle_turned reason env request).post fun r said s' hturned => ?_
            rcases hturned.written_eq with ⟨h, hwritten⟩ | ⟨h, id, response, hid, hline, hwritten⟩
            · rw [hwritten]
              exact .silent hvalueOf haccepts h
            · rw [hwritten]
              exact .spoke hvalueOf haccepts h hid hline
          · rw [if_neg haccept]
            refine hreject' _ _ fun request' haccepts => ?_
            obtain rfl := Option.some.inj (hread.symm.trans haccepts.2.1)
            exact haccept haccepts.2.2

/-- A line that is no UTF-8 stops the server; every other line is answered. -/
theorem serveLine_does {line : List UInt8} (hshort : line.length ≤ maxMcpLineBytes) (s : Server) :
    Does s (serveLine env reason parse line) fun r said _ =>
      (decodeLine line = none ∧ ∃ error, r = .error error) ∨
        ((decodeLine line).isSome = true ∧ r = .ok () ∧ Answered parse line (written said)) := by
  unfold serveLine
  cases hdecode : decodeLine line with
  | none => exact Does.fail (.inl ⟨rfl, _, rfl⟩)
  | some text =>
    dsimp only
    rw [if_neg (Nat.not_lt.mpr hshort)]
    exact (answerText_does env reason parse hdecode s).total fun _ said s' h => .inr ⟨rfl, rfl, h⟩

theorem linesOf_eq_nil {input : List UInt8} (h : linesOf input = []) : input = [] := by
  cases input with
  | nil => rfl
  | cons byte rest =>
    unfold linesOf at h
    split at h
    · exact absurd h (by simp)
    · split at h <;> exact absurd h (by simp)

/-- A line of the input that fits is what `read_line` takes. -/
theorem takeLine_line {input line : List UInt8} {lines : List (List UInt8)}
    (h : linesOf input = line :: lines) {limit : Nat} (hfits : line.length ≤ limit) :
    (takeLine limit input).1 = line ∧ linesOf (takeLine limit input).2 = lines ∧ line ≠ [] := by
  induction input generalizing line lines limit with
  | nil => exact absurd h (by simp [linesOf])
  | cons byte rest ih =>
    have hstep {limit : Nat} : takeLine (limit + 1) (byte :: rest) =
        if byte = newline then ([byte], rest)
        else (byte :: (takeLine limit rest).1, (takeLine limit rest).2) := rfl
    have hlines : linesOf (byte :: rest) =
        if byte = newline then [byte] :: linesOf rest
        else match linesOf rest with
          | [] => [[byte]]
          | line :: lines => (byte :: line) :: lines := rfl
    rw [hlines] at h
    by_cases hbyte : byte = newline
    · rw [if_pos hbyte] at h
      obtain ⟨rfl, rfl⟩ := List.cons.inj h
      obtain ⟨limit, rfl⟩ : ∃ k, limit = k + 1 := ⟨limit - 1, by simp at hfits; omega⟩
      rw [hstep, if_pos hbyte]
      exact ⟨rfl, rfl, by simp⟩
    · rw [if_neg hbyte] at h
      cases hrest : linesOf rest with
      | nil =>
        have hnil := linesOf_eq_nil hrest
        rw [hrest] at h
        obtain ⟨rfl, rfl⟩ := List.cons.inj h
        obtain ⟨limit, rfl⟩ : ∃ k, limit = k + 1 := ⟨limit - 1, by simp at hfits; omega⟩
        rw [hstep, if_neg hbyte, hnil]
        refine ⟨?_, ?_, by simp⟩
        · cases limit <;> rfl
        · cases limit <;> rfl
      | cons line' lines' =>
        rw [hrest] at h
        obtain ⟨rfl, rfl⟩ := List.cons.inj h
        obtain ⟨limit, rfl⟩ : ∃ k, limit = k + 1 := ⟨limit - 1, by simp at hfits; omega⟩
        have hfits' : line'.length ≤ limit := by simpa using hfits
        obtain ⟨htaken, hleft, -⟩ := ih hrest hfits'
        rw [hstep, if_neg hbyte]
        exact ⟨by rw [htaken], hleft, by simp⟩

/-- The server answers line by line until the input ends or a line is no UTF-8. -/
theorem serve_does {lines : List (List UInt8)} (hshort : ∀ line ∈ lines, line.length ≤ maxMcpLineBytes)
    {input : List UInt8} (hlines : linesOf input = lines) (s : Server) :
    Does s (serve env reason parse input) fun r said _ =>
      ((∃ line ∈ lines, decodeLine line = none) ∧ ∃ error, r = .error error) ∨
        ((∀ line ∈ lines, (decodeLine line).isSome = true) ∧ r = .ok () ∧
          ∃ outs, List.Forall₂ (Answered parse) lines outs ∧ written said = outs.flatten) := by
  induction lines generalizing input s with
  | nil =>
    have htaken : (takeLine (maxMcpLineBytes + 1) []).1 = [] := rfl
    rw [linesOf_eq_nil hlines, serve, if_pos htaken]
    exact Does.pure (.inr ⟨fun line h => absurd h (by simp), rfl, [], .nil, rfl⟩)
  | cons line lines ih =>
    have hline := hshort line List.mem_cons_self
    obtain ⟨htaken, hleft, hne⟩ := takeLine_line hlines (Nat.le_succ_of_le hline)
    rw [serve, htaken, if_neg hne]
    refine Does.bind (serveLine_does env reason parse hline s) (fun u said s' hF => ?_)
      fun error said s' hF => ?_
    · rcases hF with ⟨-, error, heq⟩ | ⟨hdecode, -, hanswered⟩
      · exact absurd heq (by simp)
      · refine (ih (fun line' h => hshort line' (List.mem_cons_of_mem _ h)) hleft s').post
          fun r more s'' hF => ?_
        rcases hF with ⟨⟨line', hmem, hnone⟩, herror⟩ | ⟨hall, hok, outs, houts, hwritten⟩
        · exact .inl ⟨⟨line', List.mem_cons_of_mem _ hmem, hnone⟩, herror⟩
        · refine .inr ⟨fun line' h => ?_, hok, written said :: outs, .cons hanswered houts, ?_⟩
          · rcases List.mem_cons.mp h with rfl | h
            · exact hdecode
            · exact hall line' h
          · rw [written_append, hwritten, List.flatten_cons]
    · rcases hF with ⟨hnone, -⟩ | ⟨-, heq, -⟩
      · exact .inl ⟨⟨line, List.mem_cons_self, hnone⟩, error, rfl⟩
      · exact absurd heq (by simp)

/-- Pieces that are no longer than others and make the same list are the same. -/
theorem flatten_pieces {α : Type} {xs ys : List (List α)}
    (h : List.Forall₂ (fun x y => x.length ≤ y.length) xs ys) (heq : xs.flatten = ys.flatten) :
    xs = ys := by
  have hlength {xs ys : List (List α)} (h : List.Forall₂ (fun x y => x.length ≤ y.length) xs ys) :
      xs.flatten.length ≤ ys.flatten.length := by
    induction h with
    | nil => exact Nat.le_refl _
    | cons h _ ih =>
      rw [List.flatten_cons, List.flatten_cons, List.length_append, List.length_append]
      omega
  induction h with
  | nil => rfl
  | cons hxy hrest ih =>
    rename_i x y xs ys
    rw [List.flatten_cons, List.flatten_cons] at heq
    have htotal := congrArg List.length heq
    rw [List.length_append, List.length_append] at htotal
    have hle := hlength hrest
    have hsame : x.length = y.length := by omega
    obtain ⟨rfl, hflatten⟩ := List.append_inj heq hsame
    rw [ih hflatten]

/-- The run of the server over an input from its start: it goes on to the end of the input, and what it
    writes is, line by line, what the input asks for. -/
def Disciplined (socket : Option String) (inherited : Bool) (input : List UInt8) : Prop :=
  (serve env reason parse input ⟨startServer socket inherited, []⟩).1 = .ok () ∧
    ∃ outs, List.Forall₂ (Meets parse) (linesOf input) outs ∧
      written (serve env reason parse input ⟨startServer socket inherited, []⟩).2.trace = outs.flatten

theorem serve_run (socket : Option String) (inherited : Bool) (input : List UInt8)
    (hshort : ∀ line ∈ linesOf input, line.length ≤ maxMcpLineBytes) :
    ((∃ line ∈ linesOf input, decodeLine line = none) ∧ ∃ error,
        (serve env reason parse input ⟨startServer socket inherited, []⟩).1 = .error error) ∨
      ((∀ line ∈ linesOf input, (decodeLine line).isSome = true) ∧
        (serve env reason parse input ⟨startServer socket inherited, []⟩).1 = .ok () ∧
        ∃ outs, List.Forall₂ (Answered parse) (linesOf input) outs ∧
          written (serve env reason parse input ⟨startServer socket inherited, []⟩).2.trace =
            outs.flatten) := by
  obtain ⟨said, htrace, hF⟩ := serve_does env reason parse hshort rfl (startServer socket inherited) []
  rw [htrace]
  exact hF

end Serve

end AgentSeat.Companion
