/-
  The isolation of provider sessions.

  `Isolated` says it of a run: no request is written twice; after the end of a legacy session nothing
  but a status is sent on the next one before a status succeeded there; a modern call goes to the
  session that was made for its context, and none goes out once the context is gone; a replayed click
  was saved in the session it is sent on. It holds of every run (`session_isolation`): the records of
  the sessions give the first part (`Seats`), and `Recovering`, `Owned` and `Saved` are the invariants
  of the others.
-/
import AgentSeat.Companion.Runs

namespace AgentSeat.Companion

open AgentSeat.Lib AgentSeat.Proto

section Isolation

variable (reason : String → Json → String)

/-- A tool of the legacy era was to be done. -/
def isLegacy (t : Turn) : Bool :=
  match dutyOf reason t.request with
  | .legacy _ => true
  | _ => false

/-- A legacy session was made on the stream. -/
def LegacySession (past : List Turn) (conn : Conn) : Prop :=
  ∃ u ∈ past, isLegacy reason u = true ∧ u.said.any (isOpened conn) = true

/-- A legacy status succeeded on the stream. -/
def StatusSucceeded (past : List Turn) (conn : Conn) : Prop :=
  ∃ u ∈ past, isLegacy reason u = true ∧ (∃ id, (conn, ⟨id, .seatStatus⟩) ∈ sent u.said) ∧
    ∃ reply, outcomeIn u.said = some (.ok reply)

/-- The session on the stream was made for the context. -/
def MadeFor (u : Turn) (context : Nat) (conn : Conn) : Prop :=
  dutyOf reason u.request = .status ∧ u.said.any (isOpened conn) = true ∧
    u.before.modernContexts.get context = none ∧
    ∃ session, u.after.modernContexts.get context = some session ∧ session.seat.conn = conn

/-- What a tool was to do, and with which session. -/
def taskOf (t : Turn) : Option (Place × Task) :=
  match dutyOf reason t.request with
  | .legacy task => some (.legacy, task)
  | .modern context task => some (.context context, task)
  | _ => none

/-- A click was saved under a name in the session at a place. -/
def SavedIn (past : List Turn) (p : Place) (conn : Conn) (name : String) (action : PointerClickRequest) :
    Prop :=
  ∃ u ∈ past, ∃ arguments session, taskOf reason u = some (p, .slot "pointer_slot_save" arguments) ∧
    PointerSlotSaveRequest.read arguments = some ⟨name, action⟩ ∧
    u.after.sessionAt p = some session ∧ session.seat.conn = conn

structure Isolated (run : List Turn) : Prop where
  /-- A turn sends at most one request. -/
  one : ∀ t ∈ run, (sent t.said).length ≤ 1
  /-- No two requests on a stream have the same identity. -/
  once : ((sent (history run)).map fun on => (on.1, on.2.id)).Nodup
  /-- After a legacy session ended, a status has to succeed on the next one first. -/
  legacy : ∀ past t rest, run = past ++ t :: rest → isLegacy reason t = true →
    ∀ conn request, (conn, request) ∈ sent t.said → request.call ≠ .seatStatus →
    ∀ ended, ended ≠ conn → LegacySession reason past ended → StatusSucceeded reason past conn
  /-- A call for a context goes to the session made for it. -/
  modern : ∀ past t rest, run = past ++ t :: rest →
    ∀ context task, dutyOf reason t.request = .modern context task →
    ∀ conn request, (conn, request) ∈ sent t.said → ∃ u ∈ past, MadeFor reason u context conn
  /-- Contexts get new numbers. -/
  numbers : ∀ past u mid t rest, run = past ++ u :: mid ++ t :: rest →
    ∀ context conn context' conn', MadeFor reason u context conn → MadeFor reason t context' conn' →
    context < context'
  live : ∀ t ∈ run, t.after.modernContexts.entries.length ≤ maxModernContexts
  /-- A released context is gone. -/
  released : ∀ t ∈ run, ∀ context, dutyOf reason t.request = .release context →
    t.after.modernContexts.get context = none
  /-- The context of a session that failed is gone: the call was not sent or not answered, or the
      outcome asks for a new session. -/
  failed : ∀ t ∈ run, ∀ context task, dutyOf reason t.request = .modern context task →
    sent t.said ≠ [] ∨ t.said.any isUnbounded = true →
    (outcomeIn t.said).all outcomeRequiresReconnect = true →
    t.after.modernContexts.get context = none
  /-- Nothing is sent for a context that is gone. -/
  gone : ∀ past u mid t rest, run = past ++ u :: mid ++ t :: rest →
    ∀ context, context < u.after.modernContexts.next → u.after.modernContexts.get context = none →
    ∀ task, dutyOf reason t.request = .modern context task → sent t.said = []
  /-- A slot tool sends nothing but a click that was saved in this session, aimed at the generation of
      the replay. -/
  slots : ∀ past t rest, run = past ++ t :: rest →
    ∀ p name arguments, taskOf reason t = some (p, .slot name arguments) →
    ∀ conn request, (conn, request) ∈ sent t.said → name = "pointer_slot_replay" ∧
      ∃ replay action, PointerSlotReplayRequest.read arguments = some replay ∧
        request.call = .pointerClick (aimed action replay.generation) ∧
        SavedIn reason past p conn replay.name action

/-! ## No request is written twice -/

theorem mem_requestsOn {conn : Conn} {request : Request} {said : List Step} :
    request ∈ requestsOn conn said ↔ (conn, request) ∈ sent said := by
  simp [requestsOn]

/-- Requests that are numbered on every stream are all different. -/
theorem nodup_of_numbered (writes : List (Conn × Request))
    (h : ∀ (conn : Conn) (k : Nat) (request : Request),
      (writes.filterMap fun on => if on.1 = conn then some on.2 else none)[k]? = some request →
        request.id.get = k + 1) :
    (writes.map fun on => (on.1, on.2.id)).Nodup := by
  induction writes using List.reverseRecOn with
  | nil => exact List.nodup_nil
  | append_singleton writes last ih =>
    obtain ⟨conn, request⟩ := last
    let before := writes.filterMap fun on => if on.1 = conn then some on.2 else none
    have hall : ((writes ++ [(conn, request)]).filterMap fun on =>
        if on.1 = conn then some on.2 else none) = before ++ [request] := by
      rw [List.filterMap_append]
      simp [before]
    have hlast : request.id.get = before.length + 1 := by
      refine h conn before.length request ?_
      rw [hall, List.getElem?_append_right (Nat.le_refl _), Nat.sub_self]
      rfl
    rw [List.map_append]
    refine List.nodup_append'.mpr ⟨ih fun conn' k request' hk => ?_, List.nodup_singleton _, ?_⟩
    · refine h conn' k request' ?_
      have hlt := (List.getElem?_eq_some_iff.mp hk).1
      rw [List.filterMap_append, List.getElem?_append_left hlt, hk]
    · -- an earlier request on the stream has a smaller identity
      intro on hon hsingle
      obtain rfl := List.mem_singleton.mp hsingle
      obtain ⟨⟨conn', earlier⟩, hmem, heq⟩ := List.mem_map.mp hon
      obtain ⟨rfl, hid⟩ := Prod.mk.inj heq
      have hbefore : earlier ∈ before := List.mem_filterMap.mpr ⟨_, hmem, if_pos rfl⟩
      obtain ⟨k, hlt, hk⟩ := List.getElem_of_mem hbefore
      have hnumber : earlier.id.get = k + 1 := by
        refine h conn' k earlier ?_
        rw [hall, List.getElem?_append_left hlt]
        exact List.getElem?_eq_some_iff.mpr ⟨hlt, hk⟩
      rw [hid, hlast] at hnumber
      omega

/-! ## What is said by a turn of the grammar -/

theorem Obtained.sent_eq {s s₁ : Server} {p : Place} {opened : List Step} {session : ProviderSession}
    (h : Obtained s p opened session s₁) : sent opened = [] :=
  h.apart.1

/-- A tool sends at most one request, on its session. -/
theorem Worked.sent_eq {session session' : ProviderSession} {task : Task} {body : List Step}
    {answer : Option (Except SeatError Response)} (h : Worked session task body answer session') :
    sent body = [] ∨ ∃ call, sent body = [(session.seat.conn, ⟨session.seat.nextRequest, call⟩)] := by
  cases h with
  | call h | replayed hread hslot h =>
    rcases h.sent_eq with hsent | hsent
    · exact .inl hsent
    · exact .inr ⟨_, hsent⟩
  | idle name arguments | saved h => exact .inl rfl

theorem Worked.conn_eq {session session' : ProviderSession} {task : Task} {body : List Step}
    {answer : Option (Except SeatError Response)} (h : Worked session task body answer session') :
    session'.seat.conn = session.seat.conn := by
  cases h with
  | call h | replayed hread hslot h => exact h.conn_eq
  | idle name arguments | saved h => rfl

theorem sent_turn {opened body : List Step} (line : Json) (h : sent opened = []) :
    sent (opened ++ body ++ [.mark (.wrote line)]) = sent body := by
  rw [sent_append, sent_append, h, List.nil_append]
  exact List.append_nil _

theorem Uniform.sent_length {s s' : Server} {duty : Duty} {said : List Step}
    (h : Uniform s duty said s') : (sent said).length ≤ 1 := by
  cases h with
  | still hsaid hframes hat hspare hstreams =>
    rw [hsaid.1]
    exact Nat.zero_le _
  | worked hassigned hobtained hworked hp hends hroom hat hspare hstreams line =>
    rw [sent_turn line hobtained.sent_eq]
    rcases hworked.sent_eq with hsent | ⟨call, hsent⟩
    · rw [hsent]
      exact Nat.zero_le _
    · rw [hsent]
      exact Nat.le_refl _

/-! ## The recovery of the legacy era -/

/-- The flag is up from the end of a session until a status succeeded on the next one. -/
structure Recovering (past : List Turn) (s : Server) : Prop where
  ended : s.legacySession = none → ∀ {conn : Conn}, LegacySession reason past conn →
    s.legacyRecoveryRequired = true
  recovered : ∀ {session : ProviderSession}, s.legacySession = some session →
    s.legacyRecoveryRequired = false → ∀ {ended : Conn}, ended ≠ session.seat.conn →
    LegacySession reason past ended → StatusSucceeded reason past session.seat.conn

variable {reason}

theorem LegacySession.snoc {past : List Turn} {t : Turn} {conn : Conn}
    (h : LegacySession reason (past ++ [t]) conn) :
    LegacySession reason past conn ∨ isLegacy reason t = true ∧ t.said.any (isOpened conn) = true := by
  obtain ⟨u, hu, hlegacy, hopened⟩ := h
  rcases List.mem_append.mp hu with hpast | hlast
  · exact .inl ⟨u, hpast, hlegacy, hopened⟩
  · obtain rfl := List.mem_singleton.mp hlast
    exact .inr ⟨hlegacy, hopened⟩

theorem StatusSucceeded.snoc {past : List Turn} {conn : Conn} (h : StatusSucceeded reason past conn)
    (t : Turn) : StatusSucceeded reason (past ++ [t]) conn := by
  obtain ⟨u, hu, h⟩ := h
  exact ⟨u, List.mem_append_left _ hu, h⟩

/-- A turn that leaves the legacy session alone. -/
theorem Recovering.alone {past : List Turn} {t : Turn} {s s' : Server} (h : Recovering reason past s)
    (hsession : s'.legacySession = s.legacySession)
    (hrequired : s'.legacyRecoveryRequired = s.legacyRecoveryRequired)
    (hopened : isLegacy reason t = true → ∀ conn, t.said.any (isOpened conn) = false) :
    Recovering reason (past ++ [t]) s' := by
  have hpast {conn : Conn} (hlegacy : LegacySession reason (past ++ [t]) conn) :
      LegacySession reason past conn := by
    rcases hlegacy.snoc with hpast | ⟨hlegacy, hconn⟩
    · exact hpast
    · exact absurd hconn (by rw [hopened hlegacy conn]; decide)
  refine ⟨fun hnone {conn} hlegacy => ?_, fun {session} hsome hflag {ended} hne hlegacy => ?_⟩
  · rw [hrequired]
    exact h.ended (hsession.symm.trans hnone) (hpast hlegacy)
  · exact (h.recovered (hsession.symm.trans hsome) (hrequired.symm.trans hflag) hne
      (hpast hlegacy)).snoc t

theorem Connected.recovery {s s₁ : Server} {opened : List Step} {seat : Seat}
    (h : Connected s opened seat s₁) : s₁.legacyRecoveryRequired = s.legacyRecoveryRequired := by
  cases h <;> rfl

theorem Held.recovery {s s₁ : Server} {opened : List Step} {session : ProviderSession}
    (h : Held s opened session s₁) : s₁.legacyRecoveryRequired = s.legacyRecoveryRequired := by
  cases h with
  | live h => rfl
  | made h hconnected => exact hconnected.recovery

theorem Worked.unopened {session session' : ProviderSession} {task : Task} {body : List Step}
    {answer : Option (Except SeatError Response)} (h : Worked session task body answer session')
    (conn : Conn) : body.any (isOpened conn) = false := by
  cases h with
  | call h | replayed hread hslot h => exact On.unopened h.on conn
  | idle name arguments | saved h => rfl

/-- A status that succeeded is seen in its turn. -/
theorem statusOk_says {session session' : ProviderSession} {task : Task} {opened body : List Step}
    {answer : Option (Except SeatError Response)} (hworked : Worked session task body answer session')
    (hopened : Apart opened) (hok : statusOk task answer = true) (line : Json) :
    (∃ id, (session.seat.conn, ⟨id, .seatStatus⟩) ∈ sent (opened ++ body ++ [.mark (.wrote line)])) ∧
      ∃ reply, outcomeIn (opened ++ body ++ [.mark (.wrote line)]) = some (.ok reply) := by
  cases hworked with
  | idle name arguments | saved hread | replayed hread hslot hcalled => exact absurd hok (by simp [statusOk])
  | call hcalled =>
    rename_i call answer seat
    cases answer with
    | error error => exact absurd hok (by simp [statusOk])
    | ok response =>
      obtain ⟨hstatus, hreply⟩ : isStatus call = true ∧ isOk response.outcome = true := by
        simpa [statusOk] using hok
      have hcall : call = .seatStatus := by
        cases call <;> first | rfl | exact absurd hstatus (by simp [isStatus])
      obtain ⟨hsent, -⟩ := hcalled.ok_says
      refine ⟨⟨session.seat.nextRequest, ?_⟩, ?_⟩
      · rw [sent_turn line hopened.1, hsent, hcall]
        exact List.mem_singleton_self _
      · rw [hcalled.outcomeIn_eq hopened line]
        cases houtcome : response.outcome with
        | ok reply => exact ⟨reply, by simp [Except.toOption, houtcome]⟩
        | error error =>
          rw [houtcome] at hreply
          exact absurd hreply (by simp [isOk])

theorem LegacyWork.recovering {past : List Turn} {s s' : Server} {request : RpcRequest} {task : Task}
    {result : Except ProviderFailure ToolResult} {said : List Step} (h : Recovering reason past s)
    (hduty : dutyOf reason request = .legacy task) (hwork : LegacyWork s task result said s')
    (line : Json) :
    Recovering reason (past ++ [⟨request, s, said ++ [.mark (.wrote line)], s'⟩]) s' := by
  cases hwork with
  | refused failure => exact h.alone rfl rfl fun _ _ => rfl
  | unconnected hnone hunconnected failure =>
    have hstate : s'.legacySession = s.legacySession ∧
        s'.legacyRecoveryRequired = s.legacyRecoveryRequired := by
      rcases hunconnected.state with rfl | rfl <;> exact ⟨rfl, rfl⟩
    exact h.alone hstate.1 hstate.2 fun _ conn =>
      ((Opens.still hunconnected.opens).append (still_line line)).2 conn
  | worked hrecovered hheld hworked hshown =>
    rename_i opened body session session' s₁ answer
    have hlegacy : isLegacy reason ⟨request, s, opened ++ body ++ [.mark (.wrote line)],
        settleLegacy task answer session' s₁⟩ = true := by
      rw [isLegacy, hduty]
    by_cases hends : ends answer = true
    · have hstate : settleLegacy task answer session' s₁ = dropLegacy s₁ := by
        rw [settleLegacy, if_pos hends]
      rw [hstate]
      exact ⟨fun _ _ _ => rfl, fun hsome => absurd hsome (by simp [dropLegacy])⟩
    · have hstate : settleLegacy task answer session' s₁ = { s₁ with
          legacySession := some session'
          legacyRecoveryRequired := s₁.legacyRecoveryRequired && !statusOk task answer } := by
        rw [settleLegacy, if_neg hends]
      rw [hstate] at hlegacy ⊢
      refine ⟨fun hnone => absurd hnone (by simp), fun {session₀} hsome hflag {ended} hne hbefore => ?_⟩
      obtain rfl := Option.some.inj hsome
      rw [hworked.conn_eq] at hne ⊢
      by_cases hok : statusOk task answer = true
      · obtain ⟨s₂, hobtained, -⟩ := hheld.obtained
        obtain ⟨hsent, hreply⟩ := statusOk_says hworked hobtained.apart hok line
        exact ⟨_, List.mem_append_right _ (List.mem_singleton_self _), hlegacy, hsent, hreply⟩
      · have hflag' : s.legacyRecoveryRequired = false := by
          rw [← hheld.recovery]
          simpa [hok] using hflag
        cases hheld with
        | live hlive =>
          have hpast : LegacySession reason past ended := by
            rcases hbefore.snoc with hpast | ⟨-, hopened⟩
            · exact hpast
            · simp [hworked.unopened, isOpened] at hopened
          exact (h.recovered hlive hflag' hne hpast).snoc _
        | made hnone hconnected =>
          -- the first legacy session of the run
          rcases hbefore.snoc with hpast | ⟨-, hopened⟩
          · exact absurd (h.ended hnone hpast) (by rw [hflag']; decide)
          · simp [hworked.unopened, hconnected.unopened, isOpened] at hopened
            exact absurd hopened.symm hne

theorem not_legacy {t : Turn} {duty : Duty} (hduty : dutyOf reason t.request = duty)
    (h : ∀ task, duty ≠ .legacy task) : isLegacy reason t = false := by
  unfold isLegacy
  rw [hduty]
  cases duty with
  | legacy task => exact absurd rfl (h task)
  | nothing | modern context task | status | release context => rfl

theorem SameSessions.legacy {s s' : Server} (h : SameSessions s s') :
    s'.legacySession = s.legacySession ∧ s'.legacyRecoveryRequired = s.legacyRecoveryRequired := by
  obtain ⟨negotiated, initialized, rfl⟩ := h
  exact ⟨rfl, rfl⟩

theorem ModernWork.legacy {s s' : Server} {context : Nat} {task : Task}
    {result : Except ProviderFailure ToolResult} {said : List Step}
    (h : ModernWork s context task result said s') :
    s'.legacySession = s.legacySession ∧ s'.legacyRecoveryRequired = s.legacyRecoveryRequired := by
  cases h with
  | refused failure => exact ⟨rfl, rfl⟩
  | worked hsession hworked hshown =>
    unfold settleModern
    split <;> exact ⟨rfl, rfl⟩

theorem StatusWork.legacy {s s' : Server} {result : Except ProviderFailure (Nat × Outcome)}
    {said : List Step} (h : StatusWork s result said s') :
    s'.legacySession = s.legacySession ∧ s'.legacyRecoveryRequired = s.legacyRecoveryRequired := by
  cases h with
  | refused failure => exact ⟨rfl, rfl⟩
  | unconnected h failure => rcases h.state with rfl | rfl <;> exact ⟨rfl, rfl⟩
  | failed hconnected hcalled hfailed failure => exact ⟨hconnected.sessionAt .legacy, hconnected.recovery⟩
  | created hfull hconnected hcalled hnext =>
    exact ⟨hconnected.sessionAt .legacy, hconnected.recovery⟩

theorem Turned.recovering {past : List Turn} {s s' : Server} {request : RpcRequest} {said : List Step}
    (hturned : Turned reason s request said s') (h : Recovering reason past s) :
    Recovering reason (past ++ [⟨request, s, said, s'⟩]) s' := by
  cases hturned with
  | silent hn hs => exact h.alone hs.legacy.1 hs.legacy.2 fun _ _ => rfl
  | spoke hn hid hduty hline hs => exact h.alone hs.legacy.1 hs.legacy.2 fun _ _ => rfl
  | unknown hn hid hduty hline hnone => exact h.alone rfl rfl fun _ _ => rfl
  | released hn hid hduty hline hlive => exact h.alone rfl rfl fun _ _ => rfl
  | legacy hn hid hduty hwork => exact hwork.recovering h hduty _
  | modern hn hid hduty hwork =>
    refine h.alone hwork.legacy.1 hwork.legacy.2 fun hlegacy => ?_
    exact absurd hlegacy (by rw [not_legacy hduty (by simp)]; decide)
  | status hn hid hduty hwork =>
    refine h.alone hwork.legacy.1 hwork.legacy.2 fun hlegacy => ?_
    exact absurd hlegacy (by rw [not_legacy hduty (by simp)]; decide)

theorem Reached.recovering {past : List Turn} {s : Server} (h : Reached reason past s) :
    Recovering reason past s := by
  induction h with
  | start h =>
    exact ⟨fun _ _ ⟨u, hu, _⟩ => absurd hu (by simp), fun _ _ _ _ ⟨u, hu, _⟩ => absurd hu (by simp)⟩
  | turn h hturned ih => exact hturned.recovering ih

/-- A call other than a status is sent only when no recovery is due. -/
theorem Turned.legacy_sends {past : List Turn} {s s' : Server} {request : RpcRequest} {said : List Step}
    (hturned : Turned reason s request said s') (h : Recovering reason past s)
    (hlegacy : isLegacy reason ⟨request, s, said, s'⟩ = true) {conn : Conn} {sending : Request}
    (hsent : (conn, sending) ∈ sent said) (hcall : sending.call ≠ .seatStatus) {ended : Conn}
    (hne : ended ≠ conn) (hended : LegacySession reason past ended) :
    StatusSucceeded reason past conn := by
  cases hturned with
  | silent hn hs => exact absurd hsent (by simp [sent])
  | spoke hn hid hduty hline hs => exact absurd hsent (by simp [sent, sentBy])
  | unknown hn hid hduty hline hnone => exact absurd hsent (by simp [sent, sentBy])
  | released hn hid hduty hline hlive => exact absurd hsent (by simp [sent, sentBy])
  | modern hn hid hduty hwork =>
    exact absurd hlegacy (by rw [not_legacy hduty (by simp)]; decide)
  | status hn hid hduty hwork =>
    exact absurd hlegacy (by rw [not_legacy hduty (by simp)]; decide)
  | legacy hn hid hduty hwork =>
    rename_i task result said
    cases hwork with
    | refused failure => exact absurd hsent (by simp [sent, sentBy])
    | unconnected hnone hunconnected failure =>
      rw [sent_append, (Opens.still hunconnected.opens).1] at hsent
      exact absurd hsent (by simp [sent, sentBy])
    | worked hrecovered hheld hworked hshown =>
      rename_i opened body session session' s₁ answer
      obtain ⟨s₂, hobtained, -⟩ := hheld.obtained
      rw [sent_turn _ hobtained.sent_eq] at hsent
      have htask : task ≠ .call .seatStatus := by
        rintro rfl
        cases hworked with
        | call hcalled =>
          rcases hcalled.sent_eq with hnothing | hone
          · exact absurd hsent (by simp [hnothing])
          · rw [hone] at hsent
            exact hcall (by rw [(Prod.mk.inj (List.mem_singleton.mp hsent)).2])
      have hflag : s.legacyRecoveryRequired = false := by
        by_contra hflag
        exact htask (hrecovered ((Bool.not_eq_false _).mp hflag))
      have hconn : conn = session.seat.conn := by
        rcases hworked.sent_eq with hnothing | ⟨call, hone⟩
        · exact absurd hsent (by simp [hnothing])
        · rw [hone] at hsent
          exact (Prod.mk.inj (List.mem_singleton.mp hsent)).1
      cases hheld with
      | live hlive =>
        rw [hconn] at hne ⊢
        exact h.recovered hlive hflag hne hended
      | made hnone hconnected => exact absurd (h.ended hnone hended) (by rw [hflag]; decide)

/-! ## The sessions of contexts -/

theorem MadeFor.next {u : Turn} {context : Nat} {conn : Conn} (h : MadeFor reason u context conn)
    (hturned : Turned reason u.before u.request u.said u.after) :
    context = u.before.modernContexts.next ∧
      u.after.modernContexts.next = u.before.modernContexts.next + 1 := by
  obtain ⟨-, -, hnone, session, hsome, -⟩ := h
  have hlive : (u.after.modernContexts.get context).isSome = true := by rw [hsome]; rfl
  cases hturned.tabled with
  | kept hlimit hnext hlength hget => exact absurd (hget context hlive) (by rw [hnone]; decide)
  | added hlimit hnext hroom hlength hget =>
    rcases hget context hlive with hcontext | hbefore
    · exact ⟨hcontext, hnext⟩
    · exact absurd hbefore (by rw [hnone]; decide)

/-- Every context has a session that was made for it. -/
def Owned (reason : String → Json → String) (past : List Turn) (s : Server) : Prop :=
  ∀ context session, s.modernContexts.get context = some session →
    ∃ u ∈ past, MadeFor reason u context session.seat.conn

theorem Owned.alone {past : List Turn} {s s' : Server} (h : Owned reason past s) (t : Turn)
    (hget : ∀ context session, s'.modernContexts.get context = some session →
      ∃ old, s.modernContexts.get context = some old ∧ old.seat.conn = session.seat.conn) :
    Owned reason (past ++ [t]) s' := by
  intro context session hsession
  obtain ⟨old, hold, hconn⟩ := hget context session hsession
  obtain ⟨u, hu, hmade⟩ := h _ _ hold
  exact ⟨u, List.mem_append_left _ hu, hconn ▸ hmade⟩

theorem Turned.owned {past : List Turn} {s s' : Server} {request : RpcRequest} {said : List Step}
    (hturned : Turned reason s request said s') (ht : Table s.modernContexts)
    (h : Owned reason past s) : Owned reason (past ++ [⟨request, s, said, s'⟩]) s' := by
  have hsame (heq : s'.modernContexts = s.modernContexts) :
      Owned reason (past ++ [⟨request, s, said, s'⟩]) s' :=
    h.alone _ fun context session hsession => ⟨session, heq ▸ hsession, rfl⟩
  cases hturned with
  | silent hn hs => exact hsame hs.contexts
  | spoke hn hid hduty hline hs => exact hsame hs.contexts
  | unknown hn hid hduty hline hnone => exact hsame rfl
  | legacy hn hid hduty hwork => exact hsame hwork.contexts
  | released hn hid hduty hline hlive =>
    rename_i id line dropped
    refine h.alone _ fun context session hsession => ⟨session, ?_, rfl⟩
    have hat := dropContext_at dropped s (.context context)
    by_cases heq : Place.context context = .context dropped
    · rw [if_pos heq] at hat
      exact absurd (hat.symm.trans hsession) (by simp)
    · rw [if_neg heq] at hat
      exact hat.symm.trans hsession
  | modern hn hid hduty hwork =>
    cases hwork with
    | refused failure => exact hsame rfl
    | worked hlive hworked hshown =>
      rename_i worked task result body session session' answer
      refine h.alone _ fun context kept hkept => ?_
      have hat := settleModern_at answer session' hlive (.context context)
      by_cases heq : Place.context context = .context worked
      · obtain rfl := Place.context.inj heq
        rw [if_pos rfl] at hat
        split at hat
        · exact absurd (hat.symm.trans hkept) (by simp)
        · obtain rfl := Option.some.inj (hat.symm.trans hkept)
          exact ⟨session, hlive, hworked.conn_eq.symm⟩
      · rw [if_neg heq] at hat
        exact ⟨kept, hat.symm.trans hkept, rfl⟩
  | status hn hid hduty hwork =>
    cases hwork with
    | refused failure => exact hsame rfl
    | unconnected hunconnected failure => exact hsame hunconnected.contexts
    | failed hconnected hcalled hfailed failure => exact hsame hconnected.modernContexts
    | created hfull hconnected hcalled hnext =>
      rename_i id opened said seat seat' s₁ response next
      have hget (context : Nat) :
          List.lookup context (Assoc.insert s.modernContexts.next (⟨seat', []⟩ : ProviderSession)
            s.modernContexts.entries) =
          if context = s.modernContexts.next then some ⟨seat', []⟩
          else s.modernContexts.get context := Assoc.lookup_insert _ _ _ _
      intro context session hsession
      by_cases heq : context = s.modernContexts.next
      · have hnew := (hget context).symm.trans hsession
        rw [if_pos heq] at hnew
        obtain rfl := Option.some.inj hnew
        refine ⟨_, List.mem_append_right _ (List.mem_singleton_self _), hduty, ?_, ?_, _, hsession, rfl⟩
        · simp [isOpened, hcalled.conn_eq]
        · rw [← Option.not_isSome_iff_eq_none]
          intro hlive
          have := ht.below context hlive
          omega
      · have hold := (hget context).symm.trans hsession
        rw [if_neg heq] at hold
        obtain ⟨u, hu, hmade⟩ := h _ _ hold
        exact ⟨u, List.mem_append_left _ hu, hmade⟩

theorem Reached.owned {past : List Turn} {s : Server} (h : Reached reason past s) :
    Owned reason past s := by
  induction h with
  | start h =>
    intro context session hsession
    cases h <;> exact absurd hsession (by simp [Server.new, Contexts.new, Contexts.get])
  | turn h hturned ih => exact hturned.owned h.table ih

/-- Numbers that were handed out stay below the next one. -/
theorem Reached.numbered {past : List Turn} {s : Server} (h : Reached reason past s) :
    ∀ u ∈ past, ∀ context conn, MadeFor reason u context conn → context < s.modernContexts.next := by
  induction h with
  | start h => exact fun u hu => absurd hu (by simp)
  | turn h hturned ih =>
    intro u hu context conn hmade
    have hgrows := hturned.tabled
    rcases List.mem_append.mp hu with hpast | hlast
    · have hlt := ih u hpast context conn hmade
      cases hgrows with
      | kept hlimit hnext hlength hget => omega
      | added hlimit hnext hroom hlength hget => omega
    · obtain rfl := List.mem_singleton.mp hlast
      obtain ⟨hcontext, hnext⟩ := hmade.next hturned
      dsimp only at hcontext hnext
      omega

/-- A context that is gone stays gone. -/
theorem Reached.gone {past : List Turn} {s : Server} (h : Reached reason past s) :
    ∀ u ∈ past, ∀ context, context < u.after.modernContexts.next →
      u.after.modernContexts.get context = none →
      context < s.modernContexts.next ∧ s.modernContexts.get context = none := by
  induction h with
  | start h => exact fun u hu => absurd hu (by simp)
  | turn h hturned ih =>
    intro u hu context hlt hnone
    rcases List.mem_append.mp hu with hpast | hlast
    · obtain ⟨hlt', hnone'⟩ := ih u hpast context hlt hnone
      rw [← Option.not_isSome_iff_eq_none] at hnone' ⊢
      cases hturned.tabled with
      | kept hlimit hnext hlength hget => exact ⟨by omega, fun hsome => hnone' (hget context hsome)⟩
      | added hlimit hnext hroom hlength hget =>
        refine ⟨by omega, fun hsome => ?_⟩
        rcases hget context hsome with heq | hsome'
        · omega
        · exact hnone' hsome'
    · obtain rfl := List.mem_singleton.mp hlast
      exact ⟨hlt, hnone⟩

/-! ## Saved clicks -/

/-- Every slot of a session was saved in it. -/
def Saved (reason : String → Json → String) (past : List Turn) (s : Server) : Prop :=
  ∀ ⦃p : Place⦄ ⦃session : ProviderSession⦄ ⦃name : String⦄ ⦃action : PointerClickRequest⦄,
    s.sessionAt p = some session → session.pointerSlots.lookup name = some action →
    SavedIn reason past p session.seat.conn name action

theorem SavedIn.snoc {past : List Turn} {p : Place} {conn : Conn} {name : String}
    {action : PointerClickRequest} (h : SavedIn reason past p conn name action) (t : Turn) :
    SavedIn reason (past ++ [t]) p conn name action := by
  obtain ⟨u, hu, h⟩ := h
  exact ⟨u, List.mem_append_left _ hu, h⟩

theorem Assigned.taskOf_eq {s : Server} {t : Turn} {p : Place} {task : Task} {name : String}
    {arguments : Json} (h : Assigned s (dutyOf reason t.request) p task)
    (htask : task = .slot name arguments) : taskOf reason t = some (p, task) := by
  unfold taskOf
  generalize dutyOf reason t.request = duty at h
  cases h with
  | legacy task => rfl
  | modern context task => rfl
  | status => exact absurd htask (by simp)

/-- The slots of the session a tool works on were saved in it. -/
theorem Saved.obtained {past : List Turn} {s s₁ : Server} (h : Saved reason past s) {p : Place}
    {opened : List Step} {session : ProviderSession} (hobtained : Obtained s p opened session s₁)
    {name : String} {action : PointerClickRequest}
    (hslot : session.pointerSlots.lookup name = some action) :
    SavedIn reason past p session.seat.conn name action := by
  cases hobtained with
  | live hlive => exact h hlive hslot
  | made hnone hconnected => exact absurd hslot (by simp)

theorem Uniform.saved {past : List Turn} {s s' : Server} {request : RpcRequest} {said : List Step}
    (huniform : Uniform s (dutyOf reason request) said s') (h : Saved reason past s) :
    Saved reason (past ++ [⟨request, s, said, s'⟩]) s' := by
  intro q kept name action hkept hslot
  cases huniform with
  | still hsaid hframes hat hspare hstreams =>
    rcases hat q with heq | heq
    · exact (h (heq.symm.trans hkept) hslot).snoc _
    · exact absurd (heq.symm.trans hkept) (by simp)
  | worked hassigned hobtained hworked hp hends hroom hat hspare hstreams line =>
    rename_i p task opened body session session' s₁ answer
    by_cases hq : q = p
    · subst hq
      have heq : kept = session' := by
        rcases hp with hnone | ⟨hsome, -⟩
        · exact absurd (hnone.symm.trans hkept) (by simp)
        · exact Option.some.inj (hkept.symm.trans hsome)
      subst heq
      cases hworked with
      | idle name' arguments => exact (h.obtained hobtained hslot).snoc _
      | call hcalled | replayed hread hslot' hcalled =>
        have hold := (h.obtained hobtained hslot).snoc
          ⟨request, s, opened ++ body ++ [.mark (.wrote line)], s'⟩
        rwa [← hcalled.conn_eq] at hold
      | saved hread =>
        rename_i arguments saving
        have hlookup : (Assoc.insert saving.name saving.action session.pointerSlots).lookup name =
            some action := hslot
        rw [Assoc.lookup_insert] at hlookup
        split at hlookup
        · rename_i hname
          obtain rfl := Option.some.inj hlookup
          exact ⟨_, List.mem_append_right _ (List.mem_singleton_self _), arguments, _,
            hassigned.taskOf_eq rfl, by rw [hread, hname], hkept, rfl⟩
        · exact (h.obtained hobtained hlookup).snoc _
    · exact (h ((hat q hq).symm.trans hkept) hslot).snoc _

theorem Reached.saved {past : List Turn} {s : Server} (h : Reached reason past s) :
    Saved reason past s := by
  induction h with
  | start h =>
    intro q kept name action hkept
    cases h <;> cases q <;> exact absurd hkept (by simp [Server.new, Contexts.new, Contexts.get,
      Server.sessionAt])
  | turn h hturned ih => exact (hturned.uniform h.table).saved ih

/-! ## Every run is isolated -/

theorem Turned.released_gone {s s' : Server} {request : RpcRequest} {said : List Step}
    (h : Turned reason s request said s') {context : Nat}
    (hrelease : dutyOf reason request = .release context) :
    s'.modernContexts.get context = none := by
  cases h with
  | silent hn hs => exact absurd hrelease (by rw [dutyOf, hn]; simp)
  | spoke hn hid hduty hline hs => exact absurd hrelease (hduty context)
  | unknown hn hid hduty hline hnone =>
    obtain rfl := Duty.release.inj (hduty.symm.trans hrelease)
    exact hnone
  | released hn hid hduty hline hlive =>
    obtain rfl := Duty.release.inj (hduty.symm.trans hrelease)
    exact (dropContext_at _ s (.context _)).trans (if_pos rfl)
  | legacy hn hid hduty hwork => exact absurd (hduty.symm.trans hrelease) (by simp)
  | modern hn hid hduty hwork => exact absurd (hduty.symm.trans hrelease) (by simp)
  | status hn hid hduty hwork => exact absurd (hduty.symm.trans hrelease) (by simp)

/-- A call that was not sent or not answered, or asks for a new session, ends its session. -/
theorem Worked.ends_eq {session session' : ProviderSession} {task : Task} {opened body : List Step}
    {answer : Option (Except SeatError Response)} (h : Worked session task body answer session')
    (hopened : Apart opened) (line : Json)
    (hsaid : sent (opened ++ body ++ [.mark (.wrote line)]) ≠ [] ∨
      List.any (opened ++ body ++ [.mark (.wrote line)]) isUnbounded = true)
    (houtcome : (outcomeIn (opened ++ body ++ [.mark (.wrote line)])).all outcomeRequiresReconnect =
      true) : ends answer = true := by
  have hcalled {call : Call} {given : Except SeatError Response} {seat : Seat}
      (hcall : Called session.seat call body given seat) : ends (some given) = true := by
    rw [hcall.outcomeIn_eq hopened line] at houtcome
    cases given with
    | error error => rfl
    | ok response => exact houtcome
  cases h with
  | call hcall => exact hcalled hcall
  | replayed hread hslot hcall => exact hcalled hcall
  | idle name arguments | saved hread =>
    rcases hsaid with hsent | hany
    · exact absurd (sent_turn line hopened.1) hsent
    · rw [List.append_nil, List.any_append, hopened.2.1] at hany
      exact absurd hany (by simp [isUnbounded])

theorem Turned.failed_gone {s s' : Server} {request : RpcRequest} {said : List Step}
    (h : Turned reason s request said s') {context : Nat} {task : Task}
    (hmodern : dutyOf reason request = .modern context task)
    (hsaid : sent said ≠ [] ∨ said.any isUnbounded = true)
    (houtcome : (outcomeIn said).all outcomeRequiresReconnect = true) :
    s'.modernContexts.get context = none := by
  have hline (line : Json) (h : sent [.mark (.wrote line)] ≠ [] ∨
      List.any [.mark (.wrote line)] isUnbounded = true) : False :=
    h.elim (fun hsent => hsent rfl) fun hany => absurd hany (by simp [isUnbounded])
  cases h with
  | silent hn hs => exact absurd hmodern (by rw [dutyOf, hn]; simp)
  | spoke hn hid hduty hl hs => exact (hline _ hsaid).elim
  | unknown hn hid hduty hl hnone => exact absurd (hduty.symm.trans hmodern) (by simp)
  | released hn hid hduty hl hlive => exact absurd (hduty.symm.trans hmodern) (by simp)
  | legacy hn hid hduty hwork => exact absurd (hduty.symm.trans hmodern) (by simp)
  | status hn hid hduty hwork => exact absurd (hduty.symm.trans hmodern) (by simp)
  | modern hn hid hduty hwork =>
    obtain ⟨rfl, rfl⟩ := Duty.modern.inj (hduty.symm.trans hmodern)
    cases hwork with
    | refused failure => exact (hline _ hsaid).elim
    | worked hlive hworked hshown =>
      rename_i context task result body session session' answer
      have hnothing : Apart [] := ⟨rfl, rfl, fun _ => rfl⟩
      have hends : ends answer = true := hworked.ends_eq hnothing _ hsaid houtcome
      have hat := settleModern_at answer session' hlive (.context context)
      rw [if_pos rfl, if_pos hends] at hat
      exact hat

/-- Nothing is sent for a context that is not there. -/
theorem Turned.unknown_silent {s s' : Server} {request : RpcRequest} {said : List Step}
    (h : Turned reason s request said s') {context : Nat} {task : Task}
    (hmodern : dutyOf reason request = .modern context task)
    (hnone : s.modernContexts.get context = none) : sent said = [] := by
  cases h with
  | silent hn hs => rfl
  | spoke hn hid hduty hl hs => rfl
  | unknown hn hid hduty hl hnone => rfl
  | released hn hid hduty hl hlive => rfl
  | legacy hn hid hduty hwork => exact absurd (hduty.symm.trans hmodern) (by simp)
  | status hn hid hduty hwork => exact absurd (hduty.symm.trans hmodern) (by simp)
  | modern hn hid hduty hwork =>
    obtain ⟨rfl, rfl⟩ := Duty.modern.inj (hduty.symm.trans hmodern)
    cases hwork with
    | refused failure => rfl
    | worked hlive hworked hshown => exact absurd (hnone.symm.trans hlive) (by simp)

theorem Turned.modern_sends {s s' : Server} {request : RpcRequest} {said : List Step}
    (h : Turned reason s request said s') {context : Nat} {task : Task}
    (hmodern : dutyOf reason request = .modern context task) {conn : Conn} {sending : Request}
    (hsent : (conn, sending) ∈ sent said) :
    ∃ session, s.modernContexts.get context = some session ∧ session.seat.conn = conn := by
  cases h with
  | silent hn hs => exact absurd hsent (by simp [sent])
  | spoke hn hid hduty hl hs => exact absurd hsent (by simp [sent, sentBy])
  | unknown hn hid hduty hl hnone => exact absurd hsent (by simp [sent, sentBy])
  | released hn hid hduty hl hlive => exact absurd hsent (by simp [sent, sentBy])
  | legacy hn hid hduty hwork => exact absurd (hduty.symm.trans hmodern) (by simp)
  | status hn hid hduty hwork => exact absurd (hduty.symm.trans hmodern) (by simp)
  | modern hn hid hduty hwork =>
    obtain ⟨rfl, rfl⟩ := Duty.modern.inj (hduty.symm.trans hmodern)
    cases hwork with
    | refused failure => exact absurd hsent (by simp [sent, sentBy])
    | worked hlive hworked hshown =>
      refine ⟨_, hlive, ?_⟩
      rw [sent_append, (still_line _).1, List.append_nil] at hsent
      rcases hworked.sent_eq with hnothing | ⟨call, hone⟩
      · exact absurd hsent (by simp [hnothing])
      · rw [hone] at hsent
        exact (Prod.mk.inj (List.mem_singleton.mp hsent)).1.symm

/-- A slot tool sends a click of its session. -/
theorem Uniform.slot_sends {past : List Turn} {t : Turn} {p : Place} {name : String} {arguments : Json}
    (h : Uniform t.before (dutyOf reason t.request) t.said t.after) (hsaved : Saved reason past t.before)
    (htask : taskOf reason t = some (p, .slot name arguments)) {conn : Conn} {sending : Request}
    (hsent : (conn, sending) ∈ sent t.said) : name = "pointer_slot_replay" ∧
      ∃ replay action, PointerSlotReplayRequest.read arguments = some replay ∧
        sending.call = .pointerClick (aimed action replay.generation) ∧
        SavedIn reason past p conn replay.name action := by
  generalize hsaid : t.said = said at h hsent
  cases h with
  | still hstill hframes hat hspare hstreams => exact absurd hsent (by simp [hstill.1])
  | worked hassigned hobtained hworked hp hends hroom hat hspare hstreams line =>
    rename_i q task opened body session session' s₁ answer
    obtain ⟨rfl, rfl⟩ : q = p ∧ task = .slot name arguments := by
      unfold taskOf at htask
      generalize dutyOf reason t.request = duty at hassigned htask
      cases hassigned with
      | legacy task =>
        obtain ⟨hp, htask⟩ := Prod.mk.inj (Option.some.inj htask)
        exact ⟨hp, htask⟩
      | modern context task =>
        obtain ⟨hp, htask⟩ := Prod.mk.inj (Option.some.inj htask)
        exact ⟨hp, htask⟩
      | status => exact absurd htask (by simp)
    rw [sent_turn line hobtained.sent_eq] at hsent
    cases hworked with
    | idle name arguments => exact absurd hsent (by simp [sent])
    | saved hread => exact absurd hsent (by simp [sent])
    | replayed hread hslot hcalled =>
      rename_i replay action answer seat
      rcases hcalled.sent_eq with hnothing | hone
      · exact absurd hsent (by simp [hnothing])
      · rw [hone] at hsent
        obtain ⟨rfl, rfl⟩ := Prod.mk.inj (List.mem_singleton.mp hsent)
        exact ⟨rfl, replay, action, hread, rfl, hsaved.obtained hobtained hslot⟩

variable (reason) (env : Outside)

/-- Provider sessions are isolated in every run of the server, whatever the provider does. -/
theorem session_isolation (socket : Option String) (inherited : Bool) (requests : List RpcRequest) :
    Isolated reason (turns env reason ⟨startServer socket inherited, []⟩ requests) := by
  obtain ⟨final, hrun⟩ := reached_run env reason socket inherited requests
  generalize turns env reason ⟨startServer socket inherited, []⟩ requests = run at hrun
  have hturn (t : Turn) (ht : t ∈ run) : ∃ past, Reached reason past t.before ∧
      Turned reason t.before t.request t.said t.after := by
    obtain ⟨past, rest, rfl⟩ := List.append_of_mem ht
    exact ⟨past, hrun.split⟩
  refine ⟨fun t ht => ?_, nodup_of_numbered _ hrun.seats.numbered, ?_, ?_, ?_, fun t ht => ?_,
    fun t ht => ?_, fun t ht => ?_, ?_, ?_⟩
  · obtain ⟨past, hreached, hturned⟩ := hturn t ht
    exact (hturned.uniform hreached.table).sent_length
  · rintro past t rest rfl hlegacy conn request hsent hcall ended hne hended
    obtain ⟨hreached, hturned⟩ := hrun.split
    exact hturned.legacy_sends hreached.recovering hlegacy hsent hcall hne hended
  · rintro past t rest rfl context task hduty conn request hsent
    obtain ⟨hreached, hturned⟩ := hrun.split
    obtain ⟨session, hlive, rfl⟩ := hturned.modern_sends hduty hsent
    exact hreached.owned context session hlive
  · rintro past u mid t rest rfl context conn context' conn' hmade hmade'
    obtain ⟨hreached, hturned⟩ := hrun.split
    rw [(hmade'.next hturned).1]
    exact hreached.numbered u (by simp) context conn hmade
  · obtain ⟨past, hreached, hturned⟩ := hturn t ht
    exact (hturned.tabled.table hreached.table).room
  · intro context hrelease
    obtain ⟨past, hreached, hturned⟩ := hturn t ht
    exact hturned.released_gone hrelease
  · intro context task hmodern hsaid houtcome
    obtain ⟨past, hreached, hturned⟩ := hturn t ht
    exact hturned.failed_gone hmodern hsaid houtcome
  · rintro past u mid t rest rfl context hlt hnone task hmodern
    obtain ⟨hreached, hturned⟩ := hrun.split
    exact hturned.unknown_silent hmodern (hreached.gone u (by simp) context hlt hnone).2
  · rintro past t rest rfl p name arguments htask conn request hsent
    obtain ⟨hreached, hturned⟩ := hrun.split
    exact (hturned.uniform hreached.table).slot_sends hreached.saved htask hsent

end Isolation

end AgentSeat.Companion
