/-
  Dead contexts.

  A call on a session that fails, or whose outcome asks for a new session, takes the context out of the
  table. The status that opens a context has no such rule: its outcome is returned with the new context
  whatever it says. `no_dead_context` states what follows for runs: every context is backed by a good
  session after every turn if and only if no opening status was answered so.
-/
import AgentSeat.Companion.Runs

namespace AgentSeat.Companion

open AgentSeat.Lib AgentSeat.Proto

/-- No answer on the stream asked for a new session. -/
def Lively (said : List Step) (conn : Conn) : Prop :=
  ∀ response, .ok (.message (.response response)) ∈ framesOn conn (sinceOpened conn said) →
    outcomeRequiresReconnect response.outcome = false

/-- Every context has a session that did not fail and was never answered with a demand for a new
    session. -/
def NoDeadContext (said : List Step) (s : Server) : Prop :=
  ∀ context session, s.modernContexts.get context = some session →
    Unbroken said session.seat ∧ Lively said session.seat.conn

theorem Lively.append {said more : List Step} {conn : Conn} (h : Lively said conn)
    (hopened : said.any (isOpened conn) = true) (hmore : Elsewhere conn more) :
    Lively (said ++ more) conn := by
  intro response hframe
  rw [sinceOpened_append more hopened, framesOn_append, hmore.frames, List.append_nil] at hframe
  exact h response hframe

/-- An answer that asks for nothing keeps a session lively. -/
theorem Lively.call {said body : List Step} {seat seat' : Seat} {call : Call} {response : Response}
    (h : Lively said seat.conn) (hopened : said.any (isOpened seat.conn) = true)
    (hcalled : Called seat call body (.ok response) seat')
    (hresponse : outcomeRequiresReconnect response.outcome = false) :
    Lively (said ++ body) seat.conn := by
  obtain ⟨-, hframes, -⟩ := hcalled.ok_says
  intro response' hframe
  rw [sinceOpened_append body hopened, framesOn_append, hframes, List.mem_append] at hframe
  rcases hframe with hbefore | hnow
  · exact h response' hbefore
  · have heq := List.mem_singleton.mp hnow
    simp only [Except.ok.injEq, ReadFrame.message.injEq, ServerMessage.response.injEq] at heq
    rw [heq]
    exact hresponse

/-- A new session was not answered yet. -/
theorem Lively.made {said opened : List Step} {conn : Conn}
    (h : (said ++ opened).any (isOpened conn) = false) :
    Lively (said ++ (opened ++ [.mark (.session conn)])) conn := by
  intro response hframe
  rw [← List.append_assoc, sinceOpened_opened [] h] at hframe
  exact absurd hframe (by simp [framesOn])

/-- The sessions of all places are lively. -/
def AllLively (said : List Step) (kept : Place → Option ProviderSession) : Prop :=
  ∀ p session, kept p = some session → Lively said session.seat.conn

theorem AllLively.made {s s₁ : Server} {said opened : List Step} {seat : Seat}
    {kept : Place → Option ProviderSession} (h : AllLively said kept)
    (hseats : Seats said kept s.inheritedSeat s.streams) (hconnected : Connected s opened seat s₁)
    (p : Place) :
    AllLively (said ++ (opened ++ [.mark (.session seat.conn)]))
      fun q => if q = p then some ⟨seat, []⟩ else kept q := by
  obtain ⟨huntouched, hunopened⟩ := hseats.unopened hconnected
  intro q session hq
  dsimp only at hq
  by_cases hqp : q = p
  · rw [if_pos hqp] at hq
    obtain rfl := Option.some.inj hq
    exact Lively.made hunopened
  · rw [if_neg hqp] at hq
    have hne : session.seat.conn ≠ seat.conn := fun heq =>
      (hseats.unbroken hq).touched (heq ▸ huntouched)
    exact (h q session hq).append (hseats.unbroken hq).opened
      ((hconnected.elsewhere hne).append (elsewhere_mark _ _))

theorem AllLively.worked {said body : List Step} {kept kept' : Place → Option ProviderSession}
    {spare : Option Seat} {streams : Nat} (h : AllLively said kept)
    (hseats : Seats said kept spare streams) {p : Place} {session session' : ProviderSession}
    (hp : kept p = some session) {task : Task} {answer : Option (Except SeatError Response)}
    (hworked : Worked session task body answer session')
    (hp' : kept' p = none ∨ kept' p = some session' ∧ Kept answer)
    (hanswer : kept' p ≠ none → ∀ response, answer = some (.ok response) →
      outcomeRequiresReconnect response.outcome = false)
    (hkept : ∀ q, q ≠ p → kept' q = kept q) : AllLively (said ++ body) kept' := by
  intro q session₀ hq
  by_cases hqp : q = p
  · subst hqp
    have hne : kept' q ≠ none := by rw [hq]; simp
    obtain ⟨hsome, hkeeps⟩ := hp'.resolve_left hne
    obtain rfl := Option.some.inj (hq.symm.trans hsome)
    have hcalled {call : Call} {given : Except SeatError Response} {seat : Seat}
        (hcall : Called session.seat call body given seat)
        (hgiven : answer = some given) : Lively (said ++ body) session.seat.conn := by
      cases given with
      | error error => exact absurd hgiven (hkeeps error)
      | ok response =>
        exact (h q session hp).call (hseats.unbroken hp).opened hcall (hanswer hne response hgiven)
    cases hworked with
    | call hcall =>
      have hlively := hcalled hcall rfl
      rwa [← hcall.conn_eq] at hlively
    | replayed hread hslot hcall =>
      have hlively := hcalled hcall rfl
      rwa [← hcall.conn_eq] at hlively
    | idle name arguments | saved hread =>
      rw [List.append_nil]
      exact h q session hp
  · rw [hkept q hqp] at hq
    have hne : session₀.seat.conn ≠ session.seat.conn := fun heq => hqp (hseats.apart hq hp heq)
    exact (h q session₀ hq).append (hseats.unbroken hq).opened (hworked.elsewhere hne)

/-- A turn keeps the sessions lively, unless it opens a context with a demand for a new session. -/
theorem Uniform.lively {s s' : Server} {duty : Duty} {said more : List Step} (h : Uniform s duty more s')
    (hseats : Seats said s.sessionAt s.inheritedSeat s.streams) (hlively : AllLively said s.sessionAt)
    (hstatus : duty = .status → s.modernContexts.next < u64Max → ∀ outcome,
      outcomeIn more = some outcome → outcomeRequiresReconnect outcome = false) :
    AllLively (said ++ more) s'.sessionAt := by
  have hafter := h.seats hseats
  cases h with
  | still hsaid hframes hat hspare hstreams =>
    intro q session hq
    have hold : s.sessionAt q = some session := by
      rcases hat q with heq | heq
      · exact heq.symm.trans hq
      · exact absurd (heq.symm.trans hq) (by simp)
    exact (hlively q session hold).append (hseats.unbroken hold).opened (hframes _ (hseats.below hold))
  | worked hassigned hobtained hworked hp hends hroom hat hspare hstreams line =>
    rename_i p task opened body session session' s₁ answer
    have hanswer : s'.sessionAt p ≠ none → ∀ response, answer = some (.ok response) →
        outcomeRequiresReconnect response.outcome = false := by
      rintro hkept response rfl
      by_cases hduty : duty = .status
      · refine hstatus hduty (hroom hduty hkept) response.outcome ?_
        cases hworked with
        | call hcall => exact hcall.outcomeIn_eq hobtained.apart line
        | replayed hread hslot hcall => exact hcall.outcomeIn_eq hobtained.apart line
      · by_contra hreconnect
        exact hkept (hends hduty ((Bool.not_eq_false _).mp hreconnect))
    have hbody : AllLively (said ++ opened ++ body) s'.sessionAt := by
      cases hobtained with
      | live hlive =>
        rw [List.append_nil]
        exact hlively.worked hseats hlive hworked hp hanswer hat
      | made hnone hconnected =>
        refine (hlively.made hseats hconnected p).worked (hseats.made hconnected p) (if_pos rfl) hworked
          hp hanswer fun q hq => ?_
        rw [if_neg hq]
        exact hat q hq
    intro q session₀ hq
    have hopened := (hafter.unbroken hq).opened
    rw [← List.append_assoc, ← List.append_assoc, List.any_append, (still_line line).2, Bool.or_false]
      at hopened
    rw [← List.append_assoc, ← List.append_assoc]
    exact (hbody q session₀ hq).append hopened (elsewhere_mark _ _)

section Runs

variable {reason : String → Json → String}

/-- The status that opened a context asked for a new session. -/
def OpensDead (reason : String → Json → String) (t : Turn) : Prop :=
  dutyOf reason t.request = .status ∧ t.before.modernContexts.next < u64Max ∧
    ∃ outcome, outcomeIn t.said = some outcome ∧ outcomeRequiresReconnect outcome = true

theorem Reached.lively {past : List Turn} {s : Server} (h : Reached reason past s)
    (hlive : ∀ t ∈ past, ¬ OpensDead reason t) : AllLively (history past) s.sessionAt := by
  induction h with
  | start h =>
    intro q session hq
    cases h <;> cases q <;> exact absurd hq (by simp [Server.new, Contexts.new, Contexts.get,
      Server.sessionAt])
  | turn h hturned ih =>
    rename_i past s s' request said
    rw [history_snoc]
    refine (hturned.uniform h.table).lively h.seats (ih fun t ht => hlive t (List.mem_append_left _ ht))
      fun hduty hroom outcome houtcome => ?_
    by_contra hreconnect
    exact hlive _ (List.mem_append_right _ (List.mem_singleton_self _))
      ⟨hduty, hroom, outcome, houtcome, (Bool.not_eq_false _).mp hreconnect⟩

/-- A context that was opened so is dead at once. -/
theorem Turned.opens_dead {s s' : Server} {request : RpcRequest} {said : List Step}
    (hturned : Turned reason s request said s') {past : List Turn} (hreached : Reached reason past s)
    (h : OpensDead reason ⟨request, s, said, s'⟩) :
    ¬ NoDeadContext (history past ++ said) s' := by
  obtain ⟨hstatus, hroom, outcome, houtcome, hreconnect⟩ := h
  have hnothing (line : Json) (h : outcomeIn [.mark (.wrote line)] = some outcome) : False :=
    absurd ((outcomeIn_none (still_line line).1).symm.trans h) (by simp)
  cases hturned with
  | silent hn hs => exact absurd hstatus (by rw [dutyOf, hn]; simp)
  | spoke hn hid hduty hline hs => exact (hnothing _ houtcome).elim
  | unknown hn hid hduty hline hnone => exact absurd (hduty.symm.trans hstatus) (by simp)
  | released hn hid hduty hline hlive => exact absurd (hduty.symm.trans hstatus) (by simp)
  | legacy hn hid hduty hwork => exact absurd (hduty.symm.trans hstatus) (by simp)
  | modern hn hid hduty hwork => exact absurd (hduty.symm.trans hstatus) (by simp)
  | status hn hid hduty hwork =>
    cases hwork with
    | refused failure => exact (hnothing _ houtcome).elim
    | unconnected hunconnected failure =>
      dsimp only at houtcome
      rw [outcomeIn_none ((Opens.still hunconnected.opens).append (still_line _)).1] at houtcome
      exact absurd houtcome (by simp)
    | failed hconnected hcalled hfailed failure =>
      dsimp only at houtcome hroom
      rw [hcalled.outcomeIn_eq hconnected.apart] at houtcome
      rcases hfailed with ⟨error, rfl⟩ | hnext
      · exact absurd houtcome (by simp [Except.toOption])
      · exact absurd hnext (by simp [checkedSucc, hroom])
    | created hfull hconnected hcalled hnext =>
      rename_i id opened body seat seat' s₁ response next
      dsimp only at houtcome
      rw [hcalled.outcomeIn_eq hconnected.apart] at houtcome
      obtain ⟨-, hframes, -⟩ := hcalled.ok_says
      intro hnone
      have hget : (Assoc.insert s.modernContexts.next (⟨seat', []⟩ : ProviderSession)
          s.modernContexts.entries).lookup s.modernContexts.next = some ⟨seat', []⟩ := by
        rw [Assoc.lookup_insert, if_pos rfl]
      have hlively := (hnone s.modernContexts.next ⟨seat', []⟩ hget).2 response
      obtain ⟨-, hunopened⟩ := hreached.seats.unopened hconnected
      have hsince (line : Json) : sinceOpened seat.conn (history past ++ (opened ++
          [.mark (.session seat.conn)] ++ body ++ [.mark (.wrote line)])) =
          body ++ [.mark (.wrote line)] := by
        rw [List.append_assoc opened, List.append_assoc opened, ← List.append_assoc (history past)]
        exact sinceOpened_opened _ hunopened
      rw [hcalled.conn_eq, hsince, framesOn_append, hframes] at hlively
      have houtcome' : response.outcome = outcome := by simpa [Except.toOption] using houtcome
      exact absurd (hlively (List.mem_append_left _ (List.mem_singleton_self _)))
        (by rw [houtcome', hreconnect]; decide)

variable (env : Outside) (reason)

/-- After every turn all contexts are alive, if and only if no opening status asked for a new session. -/
theorem no_dead_context (socket : Option String) (inherited : Bool) (requests : List RpcRequest) :
    (∀ past t rest, turns env reason ⟨startServer socket inherited, []⟩ requests = past ++ t :: rest →
        NoDeadContext (history (past ++ [t])) t.after) ↔
      ∀ t ∈ turns env reason ⟨startServer socket inherited, []⟩ requests, ¬ OpensDead reason t := by
  obtain ⟨final, hrun⟩ := reached_run env reason socket inherited requests
  generalize turns env reason ⟨startServer socket inherited, []⟩ requests = run at hrun
  constructor
  · intro hlive t ht hdead
    obtain ⟨past, rest, rfl⟩ := List.append_of_mem ht
    obtain ⟨hreached, hturned⟩ := hrun.split
    have hnone := hlive past t rest rfl
    rw [history_snoc] at hnone
    exact hturned.opens_dead hreached hdead hnone
  · rintro hlive past t rest rfl context session hsession
    obtain ⟨hreached, hturned⟩ := hrun.split
    have hnow : Reached reason (past ++ [t]) t.after := .turn hreached hturned
    refine ⟨hnow.seats.unbroken (p := .context context) hsession,
      hnow.lively (fun u hu => hlive u ?_) (.context context) session hsession⟩
    rcases List.mem_append.mp hu with hpast | hlast
    · exact List.mem_append_left _ hpast
    · rw [List.mem_singleton.mp hlast]
      exact List.mem_append_right _ List.mem_cons_self

/-- A provider that answers the first request of a session with the demand for a new one. -/
def revokedProvider : Outside := answerFirst (.error ⟨.revoked, .reconnect, none, none, none, none⟩)

/-- On an inherited stream, a status that is answered so leaves a dead context. -/
theorem dead_context_stays :
    ¬ ∀ past t rest, turns revokedProvider (fun _ _ => "") ⟨startServer none true, []⟩
        [modernCall "seat_status" []] = past ++ t :: rest →
      NoDeadContext (history (past ++ [t])) t.after := by
  intro hlive
  let w : World := ⟨startServer none true, []⟩
  have hturned := turnOf_turned revokedProvider (fun _ _ => "") w (modernCall "seat_status" [])
  have hdead : OpensDead (fun _ _ => "")
      (turnOf revokedProvider (fun _ _ => "") w (modernCall "seat_status" [])) :=
    ⟨rfl, by decide, _, rfl, rfl⟩
  exact hturned.opens_dead (.start (start_server none true)) hdead (hlive [] _ [] rfl)

end Runs

end AgentSeat.Companion
