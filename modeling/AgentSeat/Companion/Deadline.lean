/-
  The deadline of a response and the waits of the provider.

  The provider waits on purpose in four places: a poll for events, the observation of a management
  request, the transfer of a text and the correlation of a launch. Here it spends no other time, so its
  clock moves by its own sleeps, in milliseconds. `companion_outwaits` compares these waits with the
  deadline the companion reads a response under: it is long enough for every call but a poll that may
  wait for ten seconds.
-/
import AgentSeat.Companion.Runs

namespace AgentSeat.Companion

open AgentSeat.Lib AgentSeat.Proto

/-! ## The waits of the provider -/

def sampleIntervalMs : Nat := 25
def managementTimeoutMs : Nat := 1000
def launchWaitMs : Nat := 1000
def transferWaitMs : Nat := 2000
def transferSettleWaitMs : Nat := 250
def evidenceIntervalMs : Nat := 50

/-- The loop of `poll` and of `correlate_launch`: sample, and sleep until the next sample or the
    deadline. `found` are the times at which a sample ends it. -/
def waitUntil (found : Nat → Bool) (deadline now : Nat) : Nat :=
  if found now || deadline ≤ now then now
  else waitUntil found deadline (now + min sampleIntervalMs (deadline - now))
termination_by deadline - now
decreasing_by
  simp only [Bool.or_eq_true, decide_eq_true_eq, not_or, Nat.not_le] at *
  simp only [sampleIntervalMs]
  omega

/-- The loop of `observe_terminal`, which sleeps a whole interval. -/
def waitWhole (found : Nat → Bool) (deadline now : Nat) : Nat :=
  if found now || deadline ≤ now then now
  else waitWhole found deadline (now + sampleIntervalMs)
termination_by deadline - now
decreasing_by
  simp only [Bool.or_eq_true, decide_eq_true_eq, not_or, Nat.not_le] at *
  simp only [sampleIntervalMs]
  omega

/-- A round of a text transfer: its events end it or deliver the text, and the sleep after it may end
    early. -/
structure Round where
  interrupted : Bool
  delivered : Bool
  early : Nat

/-- The rounds of `wait_for_transfer`: when it ends, or how late it is after them. -/
def transferWait (deadline : Nat) : List Round → Nat → Option Nat → Nat
  | [], now, _ => now
  | round :: rest, now, lastDelivery =>
    let lastDelivery := if round.delivered then some now else lastDelivery
    if round.interrupted || lastDelivery.any (fun delivery => transferSettleWaitMs ≤ now - delivery) ||
        deadline ≤ now then now
    else
      let settling := (lastDelivery.map fun delivery =>
        transferSettleWaitMs - (now - delivery)).getD evidenceIntervalMs
      let wait := min (min (deadline - now) evidenceIntervalMs) settling
      transferWait deadline rest (now + (wait - round.early)) lastDelivery

/-- What the provider sees while it waits. -/
structure Sight where
  found : Nat → Bool
  rounds : List Round

/-- How long a call waits, on purpose. -/
def providerWaitMs (sight : Sight) : Call → Nat
  | .eventsPoll arguments => waitUntil sight.found arguments.waitMs 0
  | .clientActivate _ | .clientClose _ | .workspaceSwitch _ | .clientWorkspace _ | .clientState _
  | .clientGeometry _ => waitWhole sight.found managementTimeoutMs 0
  | .textInsert _ => transferWait transferWaitMs sight.rounds 0 none
  | .applicationLaunch _ => waitUntil sight.found launchWaitMs 0
  | _ => 0

/-- The longest wait of a call; a poll may take one interval more than it was asked to wait. -/
def longestWaitMs : Call → Nat
  | .eventsPoll arguments => arguments.waitMs + sampleIntervalMs
  | .clientActivate _ | .clientClose _ | .workspaceSwitch _ | .clientWorkspace _ | .clientState _
  | .clientGeometry _ => managementTimeoutMs
  | .textInsert _ => transferWaitMs
  | .applicationLaunch _ => launchWaitMs
  | _ => 0

theorem waitUntil_le (found : Nat → Bool) (deadline now : Nat) (h : now ≤ deadline) :
    waitUntil found deadline now ≤ deadline := by
  induction now using waitUntil.induct found deadline with
  | case1 now hends =>
    rw [waitUntil, if_pos hends]
    exact h
  | case2 now hgoes ih =>
    rw [waitUntil, if_neg hgoes]
    exact ih (by omega)

/-- When nothing is found, the whole time passes. -/
theorem waitUntil_quiet (deadline now : Nat) (h : now ≤ deadline) :
    waitUntil (fun _ => false) deadline now = deadline := by
  induction now using waitUntil.induct (fun _ => false) deadline with
  | case1 now hends =>
    rw [waitUntil, if_pos hends]
    have hlate : deadline ≤ now := by simpa using hends
    omega
  | case2 now hgoes ih =>
    rw [waitUntil, if_neg hgoes]
    exact ih (by omega)

theorem waitWhole_le (found : Nat → Bool) (deadline now : Nat) (h : now ≤ deadline)
    (hwhole : sampleIntervalMs ∣ deadline - now) : waitWhole found deadline now ≤ deadline := by
  induction now using waitWhole.induct found deadline with
  | case1 now hends =>
    rw [waitWhole, if_pos hends]
    exact h
  | case2 now hgoes ih =>
    rw [waitWhole, if_neg hgoes]
    simp only [Bool.or_eq_true, decide_eq_true_eq, not_or, Nat.not_le] at hgoes
    simp only [sampleIntervalMs] at hwhole ih ⊢
    refine ih ?_ ?_ <;> omega

theorem transferWait_le (deadline : Nat) (rounds : List Round) (now : Nat) (lastDelivery : Option Nat)
    (h : now ≤ deadline) : transferWait deadline rounds now lastDelivery ≤ deadline := by
  induction rounds generalizing now lastDelivery with
  | nil => exact h
  | cons round rest ih =>
    unfold transferWait
    dsimp only
    generalize (if round.delivered then some now else lastDelivery) = latest
    split
    · exact h
    · refine ih _ _ ?_
      omega

theorem providerWait_le (sight : Sight) (call : Call) : providerWaitMs sight call ≤ longestWaitMs call := by
  have huntil (deadline : Nat) := waitUntil_le sight.found deadline 0 (Nat.zero_le _)
  have hwhole := waitWhole_le sight.found managementTimeoutMs 0 (Nat.zero_le _) (by decide)
  have htransfer := transferWait_le transferWaitMs sight.rounds 0 none (Nat.zero_le _)
  cases call with
  | eventsPoll arguments => exact Nat.le_trans (huntil _) (Nat.le_add_right _ _)
  | clientActivate _ | clientClose _ | workspaceSwitch _ | clientWorkspace _ | clientState _
  | clientGeometry _ => exact hwhole
  | textInsert _ => exact htransfer
  | applicationLaunch _ => exact huntil _
  | _ => exact Nat.le_refl _

/-! ## The deadline of a response -/

/-- The deadline under which `Seat::call` reads the response to a call. -/
def readDeadlineMs (call : Call) : Nat := if isLongInput call then longInputTimeoutMs else ioTimeoutMs

/-- A poll that may take the ten seconds of the deadline. -/
def LongPoll (call : Call) : Prop := ∃ arguments, call = .eventsPoll arguments ∧ 9975 ≤ arguments.waitMs

theorem longestWait_lt_iff (call : Call) :
    longestWaitMs call < readDeadlineMs call ↔ ¬ LongPoll call := by
  cases call with
  | eventsPoll arguments =>
    have hlong : LongPoll (.eventsPoll arguments) ↔ 9975 ≤ arguments.waitMs := by
      simp [LongPoll]
    rw [hlong]
    show arguments.waitMs + 25 < 10000 ↔ _
    omega
  | _ => simp [LongPoll, longestWaitMs, readDeadlineMs, isLongInput, managementTimeoutMs, transferWaitMs,
      launchWaitMs, ioTimeoutMs, longInputTimeoutMs]

def timeoutAfter (conn : Conn) (ms : Nat) : Step → Nat
  | .said (.setReadTimeout conn' ms') (.ok _) => if conn' = conn then ms' else ms
  | _ => ms

/-- The deadline a read from the stream is under: the last one that was set. An inherited stream was
    opened with the deadline of a new one. -/
def timeoutOn (conn : Conn) (said : List Step) : Nat := said.foldl (timeoutAfter conn) ioTimeoutMs

theorem timeoutOn_elsewhere {conn : Conn} {more : List Step} (said : List Step)
    (h : Elsewhere conn more) : timeoutOn conn (said ++ more) = timeoutOn conn said := by
  have hmore (ms : Nat) : more.foldl (timeoutAfter conn) ms = ms := by
    induction more generalizing ms with
    | nil => rfl
    | cons e rest ih =>
      have he : timeoutAfter conn ms e = ms := by
        match e, (h e List.mem_cons_self).2 with
        | .said (.setReadTimeout _ _) (.ok _), hset => exact if_neg (of_decide_eq_false hset)
        | .said (.setReadTimeout _ _) (.error _), _ | .said (.resolve _) _, _ | .said (.connect _) _, _
        | .said (.setWriteTimeout _ _) _, _ | .said (.writeFrame _ _) _, _ | .said (.readFrame _) _, _
        | .mark _, _ => rfl
      rw [List.foldl_cons, he]
      exact ih (fun e he => h e (List.mem_cons_of_mem _ he)) ms
  rw [timeoutOn, List.foldl_append, hmore]
  rfl

/-- Every request was written while the stream had the deadline of its call. -/
def Timed (said : List Step) : Prop :=
  ∀ before conn request written after, said = before ++ asks conn request written :: after →
    timeoutOn conn before = readDeadlineMs request.call

theorem Timed.append {said more : List Step} (h : Timed said)
    (hmore : ∀ before conn request written after, more = before ++ asks conn request written :: after →
      timeoutOn conn (said ++ before) = readDeadlineMs request.call) : Timed (said ++ more) := by
  intro before conn request written after heq
  rcases List.append_eq_append_iff.mp heq with ⟨between, rfl, hmid⟩ | ⟨between, rfl, hmid⟩
  · exact hmore between conn request written after hmid
  · cases between with
    | nil =>
      have hfirst := hmore [] conn request written after hmid.symm
      rwa [List.append_nil, List.append_nil] at hfirst
    | cons e rest =>
      obtain ⟨rfl, -⟩ := List.cons.inj hmid
      exact h before conn request written rest rfl

/-- Where nothing is asked there is nothing to show. -/
theorem Timed.quiet {said more : List Step} (h : Timed said) (hmore : sent more = []) :
    Timed (said ++ more) := by
  refine h.append fun before conn request written after heq => ?_
  rw [heq, sent_append] at hmore
  exact absurd hmore (by simp [sent, asks, sentBy])

theorem timeoutOn_deadline {conn : Conn} {said : List Step} (call : Call)
    (h : timeoutOn conn said = ioTimeoutMs) :
    timeoutOn conn (said ++ deadline conn call longInputTimeoutMs) = readDeadlineMs call := by
  unfold deadline readDeadlineMs
  by_cases hlong : isLongInput call = true
  · rw [if_pos hlong, if_pos hlong, timeoutOn, List.foldl_append]
    exact if_pos rfl
  · rw [if_neg hlong, if_neg hlong, List.append_nil]
    exact h

theorem timeoutOn_restored {conn : Conn} {said body : List Step} (call : Call)
    (h : timeoutOn conn (said ++ body) = readDeadlineMs call) :
    timeoutOn conn (said ++ (body ++ deadline conn call ioTimeoutMs)) = ioTimeoutMs := by
  rw [← List.append_assoc]
  unfold deadline
  unfold readDeadlineMs at h
  by_cases hlong : isLongInput call = true
  · rw [if_pos hlong, timeoutOn, List.foldl_append]
    exact if_pos rfl
  · rw [if_neg hlong, List.append_nil, h, if_neg hlong]

theorem exchange_timeout (conn : Conn) (said : List Step) (request : Request)
    (written : Except CodecError Unit) (frame : Except CodecError (ReadFrame ServerMessage)) :
    timeoutOn conn (said ++ [asks conn request written, reads conn frame]) = timeoutOn conn said := by
  rw [timeoutOn, List.foldl_append]
  rfl

/-- One request, under the deadline that was set for it. -/
theorem Timed.asks {said rest : List Step} {conn : Conn} (h : Timed said)
    (hio : timeoutOn conn said = ioTimeoutMs) (request : Request) (written : Except CodecError Unit)
    (hrest : sent rest = []) :
    Timed (said ++ (deadline conn request.call longInputTimeoutMs ++ asks conn request written :: rest)) := by
  rw [← List.append_assoc]
  refine (h.quiet (deadline_sent _ _ _)).append fun before conn' request' written' after heq => ?_
  cases before with
  | nil =>
    have hsent := congrArg sentBy (List.cons.inj heq).1
    simp only [Companion.asks, sentBy, Option.some.injEq, Prod.mk.injEq] at hsent
    obtain ⟨rfl, rfl⟩ := hsent
    rw [List.append_nil]
    exact timeoutOn_deadline request.call hio
  | cons e before =>
    have hcons : rest = before ++ Companion.asks conn' request' written' :: after := (List.cons.inj heq).2
    rw [hcons, sent_append] at hrest
    exact absurd hrest (by simp [sent, Companion.asks, sentBy])

theorem Called.timed {seat seat' : Seat} {call : Call} {said body : List Step}
    {answer : Except SeatError Response} (h : Called seat call body answer seat') (htimed : Timed said)
    (hio : timeoutOn seat.conn said = ioTimeoutMs) : Timed (said ++ body) := by
  have hasks {rest : List Step} (written : Except CodecError Unit) (hrest : sent rest = []) :=
    htimed.asks hio ⟨seat.nextRequest, call⟩ written hrest
  cases h with
  | unsent h error => exact htimed.quiet (Setting.still h).1
  | unwritten hnext failure => exact hasks _ rfl
  | unread hnext failure => exact hasks _ rfl
  | unrestored hnext frame failure error => exact hasks _ rfl
  | answered hnext frame =>
    rw [List.append_assoc]
    refine hasks _ ?_
    show sent ([reads seat.conn (.ok frame)] ++ deadline seat.conn call ioTimeoutMs) = []
    rw [sent_append, deadline_sent]
    rfl

/-- A call that was answered leaves the deadline as it was. -/
theorem Called.restored {seat seat' : Seat} {call : Call} {said body : List Step} {response : Response}
    (h : Called seat call body (.ok response) seat') (hio : timeoutOn seat.conn said = ioTimeoutMs) :
    timeoutOn seat.conn (said ++ body) = ioTimeoutMs := by
  generalize hok : (Except.ok response : Except SeatError Response) = answer at h
  cases h with
  | answered hnext frame =>
    refine timeoutOn_restored call ?_
    rw [← List.append_assoc, exchange_timeout]
    exact timeoutOn_deadline call hio
  | unsent h error | unwritten hnext failure | unread hnext failure
  | unrestored hnext frame failure error => exact absurd hok (by simp)

/-! ## The deadlines of a run -/

/-- Between calls every stream has the short deadline. -/
structure Deadlines (said : List Step) (kept : Place → Option ProviderSession) (spare : Option Seat) :
    Prop where
  kept : ∀ p session, kept p = some session → timeoutOn session.seat.conn said = ioTimeoutMs
  spare : ∀ seat, spare = some seat → timeoutOn seat.conn said = ioTimeoutMs
  timed : Timed said

theorem Deadlines.made {s s₁ : Server} {said opened : List Step} {seat : Seat}
    {kept : Place → Option ProviderSession} (h : Deadlines said kept s.inheritedSeat)
    (hseats : Seats said kept s.inheritedSeat s.streams) (hconnected : Connected s opened seat s₁)
    (p : Place) :
    Deadlines (said ++ (opened ++ [.mark (.session seat.conn)]))
      (fun q => if q = p then some ⟨seat, []⟩ else kept q) s₁.inheritedSeat := by
  obtain ⟨huntouched, -⟩ := hseats.unopened hconnected
  have hmark (conn : Conn) (said : List Step) :
      timeoutOn conn (said ++ [.mark (.session seat.conn)]) = timeoutOn conn said :=
    timeoutOn_elsewhere said (elsewhere_mark _ _)
  have hnew : timeoutOn seat.conn (said ++ opened) = ioTimeoutMs := by
    cases hconnected with
    | inherited hseat =>
      rw [List.append_nil]
      exact h.spare _ hseat
    | opened hnone path welcome =>
      rw [timeoutOn, List.foldl_append]
      exact if_pos rfl
  refine ⟨fun q session hq => ?_, fun seat' hseat' => ?_, ?_⟩
  · rw [← List.append_assoc, hmark]
    by_cases hqp : q = p
    · rw [if_pos hqp] at hq
      obtain rfl := Option.some.inj hq
      exact hnew
    · rw [if_neg hqp] at hq
      have hne : session.seat.conn ≠ seat.conn := fun heq =>
        (hseats.unbroken hq).touched (heq ▸ huntouched)
      rw [timeoutOn_elsewhere said (hconnected.elsewhere hne)]
      exact h.kept q session hq
  · cases hconnected with
    | inherited hseat => exact absurd hseat' (by simp)
    | opened hnone path welcome => exact absurd (hnone.symm.trans hseat') (by simp)
  · refine h.timed.quiet ?_
    cases hconnected <;> rfl

theorem Deadlines.worked {said body : List Step} {kept kept' : Place → Option ProviderSession}
    {spare : Option Seat} {streams : Nat} (h : Deadlines said kept spare)
    (hseats : Seats said kept spare streams) {p : Place} {session session' : ProviderSession}
    (hp : kept p = some session) {task : Task} {answer : Option (Except SeatError Response)}
    (hworked : Worked session task body answer session')
    (hp' : kept' p = none ∨ kept' p = some session' ∧ Kept answer)
    (hkept : ∀ q, q ≠ p → kept' q = kept q) : Deadlines (said ++ body) kept' spare := by
  have hio := h.kept p session hp
  have hother {conn : Conn} (hconn : conn ≠ session.seat.conn) :
      timeoutOn conn (said ++ body) = timeoutOn conn said :=
    timeoutOn_elsewhere said (hworked.elsewhere hconn)
  have hcalled {call : Call} {given : Except SeatError Response} {seat : Seat}
      (hcall : Called session.seat call body given seat) (hgiven : answer = some given)
      (hkeeps : Kept answer) : timeoutOn seat.conn (said ++ body) = ioTimeoutMs := by
    cases given with
    | error error => exact absurd hgiven (hkeeps error)
    | ok response =>
      rw [hcall.conn_eq]
      exact hcall.restored hio
  refine ⟨fun q session₀ hq => ?_, fun seat hseat => ?_, ?_⟩
  · by_cases hqp : q = p
    · subst hqp
      have hne : kept' q ≠ none := by rw [hq]; simp
      obtain ⟨hsome, hkeeps⟩ := hp'.resolve_left hne
      obtain rfl := Option.some.inj (hq.symm.trans hsome)
      cases hworked with
      | call hcall => exact hcalled hcall rfl hkeeps
      | replayed hread hslot hcall => exact hcalled hcall rfl hkeeps
      | idle name arguments | saved hread =>
        rw [List.append_nil]
        exact hio
    · rw [hkept q hqp] at hq
      rw [hother fun heq => hqp (hseats.apart hq hp heq)]
      exact h.kept q session₀ hq
  · obtain ⟨-, -, huntouched⟩ := hseats.spare hseat
    rw [hother fun heq => (hseats.unbroken hp).touched (heq ▸ huntouched)]
    exact h.spare seat hseat
  · cases hworked with
    | call hcall => exact hcall.timed h.timed hio
    | replayed hread hslot hcall => exact hcall.timed h.timed hio
    | idle name arguments | saved hread =>
      rw [List.append_nil]
      exact h.timed

theorem Uniform.deadlines {s s' : Server} {duty : Duty} {said more : List Step}
    (h : Uniform s duty more s') (hseats : Seats said s.sessionAt s.inheritedSeat s.streams)
    (hdeadlines : Deadlines said s.sessionAt s.inheritedSeat) :
    Deadlines (said ++ more) s'.sessionAt s'.inheritedSeat := by
  cases h with
  | still hsaid hframes hat hspare hstreams =>
    refine ⟨fun q session hq => ?_, fun seat hseat => ?_, hdeadlines.timed.quiet hsaid.1⟩
    · have hold : s.sessionAt q = some session := by
        rcases hat q with heq | heq
        · exact heq.symm.trans hq
        · exact absurd (heq.symm.trans hq) (by simp)
      rw [timeoutOn_elsewhere said (hframes _ (hseats.below hold))]
      exact hdeadlines.kept q session hold
    · rw [hspare] at hseat
      rw [timeoutOn_elsewhere said (hframes _ (hseats.spare hseat).2.1)]
      exact hdeadlines.spare seat hseat
  | worked hassigned hobtained hworked hp hends hroom hat hspare hstreams line =>
    rename_i p task opened body session session' s₁ answer
    have hbody : Deadlines (said ++ opened ++ body) s'.sessionAt s'.inheritedSeat := by
      rw [hspare]
      cases hobtained with
      | live hlive =>
        rw [List.append_nil]
        exact hdeadlines.worked hseats hlive hworked hp hat
      | made hnone hconnected =>
        refine (hdeadlines.made hseats hconnected p).worked (hseats.made hconnected p) (if_pos rfl)
          hworked hp fun q hq => ?_
        rw [if_neg hq]
        exact hat q hq
    have hline (conn : Conn) :
        timeoutOn conn (said ++ (opened ++ body ++ [.mark (.wrote line)])) =
          timeoutOn conn (said ++ opened ++ body) := by
      rw [← List.append_assoc, ← List.append_assoc]
      exact timeoutOn_elsewhere _ (elsewhere_mark _ _)
    refine ⟨fun q session₀ hq => ?_, fun seat hseat => ?_, ?_⟩
    · rw [hline]
      exact hbody.kept q session₀ hq
    · rw [hline]
      exact hbody.spare seat hseat
    · rw [← List.append_assoc, ← List.append_assoc]
      exact hbody.timed.quiet (still_line line).1

section Runs

variable {reason : String → Json → String}

theorem Reached.deadlines {past : List Turn} {s : Server} (h : Reached reason past s) :
    Deadlines (history past) s.sessionAt s.inheritedSeat := by
  induction h with
  | start h =>
    refine ⟨fun _ _ _ => rfl, fun _ _ => rfl, fun before conn request written after heq => ?_⟩
    exact absurd heq.symm (by simp [history])
  | turn h hturned ih =>
    rw [history_snoc]
    exact (hturned.uniform h.table).deadlines h.seats ih

/-- A request for a poll that may take the ten seconds of the deadline. -/
def AsksLongPoll (reason : String → Json → String) (request : RpcRequest) : Prop :=
  ∃ call, LongPoll call ∧ (dutyOf reason request = .legacy (.call call) ∨
    ∃ context, dutyOf reason request = .modern context (.call call))

/-- Only a request for a long poll makes the companion send one. -/
theorem Uniform.asks_long {s s' : Server} {request : RpcRequest} {said : List Step}
    (h : Uniform s (dutyOf reason request) said s') {on : Conn × Request} (hon : on ∈ sent said)
    (hlong : LongPoll on.2.call) : AsksLongPoll reason request := by
  cases h with
  | still hsaid hframes hat hspare hstreams =>
    rw [hsaid.1] at hon
    exact absurd hon (by simp)
  | worked hassigned hobtained hworked hp hends hroom hat hspare hstreams line =>
    rename_i p task opened body session session' s₁ answer
    rw [sent_append, sent_append, hobtained.apart.1, (still_line line).1, List.append_nil,
      List.nil_append] at hon
    have hcalled {call : Call} {given : Except SeatError Response} {seat : Seat}
        (hcall : Called session.seat call body given seat) : LongPoll call := by
      rcases hcall.sent_eq with hsent | hsent
      · rw [hsent] at hon
        exact absurd hon (by simp)
      · rw [hsent] at hon
        rw [List.mem_singleton.mp hon] at hlong
        exact hlong
    cases hworked with
    | call hcall =>
      generalize hduty : dutyOf reason request = duty at hassigned
      cases hassigned with
      | legacy task => exact ⟨_, hcalled hcall, .inl hduty⟩
      | modern context task => exact ⟨_, hcalled hcall, .inr ⟨context, hduty⟩⟩
      | status =>
        obtain ⟨arguments, heq, -⟩ := hcalled hcall
        exact absurd heq (by simp)
    | replayed hread hslot hcall =>
      obtain ⟨arguments, heq, -⟩ := hcalled hcall
      exact absurd heq (by simp)
    | idle name arguments | saved hread => exact absurd hon (by simp [sent])

theorem Reached.asks_long {past : List Turn} {s : Server} (h : Reached reason past s)
    {on : Conn × Request} (hon : on ∈ sent (history past)) (hlong : LongPoll on.2.call) :
    ∃ t ∈ past, AsksLongPoll reason t.request := by
  induction h with
  | start h => exact absurd hon (by simp [history, sent])
  | turn h hturned ih =>
    rw [history_snoc, sent_append] at hon
    rcases List.mem_append.mp hon with hpast | hnow
    · obtain ⟨t, ht, hasks⟩ := ih hpast
      exact ⟨t, List.mem_append_left _ ht, hasks⟩
    · exact ⟨_, List.mem_append_right _ (List.mem_singleton_self _),
        (hturned.uniform h.table).asks_long hnow hlong⟩

/-- A read that ended because its deadline passed. -/
def timedOut : Except CodecError (ReadFrame ServerMessage) :=
  .error (.io "Resource temporarily unavailable (os error 11)")

/-- A request was given up because its response did not come in time. -/
def GaveUp (said before : List Step) (conn : Conn) (request : Request) : Prop :=
  ∃ after, said = before ++ asks conn request (.ok ()) :: reads conn timedOut :: after

/-- The providers spend no time but their waits: a deadline passes only while a provider waits. -/
def OnlyWaits (said : List Step) : Prop :=
  ∀ before conn request, GaveUp said before conn request →
    ∃ sight, timeoutOn conn before ≤ providerWaitMs sight request.call

variable (env : Outside) (reason)

theorem turns_request (w : World) (requests : List RpcRequest) :
    (turns env reason w requests).map Turn.request = requests := by
  induction requests generalizing w with
  | nil => rfl
  | cons request rest ih =>
    rw [turns, List.map_cons, ih]
    rfl

/-- The deadline of a response is longer than every wait of the provider, but for long polls. Every
    request of a run is sent under the deadline of its call, and without requests for long polls no
    session is given up by timeout. -/
theorem companion_outwaits (socket : Option String) (inherited : Bool) (requests : List RpcRequest) :
    (∀ call, longestWaitMs call < readDeadlineMs call ↔ ¬ LongPoll call) ∧
      Timed (history (turns env reason ⟨startServer socket inherited, []⟩ requests)) ∧
      (OnlyWaits (history (turns env reason ⟨startServer socket inherited, []⟩ requests)) →
        (∀ request ∈ requests, ¬ AsksLongPoll reason request) → ∀ before conn request,
          ¬ GaveUp (history (turns env reason ⟨startServer socket inherited, []⟩ requests)) before conn
            request) := by
  obtain ⟨final, hrun⟩ := reached_run env reason socket inherited requests
  have hrequests := turns_request reason env ⟨startServer socket inherited, []⟩ requests
  generalize turns env reason ⟨startServer socket inherited, []⟩ requests = run at hrun hrequests
  have htimed := hrun.deadlines.timed
  refine ⟨longestWait_lt_iff, htimed, fun hwaits hshort before conn request hgave => ?_⟩
  obtain ⟨sight, hwait⟩ := hwaits before conn request hgave
  obtain ⟨after, hafter⟩ := hgave
  have hlong : ¬ LongPoll request.call := by
    intro hlong
    have hon : (conn, request) ∈ sent (history run) := by
      rw [hafter]
      simp [sent, asks, sentBy]
    obtain ⟨t, ht, hasks⟩ := hrun.asks_long hon hlong
    refine hshort t.request ?_ hasks
    rw [← hrequests]
    exact List.mem_map_of_mem ht
  -- the deadline is longer than the wait that passed it
  have hlt : readDeadlineMs request.call < readDeadlineMs request.call :=
    calc readDeadlineMs request.call
        = timeoutOn conn before := (htimed before conn request _ _ hafter).symm
      _ ≤ providerWaitMs sight request.call := hwait
      _ ≤ longestWaitMs request.call := providerWait_le sight request.call
      _ < readDeadlineMs request.call := (longestWait_lt_iff request.call).mpr hlong
  exact Nat.lt_irrefl _ hlt

def refusal : Outcome := .error ⟨.refused, .never, none, none, none, none⟩

/-- A desktop where nothing happens: the status is answered and a poll takes all its time. -/
def quietDesktop : Outside := fun said question =>
  match question with
  | .readFrame conn =>
    if (sent said).length ≤ 1 then answerFirst refusal said (.readFrame conn) else timedOut
  | question => answerFirst refusal said question

/-- The longest poll the published bounds allow. -/
def longestPoll : PollRequest := ⟨0, 1, maxPollWaitMs⟩

/-- A status, and the longest poll on its context. -/
def pollingHost : List RpcRequest :=
  [modernCall "seat_status" [], modernCall "events_poll"
    [("after", .num 0), ("context", .num 1), ("limit", .num 1), ("wait_ms", .num 30000)]]

theorem quiet_history : ∃ line line',
    history (turns quietDesktop (fun _ _ => "") ⟨startServer none true, []⟩ pollingHost) =
      [.mark (.session 0), asks 0 ⟨firstRequest, .seatStatus⟩ (.ok ()),
        reads 0 (.ok (.message (.response ⟨firstRequest, refusal⟩))), .mark (.wrote line),
        asks 0 ⟨⟨2, Nat.succ_ne_zero 1⟩, .eventsPoll longestPoll⟩ (.ok ()), reads 0 timedOut,
        .mark (.wrote line')] :=
  ⟨_, _, rfl⟩

/-- The longest poll is valid, and on a quiet desktop the companion gives its session up. -/
theorem longest_poll_gives_up :
    (Call.eventsPoll longestPoll).validate = .ok () ∧
      ¬ longestWaitMs (.eventsPoll longestPoll) < readDeadlineMs (.eventsPoll longestPoll) ∧
      OnlyWaits (history (turns quietDesktop (fun _ _ => "") ⟨startServer none true, []⟩ pollingHost)) ∧
      ∃ before request, GaveUp
        (history (turns quietDesktop (fun _ _ => "") ⟨startServer none true, []⟩ pollingHost)) before 0
        request := by
  obtain ⟨line, line', hsaid⟩ := quiet_history
  have htimed : Timed (history (turns quietDesktop (fun _ _ => "") ⟨startServer none true, []⟩
      pollingHost)) := by
    obtain ⟨final, hrun⟩ := reached_run quietDesktop (fun _ _ => "") none true pollingHost
    exact hrun.deadlines.timed
  rw [hsaid] at htimed ⊢
  refine ⟨rfl, by decide, fun before conn request ⟨after, heq⟩ => ?_, ?_⟩
  · have hcall : request.call = .eventsPoll longestPoll := by
      match before, heq with
      | [], heq | [_, _], heq | [_, _, _], heq | [_, _, _, _, _], heq
      | [_, _, _, _, _, _], heq => simp [asks, reads, timedOut] at heq
      | [_], heq =>
        have hread := (List.cons.inj (List.cons.inj (List.cons.inj heq).2).2).1
        cases hread
      | [_, _, _, _], heq =>
        simp only [asks, List.cons_append, List.nil_append, List.cons.injEq] at heq
        have hrequest := congrArg sentBy heq.2.2.2.2.1
        simp only [sentBy, Option.some.injEq, Prod.mk.injEq] at hrequest
        rw [← hrequest.2]
      | _ :: _ :: _ :: _ :: _ :: _ :: _ :: _, heq =>
        have hlength := congrArg List.length heq
        simp only [List.length_append, List.length_cons, List.length_nil] at hlength
        omega
    refine ⟨⟨fun _ => false, []⟩, ?_⟩
    rw [htimed before conn request _ _ heq, hcall]
    show ioTimeoutMs ≤ waitUntil (fun _ => false) maxPollWaitMs 0
    rw [waitUntil_quiet _ _ (Nat.zero_le _)]
    decide
  · exact ⟨[.mark (.session 0), asks 0 ⟨firstRequest, .seatStatus⟩ (.ok ()),
      reads 0 (.ok (.message (.response ⟨firstRequest, refusal⟩))), .mark (.wrote line)],
      ⟨⟨2, Nat.succ_ne_zero 1⟩, .eventsPoll longestPoll⟩, [.mark (.wrote line')], rfl⟩

end Runs

end AgentSeat.Companion
