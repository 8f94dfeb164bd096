/-
  What a session may still do once its permit is void.

  The steps of a session and those of the provider it invokes are put into one order (`timeline`),
  and the operator's threads move the gate between any two of them (`wordAt`). Every load of the
  timeline, of the session or of the provider, reads the word of its moment.

  Main result:
  * `revocation_bound`: from the moment the word has left the permit, the deeds of the session are
    those of one action, the one whose load had accepted the permit before; the next request is
    answered with `revoked` and ends the session.
-/
import AgentSeat.Provider.Pace
import AgentSeat.Session.Boundary

namespace AgentSeat.Session

open AgentSeat.Lib AgentSeat.Proto AgentSeat.Provider AgentSeat.Seat

/-! ## One order for both sides -/

/-- A step of the session, or of the provider it invoked. -/
abbrev Moment := Step ⊕ Provider.Step

/-- The provider's entries up to the end of the call it works on, and those after it. -/
def callSpan : List Provider.Step → List Provider.Step × List Provider.Step
  | [] => ([], [])
  | .mark (.answered outcome) :: rest => ([.mark (.answered outcome)], rest)
  | e :: rest =>
    match callSpan rest with
    | (span, after) => (e :: span, after)

/-- The session's steps, each invocation followed by the call it made. -/
def weave : List Step → List Provider.Step → List Moment
  | [], _ => []
  | .mark m :: rest, host =>
    match callSpan host with
    | (span, after) => .inl (.mark m) :: (span.map .inr ++ weave rest after)
  | .said q a :: rest, host => .inl (.said q a) :: weave rest host

def timeline (env : Peer) (outside : Outside) (config : Config) (session : SessionId)
    (patience : Nat) : List Moment :=
  weave (conversation env (markedCall outside) config session patience freshHost)
    (hostTrace env outside config session patience)

/-- A load of the gate, by either side. -/
def momentLoad : Moment → Option Nat
  | .inl e => loadOf e
  | .inr e => gateLoad e

def momentDeed : Moment → Option Deed
  | .inl _ => none
  | .inr e => deed e

/-- The deeds among the moments, in their order. -/
def deeds (moments : List Moment) : List Deed := moments.filterMap momentDeed

/-- The monitor of the provider, over the moments of a session. -/
def timing (permit : SeatPermit) : Monitor Moment Pace where
  step p m :=
    match momentLoad m with
    | some raw => ⟨Seat.accepts raw permit, []⟩
    | none => ⟨p.accepted, p.deeds ++ (momentDeed m).toList⟩
  allows p m := ∀ d, momentDeed m = some d → p.accepted = true ∧ Action (p.deeds ++ [d])

/-- Whether the last load accepted the permit, and the deeds since then. -/
def paceOf (permit : SeatPermit) (moments : List Moment) : Pace :=
  (timing permit).after ⟨false, []⟩ moments

/-! ## A session keeps the pace -/

section Pace

variable {permit : SeatPermit}

theorem callSpan_call {inner rest : List Provider.Step} {outcome : Outcome}
    (h : ∀ e ∈ inner, Inner e) :
    callSpan (inner ++ .mark (.answered outcome) :: rest) =
      (inner ++ [.mark (.answered outcome)], rest) := by
  induction inner with
  | nil => rfl
  | cons e inner ih =>
    have htail := ih fun e' he' => h e' (List.mem_cons_of_mem _ he')
    have he := h e (List.mem_cons_self ..)
    cases e with
    | said q a =>
      rw [List.cons_append, callSpan, htail]
      · rfl
      · simp
    | mark m =>
      cases m with
      | answered o => exact he.elim
      | began call => exact he.elim
      | refreshed n model =>
        rw [List.cons_append, callSpan, htail]
        · rfl
        · simp

theorem weave_said {trace rest : List Step} {host : List Provider.Step} (h : ∀ e ∈ trace, e.IsSaid) :
    weave (trace ++ rest) host = trace.map .inl ++ weave rest host := by
  induction trace with
  | nil => rfl
  | cons e trace ih =>
    have htail := ih fun e' he' => h e' (List.mem_cons_of_mem _ he')
    cases e with
    | said q a => rw [List.cons_append, weave, htail]; rfl
    | mark m => exact (h (.mark m) (List.mem_cons_self ..)).elim

/-- What the provider's monitor lets pass inside a call passes in the timeline. -/
theorem timing_call {p : Pace} {inner : List Provider.Step} (h : (pacing permit).Passes p inner) :
    (timing permit).Passes p (inner.map .inr) := by
  induction inner generalizing p with
  | nil => trivial
  | cons e inner ih =>
    obtain ⟨hallows, hrest⟩ := h
    exact ⟨hallows.1, ih hrest⟩

theorem inner_of_passes {p : Pace} {inner : List Provider.Step}
    (h : (pacing permit).Passes p inner) : ∀ e ∈ inner, Inner e := by
  intro e he
  obtain ⟨pre, post, rfl⟩ := List.append_of_mem he
  exact ((pacing permit).passes_split h).2

/-- The session's own steps are no deeds. -/
theorem timing_session {p : Pace} (trace : List Step) : (timing permit).Passes p (trace.map .inl) := by
  induction trace generalizing p with
  | nil => trivial
  | cons e trace ih => exact ⟨fun d hd => by simp [momentDeed] at hd, ih⟩

theorem timing_ignores {m : Moment} (hload : momentLoad m = none) (hdeed : momentDeed m = none) :
    (timing permit).Ignores m := by
  intro p
  refine ⟨by simp [timing, hdeed], ?_⟩
  simp only [timing, hload, hdeed, Option.toList_none, List.append_nil]

/-- A call between its marks. -/
def marked (call : Proto.Call) (inner : List Provider.Step) (outcome : Outcome) :
    List Provider.Step :=
  .mark (.began call) :: (inner ++ [.mark (.answered outcome)])

theorem callSpan_marked {call : Proto.Call} {inner rest : List Provider.Step} {outcome : Outcome}
    (h : ∀ e ∈ inner, Inner e) :
    callSpan (marked call inner outcome ++ rest) = (marked call inner outcome, rest) := by
  have htail := @callSpan_call inner rest outcome h
  unfold marked
  rw [List.cons_append, List.append_assoc, List.singleton_append, callSpan, htail]
  simp

theorem timing_marked {call : Proto.Call} {inner : List Provider.Step} {outcome : Outcome}
    (h : (pacing permit).Passes ⟨true, []⟩ inner) :
    (timing permit).Passes ⟨true, []⟩ ((marked call inner outcome).map .inr) := by
  have hbegan : (timing permit).Ignores (.inr (.mark (.began call))) := timing_ignores rfl rfl
  have hdone : (timing permit).Ignores (.inr (.mark (.answered outcome))) := timing_ignores rfl rfl
  unfold marked
  rw [List.map_cons, Monitor.Passes, (hbegan _).2, List.map_append]
  refine ⟨(hbegan _).1, (timing permit).passes_append.mpr ⟨timing_call h, ?_⟩⟩
  exact ⟨(hdone _).1, trivial⟩

theorem markedCall_marked (outside : Outside) (context : SessionContext) (call : Proto.Call)
    (h : Host) :
    ∃ inner outcome, (markedCall outside context call h).2.trace =
        h.trace ++ marked call inner outcome ∧
      (pacing context.permit).Passes ⟨true, []⟩ inner := by
  obtain ⟨outcome, host, hcall, hmarked⟩ := markedCall_run outside context call h
  obtain ⟨inner, htrace, hpasses, -⟩ := providerCall_paced outside context call
    ⟨h.state, h.trace ++ [.mark (.began call)]⟩ ⟨true, []⟩ ⟨rfl, rfl⟩
  refine ⟨inner, outcome, ?_, hpasses⟩
  rw [hmarked]
  rw [hcall] at htrace
  dsimp only at htrace ⊢
  rw [htrace]
  simp [marked]

theorem invokeAll_extends (outside : Outside) (context : SessionContext) (calls : List Proto.Call)
    (h : Host) :
    ∃ more, (invokeAll (markedCall outside) context calls h).trace = h.trace ++ more := by
  induction calls generalizing h with
  | nil => exact ⟨[], (List.append_nil _).symm⟩
  | cons call rest ih =>
    obtain ⟨inner, outcome, htrace, -⟩ := markedCall_marked outside context call h
    obtain ⟨more, hmore⟩ := ih (markedCall outside context call h).2
    refine ⟨marked call inner outcome ++ more, ?_⟩
    rw [← List.append_assoc, ← htrace]
    exact hmore

section Served

/-- A request as it is read, and the load that follows. -/
def heard (request : Request) (raw : Nat) : List Step :=
  [.said .readFrame (asRequest request), .said .seatLoad raw]

variable (outside : Outside) {context : SessionContext}

/-- Steps without an invocation, then the rest. -/
theorem paced_said {said rest : List Step} {future : List Provider.Step} {p : Pace}
    (h : ∀ e ∈ said, e.IsSaid)
    (hrest : (timing permit).Passes ((timing permit).after p (said.map .inl)) (weave rest future)) :
    (timing permit).Passes p (weave (said ++ rest) future) := by
  rw [weave_said h]
  exact (timing permit).passes_append.mpr ⟨timing_session said, hrest⟩

/-- A request up to its answer, and what follows. -/
theorem asking_paced {idle rest : List Step} {request : Request} {raw : Nat} {host : Host}
    {future : List Provider.Step} {p : Pace} (hidle : ∀ e ∈ idle, Aside e)
    (hraw : Seat.accepts raw context.permit = true)
    (hfuture : (invokeAll (markedCall outside) context
      (invocations (idle ++ asking context request raw ++ rest)) host).trace = host.trace ++ future)
    (hrest : ∀ (host' : Host) (future' : List Provider.Step) (p' : Pace),
      (invokeAll (markedCall outside) context (invocations rest) host').trace =
        host'.trace ++ future' → (timing context.permit).Passes p' (weave rest future')) :
    (timing context.permit).Passes p (weave (idle ++ asking context request raw ++ rest) future) := by
  have hsaid : ∀ e ∈ idle ++ heard request raw,
      e.IsSaid := aside_append hidle (by simp [heard, Entry.IsSaid])
  by_cases hauth : authorized request.call context.granted = true
  · have hsplit : idle ++ asking context request raw ++ rest =
        (idle ++ heard request raw) ++
          .mark (.invoked request.call) :: rest := by
      simp [asking, heard, hauth]
    have hcalls : invocations (idle ++ asking context request raw ++ rest) =
        request.call :: invocations rest := by
      rw [hsplit, invocations_append, invocations_said hsaid]
      rfl
    rw [hcalls] at hfuture
    obtain ⟨inner, outcome, hcall, hpasses⟩ := markedCall_marked outside context request.call host
    obtain ⟨future', hafter⟩ := invokeAll_extends outside context (invocations rest)
      (markedCall outside context request.call host).2
    have hspan : future = marked request.call inner outcome ++ future' := by
      have hsame : host.trace ++ future = host.trace ++ (marked request.call inner outcome ++ future') := by
        rw [← List.append_assoc, ← hcall, ← hafter, ← hfuture]
        rfl
      exact List.append_cancel_left hsame
    rw [hsplit]
    refine paced_said hsaid ?_
    have hready : (timing context.permit).after p
        ((idle ++ heard request raw).map .inl) =
          ⟨true, []⟩ := by
      rw [List.map_append, Monitor.after_append]
      simp [heard, Monitor.after, timing, momentLoad, loadOf, hraw]
    have hinvoked : (timing context.permit).Ignores (.inl (.mark (.invoked request.call))) :=
      timing_ignores rfl rfl
    rw [hready, weave, hspan, callSpan_marked (inner_of_passes hpasses), Monitor.Passes,
      (hinvoked _).2]
    refine ⟨(hinvoked _).1, (timing context.permit).passes_append.mpr ⟨timing_marked hpasses, ?_⟩⟩
    exact hrest _ _ _ hafter
  · have hsplit : idle ++ asking context request raw ++ rest =
        (idle ++ heard request raw) ++ rest := by
      simp [asking, heard, hauth]
    rw [hsplit] at hfuture ⊢
    rw [invocations_append, invocations_said hsaid, List.nil_append] at hfuture
    exact paced_said hsaid (hrest host future _ hfuture)

theorem Served.paced {left : Nat} {trace tail : List Step}
    (h : Served (markedCall outside) context left trace) (htail : ∀ e ∈ tail, e.IsSaid) (host : Host)
    (future : List Provider.Step) (p : Pace)
    (hfuture : (invokeAll (markedCall outside) context (invocations (trace ++ tail)) host).trace =
      host.trace ++ future) :
    (timing context.permit).Passes p (weave (trace ++ tail) future) := by
  have hsaid {said : List Step} (h : ∀ e ∈ said, e.IsSaid) (future : List Provider.Step) (p : Pace) :
      (timing context.permit).Passes p (weave (said ++ tail) future) := by
    refine paced_said h ?_
    rw [← List.append_nil tail]
    exact paced_said htail trivial
  induction h generalizing host future p with
  | bound sent => exact hsaid (by simp [Entry.IsSaid]) future p
  | idles hidle => exact hsaid (fun e he => (hidle e he).isSaid) future p
  | leaves hidle _ => exact hsaid (aside_append hidle (by simp [Entry.IsSaid])) future p
  | repeats hidle hello sent => exact hsaid (aside_append hidle (by simp [Entry.IsSaid])) future p
  | revoked hidle request _ sent =>
    exact hsaid (aside_append hidle (by simp [Entry.IsSaid])) future p
  | unsent hidle request hraw _ error =>
    rw [List.append_assoc] at hfuture ⊢
    refine asking_paced outside hidle hraw hfuture fun _ future' p' _ => ?_
    exact hsaid (by simp [Entry.IsSaid]) future' p'
  | @next left idle rest hidle request raw hraw outcome _ _ ih =>
    rw [List.append_assoc, List.cons_append] at hfuture ⊢
    refine asking_paced outside hidle hraw hfuture fun host' future' p' hfuture' => ?_
    have hwrite : ∀ e ∈ [(.said (.writeFrame (.response ⟨request.id, outcome⟩)) (.ok ()) : Step)],
        e.IsSaid := by simp [Entry.IsSaid]
    exact paced_said hwrite (ih host' future' _ hfuture')

end Served

/-- The whole timeline of a session passes under the session's permit. -/
theorem timeline_passes (env : Peer) (outside : Outside) (config : Config) (session : SessionId)
    (patience : Nat)
    (hpermit : sessionPermit
      (conversation env (markedCall outside) config session patience freshHost) = some permit) :
    (timing permit).Passes ⟨false, []⟩ (timeline env outside config session patience) := by
  obtain ⟨added, context, htalk, hrun⟩ :=
    run_talk env (markedCall outside) config session patience ⟨freshHost, []⟩
  have htrace : conversation env (markedCall outside) config session patience freshHost = added := by
    unfold conversation
    rw [hrun]
    rfl
  have hhost : hostTrace env outside config session patience =
      (invokeAll (markedCall outside) context (invocations added) freshHost).trace := by
    unfold hostTrace
    rw [hrun]
  unfold timeline
  rw [htrace] at hpermit ⊢
  rw [hhost]
  have hsaid (h : ∀ e ∈ added, e.IsSaid) (future : List Provider.Step) :
      (timing permit).Passes ⟨false, []⟩ (weave added future) := by
    rw [← List.append_nil added]
    exact paced_said h trivial
  cases htalk with
  | shut h => exact hsaid h.1 _
  | unwelcomed admits hbefore hafter error =>
    refine hsaid (fun e he => ?_) _
    rw [List.append_assoc] at he
    rcases List.mem_append.mp he with he | he
    · exact opening_said e he
    · refine aside_append hbefore (fun e he => ?_) e he
      rcases List.mem_cons.mp he with rfl | he
      · trivial
      · exact (hafter e he).isSaid
  | @welcomed uid hello raw raw' issued welcome before served after admits hbefore hafter hserved =>
    have hissued : issued = permit := by
      unfold sessionPermit at hpermit
      rw [(prelude_read hbefore _ _).2.2.2] at hpermit
      exact Option.some.inj (admits.permit_eq.symm.trans hpermit)
    subst hissued
    have hprelude : ∀ e ∈ opening uid hello raw raw' ++ before ++
        [.said (.writeFrame (.welcome welcome)) (.ok ())], e.IsSaid := by
      intro e he
      rw [List.append_assoc] at he
      rcases List.mem_append.mp he with he | he
      · exact opening_said e he
      · exact aside_append hbefore (by simp [Entry.IsSaid]) e he
    have hsplit : opening uid hello raw raw' ++ before ++
        .said (.writeFrame (.welcome welcome)) (.ok ()) :: (served ++ after) =
        opening uid hello raw raw' ++ before ++ [.said (.writeFrame (.welcome welcome)) (.ok ())] ++
          (served ++ after) := by simp
    rw [hsplit, invocations_append, invocations_said hprelude, List.nil_append]
    refine paced_said hprelude (hserved.paced outside (fun e he => (hafter e he).isSaid) freshHost _ _ ?_)
    exact (List.nil_append _).symm

end Pace

/-! ## After the gate has left the permit -/

section Void

variable {permit : SeatPermit}

/-- No load among the moments accepts the permit. -/
def Void (permit : SeatPermit) (moments : List Moment) : Prop :=
  ∀ m ∈ moments, ∀ raw, momentLoad m = some raw → Seat.accepts raw permit = false

theorem Void.tail {m : Moment} {moments : List Moment} (h : Void permit (m :: moments)) :
    Void permit moments :=
  fun m' hm' => h m' (List.mem_cons_of_mem _ hm')

/-- Behind a load that refused there are no deeds. -/
theorem deeds_refused {p : Pace} {moments : List Moment} (h : (timing permit).Passes p moments)
    (hvoid : Void permit moments) (hp : p.accepted = false) : deeds moments = [] := by
  induction moments generalizing p with
  | nil => rfl
  | cons m moments ih =>
    obtain ⟨hallows, hrest⟩ := h
    have hnone : momentDeed m = none := by
      cases hd : momentDeed m with
      | none => rfl
      | some d =>
        have hacc := (hallows d hd).1
        rw [hp] at hacc
        exact absurd hacc (by simp)
    have hnext : ((timing permit).step p m).accepted = false := by
      unfold timing
      dsimp only
      cases hl : momentLoad m with
      | none => exact hp
      | some raw => exact hvoid m (List.mem_cons_self ..) raw hl
    have htail := ih hrest hvoid.tail hnext
    unfold deeds at htail ⊢
    rw [List.filterMap_cons, hnone, htail]

/-- Deeds without a load between them belong to one action. -/
theorem deeds_burst {p : Pace} {moments : List Moment} (h : (timing permit).Passes p moments)
    (hloads : ∀ m ∈ moments, momentLoad m = none) :
    (deeds moments ≠ [] → p.accepted = true ∧ Action (p.deeds ++ deeds moments)) := by
  induction moments generalizing p with
  | nil => exact fun hne => absurd rfl hne
  | cons m moments ih =>
    obtain ⟨hallows, hrest⟩ := h
    have hload := hloads m (List.mem_cons_self ..)
    have hnext : (timing permit).step p m = ⟨p.accepted, p.deeds ++ (momentDeed m).toList⟩ := by
      unfold timing
      dsimp only
      rw [hload]
    have htail := ih hrest fun m' hm' => hloads m' (List.mem_cons_of_mem _ hm')
    rw [hnext] at htail
    cases hd : momentDeed m with
    | none =>
      have hdeeds : deeds (m :: moments) = deeds moments := by
        unfold deeds
        rw [List.filterMap_cons, hd]
      rw [hdeeds]
      simpa [hd] using htail
    | some d =>
      have hdeeds : deeds (m :: moments) = d :: deeds moments := by
        unfold deeds
        rw [List.filterMap_cons, hd]
      intro _
      obtain ⟨hacc, haction⟩ := hallows d hd
      rw [hdeeds]
      by_cases hmore : deeds moments = []
      · rw [hmore]
        exact ⟨hacc, haction⟩
      · have hall := (htail hmore).2
        simp only [hd, Option.toList_some, List.append_assoc, List.singleton_append] at hall
        exact ⟨hacc, hall⟩

theorem deed_of_load {m : Moment} {raw : Nat} (h : momentLoad m = some raw) : momentDeed m = none := by
  rcases m with e | e
  · rfl
  · cases e with
    | mark m => rfl
    | said q a => cases q <;> first | rfl | simp [momentLoad, gateLoad] at h

/-- The moments up to the next load carry the deeds of one action, those from it on none. -/
theorem void_split {p : Pace} {moments : List Moment} (h : (timing permit).Passes p moments)
    (hvoid : Void permit moments) :
    ∃ last rest, moments = last ++ rest ∧ (∀ m ∈ last, momentLoad m = none) ∧ deeds rest = [] ∧
      (deeds last ≠ [] → p.accepted = true ∧ Action (p.deeds ++ deeds last)) := by
  induction moments generalizing p with
  | nil => exact ⟨[], [], rfl, by simp, rfl, fun hne => absurd rfl hne⟩
  | cons m moments ih =>
    cases hload : momentLoad m with
    | none =>
      obtain ⟨last, rest, rfl, hloads, hrest, -⟩ := ih h.2 hvoid.tail
      have hlast : ∀ m' ∈ m :: last, momentLoad m' = none :=
        List.forall_mem_cons.mpr ⟨hload, hloads⟩
      rw [← List.cons_append] at h
      exact ⟨m :: last, rest, rfl, hlast, hrest,
        deeds_burst ((timing permit).passes_append.mp h).1 hlast⟩
    | some raw =>
      have hrefused : ((timing permit).step p m).accepted = false := by
        unfold timing
        dsimp only
        rw [hload]
        exact hvoid m (List.mem_cons_self ..) raw hload
      have htail := deeds_refused h.2 hvoid.tail hrefused
      refine ⟨[], m :: moments, rfl, by simp, ?_, fun hne => absurd rfl hne⟩
      unfold deeds at htail ⊢
      rw [List.filterMap_cons, deed_of_load hload, htail]

end Void

/-! ## The next request -/

section Request

variable {permit : SeatPermit}

/-- After a request was read the gate is loaded, and a word that refuses the permit is answered with
    `revoked`, which is the end. -/
def Revokes (permit : SeatPermit) (request : Request) (rest : List Step) : Prop :=
  ∃ raw more, rest = .said .seatLoad raw :: more ∧
    (Seat.accepts raw permit = false → ∃ sent asides, more =
      .said (.writeFrame (.response ⟨request.id, revokedOutcome⟩)) sent :: asides ∧
        ∀ e ∈ asides, Aside e)

/-- So it is with every request of the trace. -/
def Heeds (permit : SeatPermit) : List Step → Prop
  | [] => True
  | e :: rest => (∀ request, requestOf e = some request → Revokes permit request rest) ∧
      Heeds permit rest

theorem Heeds.silent {trace rest : List Step} (h : ∀ e ∈ trace, requestOf e = none)
    (hrest : Heeds permit rest) : Heeds permit (trace ++ rest) := by
  induction trace with
  | nil => exact hrest
  | cons e trace ih =>
    refine ⟨fun request hrequest => ?_, ih fun e' he' => h e' (List.mem_cons_of_mem _ he')⟩
    rw [h e (List.mem_cons_self ..)] at hrequest
    exact absurd hrequest (by simp)

theorem Heeds.asides {trace rest : List Step} (h : ∀ e ∈ trace, Aside e)
    (hrest : Heeds permit rest) : Heeds permit (trace ++ rest) :=
  hrest.silent fun e he => (h e he).unread.2.2.1

theorem Heeds.at {before after : List Step} {request : Request}
    (h : Heeds permit (before ++ .said .readFrame (asRequest request) :: after)) :
    Revokes permit request after := by
  induction before with
  | nil => exact h.1 request rfl
  | cons e before ih => exact ih h.2

theorem Leaves.no_request {answer : Except String ReadFrame} (h : Leaves answer) :
    requestOf (.said .readFrame answer) = none := by
  match answer, h with
  | .error _, _ => rfl
  | .ok .cleanEof, _ => rfl
  | .ok (.message (.goodbye _)), _ => rfl

/-- A request the gate lets pass, and what follows its answer. -/
theorem Heeds.asking {context : SessionContext} {idle rest : List Step} {request : Request}
    {raw : Nat} {outcome : Outcome} (hidle : ∀ e ∈ idle, Aside e) (sent : Except String Unit)
    (hraw : Seat.accepts raw permit = true) (hrest : Heeds permit rest) :
    Heeds permit (idle ++ asking context request raw ++
      .said (.writeFrame (.response ⟨request.id, outcome⟩)) sent :: rest) := by
  have hanswer : Heeds permit (.said (.writeFrame (.response ⟨request.id, outcome⟩)) sent :: rest) :=
    ⟨fun _ h => by simp [requestOf] at h, hrest⟩
  rw [List.append_assoc]
  refine Heeds.asides hidle ⟨fun request' hrequest => ?_, ?_⟩
  · refine ⟨raw, _, rfl, fun hrefused => ?_⟩
    rw [hraw] at hrefused
    exact absurd hrefused (by simp)
  · refine Heeds.silent (fun e he => ?_) hanswer
    rcases List.mem_cons.mp he with rfl | he
    · rfl
    · split at he
      · rw [List.mem_singleton.mp he]
        rfl
      · exact absurd he (by simp)

theorem Served.heeds {P : Type} {provider : Provides P} {context : SessionContext} {left : Nat}
    {trace tail : List Step} (h : Served provider context left trace)
    (htail : ∀ e ∈ tail, Aside e) : Heeds context.permit (trace ++ tail) := by
  have hend : Heeds context.permit tail := by
    rw [← List.append_nil tail]
    exact Heeds.asides htail trivial
  induction h with
  | bound sent => exact hend.silent (by simp [requestOf])
  | idles hidle => exact hend.asides hidle
  | leaves hidle hleaves =>
    rw [List.append_assoc]
    refine Heeds.asides hidle (hend.silent fun e he => ?_)
    rw [List.mem_singleton.mp he]
    exact hleaves.no_request
  | repeats hidle hello sent =>
    rw [List.append_assoc]
    exact Heeds.asides hidle (hend.silent (by simp [requestOf]))
  | revoked hidle request hraw sent =>
    rw [List.append_assoc]
    refine Heeds.asides hidle ⟨fun request' hrequest => ?_, hend.silent (by simp [requestOf])⟩
    rw [← Option.some.inj hrequest]
    exact ⟨_, _, rfl, fun _ => ⟨sent, tail, rfl, htail⟩⟩
  | unsent hidle request hraw _ error =>
    rw [List.append_assoc]
    exact Heeds.asking hidle _ hraw hend
  | next hidle request hraw _ _ ih =>
    rw [List.append_assoc]
    exact Heeds.asking hidle _ hraw ih

/-- Every request of a welcomed session heeds the gate. -/
theorem conversation_heeds (env : Peer) (outside : Outside) (config : Config) (session : SessionId)
    (patience : Nat)
    (hpermit : sessionPermit
      (conversation env (markedCall outside) config session patience freshHost) = some permit)
    {welcome : Welcome} (hwelcome : .welcome welcome ∈
      written (conversation env (markedCall outside) config session patience freshHost)) :
    Heeds permit (conversation env (markedCall outside) config session patience freshHost) := by
  obtain ⟨added, context, htalk, hrun⟩ :=
    run_talk env (markedCall outside) config session patience ⟨freshHost, []⟩
  have htrace : conversation env (markedCall outside) config session patience freshHost = added := by
    unfold conversation
    rw [hrun]
    rfl
  rw [htrace] at hpermit hwelcome ⊢
  cases htalk with
  | shut h =>
    rcases h.2 with hnone | ⟨farewell, hone⟩
    · rw [hnone] at hwelcome
      exact absurd hwelcome (by simp)
    · rw [hone] at hwelcome
      exact absurd hwelcome (by simp)
  | @unwelcomed uid hello raw raw' issued welcome before after admits hbefore hafter error =>
    rw [List.append_assoc]
    refine Heeds.silent (by simp [opening, greeting, requestOf]) (Heeds.asides hbefore ?_)
    refine ⟨fun _ h => by simp [requestOf] at h, ?_⟩
    rw [← List.append_nil after]
    exact Heeds.asides hafter trivial
  | @welcomed uid hello raw raw' issued welcome before served after admits hbefore hafter hserved =>
    have hissued : issued = permit := by
      unfold sessionPermit at hpermit
      rw [(prelude_read hbefore _ _).2.2.2] at hpermit
      exact Option.some.inj (admits.permit_eq.symm.trans hpermit)
    subst hissued
    rw [List.append_assoc]
    refine Heeds.silent (by simp [opening, greeting, requestOf]) (Heeds.asides hbefore ?_)
    exact ⟨fun _ h => by simp [requestOf] at h, hserved.heeds hafter⟩

/-- A step of the session in the timeline, and the steps of the session after it. -/
theorem weave_split {trace : List Step} {host : List Provider.Step} {before after : List Moment}
    {q : Question} {a : q.Answer}
    (h : weave trace host = before ++ .inl (.said q a) :: after) :
    ∃ said rest host', trace = said ++ .said q a :: rest ∧ after = weave rest host' := by
  induction trace generalizing host before with
  | nil => simp [weave] at h
  | cons e trace ih =>
    cases e with
    | said q' a' =>
      cases before with
      | nil =>
        obtain ⟨hhead, htail⟩ := List.cons.inj h
        rw [Sum.inl.inj hhead]
        exact ⟨[], trace, host, rfl, htail.symm⟩
      | cons m before =>
        obtain ⟨said, rest, host', rfl, hafter⟩ := ih (List.cons.inj h).2
        exact ⟨.said q' a' :: said, rest, host', rfl, hafter⟩
    | mark k =>
      cases before with
      | nil => exact absurd (Sum.inl.inj (List.cons.inj h).1) (by simp)
      | cons m before =>
        obtain ⟨before', hbefore⟩ : ∃ before', weave trace (callSpan host).2 =
            before' ++ .inl (.said q a) :: after := by
          rcases List.append_eq_append_iff.mp (List.cons.inj h).2 with ⟨mid, -, hmid⟩ | ⟨mid, hspan, hmid⟩
          · exact ⟨mid, hmid⟩
          · cases mid with
            | nil => exact ⟨[], hmid.symm⟩
            | cons m' mid =>
              have hmem : m' ∈ (callSpan host).1.map Sum.inr := by rw [hspan]; simp
              rw [← (List.cons.inj hmid).1] at hmem
              exact absurd hmem (by simp)
        obtain ⟨said, rest, host', rfl, hafter⟩ := ih hbefore
        exact ⟨.mark k :: said, rest, host', rfl, hafter⟩

end Request

/-! ## The bound -/

section Bound

variable {ι : Type} [DecidableEq ι]

/-- The word of the gate at a moment, after what the threads of the operator did up to it. -/
def wordAt (moves : Nat → List (Move ι)) (moment : Nat) : Nat :=
  ((System.new : System ι).run ((List.range (moment + 1)).flatMap moves)).1.raw

theorem wordAt_mono (moves : Nat → List (Move ι)) {earlier later : Nat} (h : earlier ≤ later) :
    wordAt moves earlier ≤ wordAt moves later := by
  induction later, h using Nat.le_induction with
  | base => exact Nat.le_refl _
  | succ later _ ih =>
    have hinv := System.run_inv (System.atRest_inv (ι := ι) (Nat.zero_le u64Max))
      ((List.range (later + 1)).flatMap moves)
    have hstep : wordAt moves later ≤ wordAt moves (later + 1) := by
      unfold wordAt
      rw [List.range_succ (n := later + 1), List.flatMap_append, System.run_append]
      exact (System.run_inv hinv.1 _).2
    exact Nat.le_trans ih hstep

/-- Each load reads the word of its moment. -/
def Reads (word : Nat → Nat) (moments : List Moment) : Prop :=
  ∀ moment m raw, moments[moment]? = some m → momentLoad m = some raw → raw = word moment

theorem Reads.load {word : Nat → Nat} {moments : List Moment} (h : Reads word moments) {moment : Nat}
    {m : Moment} (hm : m ∈ moments.drop moment) {raw : Nat} (hraw : momentLoad m = some raw) :
    ∃ later, moment ≤ later ∧ raw = word later := by
  obtain ⟨i, hi⟩ := List.mem_iff_getElem?.mp hm
  rw [List.getElem?_drop] at hi
  exact ⟨moment + i, Nat.le_add_right .., h _ m raw hi hraw⟩

theorem reads_of_all {word : Nat → Nat} {moments : List Moment}
    (h : ∀ p ∈ moments.zipIdx, momentLoad p.1 = none ∨ momentLoad p.1 = some (word p.2)) :
    Reads word moments := by
  intro moment m raw hm hraw
  rcases h (m, moment) (List.mk_mem_zipIdx_iff_getElem?.mpr hm) with hnone | hsome
  · rw [hnone] at hraw
    exact absurd hraw (by simp)
  · exact Option.some.inj (hraw.symm.trans hsome)

/-- The word was the permit's, and is another one now. -/
def Left (word : Nat → Nat) (permit : SeatPermit) (moment : Nat) : Prop :=
  (∃ earlier ≤ moment, word earlier = permit.raw) ∧ word moment ≠ permit.raw

/-- Once left, the permit is refused at every later moment, whatever the operator does. -/
theorem Left.void {moves : Nat → List (Move ι)} {permit : SeatPermit} {moment : Nat}
    (h : Left (wordAt moves) permit moment) {later : Nat} (hlater : moment ≤ later) :
    Seat.accepts (wordAt moves later) permit = false := by
  obtain ⟨⟨earlier, hearlier, hword⟩, hleft⟩ := h
  have hup := wordAt_mono moves hearlier
  have hon := wordAt_mono moves hlater
  have hne : wordAt moves later ≠ permit.raw := by omega
  simp [Seat.accepts, hne]

/-- For any session, peer, X server and launcher and any interleaving of the operator's threads with
    the steps of the session and its provider, from any moment at which the gate has left the word of
    the session's permit: the deeds up to the next load, together with those since the last load, are
    those of one action, and that load had accepted the permit; there is no deed after the next load,
    also if the gate is enabled again; and the next request of a welcomed session is answered with
    `revoked`, after which the session only gives back its slot. -/
theorem revocation_bound (env : Peer) (outside : Outside) (config : Config) (session : SessionId)
    (patience : Nat) (moves : Nat → List (Move ι))
    (reads : Reads (wordAt moves) (timeline env outside config session patience))
    (permit : SeatPermit)
    (issued : sessionPermit
      (conversation env (markedCall outside) config session patience freshHost) = some permit)
    (moment : Nat) (left : Left (wordAt moves) permit moment) :
    (∃ last rest, (timeline env outside config session patience).drop moment = last ++ rest ∧
      (∀ m ∈ last, momentLoad m = none) ∧
      (deeds last ≠ [] →
        (paceOf permit ((timeline env outside config session patience).take moment)).accepted = true ∧
        Action ((paceOf permit
          ((timeline env outside config session patience).take moment)).deeds ++ deeds last)) ∧
      deeds rest = []) ∧
    ∀ welcome, .welcome welcome ∈
        written (conversation env (markedCall outside) config session patience freshHost) →
      ∀ before request after, (timeline env outside config session patience).drop moment =
          before ++ .inl (.said .readFrame (asRequest request)) :: after →
        ∃ raw sent asides, after = (.said .seatLoad raw ::
            .said (.writeFrame (.response ⟨request.id, revokedOutcome⟩)) sent :: asides).map .inl ∧
          ∀ e ∈ asides, Aside e := by
  have hpasses := timeline_passes env outside config session patience issued
  rw [← List.take_append_drop moment (timeline env outside config session patience)] at hpasses
  have hvoid : Void permit ((timeline env outside config session patience).drop moment) := by
    intro m hm raw hraw
    obtain ⟨later, hlater, rfl⟩ := reads.load hm hraw
    exact left.void hlater
  refine ⟨?_, ?_⟩
  · obtain ⟨last, rest, hsplit, hloads, hrest, hlast⟩ :=
      void_split ((timing permit).passes_append.mp hpasses).2 hvoid
    exact ⟨last, rest, hsplit, hloads, hlast, hrest⟩
  · intro welcome hwelcome before request after hsplit
    have hheeds := conversation_heeds env outside config session patience issued hwelcome
    have hwhole : timeline env outside config session patience =
        ((timeline env outside config session patience).take moment ++ before) ++
          .inl (.said .readFrame (asRequest request)) :: after := by
      rw [List.append_assoc, ← hsplit, List.take_append_drop]
    obtain ⟨said, rest, host, htrace, hafter⟩ := weave_split hwhole
    rw [htrace] at hheeds
    obtain ⟨raw, more, rfl, hrevoked⟩ := hheeds.at
    have hload : (.inl (.said .seatLoad raw) : Moment) ∈
        (timeline env outside config session patience).drop moment := by
      rw [hsplit, hafter]
      simp [weave]
    obtain ⟨sent, asides, rfl, hasides⟩ := hrevoked (hvoid _ hload raw rfl)
    have hsaid : ∀ e ∈ (.said .seatLoad raw ::
        .said (.writeFrame (.response ⟨request.id, revokedOutcome⟩)) sent :: asides : List Step),
        e.IsSaid := by
      simpa [Entry.IsSaid] using fun e he => (hasides e he).isSaid
    have hwoven := @weave_said _ [] host hsaid
    rw [List.append_nil] at hwoven
    refine ⟨raw, sent, asides, ?_, hasides⟩
    rw [hafter, hwoven]
    simp [weave]

end Bound

/-- What a peer that moves the pointer asks for. -/
def moverCapabilities : List Capability := [.observeStructure, .inputPointer]

theorem moverCapabilities_length : moverCapabilities.length ≤ maxCapabilities := by decide

theorem moverCapabilities_policy : moverCapabilities.length ≤ maxPolicyCapabilities := by decide

/-- A peer that moves the pointer onto the only window and then once more; the session's fourth load
    finds the gate closed. -/
def lateMover : Peer := fun trace question =>
  match question with
  | .seatLoad => if (loads trace).length < 3 then (1 : Nat) else (2 : Nat)
  | question => plainPeer 1000 1 [.hello (helloFor ⟨moverCapabilities, moverCapabilities_length⟩),
      .request ⟨⟨1, Nat.one_ne_zero⟩, .pointerMove ⟨⟨⟨1, Nat.one_ne_zero⟩, 0⟩, 5, 5⟩⟩,
      .request ⟨⟨1, Nat.one_ne_zero⟩, .pointerMove ⟨⟨⟨1, Nat.one_ne_zero⟩, 0⟩, 6, 6⟩⟩]
    trace question

/-- A plain desktop whose gate is closed right before the first event. -/
def lateOutside : Outside := fun trace question =>
  match question with
  | .seatLoad => if (emitted trace).length < 1 then (1 : Nat) else (2 : Nat)
  | question => plainOutside 1 (fun _ => ⟨0, [⟨10, 0, 20⟩], 10⟩) trace question

def lateConfig : Config := plainConfig 1000 ⟨moverCapabilities, moverCapabilities_policy⟩

def lateTimeline : List Moment := timeline lateMover lateOutside lateConfig ⟨1, Nat.one_ne_zero⟩ 0

/-- The operator enables the gate at the start and disables it at a moment. -/
def enableUntil (closing : Nat) (moment : Nat) : List (Move Unit) :=
  (if moment = 0 then [.invoke () (.setEnabled true), .act (), .act ()] else []) ++
    if moment = closing then [.invoke () (.setEnabled false), .act (), .act ()] else []

/-- The gate was closed between the check of the first motion and the motion. The motion still
    happens, and it is the last deed. -/
theorem revocation_bound_motion :
    (deeds (lateTimeline.drop 21)).length = 1 ∧ (deeds (lateTimeline.drop 22)).length = 0 ∧
    ∃ last rest, lateTimeline.drop 21 = last ++ rest ∧ (∀ m ∈ last, momentLoad m = none) ∧
      (deeds last ≠ [] → (paceOf ⟨1⟩ (lateTimeline.take 21)).accepted = true ∧
        Action ((paceOf ⟨1⟩ (lateTimeline.take 21)).deeds ++ deeds last)) ∧ deeds rest = [] := by
  have hreads : Reads (wordAt (enableUntil 21)) lateTimeline := reads_of_all (by decide +kernel)
  have hleft : Left (wordAt (enableUntil 21)) ⟨1⟩ 21 :=
    ⟨⟨0, by omega, by decide +kernel⟩, by decide +kernel⟩
  have hpermit : sessionPermit (conversation lateMover (markedCall lateOutside) lateConfig
      ⟨1, Nat.one_ne_zero⟩ 0 freshHost) = some ⟨1⟩ := by decide +kernel
  refine ⟨by decide +kernel, by decide +kernel, ?_⟩
  unfold lateTimeline at hreads ⊢
  exact (revocation_bound lateMover lateOutside lateConfig ⟨1, Nat.one_ne_zero⟩ 0 (enableUntil 21) hreads ⟨1⟩
    hpermit 21 hleft).1

end AgentSeat.Session
