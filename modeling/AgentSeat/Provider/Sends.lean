/-
  What one call of `manage` sends, and what its reply says.

  A message is sent at most once, under the grab in which the refreshed model matched the request
  and the properties read for it advertised the operation. A failure that is not `unavailable` comes
  from before the message. What a reply says of the effect is true in a model that a refresh after
  the message put in, under the sequence that the reply carries.
-/
import AgentSeat.Provider.Boundary
import AgentSeat.Provider.Geometry

namespace AgentSeat.Provider

open AgentSeat.Lib AgentSeat.Proto AgentSeat.X11

/-! ## What an operation asks for -/

/-- The record of a client id. -/
def recordOf (m : Model) (id : ClientId) : Option ClientRecord :=
  m.clients.find? fun record => record.descriptor.id = id

/-- The request names a record of the model by its id and generation. -/
def Current (request : TargetRequest) (m : Model) : Prop :=
  ∃ record, recordOf m request.client = some record ∧
    record.descriptor.generation = request.generation

/-- The model is the one the request was made for. -/
def Operation.Matches (sequence : Nat) (m : Model) : Operation → Prop
  | .activate request | .close request => Current request m
  | .workspaceSwitch request => request.sequence = sequence
  | .clientWorkspace request => Current request.target m
  | .state request => Current request.target m
  | .geometry request => Current request.target m

/-- The window manager lists the operation, and for a state the state too. -/
def Operation.Advertised (atoms : Atoms) (supported : List Atom) : Operation → Prop
  | .activate _ => atoms.activeWindow ∈ supported
  | .close _ => atoms.closeWindow ∈ supported
  | .workspaceSwitch _ => atoms.currentDesktop ∈ supported
  | .clientWorkspace _ => atoms.wmDesktop ∈ supported
  | .state request => atoms.wmState ∈ supported ∧
      ∃ stateAtom action, stateAtoms atoms request.state = .ok (stateAtom, action) ∧
        stateAtom ∈ supported
  | .geometry _ => atoms.moveresizeWindow ∈ supported

/-- Whether the state is to be there, given the model the request was sent from. -/
def statePresent (request : ClientStateRequest) (sent : Model) : Prop :=
  match request.action with
  | .add => True
  | .remove => False
  | .toggle => ∃ record, recordOf sent request.target.client = some record ∧
      request.state ∉ record.descriptor.states.asSlice

/-- The state an operation wants holds in `now`. -/
def Operation.Reached (sent now : Model) : Operation → Prop
  | .activate request => now.active = some request.client
  | .close request => recordOf now request.client = none
  | .workspaceSwitch request => now.currentWorkspace = request.workspace
  | .clientWorkspace request => ∃ record, recordOf now request.target.client = some record ∧
      record.descriptor.workspace = some request.workspace
  | .state request => ∃ record, recordOf now request.target.client = some record ∧
      (request.state ∈ record.descriptor.states.asSlice ↔ statePresent request sent)
  | .geometry request => ∃ record, recordOf now request.target.client = some record ∧
      record.descriptor.frame = some request.frame

/-- The client an operation is for, unless it is for the desktop. -/
def Operation.client : Operation → Option ClientId
  | .activate request | .close request => some request.client
  | .workspaceSwitch _ => none
  | .clientWorkspace request => some request.target.client
  | .state request => some request.target.client
  | .geometry request => some request.target.client

def Operation.IsClose : Operation → Prop
  | .close _ => True
  | _ => False

/-! ## What a prepared message stands for -/

section Prepares

variable {d : Desktop} {o : Observer} {operation : Operation} {m : Model}

theorem record_eq (hm : o.model = some m) (id : ClientId) : o.record id = recordOf m id := by
  unfold Observer.record recordOf
  rw [hm]
  rfl

theorem target_current {request : TargetRequest} {t : Target} (hm : o.model = some m)
    (h : o.target request = .ok t) :
    ∃ record, recordOf m request.client = some record ∧
      record.descriptor.generation = request.generation ∧ t.id = request.client ∧
      t.states = record.descriptor.states.asSlice := by
  unfold Observer.target at h
  rw [record_eq hm] at h
  cases hrec : recordOf m request.client with
  | none =>
    rw [hrec] at h
    simp at h
  | some record =>
    rw [hrec] at h
    dsimp only at h
    split at h
    · simp at h
    · next hgen =>
      obtain rfl := Except.ok.inj h
      have hid : record.descriptor.id = request.client := by simpa using List.find?_some hrec
      exact ⟨record, rfl, not_not.mp hgen, hid, rfl⟩

/-- What is observed of a client is observed of its record. -/
theorem observed_record {id : ClientId} {p : ClientRecord → Bool} (hm : o.model = some m)
    (h : ((o.record id).map p).getD false = true) : ∃ record, recordOf m id = some record ∧ p record := by
  rw [record_eq hm] at h
  cases hrec : recordOf m id with
  | none => simp [hrec] at h
  | some record => exact ⟨record, rfl, by simpa [hrec] using h⟩

/-- What an accepted geometry request was checked for. -/
theorem prepareGeometry_ok {request : ClientGeometryRequest} {supported : List Atom}
    {prepared : Prepared} (h : prepareGeometry d o request supported = .ok prepared) :
    ∃ t, o.target request.target = .ok t ∧ o.atoms.moveresizeWindow ∈ supported ∧
      prepared.desired = .geometry t.id request.frame := by
  obtain ⟨t, ht, -⟩ := Lib.except_bind_ok h
  obtain ⟨current, allowed, admitted⟩ := prepareGeometry_admitted ht
    fun f (hf : prepareGeometry d o request supported = .error f) => by rw [h] at hf; simp at hf
  rw [admitted.prepareGeometry_eq] at h
  exact ⟨t, ht, admitted.advertised, moveResize_desired h⟩

/-- What a desired state is for the operation it was prepared for. -/
structure Prepares (d : Desktop) (o : Observer) (m : Model) (operation : Operation)
    (desired : Desired) : Prop where
  matched : operation.Matches o.sequence m
  advertised : ∃ supported, property32 d o.root o.atoms.supported atomType maxRootAtoms =
    .ok supported ∧ operation.Advertised o.atoms (supported.getD [])
  client : desired.target = operation.client
  close : (∃ id, desired = .closed id) ↔ operation.IsClose
  reached : ∀ o' m', o'.model = some m' → desired.observed o' = true → operation.Reached m m'

theorem prepare_prepares {prepared : Prepared} (hm : o.model = some m)
    (h : prepare d o operation = .ok prepared) : Prepares d o m operation prepared.desired := by
  unfold prepare at h
  obtain ⟨supported, hsupported, h⟩ := Lib.except_bind_ok h
  have hlisted {atom : Atom} {u : Unit}
      (h : requireSupported (supported.getD []) atom = .ok u) : atom ∈ supported.getD [] :=
    not_not.mp (refuseIf_ok h)
  cases operation with
  | activate request =>
    obtain ⟨t, ht, h⟩ := Lib.except_bind_ok h
    obtain ⟨_, -, h⟩ := Lib.except_bind_ok h
    obtain ⟨_, hs, h⟩ := Lib.except_bind_ok h
    obtain ⟨_, -, h⟩ := Lib.except_bind_ok h
    obtain rfl := Except.ok.inj h
    obtain ⟨record, hrec, hgen, hid, -⟩ := target_current hm ht
    refine ⟨⟨record, hrec, hgen⟩, ⟨supported, hsupported, hlisted hs⟩, ?_, ?_, fun o' m' hm' hobs => ?_⟩
    · exact congrArg some hid
    · simp [Operation.IsClose]
    · simp only [Desired.observed, hm', Option.map_some, Option.getD_some, decide_eq_true_eq] at hobs
      rw [hid] at hobs
      exact hobs
  | close request =>
    obtain ⟨t, ht, h⟩ := Lib.except_bind_ok h
    obtain ⟨_, -, h⟩ := Lib.except_bind_ok h
    obtain ⟨_, hs, h⟩ := Lib.except_bind_ok h
    obtain rfl := Except.ok.inj h
    obtain ⟨record, hrec, hgen, hid, -⟩ := target_current hm ht
    refine ⟨⟨record, hrec, hgen⟩, ⟨supported, hsupported, hlisted hs⟩, ?_, ?_, fun o' m' hm' hobs => ?_⟩
    · exact congrArg some hid
    · simp [Operation.IsClose]
    · simp only [Desired.observed, record_eq hm', hid, Option.isNone_iff_eq_none] at hobs
      exact hobs
  | workspaceSwitch request =>
    obtain ⟨_, hsequence, h⟩ := Lib.except_bind_ok h
    obtain ⟨_, -, h⟩ := Lib.except_bind_ok h
    obtain ⟨_, hs, h⟩ := Lib.except_bind_ok h
    obtain rfl := Except.ok.inj h
    have hsame : request.sequence = o.sequence := not_not.mp (refuseIf_ok hsequence)
    refine ⟨hsame, ⟨supported, hsupported, hlisted hs⟩, rfl, ?_,
      fun o' m' hm' hobs => ?_⟩
    · simp [Operation.IsClose]
    · simp only [Desired.observed, hm', Option.map_some, Option.getD_some, decide_eq_true_eq] at hobs
      exact hobs
  | clientWorkspace request =>
    obtain ⟨t, ht, h⟩ := Lib.except_bind_ok h
    obtain ⟨_, -, h⟩ := Lib.except_bind_ok h
    obtain ⟨_, -, h⟩ := Lib.except_bind_ok h
    obtain ⟨_, hs, h⟩ := Lib.except_bind_ok h
    obtain rfl := Except.ok.inj h
    obtain ⟨record, hrec, hgen, hid, -⟩ := target_current hm ht
    refine ⟨⟨record, hrec, hgen⟩, ⟨supported, hsupported, hlisted hs⟩, ?_, ?_, fun o' m' hm' hobs => ?_⟩
    · exact congrArg some hid
    · simp [Operation.IsClose]
    · obtain ⟨record', hrec', hworkspace⟩ := observed_record hm' hobs
      exact ⟨record', hid ▸ hrec', by simpa using hworkspace⟩
  | state request =>
    obtain ⟨t, ht, h⟩ := Lib.except_bind_ok h
    obtain ⟨⟨stateAtom, action⟩, hatoms, h⟩ := Lib.except_bind_ok h
    obtain ⟨_, hwm, h⟩ := Lib.except_bind_ok h
    obtain ⟨_, hs, h⟩ := Lib.except_bind_ok h
    obtain ⟨_, -, h⟩ := Lib.except_bind_ok h
    obtain rfl := Except.ok.inj h
    obtain ⟨record, hrec, hgen, hid, hstates⟩ := target_current hm ht
    refine ⟨⟨record, hrec, hgen⟩, ⟨supported, hsupported, hlisted hwm, stateAtom, action, hatoms,
      hlisted hs⟩, ?_, ?_, fun o' m' hm' hobs => ?_⟩
    · exact congrArg some hid
    · simp [Operation.IsClose]
    · obtain ⟨record', hrec', hstate⟩ := observed_record hm' hobs
      refine ⟨record', hid ▸ hrec', ?_⟩
      rw [decide_eq_true_eq] at hstate
      rw [← List.contains_iff_mem, hstate]
      unfold statePresent
      cases request.action with
      | add => simp
      | remove => simp
      | toggle => simp [hrec, hstates]
  | geometry request =>
    obtain ⟨t, ht, hs, hdesired⟩ := prepareGeometry_ok h
    obtain ⟨record, hrec, hgen, hid, -⟩ := target_current hm ht
    rw [hdesired]
    refine ⟨⟨record, hrec, hgen⟩, ⟨supported, hsupported, hs⟩, ?_, ?_, fun o' m' hm' hobs => ?_⟩
    · exact congrArg some hid
    · simp [Operation.IsClose]
    · obtain ⟨record', hrec', hframe⟩ := observed_record hm' hobs
      exact ⟨record', hid ▸ hrec', by simpa using hframe⟩

end Prepares

/-! ## Messages -/

/-- The client messages among the entries. -/
def messages (entries : List Step) : List (Window × ClientMessageEvent) :=
  entries.filterMap fun
    | .said (.sendMessage root event) _ => some (root, event)
    | _ => none

theorem messages_append (entries more : List Step) :
    messages (entries ++ more) = messages entries ++ messages more :=
  List.filterMap_append

theorem messages_quiet {entries : List Step} (h : ∀ e ∈ entries, Quiet e) :
    messages entries = [] := by
  refine List.filterMap_eq_nil_iff.mpr fun e he => ?_
  have hquiet := h e he
  cases e with
  | mark m => rfl
  | said q a => cases q <;> first | rfl | exact absurd hquiet id

/-- What `sendPrepared` has said: nothing but its checks, or its checks and the message. -/
inductive SendSpec (operation : Operation) (s : State) : Except Failure Desired → List Step → Prop
  | refused {f : Failure} {checks : List Step} (quiet : ∀ e ∈ checks, Quiet e) :
      SendSpec operation s (.error f) checks
  | unsent {f : Failure} {checks : List Step} {event : ClientMessageEvent} {fault : XFault}
      (quiet : ∀ e ∈ checks, Quiet e) (code : f.code = .unavailable) :
      SendSpec operation s (.error f)
        (checks ++ [.said (.sendMessage s.observer.root event) (.error fault)])
  | sent {desired : Desired} {checks : List Step} {event : ClientMessageEvent} {m : Model}
      {d : Desktop} (quiet : ∀ e ∈ checks, Quiet e)
      (refreshed : .mark (.refreshed s.observer.sequence m) ∈ checks)
      (read : .said .desktop d ∈ checks) (model : s.observer.model = some m)
      (prepares : Prepares d s.observer m operation desired) :
      SendSpec operation s (.ok desired)
        (checks ++ [.said (.sendMessage s.observer.root event) (.ok ())])

section Runs

variable (env : Outside)

/-- The entries of a quiet program, at hand for what follows. -/
theorem Learns.quietly {α : Type} {P : State → Prop} {m : XM α} {F : α → List Step → State → Prop}
    (h : Learns P m F) : Tells Moves Ungrabbing P m fun r added s =>
      (∀ e ∈ added, Quiet e) ∧ ∀ a, r = .ok a → F a added s := by
  intro w hw
  obtain ⟨added, htrace, hquiet, hmoves, hF⟩ := h w hw
  exact ⟨added, htrace, fun e he => Quiet.ungrabbing (hquiet e he), hmoves, hquiet, hF⟩

theorem sendPrepared_tells (operation : Operation) :
    Tells Moves Ungrabbing (fun _ => True) (sendPrepared env operation)
      fun r added s => SendSpec operation s r added := by
  unfold sendPrepared
  refine Tells.bind (refresh_learns env).quietly (fun _ checks => ?_)
    fun f checks s h => .refused h.1
  refine Tells.bind (F := fun r more s => ∃ d, r = .ok d ∧ more = [.said .desktop d] ∧
      (∀ e ∈ checks, Quiet e) ∧ ∃ m, s.observer.model = some m ∧
        .mark (.refreshed s.observer.sequence m) ∈ checks)
    (Tells.ask (fun _ => trivial) fun d s h => ⟨d, rfl, rfl, h.1, h.2 _ rfl⟩) (fun d more => ?_)
    fun f more s h => ?_
  rotate_left
  · obtain ⟨d, hd, -⟩ := h
    simp at hd
  intro w hw
  obtain ⟨d', hd, rfl, hquiet, m, hm, hmark⟩ := hw
  obtain rfl := Except.ok.inj hd
  have hall : ∀ e ∈ checks ++ [.said .desktop d], Quiet e := by
    intro e he
    rcases List.mem_append.mp he with he | he
    · exact hquiet e he
    · rw [List.mem_singleton.mp he]
      trivial
  unfold this
  rw [Prog.read_bind, id]
  cases hp : prepare d w.state.observer operation with
  | error f =>
    rw [Prog.lift_error_bind]
    exact ⟨[], (List.append_nil _).symm, by simp, .refl, by simpa using .refused hall⟩
  | ok prepared =>
    rw [Prog.lift_ok_bind]
    have hreply : reply "cannot send an EWMH request" "the X server refused an EWMH request"
        (Dialogue.ask env (.sendMessage w.state.observer.root prepared.event)) w =
      (checked "cannot send an EWMH request" "the X server refused an EWMH request"
          (env w.trace (.sendMessage w.state.observer.root prepared.event)),
        ⟨w.state, w.trace ++ [.said (.sendMessage w.state.observer.root prepared.event)
          (env w.trace (.sendMessage w.state.observer.root prepared.event))]⟩) := rfl
    generalize (env w.trace (.sendMessage w.state.observer.root prepared.event)) = answer at hreply
    cases (answer : Except XFault Unit) with
    | error fault =>
      obtain ⟨f, hf⟩ : ∃ f, checked "cannot send an EWMH request"
          "the X server refused an EWMH request" (.error fault : Except XFault Unit) = .error f := by
        cases fault <;> exact ⟨_, rfl⟩
      rw [hf] at hreply
      rw [Prog.bind_error hreply]
      refine ⟨_, rfl, by simp [Ungrabbing], .refl, ?_⟩
      show SendSpec operation w.state (.error f) (checks ++ ([.said .desktop d] ++ [_]))
      rw [← List.append_assoc]
      exact .unsent hall (checked_error hf)
    | ok u =>
      rw [Prog.bind_ok hreply]
      refine ⟨_, rfl, by simp [Ungrabbing], .refl, ?_⟩
      show SendSpec operation w.state (.ok prepared.desired) (checks ++ ([.said .desktop d] ++ [_]))
      rw [← List.append_assoc]
      exact .sent hall (List.mem_append_left _ hmark) (by simp) hm (prepare_prepares hm hp)

/-! ## Waiting for the effect -/

/-- What a reply says about the effect holds in a model that a refresh among the entries put in. -/
structure Told (operation : Operation) (sent : Model) (entries : List Step)
    (reply : ManagementReply) : Prop where
  observed : reply.observation = .observed →
    ∃ m, .mark (.refreshed reply.sequence m) ∈ entries ∧ operation.Reached sent m
  gone : reply.observation = .targetGone → ¬ operation.IsClose ∧
    ∃ m id, .mark (.refreshed reply.sequence m) ∈ entries ∧ operation.client = some id ∧
      recordOf m id = none

theorem Told.mono {operation : Operation} {sent : Model} {entries more : List Step}
    {reply : ManagementReply} (h : Told operation sent entries reply) (hsub : entries ⊆ more) :
    Told operation sent more reply := by
  constructor
  · intro hobs
    obtain ⟨m, hm, hreached⟩ := h.observed hobs
    exact ⟨m, hsub hm, hreached⟩
  · intro hgone
    obtain ⟨hclose, m, id, hm, hid, hnone⟩ := h.gone hgone
    exact ⟨hclose, m, id, hsub hm, hid, hnone⟩

section Waits

variable {d : Desktop} {o : Observer} {m : Model} {operation : Operation} {desired : Desired}
  (prepares : Prepares d o m operation desired)

include prepares

/-- What the waiting loop concludes from a model. -/
theorem terminal_told {o' : Observer} {m' : Model} {observation : Observation} {entries : List Step}
    (hm : o'.model = some m') (hmark : .mark (.refreshed o'.sequence m') ∈ entries)
    (h : desired.terminal o' = some observation) :
    Told operation m entries ⟨observation, o'.sequence⟩ := by
  unfold Desired.terminal at h
  by_cases hobs : desired.observed o' = true
  · rw [if_pos hobs] at h
    obtain rfl := Option.some.inj h
    exact ⟨fun _ => ⟨m', hmark, prepares.reached o' m' hm hobs⟩, nofun⟩
  · rw [if_neg hobs] at h
    cases htarget : desired.target with
    | none => simp [htarget] at h
    | some id =>
      rw [htarget] at h
      dsimp only at h
      by_cases hrec : (o'.record id).isSome
      · simp [hrec] at h
      · rw [if_neg hrec] at h
        have hnone : o'.record id = none := by simpa using hrec
        have habsent : recordOf m' id = none := by rw [← record_eq hm]; exact hnone
        cases desired with
        | closed id' =>
          -- an absent client is what a close wants, so this is observed above
          obtain rfl := Option.some.inj htarget
          exact absurd (by rw [Desired.observed, hnone]; rfl) hobs
        | active id' | workspace n | clientWorkspace id' n | state id' st present | geometry id' frame =>
          obtain rfl := Option.some.inj h
          refine ⟨nofun, fun _ => ⟨fun hclose => ?_, m', id, hmark, ?_, habsent⟩⟩
          · obtain ⟨id'', hid⟩ := prepares.close.mpr hclose
            exact absurd hid nofun
          · rw [← prepares.client, htarget]

theorem sampleTerminal_tells :
    Tells Moves Quiet (fun _ => True) (sampleTerminal env desired) fun r added _ =>
      ∃ seen sequence, r = .ok (seen, sequence) ∧
        ∀ observation, seen = some observation → Told operation m added ⟨observation, sequence⟩ := by
  unfold sampleTerminal
  refine Tells.bind (F := fun r added s => ∃ refreshed : Except Failure Unit, r = .ok refreshed ∧
      (refreshed = .ok () → ∃ m', s.observer.model = some m' ∧
        .mark (.refreshed s.observer.sequence m') ∈ added))
    (Tells.attempt (refresh_learns env) fun r added s h => ⟨r, rfl, fun hr => h () hr⟩)
    (fun refreshed added => ?_) fun f added s h => ?_
  rotate_left
  · obtain ⟨_, hr, -⟩ := h
    simp at hr
  refine Tells.bind (F := fun r more s => r = .ok s.observer ∧ more = [] ∧
      (refreshed = .ok () → ∃ m', s.observer.model = some m' ∧
        .mark (.refreshed s.observer.sequence m') ∈ added))
    (Tells.read fun s ⟨r, hr, h⟩ => ⟨rfl, rfl, Except.ok.inj hr ▸ h⟩) (fun o' more => ?_)
    fun f more s h => by simp at h
  refine Tells.pure fun s ⟨ho, hmore, h⟩ => ⟨_, _, rfl, fun observation hseen => ?_⟩
  obtain rfl := Except.ok.inj ho
  cases refreshed with
  | error f => simp [Except.toOption] at hseen
  | ok u =>
    obtain ⟨m', hm', hmark⟩ := h rfl
    rw [hmore, List.append_nil, List.append_nil]
    exact terminal_told prepares hm' hmark hseen

theorem observeRounds_tells (rounds : Nat) :
    Tells Moves Quiet (fun _ => True) (observeRounds env desired rounds) fun r added _ =>
      ∃ reply, r = .ok reply ∧ Told operation m added reply := by
  have htimeout (sequence : Nat) (entries : List Step) :
      Told operation m entries ⟨.timedOut, sequence⟩ := ⟨nofun, nofun⟩
  induction rounds with
  | zero =>
    refine Tells.bind (sampleTerminal_tells env prepares) (fun sample added => ?_)
      fun f added s ⟨_, _, h, _⟩ => by simp at h
    refine Tells.pure fun s ⟨seen, sequence, hr, hseen⟩ => ⟨_, rfl, ?_⟩
    obtain rfl := Except.ok.inj hr
    rw [List.append_nil]
    cases seen with
    | none => exact htimeout _ _
    | some observation => exact hseen observation rfl
  | succ rounds ih =>
    refine Tells.bind (sampleTerminal_tells env prepares) (fun sample added => ?_)
      fun f added s ⟨_, _, h, _⟩ => by simp at h
    obtain ⟨seen, sequence⟩ := sample
    cases seen with
    | none =>
      refine Tells.weaken ih (fun _ => id) (fun _ _ => trivial) fun r more s ⟨reply, hr, h⟩ => ?_
      exact ⟨reply, hr, h.mono (List.subset_append_right _ _)⟩
    | some observation =>
      refine Tells.pure fun s ⟨seen, sequence', hr, hseen⟩ => ⟨_, rfl, ?_⟩
      obtain ⟨rfl, rfl⟩ := Prod.mk.inj (Except.ok.inj hr)
      rw [List.append_nil]
      exact hseen observation rfl

theorem observeTerminal_tells :
    Tells Moves Quiet (fun _ => True) (observeTerminal env desired) fun r added _ =>
      ∃ reply, r = .ok reply ∧ Told operation m added reply := by
  unfold observeTerminal
  refine Tells.bind (F := fun r _ _ => ∃ n, r = .ok n) (Tells.ask (fun _ => trivial) fun n _ _ => ⟨n, rfl⟩)
    (fun rounds added => ?_) fun f added s ⟨_, h⟩ => by simp at h
  refine Tells.weaken (observeRounds_tells env prepares rounds) (fun _ => id) (fun _ _ => trivial)
    fun r more s ⟨reply, hr, h⟩ => ⟨reply, hr, h.mono (List.subset_append_right _ _)⟩

end Waits

/-! ## The law -/

/-- After the grab of `manage` failed nothing was sent; else this is what it does with the result
    of what it did under the grab. -/
theorem manage_run (operation : Operation) (w : World) :
    (∃ fault f, manage env operation w =
      (.error f, ⟨w.state, w.trace ++ [.said .grabServer (.error fault)]⟩) ∧
      f.code = .unavailable) ∨
    ∃ ungrab flush : Except XFault Unit, ∀ r s trace, sendPrepared env operation
        ⟨w.state, w.trace ++ [.said .grabServer (.ok ())]⟩ = (r, ⟨s, trace⟩) →
      manage env operation w =
        (Prog.lift r >>= fun desired => Prog.lift (checked "cannot request an X11 server ungrab"
            "cannot release the X11 server grab" ungrab) >>= fun _ : Unit =>
          Prog.lift (checked "cannot flush an EWMH request" "cannot flush an EWMH request" flush) >>=
            fun _ : Unit => observeTerminal env desired : XM ManagementReply)
          ⟨s, trace ++ [.said .ungrabServer ungrab, .said .flush flush]⟩ := by
  unfold manage
  have hgrab := grab_run env w
  generalize env w.trace .grabServer = answer at hgrab
  cases (answer : Except XFault Unit) with
  | error fault =>
    left
    cases fault with
    | send =>
      rw [Prog.bind_error hgrab]
      exact ⟨.send, _, rfl, rfl⟩
    | reply =>
      rw [Prog.bind_error hgrab]
      exact ⟨.reply, _, rfl, rfl⟩
  | ok u =>
    right
    rw [Prog.bind_ok hgrab]
    generalize hsend : sendPrepared env operation ⟨w.state, w.trace ++ [.said .grabServer (.ok ())]⟩ =
      outcome
    obtain ⟨r, s, trace⟩ := outcome
    refine ⟨env trace .ungrabServer, env (trace ++ [.said .ungrabServer (env trace .ungrabServer)])
      .flush, fun r' s' trace' h => ?_⟩
    obtain ⟨rfl, hs⟩ := Prod.mk.inj h
    obtain ⟨rfl, rfl⟩ := Dialogue.mk.inj hs
    rw [Prog.attempt_bind hsend]
    have htwo : trace ++ [.said .ungrabServer (env trace .ungrabServer),
        .said .flush (env (trace ++ [.said .ungrabServer (env trace .ungrabServer)]) .flush)] =
      trace ++ [.said .ungrabServer (env trace .ungrabServer)] ++
        [.said .flush (env (trace ++ [.said .ungrabServer (env trace .ungrabServer)]) .flush)] := by
      simp
    rw [htwo]
    rfl

/-- A message was sent exactly once, in the grab in which a refreshed model matched the request and
    the operation was advertised, and the reply tells what came after. -/
def SentOnce (operation : Operation) (o : Observer) (trace added : List Step)
    (reply : ManagementReply) : Prop :=
  ∃ before event after held sequence m d supported,
    added = before ++ .said (.sendMessage o.root event) (.ok ()) :: after ∧
    messages added = [(o.root, event)] ∧ hold (trace ++ before) = some held ∧
    .mark (.refreshed sequence m) ∈ held ∧ .said .desktop d ∈ held ∧
    operation.Matches sequence m ∧
    property32 d o.root o.atoms.supported atomType maxRootAtoms = .ok supported ∧
    operation.Advertised o.atoms (supported.getD []) ∧ Told operation m after reply

/-- One call sends at most one message; a reply means that it was sent and says what was seen after
    it; a failure other than `unavailable` means that none was. -/
theorem management_send_law (operation : Operation) (w : World) :
    ∃ added, (manage env operation w).2.trace = w.trace ++ added ∧ (messages added).length ≤ 1 ∧
      (∀ reply, (manage env operation w).1 = .ok reply →
        SentOnce operation w.state.observer w.trace added reply) ∧
      ∀ f, (manage env operation w).1 = .error f → f.code ≠ .unavailable → messages added = [] := by
  rcases manage_run env operation w with ⟨fault, f, hrun, hcode⟩ | ⟨ungrab, flush, hrun⟩
  · rw [hrun]
    exact ⟨_, rfl, by simp [messages], nofun, fun f' hf hno => absurd (Except.error.inj hf ▸ hcode) hno⟩
  obtain ⟨said, htrace, hungrabbing, hmoves, hspec⟩ := sendPrepared_tells env operation
    ⟨w.state, w.trace ++ [.said .grabServer (.ok ())]⟩ trivial
  rcases hsend : sendPrepared env operation ⟨w.state, w.trace ++ [.said .grabServer (.ok ())]⟩ with
    ⟨r, s, trace⟩
  rw [hsend] at htrace hmoves hspec
  dsimp only at htrace hmoves hspec
  rw [hrun r s trace hsend]
  have hsettings := hmoves.settings
  have hroot : s.observer.root = w.state.observer.root := congrArg Settings.root hsettings
  have hatoms : s.observer.atoms = w.state.observer.atoms := congrArg Settings.atoms hsettings
  have hafter (more : List Step) : trace ++ [.said .ungrabServer ungrab, .said .flush flush] ++ more =
      w.trace ++ (.said .grabServer (.ok ()) ::
        (said ++ .said .ungrabServer ungrab :: .said .flush flush :: more)) := by
    simp [htrace]
  have hmessages (more : List Step) : messages (.said .grabServer (.ok ()) ::
      (said ++ .said .ungrabServer ungrab :: .said .flush flush :: more)) =
      messages said ++ messages more := messages_append said _
  have hnone := hafter []
  rw [List.append_nil] at hnone
  cases hspec with
  | @refused f checks quiet =>
    refine ⟨_, hnone, ?_, nofun, fun f' _ _ => ?_⟩ <;> rw [hmessages, messages_quiet quiet]
    · exact Nat.zero_le _
    · rfl
  | @unsent f checks event fault quiet code =>
    refine ⟨_, hnone, ?_, nofun, fun f' hf hno => ?_⟩
    · rw [hmessages, messages_append, messages_quiet quiet]
      exact Nat.le_refl _
    · exact absurd (Except.error.inj hf ▸ code) hno
  | @sent desired checks event m d quiet refreshed read model prepares =>
    have hone : messages (checks ++ [.said (.sendMessage s.observer.root event) (.ok ())]) =
        [(s.observer.root, event)] := by
      rw [messages_append, messages_quiet quiet]
      rfl
    rw [Prog.lift_ok_bind]
    cases hu : checked "cannot request an X11 server ungrab" "cannot release the X11 server grab"
        ungrab with
    | error f =>
      rw [Prog.lift_error_bind]
      refine ⟨_, hnone, ?_, nofun, fun f' hf hno => ?_⟩
      · rw [hmessages, hone]
        exact Nat.le_refl _
      · exact absurd (Except.error.inj hf ▸ checked_error hu) hno
    | ok u =>
    rw [Prog.lift_ok_bind]
    cases hf : checked "cannot flush an EWMH request" "cannot flush an EWMH request" flush with
    | error f =>
      rw [Prog.lift_error_bind]
      refine ⟨_, hnone, ?_, nofun, fun f' hf' hno => ?_⟩
      · rw [hmessages, hone]
        exact Nat.le_refl _
      · exact absurd (Except.error.inj hf' ▸ checked_error hf) hno
    | ok u' =>
    rw [Prog.lift_ok_bind]
    obtain ⟨waited, hwaited, hquiet, -, reply, hreply, told⟩ := observeTerminal_tells env prepares
      ⟨s, trace ++ [.said .ungrabServer ungrab, .said .flush flush]⟩ trivial
    dsimp only at hwaited
    rw [hafter] at hwaited
    refine ⟨_, hwaited, ?_, fun reply' hr => ?_, fun f' hf' => ?_⟩
    · rw [hmessages, hone, messages_quiet hquiet]
      exact Nat.le_refl _
    · obtain rfl := Except.ok.inj (hreply.symm.trans hr)
      obtain ⟨supported, hsupported, hadvertised⟩ := prepares.advertised
      refine ⟨.said .grabServer (.ok ()) :: checks, event,
        .said .ungrabServer ungrab :: .said .flush flush :: waited, checks, s.observer.sequence, m, d,
        supported, ?_, ?_, hold_grabbed _ fun e he => Quiet.ungrabbing (quiet e he), refreshed, read,
        prepares.matched, ?_, ?_, told.mono ?_⟩
      · rw [← hroot]
        simp
      · rw [hmessages, hone, messages_quiet hquiet, ← hroot]
        rfl
      · rw [← hroot, ← hatoms]
        exact hsupported
      · rw [← hatoms]
        exact hadvertised
      · intro e he
        exact List.mem_cons_of_mem _ (List.mem_cons_of_mem _ he)
    · rw [hreply] at hf'
      simp at hf'

end Runs

end AgentSeat.Provider
