/-
  The successor of a model, and the events that lead to it.

  `Fate` is what became of one listed client: kept as it was, changed into the next generation of
  its descriptor, or added under a fresh id. `ModelDiff` puts the events of a refresh in their
  order: removals, fates in listing order, workspace, active. `refresh_spec` is the case analysis
  every invariant about models starts from.
-/
import AgentSeat.Observer.Refresh

namespace AgentSeat.X11

open AgentSeat.Lib AgentSeat.Proto

/-! ## The journal of numbered events -/

/-- The events that got a number, oldest first. -/
def journal (notes : List Note) : List EventEnvelope :=
  notes.filterMap fun
    | .pushed arrival => some arrival.envelope
    | _ => none

theorem journal_append (notes notes' : List Note) :
    journal (notes ++ notes') = journal notes ++ journal notes' :=
  List.filterMap_append

/-- `events` with the numbers after `n`. -/
def numbered (n : Nat) : List Event → List EventEnvelope
  | [] => []
  | event :: rest => ⟨n + 1, event⟩ :: numbered (n + 1) rest

theorem numbered_append (n : Nat) (es es' : List Event) :
    numbered n (es ++ es') = numbered n es ++ numbered (n + es.length) es' := by
  induction es generalizing n with
  | nil => rfl
  | cons e es ih =>
    rw [List.cons_append, numbered, numbered, ih, List.length_cons, List.cons_append]
    congr 3
    omega

theorem numbered_event (n : Nat) (es : List Event) :
    (numbered n es).map EventEnvelope.event = es := by
  induction es generalizing n with
  | nil => rfl
  | cons e es ih => rw [numbered, List.map_cons, ih]

theorem mem_numbered {n : Nat} {es : List Event} {x : EventEnvelope} (h : x ∈ numbered n es) :
    n < x.sequence ∧ x.sequence ≤ n + es.length ∧ x.event ∈ es := by
  induction es generalizing n with
  | nil => simp [numbered] at h
  | cons e es ih =>
    rw [numbered, List.mem_cons] at h
    rcases h with rfl | h
    · simp
    · obtain ⟨h₁, h₂, h₃⟩ := ih h
      rw [List.length_cons]
      refine ⟨by omega, ?_, List.mem_cons_of_mem _ h₃⟩
      omega

/-- From `s` to `s'` exactly `events` were pushed and `fresh` ids were allocated; nothing else
    was noted. -/
structure Advance (s s' : State) (events : List Event) (fresh : Nat) : Prop where
  sequence : s'.observer.sequence = s.observer.sequence + events.length
  nextClient : s'.observer.nextClient = s.observer.nextClient + fresh
  notes : ∃ added, s'.notes = s.notes ++ added ∧ (∀ n ∈ added, ∃ a, n = .pushed a) ∧
    journal added = numbered s.observer.sequence events

theorem Advance.refl (s : State) : Advance s s [] 0 :=
  ⟨rfl, rfl, [], by simp, by simp, rfl⟩

theorem Advance.trans {s s₁ s₂ : State} {es es' : List Event} {k k' : Nat}
    (h : Advance s s₁ es k) (h' : Advance s₁ s₂ es' k') : Advance s s₂ (es ++ es') (k + k') := by
  obtain ⟨hq, hn, added, ha, hp, hj⟩ := h
  obtain ⟨hq', hn', added', ha', hp', hj'⟩ := h'
  refine ⟨?_, by omega, added ++ added', ?_, ?_, ?_⟩
  · rw [hq', hq, List.length_append]
    omega
  · rw [ha', ha, List.append_assoc]
  · intro n h
    rcases List.mem_append.mp h with h | h
    · exact hp n h
    · exact hp' n h
  · rw [journal_append, hj, hj', numbered_append, hq]

theorem enqueue_sequence (o : Observer) (e : Event) : (enqueue o e).sequence = o.sequence := by
  unfold enqueue
  split
  · rfl
  · split <;> rfl

theorem enqueue_nextClient (o : Observer) (e : Event) :
    (enqueue o e).nextClient = o.nextClient := by
  unfold enqueue
  split
  · rfl
  · split <;> rfl

theorem numberedPush_advance (s : State) (e : Event) : Advance s (numberedPush s e) [e] 0 :=
  ⟨enqueue_sequence _ e, enqueue_nextClient _ e, _, rfl, by simp, rfl⟩

/-! ## Computations that succeed unless a counter runs out -/

/-- From `s` the program ends with `Q`, or a counter ran out. -/
def Yields {α : Type} (s : State) (m : ObserverM α) (Q : α → State → Prop) : Prop :=
  match m s with
  | (.ok a, s') => Q a s'
  | (.error _, s') => .exhausted ∈ s'.notes

section Yields

variable {α β : Type} {s : State}

theorem Yields.bind {m : ObserverM α} {f : α → ObserverM β} {R : α → State → Prop}
    {Q : β → State → Prop} (hm : Yields s m R) (hf : ∀ a s', R a s' → Yields s' (f a) Q) :
    Yields s (m >>= f) Q := by
  unfold Yields at hm ⊢
  rw [Prog.bind_run]
  rcases h : m s with ⟨r, s'⟩
  rw [h] at hm
  cases r with
  | ok a => exact hf a s' hm
  | error e => exact hm

theorem Yields.pure {a : α} {Q : α → State → Prop} (h : Q a s) :
    Yields s (Pure.pure a : ObserverM α) Q := h

theorem Yields.lift_ok {a : α} {r : Except Failure α} (h : r = .ok a) :
    Yields s (Prog.lift r : ObserverM α) fun b s' => a = b ∧ s = s' := by
  subst h
  exact ⟨rfl, rfl⟩

theorem Yields.self (f : Observer → α) :
    Yields s (self f) fun a s' => f s.observer = a ∧ s = s' := ⟨rfl, rfl⟩

theorem Yields.exhaust (message : String) {Q : α → State → Prop} :
    Yields s (exhaust message) Q := by
  change Note.exhausted ∈ s.notes ++ [.exhausted]
  simp

theorem Yields.weaken {m : ObserverM α} {Q Q' : α → State → Prop} (h : Yields s m Q)
    (hQ : ∀ a s', Q a s' → Q' a s') : Yields s m Q' := by
  unfold Yields at h ⊢
  rcases hm : m s with ⟨r, s'⟩
  rw [hm] at h
  cases r with
  | ok a => exact hQ a s' h
  | error e => exact h

end Yields

theorem pushEvent_yields (s : State) (e : Event) :
    Yields s (pushEvent e) fun _ s' => Advance s s' [e] 0 := by
  unfold Yields
  by_cases room : s.observer.sequence < u64Max
  · rw [pushEvent_room e room]
    exact numberedPush_advance s e
  · rw [pushEvent_full e room]
    simp

theorem pushIf_yields (s : State) (changed : Bool) (e : Event) :
    Yields s (pushIf changed e) fun _ s' => Advance s s' (if changed then [e] else []) 0 := by
  cases changed with
  | true => exact pushEvent_yields s e
  | false => exact Advance.refl s

theorem allocateClient_yields (s : State) :
    Yields s allocateClient fun id s' =>
      id.get = s.observer.nextClient ∧ Advance s s' [] 1 := by
  refine Yields.bind (Yields.self _) ?_
  rintro next _ ⟨rfl, rfl⟩
  split
  · next h =>
    cases hc : checkedSucc s.observer.nextClient with
    | none => exact Yields.exhaust _
    | some following =>
      obtain ⟨-, rfl⟩ := checkedSucc_eq_some.mp hc
      exact ⟨rfl, rfl, rfl, [], by simp, by simp, rfl⟩
  · exact Yields.exhaust _

/-! ## Fates -/

/-- What became of one listed client, given the records before and the next free id. -/
inductive Fate (previous : List ClientRecord) (next : Nat) :
    ClientRecord → List Event → Nat → Prop
  | kept (p : ClientRecord) (mem : p ∈ previous) : Fate previous next p [] 0
  | changed (p r : ClientRecord) (mem : p ∈ previous) (xid : r.xid = p.xid)
      (id : r.descriptor.id = p.descriptor.id)
      (generation : r.descriptor.generation = p.descriptor.generation + 1) :
      Fate previous next r [.clientChanged r.descriptor] 0
  | added (r : ClientRecord) (new : ∀ p ∈ previous, p.xid ≠ r.xid)
      (id : r.descriptor.id.get = next) (generation : r.descriptor.generation = 0) :
      Fate previous next r [.clientAdded r.descriptor] 1

/-- The fates of the listed clients, in listing order. -/
inductive Fates (previous : List ClientRecord) :
    Nat → List ClientRecord → List Event → Nat → Prop
  | nil (next : Nat) : Fates previous next [] [] 0
  | cons {next fresh fresh' : Nat} {r : ClientRecord} {rs : List ClientRecord}
      {es es' : List Event} (head : Fate previous next r es fresh)
      (tail : Fates previous (next + fresh) rs es' fresh') :
      Fates previous next (r :: rs) (es ++ es') (fresh + fresh')

theorem byXid_some {clients : List ClientRecord} {xid : Window} {p : ClientRecord}
    (h : byXid clients xid = some p) : p ∈ clients ∧ p.xid = xid := by
  unfold byXid at h
  refine ⟨List.mem_reverse.mp (List.mem_of_find?_eq_some h), ?_⟩
  simpa using List.find?_some h

theorem byXid_none {clients : List ClientRecord} {xid : Window} (h : byXid clients xid = none) :
    ∀ p ∈ clients, p.xid ≠ xid := by
  intro p hp
  unfold byXid at h
  rw [List.find?_eq_none] at h
  simpa using h p (List.mem_reverse.mpr hp)

/-- Lists within their bounds always make a descriptor. -/
theorem descriptor_ok {client : RawClient} (hs : client.states.length ≤ 16)
    (ha : client.actions.length ≤ 8) (id : ClientId) (generation : Nat) :
    ∃ d, descriptor client id generation = .ok d ∧ d.id = id ∧ d.generation = generation := by
  refine ⟨⟨id, generation, client.title, client.workspace, client.frame, ⟨client.states, hs⟩,
    ⟨client.actions, ha⟩⟩, ?_, rfl, rfl⟩
  simp only [descriptor, BoundedList.new_of_le hs, BoundedList.new_of_le ha]

section Clients

variable {s : State} {previous : List ClientRecord}

/-- The result of one client: its record, and the events and ids it took. -/
def ClientDone (s : State) (previous : List ClientRecord) (client : RawClient)
    (r : ClientRecord) (s' : State) : Prop :=
  r.xid = client.xid ∧ ∃ es fresh, Fate previous s.observer.nextClient r es fresh ∧
    Advance s s' es fresh

theorem diffKnown_yields {prior : ClientRecord} {client : RawClient} (mem : prior ∈ previous)
    (hx : prior.xid = client.xid) (hs : client.states.length ≤ 16)
    (ha : client.actions.length ≤ 8) :
    Yields s (diffKnown prior client) (ClientDone s previous client) := by
  obtain ⟨d, hd, -, -⟩ := descriptor_ok hs ha prior.descriptor.id prior.descriptor.generation
  refine Yields.bind (Yields.lift_ok hd) ?_
  rintro _ _ ⟨rfl, rfl⟩
  split
  · next same =>
    have hr : (⟨client.xid, d⟩ : ClientRecord) = prior := by rw [← hx, same]
    rw [hr]
    exact Yields.pure ⟨hx, [], 0, Fate.kept prior mem, Advance.refl s⟩
  · cases hg : checkedSucc prior.descriptor.generation with
    | none => exact Yields.exhaust _
    | some generation =>
      obtain ⟨-, rfl⟩ := checkedSucc_eq_some.mp hg
      obtain ⟨c, hc, hcid, hcgen⟩ :=
        descriptor_ok hs ha prior.descriptor.id (prior.descriptor.generation + 1)
      refine Yields.bind (Yields.lift_ok hc) ?_
      rintro _ _ ⟨rfl, rfl⟩
      refine Yields.bind (pushEvent_yields s _) ?_
      intro _ s' hadv
      exact Yields.pure ⟨rfl, _, 0, Fate.changed prior ⟨client.xid, c⟩ mem hx.symm hcid hcgen, hadv⟩

theorem diffNew_yields {client : RawClient} (new : ∀ p ∈ previous, p.xid ≠ client.xid)
    (hs : client.states.length ≤ 16) (ha : client.actions.length ≤ 8) :
    Yields s (diffNew client) (ClientDone s previous client) := by
  refine Yields.bind (allocateClient_yields s) ?_
  rintro id s₁ ⟨hid, hadv⟩
  obtain ⟨d, hd, hdid, hdgen⟩ := descriptor_ok hs ha id 0
  refine Yields.bind (Yields.lift_ok hd) ?_
  rintro _ _ ⟨rfl, rfl⟩
  refine Yields.bind (pushEvent_yields s₁ _) ?_
  intro _ s' hadv'
  refine Yields.pure ⟨rfl, _, 1, Fate.added ⟨client.xid, d⟩ new ?_ hdgen, ?_⟩
  · rw [hdid]
    exact hid
  · exact hadv.trans hadv'

theorem diffClient_yields {client : RawClient} (hs : client.states.length ≤ 16)
    (ha : client.actions.length ≤ 8) :
    Yields s (diffClient previous client) (ClientDone s previous client) := by
  unfold diffClient
  split
  · next prior h =>
    obtain ⟨mem, hx⟩ := byXid_some h
    exact diffKnown_yields mem hx hs ha
  · next h => exact diffNew_yields (byXid_none h) hs ha

theorem diffClients_yields {clients : List RawClient}
    (hs : ∀ c ∈ clients, c.states.length ≤ 16) (ha : ∀ c ∈ clients, c.actions.length ≤ 8) :
    Yields s (diffClients previous clients) fun rs s' =>
      rs.map ClientRecord.xid = clients.map RawClient.xid ∧
        ∃ es fresh, Fates previous s.observer.nextClient rs es fresh ∧ Advance s s' es fresh := by
  induction clients generalizing s with
  | nil => exact Yields.pure ⟨rfl, [], 0, Fates.nil _, Advance.refl s⟩
  | cons client rest ih =>
    refine Yields.bind (diffClient_yields (hs _ (by simp)) (ha _ (by simp))) ?_
    rintro r s₁ ⟨hx, es, fresh, hfate, hadv⟩
    refine Yields.bind (ih (fun c h => hs c (List.mem_cons_of_mem _ h))
      (fun c h => ha c (List.mem_cons_of_mem _ h))) ?_
    rintro rs s₂ ⟨hxs, es', fresh', hfates, hadv'⟩
    rw [hadv.nextClient] at hfates
    refine Yields.pure ⟨?_, es ++ es', fresh + fresh', Fates.cons hfate hfates, hadv.trans hadv'⟩
    rw [List.map_cons, List.map_cons, hx, hxs]

/-- A first model's clients are all new, and nothing is pushed for them. -/
theorem initialClients_yields {clients : List RawClient}
    (hs : ∀ c ∈ clients, c.states.length ≤ 16) (ha : ∀ c ∈ clients, c.actions.length ≤ 8) :
    Yields s (initialClients clients) fun rs s' =>
      rs.map ClientRecord.xid = clients.map RawClient.xid ∧
        ∃ es fresh, Fates [] s.observer.nextClient rs es fresh ∧ Advance s s' [] fresh := by
  induction clients generalizing s with
  | nil => exact Yields.pure ⟨rfl, [], 0, Fates.nil _, Advance.refl s⟩
  | cons client rest ih =>
    refine Yields.bind (allocateClient_yields s) ?_
    rintro id s₁ ⟨hid, hadv⟩
    obtain ⟨d, hd, hdid, hdgen⟩ := descriptor_ok (hs client (by simp)) (ha client (by simp)) id 0
    refine Yields.bind (Yields.lift_ok hd) ?_
    rintro _ _ ⟨rfl, rfl⟩
    refine Yields.bind (ih (fun c h => hs c (List.mem_cons_of_mem _ h))
      (fun c h => ha c (List.mem_cons_of_mem _ h))) ?_
    rintro rs s₂ ⟨hxs, es', fresh', hfates, hadv'⟩
    rw [hadv.nextClient] at hfates
    have head : Fate [] s.observer.nextClient ⟨client.xid, d⟩ [.clientAdded d] 1 :=
      Fate.added ⟨client.xid, d⟩ (by simp) (by rw [hdid]; exact hid) hdgen
    refine Yields.pure ⟨?_, _, 1 + fresh', Fates.cons head hfates, hadv.trans hadv'⟩
    rw [List.map_cons, List.map_cons, hxs]

end Clients

/-! ## Models -/

def removedEvents (current : List Window) (previous : List ClientRecord) : List Event :=
  (previous.filter fun client => client.xid ∉ current).map
    fun client => .clientRemoved client.descriptor.id

def workspaceEvents (previous next : Model) : List Event :=
  if previous.currentWorkspace ≠ next.currentWorkspace ∨ previous.workspaces ≠ next.workspaces
  then [.workspaceChanged next.currentWorkspace] else []

def activeEvents (previous next : Model) : List Event :=
  if previous.active ≠ next.active then [.activeChanged next.active] else []

/-- A model that can be looked up and published: one record per XID, within the public bounds,
    and the active client is among the records. -/
structure Model.WF (m : Model) : Prop where
  nodup : (m.clients.map ClientRecord.xid).Nodup
  clients_le : m.clients.length ≤ maxClients
  workspaces_le : m.workspaces.length ≤ maxWorkspaces
  active : ∀ id, m.active = some id → ∃ r ∈ m.clients, r.descriptor.id = id

/-- `next` follows `previous`; the refresh pushed `events` and allocated `fresh` ids. -/
structure ModelDiff (previous next : Model) (nextClient : Nat) (events : List Event)
    (fresh : Nat) : Prop where
  wf : next.WF
  fates : ∃ changes, Fates previous.clients nextClient next.clients changes fresh ∧
    events = removedEvents (next.clients.map ClientRecord.xid) previous.clients ++ changes ++
      workspaceEvents previous next ++ activeEvents previous next

/-- The first model of an observer. -/
structure FirstModel (m : Model) (nextClient fresh : Nat) : Prop where
  wf : m.WF
  fates : ∃ changes, Fates [] nextClient m.clients changes fresh

theorem activeId_mem {active : Option Window} {clients : List ClientRecord} {id : ClientId}
    (h : activeId active clients = some id) : ∃ r ∈ clients, r.descriptor.id = id := by
  unfold activeId at h
  obtain ⟨r, hr, rfl⟩ := Option.map_eq_some_iff.mp h
  obtain ⟨xid, -, hr⟩ := Option.bind_eq_some_iff.mp hr
  exact ⟨r, List.mem_of_find?_eq_some hr, rfl⟩

/-- Records listed as the scanned clients are, with the active one looked up among them. -/
theorem RawDesktop.WF.model {raw : RawDesktop} (wf : raw.WF) {records : List ClientRecord}
    (hx : records.map ClientRecord.xid = raw.clients.map RawClient.xid) :
    Model.WF ⟨raw.currentWorkspace, raw.workspaces, records, activeId raw.active records⟩ where
  nodup := by
    rw [hx]
    exact wf.nodup
  clients_le := by
    have hlen := congrArg List.length hx
    simp only [List.length_map] at hlen
    rw [hlen]
    exact wf.clients_le
  workspaces_le := wf.workspaces_le
  active _ h := activeId_mem h

theorem pushRemoved_yields (s : State) (current : List Window) (clients : List ClientRecord) :
    Yields s (pushRemoved current clients) fun _ s' =>
      Advance s s' (removedEvents current clients) 0 := by
  induction clients generalizing s with
  | nil => exact Yields.pure (Advance.refl s)
  | cons client rest ih =>
    refine Yields.bind (pushIf_yields s _ _) ?_
    intro _ s₁ hadv
    refine (ih s₁).weaken fun _ s₂ hadv' => ?_
    have h := hadv.trans hadv'
    by_cases hm : client.xid ∈ current
    · simpa [removedEvents, hm] using h
    · simpa [removedEvents, hm] using h

theorem initialModel_yields {s : State} {raw : RawDesktop} (wf : raw.WF) :
    Yields s (initialModel raw) fun m s' =>
      ∃ fresh, FirstModel m s.observer.nextClient fresh ∧ Advance s s' [] fresh := by
  refine Yields.bind (initialClients_yields wf.states_le wf.actions_le) ?_
  rintro rs s' ⟨hx, es, fresh, hfates, hadv⟩
  exact Yields.pure ⟨fresh, ⟨wf.model hx, es, hfates⟩, hadv⟩

theorem diffModel_yields {s : State} {previous : Model} {raw : RawDesktop} (wf : raw.WF) :
    Yields s (diffModel previous raw) fun m s' => ∃ es fresh,
      ModelDiff previous m s.observer.nextClient es fresh ∧ Advance s s' es fresh := by
  refine Yields.bind (pushRemoved_yields s _ _) ?_
  intro _ s₁ hremoved
  refine Yields.bind (diffClients_yields wf.states_le wf.actions_le) ?_
  rintro rs s₂ ⟨hx, changes, fresh, hfates, hclients⟩
  rw [hremoved.nextClient] at hfates
  refine Yields.bind (pushIf_yields s₂ _ _) ?_
  intro _ s₃ hworkspace
  refine Yields.bind (pushIf_yields s₃ _ _) ?_
  intro _ s₄ hactive
  have hadv := ((hremoved.trans hclients).trans hworkspace).trans hactive
  refine Yields.pure ⟨_, fresh, ⟨wf.model hx, changes, hfates, rfl⟩, ?_⟩
  simpa [workspaceEvents, activeEvents, hx] using hadv

/-! ## Refresh -/

/-- Everything a refresh can do to the model, the counters and the notes. -/
inductive RefreshSpec (s s' : State) : Except Failure Unit → Prop
  | failed (e : Failure) (model : s'.observer.model = s.observer.model)
      (nextClient : s'.observer.nextClient = s.observer.nextClient)
      (sequence : s'.observer.sequence = s.observer.sequence) (notes : s'.notes = s.notes) :
      RefreshSpec s s' (.error e)
  | exhausted (e : Failure) (mem : .exhausted ∈ s'.notes) : RefreshSpec s s' (.error e)
  | first (m : Model) (fresh : Nat) (absent : s.observer.model = none)
      (model : s'.observer.model = some m) (start : FirstModel m s.observer.nextClient fresh)
      (nextClient : s'.observer.nextClient = s.observer.nextClient + fresh)
      (sequence : s'.observer.sequence = s.observer.sequence)
      (notes : s'.notes = s.notes ++ [.refreshed s'.observer.sequence m]) :
      RefreshSpec s s' (.ok ())
  | next (p m : Model) (events : List Event) (fresh : Nat) (added : List Note)
      (present : s.observer.model = some p) (model : s'.observer.model = some m)
      (diff : ModelDiff p m s.observer.nextClient events fresh)
      (nextClient : s'.observer.nextClient = s.observer.nextClient + fresh)
      (sequence : s'.observer.sequence = s.observer.sequence + events.length)
      (notes : s'.notes = s.notes ++ added ++ [.refreshed s'.observer.sequence m])
      (pushes : ∀ n ∈ added, ∃ a, n = .pushed a)
      (numbers : journal added = numbered s.observer.sequence events) :
      RefreshSpec s s' (.ok ())

/-- The capture part moves nothing the model is made of. -/
structure SameModel (s s' : State) : Prop where
  model : s'.observer.model = s.observer.model
  nextClient : s'.observer.nextClient = s.observer.nextClient
  sequence : s'.observer.sequence = s.observer.sequence
  notes : s'.notes = s.notes

theorem SameModel.refl (s : State) : SameModel s s := ⟨rfl, rfl, rfl, rfl⟩

theorem SameModel.trans (a b c : State) (h : SameModel a b) (h' : SameModel b c) :
    SameModel a c :=
  ⟨h'.model.trans h.model, h'.nextClient.trans h.nextClient, h'.sequence.trans h.sequence,
    h'.notes.trans h.notes⟩

theorem reconcileCaptureTargets_sameModel (c : Composite) (clients : List Window) :
    Prog.Keeps SameModel (reconcileCaptureTargets c clients) := by
  have hbind {α β : Type} {m : ObserverM α} {f : α → ObserverM β} (hm : Prog.Keeps SameModel m)
      (hf : ∀ a, Prog.Keeps SameModel (f a)) : Prog.Keeps SameModel (m >>= f) :=
    Prog.Keeps.bind SameModel.trans hm hf
  have hself {α : Type} (f : Observer → α) : Prog.Keeps SameModel (self f) :=
    Prog.Keeps.read SameModel.refl _
  have hlift {α : Type} (r : Except Failure α) :
      Prog.Keeps SameModel (Prog.lift r : ObserverM α) := Prog.Keeps.lift SameModel.refl r
  have hpure : Prog.Keeps SameModel (pure () : ObserverM Unit) :=
    Prog.Keeps.pure SameModel.refl _
  have hleave (windows : List Window) :
      Prog.Keeps SameModel (unredirectDeparting c windows) := by
    induction windows with
    | nil => exact hpure
    | cons window rest ih => exact hbind (hlift _) fun _ => hbind (fun s => ⟨rfl, rfl, rfl, rfl⟩) fun _ => ih
  have harrive (windows : List Window) : Prog.Keeps SameModel (redirectArriving c windows) := by
    induction windows with
    | nil => exact hpure
    | cons window rest ih => exact hbind (hlift _) fun _ => hbind (fun s => ⟨rfl, rfl, rfl, rfl⟩) fun _ => ih
  have hrequire : Prog.Keeps SameModel (requireCompositeCapture c) := by
    refine hbind (hself _) fun known => ?_
    split
    · exact hpure
    · exact hbind (hlift _) fun _ => hbind (hlift _) fun _ => fun s => ⟨rfl, rfl, rfl, rfl⟩
  exact hbind hrequire fun _ => hbind (hself _) fun _ => hbind (hleave _) fun _ =>
    hbind (hself _) fun _ => harrive _

/-- Putting in the next model fails only when a counter runs out. -/
theorem absorb_yields (s : State) {raw : RawDesktop} (wf : raw.WF) :
    Yields s (absorb raw) fun _ s' => RefreshSpec s s' (.ok ()) := by
  refine Yields.bind (Yields.self _) ?_
  rintro previous _ ⟨rfl, rfl⟩
  refine Yields.bind (R := fun _ s₁ => { s with observer := { s.observer with model := none } } = s₁)
    rfl ?_
  rintro _ _ rfl
  cases hp : s.observer.model with
  | none =>
    refine Yields.bind (initialModel_yields wf) ?_
    rintro m s₂ ⟨fresh, hfirst, hadv⟩
    obtain ⟨hq, hn, added, hnotes, hpush, hj⟩ := hadv
    have hadded : added = [] := by
      cases added with
      | nil => rfl
      | cons n rest =>
        obtain ⟨a, rfl⟩ := hpush n (by simp)
        simp [journal, numbered] at hj
    refine RefreshSpec.first m fresh hp rfl hfirst hn hq ?_
    change s₂.notes ++ _ = _
    rw [hnotes, hadded, List.append_nil]
  | some p =>
    refine Yields.bind (diffModel_yields wf) ?_
    rintro m s₂ ⟨es, fresh, hdiff, hadv⟩
    obtain ⟨hq, hn, added, hnotes, hpush, hj⟩ := hadv
    refine RefreshSpec.next p m es fresh added hp rfl hdiff hn hq ?_ hpush hj
    change s₂.notes ++ _ = _
    rw [hnotes]

theorem absorb_spec (s : State) {raw : RawDesktop} (wf : raw.WF) :
    RefreshSpec s (absorb raw s).2 (absorb raw s).1 := by
  have key := absorb_yields s wf
  unfold Yields at key
  rcases h : absorb raw s with ⟨r, s'⟩
  rw [h] at key
  cases r with
  | ok u => exact key
  | error e => exact .exhausted e key

theorem RefreshSpec.of_sameModel {s s₁ s' : State} {r : Except Failure Unit}
    (h : SameModel s s₁) (spec : RefreshSpec s₁ s' r) : RefreshSpec s s' r := by
  obtain ⟨hm, hn, hq, ht⟩ := h
  cases spec with
  | failed e model nextClient sequence notes =>
    exact .failed e (model.trans hm) (nextClient.trans hn) (sequence.trans hq) (notes.trans ht)
  | exhausted e mem => exact .exhausted e mem
  | first m fresh absent model start nextClient sequence notes =>
    rw [hm] at absent
    rw [hn] at start nextClient
    exact .first m fresh absent model start nextClient (sequence.trans hq) (by rw [notes, ht])
  | next p m events fresh added present model diff nextClient sequence notes pushes numbers =>
    rw [hm] at present
    rw [hn] at diff nextClient
    rw [hq] at sequence numbers
    exact .next p m events fresh added present model diff nextClient sequence
      (by rw [notes, ht]) pushes numbers

theorem refresh_spec (sample : Sample) (s : State) :
    RefreshSpec s (refresh sample s).2 (refresh sample s).1 := by
  unfold refresh self
  rw [Prog.read_bind, id]
  cases hscan : scan sample.desktop s.observer.root s.observer.atoms s.observer.scope
      s.observer.showTitles with
  | error e =>
    rw [Prog.lift_error_bind]
    exact .failed e rfl rfl rfl rfl
  | ok raw =>
    rw [Prog.lift_ok_bind]
    have hkeep := Prog.Keeps.onlyIf SameModel.refl (reconcileCaptureTargets_sameModel
      sample.composite (raw.clients.map RawClient.xid)) s.observer.captureEnabled s
    rcases hrec : Prog.onlyIf s.observer.captureEnabled (reconcileCaptureTargets sample.composite
      (raw.clients.map RawClient.xid)) s with ⟨r, s₁⟩
    rw [hrec] at hkeep
    cases r with
    | error e =>
      rw [Prog.bind_error hrec]
      exact .failed e hkeep.model hkeep.nextClient hkeep.sequence hkeep.notes
    | ok u =>
      rw [Prog.bind_ok hrec]
      exact (absorb_spec s₁ (scan_wf hscan)).of_sameModel hkeep

end AgentSeat.X11
