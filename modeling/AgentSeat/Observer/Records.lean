/-
  The records of a refreshed model: each describes a client of the scan it came from, and no two
  share an id.

  Unlike the results of `Identity`, uniqueness here does not ask that the counters have room: a
  refresh that runs out of one leaves no model at all.
-/
import AgentSeat.Observer.Identity
import AgentSeat.Observer.Target

namespace AgentSeat.X11

open AgentSeat.Lib AgentSeat.Proto

/-! ## Records and scanned clients -/

/-- The record says about a client what the scan read of it. -/
structure Describes (client : RawClient) (record : ClientRecord) : Prop where
  xid : record.xid = client.xid
  frame : record.descriptor.frame = client.frame
  states : record.descriptor.states.asSlice = client.states
  actions : record.descriptor.actions.asSlice = client.actions

theorem descriptor_describes {client : RawClient} {id : ClientId} {generation : Nat}
    {d : ClientDescriptor} (h : descriptor client id generation = .ok d) :
    Describes client ⟨client.xid, d⟩ := by
  unfold descriptor at h
  split at h
  · simp at h
  · next states hstates =>
    split at h
    · simp at h
    · next actions hactions =>
      obtain rfl := Except.ok.inj h
      exact ⟨rfl, rfl, (BoundedList.new_eq_ok.mp hstates).symm,
        (BoundedList.new_eq_ok.mp hactions).symm⟩

theorem described {clients : List RawClient} {records : List ClientRecord}
    (h : List.Forall₂ Describes clients records) {r : ClientRecord} (hr : r ∈ records) :
    ∃ client ∈ clients, Describes client r := by
  induction h with
  | nil => simp at hr
  | cons head tail ih =>
    rcases List.mem_cons.mp hr with rfl | hr
    · exact ⟨_, List.mem_cons_self .., head⟩
    · obtain ⟨client, hclient, hdescribes⟩ := ih hr
      exact ⟨client, List.mem_cons_of_mem _ hclient, hdescribes⟩

theorem lift_ok {σ ε α : Type} {r : Except ε α} {a : α} {s s' : σ}
    (h : (Prog.lift r : Prog σ ε α) s = (.ok a, s')) : r = .ok a := congrArg Prod.fst h

theorem initialClients_describes {clients : List RawClient} {records : List ClientRecord}
    {s s' : State} (h : initialClients clients s = (.ok records, s')) :
    List.Forall₂ Describes clients records := by
  induction clients generalizing records s s' with
  | nil =>
    obtain rfl := Except.ok.inj (congrArg Prod.fst h)
    exact .nil
  | cons client rest ih =>
    obtain ⟨id, s₁, -, h⟩ := Prog.of_bind_ok h
    obtain ⟨d, s₂, hd, h⟩ := Prog.of_bind_ok h
    obtain ⟨records', s₃, hr, h⟩ := Prog.of_bind_ok h
    obtain rfl := Except.ok.inj (congrArg Prod.fst h)
    exact .cons (descriptor_describes (lift_ok hd)) (ih hr)

theorem diffClient_describes {previous : List ClientRecord} {client : RawClient}
    {record : ClientRecord} {s s' : State} (h : diffClient previous client s = (.ok record, s')) :
    Describes client record := by
  unfold diffClient at h
  cases hb : byXid previous client.xid with
  | some prior =>
    rw [hb] at h
    obtain ⟨unchanged, s₁, hd, h⟩ := Prog.of_bind_ok h
    by_cases hsame : unchanged = prior.descriptor
    · rw [if_pos hsame] at h
      obtain rfl := Except.ok.inj (congrArg Prod.fst h)
      exact descriptor_describes (lift_ok hd)
    · rw [if_neg hsame] at h
      cases hg : checkedSucc prior.descriptor.generation with
      | none =>
        rw [hg] at h
        obtain ⟨_, _, _, h⟩ := Prog.of_bind_ok h
        simp [Prog.fail] at h
      | some generation =>
        rw [hg] at h
        obtain ⟨changed, s₂, hc, h⟩ := Prog.of_bind_ok h
        obtain ⟨_, _, _, h⟩ := Prog.of_bind_ok h
        obtain rfl := Except.ok.inj (congrArg Prod.fst h)
        exact descriptor_describes (lift_ok hc)
  | none =>
    rw [hb] at h
    obtain ⟨id, s₁, -, h⟩ := Prog.of_bind_ok h
    obtain ⟨added, s₂, hd, h⟩ := Prog.of_bind_ok h
    obtain ⟨_, _, _, h⟩ := Prog.of_bind_ok h
    obtain rfl := Except.ok.inj (congrArg Prod.fst h)
    exact descriptor_describes (lift_ok hd)

theorem diffClients_describes {previous : List ClientRecord} {clients : List RawClient}
    {records : List ClientRecord} {s s' : State}
    (h : diffClients previous clients s = (.ok records, s')) :
    List.Forall₂ Describes clients records := by
  induction clients generalizing records s s' with
  | nil =>
    obtain rfl := Except.ok.inj (congrArg Prod.fst h)
    exact .nil
  | cons client rest ih =>
    obtain ⟨record, s₁, hc, h⟩ := Prog.of_bind_ok h
    obtain ⟨records', s₂, hr, h⟩ := Prog.of_bind_ok h
    obtain rfl := Except.ok.inj (congrArg Prod.fst h)
    exact .cons (diffClient_describes hc) (ih hr)

theorem nextModel_describes {previous : Option Model} {raw : RawDesktop} {m : Model}
    {s s' : State} (h : nextModel previous raw s = (.ok m, s')) :
    List.Forall₂ Describes raw.clients m.clients ∧ m.workspaces = raw.workspaces := by
  cases previous with
  | none =>
    obtain ⟨records, s₁, hr, h⟩ := Prog.of_bind_ok h
    obtain rfl := Except.ok.inj (congrArg Prod.fst h)
    exact ⟨initialClients_describes hr, rfl⟩
  | some p =>
    obtain ⟨_, s₁, -, h⟩ := Prog.of_bind_ok h
    obtain ⟨records, s₂, hr, h⟩ := Prog.of_bind_ok h
    obtain ⟨_, _, -, h⟩ := Prog.of_bind_ok h
    obtain ⟨_, _, -, h⟩ := Prog.of_bind_ok h
    obtain rfl := Except.ok.inj (congrArg Prod.fst h)
    exact ⟨diffClients_describes hr, rfl⟩

/-- A refresh that succeeds puts in a model of the desktop it scanned. -/
theorem refresh_describes {sample : Sample} {s s' : State} (h : refresh sample s = (.ok (), s')) :
    ∃ raw m, scan sample.desktop s.observer.root s.observer.atoms s.observer.scope
        s.observer.showTitles = .ok raw ∧ s'.observer.model = some m ∧
      List.Forall₂ Describes raw.clients m.clients ∧ m.workspaces = raw.workspaces := by
  obtain ⟨o, s₁, ho, h⟩ := Prog.of_bind_ok h
  obtain ⟨raw, s₂, hscan, h⟩ := Prog.of_bind_ok h
  obtain ⟨_, s₃, -, h⟩ := Prog.of_bind_ok h
  obtain ⟨previous, s₄, -, h⟩ := Prog.of_bind_ok h
  obtain ⟨_, s₅, -, h⟩ := Prog.of_bind_ok h
  obtain ⟨m, s₆, hm, hinstall⟩ := Prog.of_bind_ok h
  obtain ⟨hclients, hworkspaces⟩ := nextModel_describes hm
  obtain rfl := Except.ok.inj (congrArg Prod.fst ho)
  refine ⟨raw, m, lift_ok hscan, ?_, hclients, hworkspaces⟩
  obtain rfl : (install m s₆).2 = s' := congrArg Prod.snd hinstall
  rfl

/-! ## A refresh that fails while it builds the next model leaves none -/

/-- The model in force is the same. -/
def SameSlot (s s' : State) : Prop := s'.observer.model = s.observer.model

section Slot

variable {α β : Type}

theorem slot_bind {m : ObserverM α} {f : α → ObserverM β} (hm : Prog.Keeps SameSlot m)
    (hf : ∀ a, Prog.Keeps SameSlot (f a)) : Prog.Keeps SameSlot (m >>= f) :=
  Prog.Keeps.bind (fun _ _ _ h h' => h'.trans h) hm hf

theorem slot_pure (a : α) : Prog.Keeps SameSlot (pure a : ObserverM α) := fun _ => rfl

theorem slot_self (f : Observer → α) : Prog.Keeps SameSlot (self f) := fun _ => rfl

theorem slot_lift (r : Except Failure α) : Prog.Keeps SameSlot (Prog.lift r : ObserverM α) :=
  fun _ => rfl

theorem slot_exhaust (message : String) : Prog.Keeps SameSlot (exhaust message : ObserverM α) :=
  fun _ => rfl

theorem enqueue_model (o : Observer) (e : Event) : (enqueue o e).model = o.model := by
  unfold enqueue
  split
  · rfl
  · split <;> rfl

theorem slot_pushEvent (event : Event) : Prog.Keeps SameSlot (pushEvent event) := by
  refine slot_bind (slot_self _) fun prior => ?_
  cases checkedSucc prior with
  | none => exact slot_exhaust _
  | some sequence =>
    refine slot_bind (slot_self _) fun retained => slot_bind (fun s => ?_) fun _ s => rfl
    exact enqueue_model _ event

theorem slot_pushIf (changed : Bool) (event : Event) : Prog.Keeps SameSlot (pushIf changed event) :=
  Prog.Keeps.onlyIf (R := SameSlot) (fun _ => rfl) (slot_pushEvent event) changed

theorem slot_allocateClient : Prog.Keeps SameSlot allocateClient := by
  refine slot_bind (slot_self _) fun next => ?_
  split
  · cases checkedSucc next with
    | none => exact slot_exhaust _
    | some following => exact slot_bind (fun s => rfl) fun _ => slot_pure _
  · exact slot_exhaust _

theorem slot_initialClients (clients : List RawClient) :
    Prog.Keeps SameSlot (initialClients clients) := by
  induction clients with
  | nil => exact slot_pure _
  | cons client rest ih =>
    exact slot_bind slot_allocateClient fun _ => slot_bind (slot_lift _) fun _ =>
      slot_bind ih fun _ => slot_pure _

theorem slot_pushRemoved (current : List Window) (clients : List ClientRecord) :
    Prog.Keeps SameSlot (pushRemoved current clients) := by
  induction clients with
  | nil => exact slot_pure _
  | cons client rest ih => exact slot_bind (slot_pushIf _ _) fun _ => ih

theorem slot_diffClient (previous : List ClientRecord) (client : RawClient) :
    Prog.Keeps SameSlot (diffClient previous client) := by
  unfold diffClient
  cases byXid previous client.xid with
  | some prior =>
    refine slot_bind (slot_lift _) fun unchanged => ?_
    split
    · exact slot_pure _
    · cases checkedSucc prior.descriptor.generation with
      | none => exact slot_exhaust _
      | some generation =>
        exact slot_bind (slot_lift _) fun _ => slot_bind (slot_pushEvent _) fun _ => slot_pure _
  | none =>
    exact slot_bind slot_allocateClient fun _ => slot_bind (slot_lift _) fun _ =>
      slot_bind (slot_pushEvent _) fun _ => slot_pure _

theorem slot_diffClients (previous : List ClientRecord) (clients : List RawClient) :
    Prog.Keeps SameSlot (diffClients previous clients) := by
  induction clients with
  | nil => exact slot_pure _
  | cons client rest ih =>
    exact slot_bind (slot_diffClient _ _) fun _ => slot_bind ih fun _ => slot_pure _

theorem slot_nextModel (previous : Option Model) (raw : RawDesktop) :
    Prog.Keeps SameSlot (nextModel previous raw) := by
  cases previous with
  | none => exact slot_bind (slot_initialClients _) fun _ => slot_pure _
  | some p =>
    exact slot_bind (slot_pushRemoved _ _) fun _ => slot_bind (slot_diffClients _ _) fun _ =>
      slot_bind (slot_pushIf _ _) fun _ => slot_bind (slot_pushIf _ _) fun _ => slot_pure _

end Slot

/-- After a refresh that failed the model is the one before it, under the same counter, or gone. -/
theorem refresh_error_model {sample : Sample} {s s' : State} {e : Failure}
    (h : refresh sample s = (.error e, s')) :
    s'.observer.model = none ∨
      s'.observer.model = s.observer.model ∧ s'.observer.nextClient = s.observer.nextClient := by
  unfold refresh self at h
  rw [Prog.read_bind] at h
  rcases Prog.of_bind_error h with h | ⟨raw, s₁, hscan, h⟩
  · obtain rfl : s = s' := congrArg Prod.snd h
    exact .inr ⟨rfl, rfl⟩
  obtain rfl : s = s₁ := congrArg Prod.snd hscan
  have hkeep := Prog.Keeps.onlyIf SameModel.refl (reconcileCaptureTargets_sameModel
    sample.composite (raw.clients.map RawClient.xid)) s.observer.captureEnabled s
  rcases Prog.of_bind_error h with h | ⟨u, s₂, hrec, h⟩
  · rw [show (Prog.onlyIf s.observer.captureEnabled (reconcileCaptureTargets sample.composite
      (raw.clients.map RawClient.xid)) s).2 = s' from congrArg Prod.snd h] at hkeep
    exact .inr ⟨hkeep.model, hkeep.nextClient⟩
  unfold absorb self modify at h
  rw [Prog.read_bind, Prog.update_bind] at h
  rcases Prog.of_bind_error h with h | ⟨m, s₃, -, h⟩
  · have hslot := slot_nextModel s₂.observer.model raw
      { s₂ with observer := { s₂.observer with model := none } }
    rw [h] at hslot
    exact .inl hslot
  · exact absurd (congrArg Prod.fst h) nofun

/-! ## One record for an id -/

/-- No two records of the model share an id, and no id is still to be given out. -/
def UniqueIds (s : State) : Prop :=
  ∀ m, s.observer.model = some m →
    m.ids.Nodup ∧ ∀ r ∈ m.clients, r.descriptor.id.get < s.observer.nextClient

theorem Model.eq_of_id {m : Model} (h : m.ids.Nodup) {r r' : ClientRecord} (hr : r ∈ m.clients)
    (hr' : r' ∈ m.clients) (hid : r.descriptor.id = r'.descriptor.id) : r = r' :=
  List.inj_on_of_nodup_map h hr hr' hid

theorem Fates.uniqueIds {previous rs : List ClientRecord} {next fresh : Nat} {events : List Event}
    (h : Fates previous next rs events fresh) (hx : (rs.map ClientRecord.xid).Nodup)
    (inj : ∀ p ∈ previous, ∀ p' ∈ previous, p.descriptor.id = p'.descriptor.id → p = p')
    (below : ∀ p ∈ previous, p.descriptor.id.get < next) :
    (rs.map fun r => r.descriptor.id).Nodup ∧ ∀ r ∈ rs, r.descriptor.id.get < next + fresh := by
  refine ⟨h.ids_nodup hx inj below, fun r hr => ?_⟩
  cases h.origin r hr with
  | kept mem =>
    have := below r mem
    omega
  | changed p mem xid id generation event =>
    have := below p mem
    rw [id]
    omega
  | added new lower upper generation event => exact upper

theorem refresh_uniqueIds (sample : Sample) {s : State} (inv : UniqueIds s) :
    UniqueIds (refresh sample s).2 := by
  rcases h : refresh sample s with ⟨r, s'⟩
  cases r with
  | error e =>
    intro m hm
    rcases refresh_error_model h with hnone | ⟨hsame, hnext⟩
    · rw [hnone] at hm
      simp at hm
    · dsimp only at hm ⊢
      rw [hsame] at hm
      rw [hnext]
      exact inv m hm
  | ok u =>
    have spec := refresh_spec sample s
    rw [h] at spec
    intro m hm
    dsimp only at hm ⊢
    cases spec with
    | first m' fresh absent model start nextClient sequence notes =>
      obtain rfl := Option.some.inj (model.symm.trans hm)
      obtain ⟨changes, hfates⟩ := start.fates
      rw [nextClient]
      exact hfates.uniqueIds start.wf.nodup (by simp) (by simp)
    | next p m' events fresh added present model diff nextClient sequence notes pushes numbers =>
      obtain rfl := Option.some.inj (model.symm.trans hm)
      obtain ⟨changes, hfates, -⟩ := diff.fates
      obtain ⟨hids, hbelow⟩ := inv p present
      rw [nextClient]
      exact hfates.uniqueIds diff.wf.nodup (fun r hr r' hr' => Model.eq_of_id hids hr hr') hbelow

theorem Connection.run_uniqueIds (c : Connection) (ops : List Op) :
    UniqueIds (c.run ops).state := by
  refine c.run_invariant (fun m hm => ?_) (fun sample s inv => refresh_uniqueIds sample inv)
    (fun s o same inv m hm => ?_) ops
  · simp [Connection.run, Run.start, Run.after, connected] at hm
  · obtain ⟨hmodel, hnext, -, -⟩ := same
    dsimp only at hmodel hnext hm ⊢
    rw [hmodel] at hm
    rw [hnext]
    exact inv m hm

/-- A record is the target its own id and generation name. -/
theorem UniqueIds.target_eq {s : State} (inv : UniqueIds s) {m : Model} {r : ClientRecord}
    (hm : s.observer.model = some m) (hr : r ∈ m.clients) :
    s.observer.target ⟨r.descriptor.id, r.descriptor.generation⟩ =
      .ok ⟨r.descriptor.id, r.xid, r.descriptor.frame, r.descriptor.states.asSlice,
        r.descriptor.actions.asSlice⟩ := by
  have hrecord : s.observer.record r.descriptor.id = some r := by
    unfold Observer.record
    rw [hm, Option.bind_some]
    obtain ⟨r', hr'⟩ : ∃ r', m.clients.find? (fun record =>
        decide (record.descriptor.id = r.descriptor.id)) = some r' :=
      Option.isSome_iff_exists.mp (List.find?_isSome.mpr ⟨r, hr, by simp⟩)
    have hid : r'.descriptor.id = r.descriptor.id := by simpa using List.find?_some hr'
    rw [hr', Model.eq_of_id (inv m hm).1 (List.mem_of_find?_eq_some hr') hr hid]
  unfold Observer.target
  rw [hrecord]
  simp

end AgentSeat.X11
