/-
  Handles are never reused.

  A client id is allocated from a counter, moves with its XID from model to model, and is dropped
  with it. `IdInv` relates the counter, the model and every model there was before: ids are below
  the counter, an id keeps its XID, the current generation of an id is its largest, and an id that
  was missing once stays missing.

  Main result:
  * `handles_fresh`: over every run without an exhausted counter, handles name one XID, do not come
    back once removed, and pin every field of a published descriptor together with the generation.
-/
import AgentSeat.Observer.EventLog
import AgentSeat.Observer.Target
import Mathlib.Data.List.Induction

namespace AgentSeat.X11

open AgentSeat.Lib AgentSeat.Proto

/-- The models put in so far, oldest first. -/
def models (notes : List Note) : List Model :=
  notes.filterMap fun
    | .refreshed _ model => some model
    | _ => none

def Model.ids (m : Model) : List ClientId := m.clients.map fun r => r.descriptor.id

theorem models_append (notes notes' : List Note) :
    models (notes ++ notes') = models notes ++ models notes' :=
  List.filterMap_append

theorem models_pushes {added : List Note} (h : ∀ n ∈ added, ∃ a, n = .pushed a) :
    models added = [] := by
  refine List.filterMap_eq_nil_iff.mpr fun n hn => ?_
  obtain ⟨a, rfl⟩ := h n hn
  rfl

/-! ## Where a record comes from -/

/-- A listed client kept or changed a record of the previous model, or it is new. -/
inductive Origin (previous : List ClientRecord) (next fresh : Nat) (events : List Event)
    (r : ClientRecord) : Prop
  | kept (mem : r ∈ previous)
  | changed (p : ClientRecord) (mem : p ∈ previous) (xid : r.xid = p.xid)
      (id : r.descriptor.id = p.descriptor.id)
      (generation : r.descriptor.generation = p.descriptor.generation + 1)
      (event : .clientChanged r.descriptor ∈ events)
  | added (new : ∀ p ∈ previous, p.xid ≠ r.xid) (lower : next ≤ r.descriptor.id.get)
      (upper : r.descriptor.id.get < next + fresh) (generation : r.descriptor.generation = 0)
      (event : .clientAdded r.descriptor ∈ events)

section Fates

variable {previous rs : List ClientRecord} {next fresh : Nat} {events : List Event}

theorem Fate.origin {r : ClientRecord} (h : Fate previous next r events fresh) :
    Origin previous next fresh events r := by
  cases h with
  | kept p mem => exact .kept mem
  | changed p r mem xid id generation => exact .changed p mem xid id generation (by simp)
  | added r new id generation => exact .added new (by omega) (by omega) generation (by simp)

theorem Origin.widen {r : ClientRecord} {next' fresh' : Nat} {events' : List Event}
    (h : Origin previous next fresh events r) (hnext : next' ≤ next)
    (hfresh : next + fresh ≤ next' + fresh') (hevents : events ⊆ events') :
    Origin previous next' fresh' events' r := by
  cases h with
  | kept mem => exact .kept mem
  | changed p mem xid id generation event =>
    exact .changed p mem xid id generation (hevents event)
  | added new lower upper generation event =>
    exact .added new (by omega) (by omega) generation (hevents event)

theorem Fates.origin (h : Fates previous next rs events fresh) :
    ∀ r ∈ rs, Origin previous next fresh events r := by
  induction h with
  | nil next => simp
  | cons head tail ih =>
    intro r hr
    rcases List.mem_cons.mp hr with rfl | hr
    · exact head.origin.widen (by omega) (by omega) (List.subset_append_left _ _)
    · exact (ih r hr).widen (by omega) (by omega) (List.subset_append_right _ _)

/-- The record of the previous model behind a listed client that is not new. -/
theorem Origin.known {r : ClientRecord} (h : Origin previous next fresh events r) :
    (∃ p ∈ previous, p.xid = r.xid ∧ p.descriptor.id = r.descriptor.id ∧
      p.descriptor.generation ≤ r.descriptor.generation ∧
      (p.descriptor.generation = r.descriptor.generation → p = r)) ∨
    next ≤ r.descriptor.id.get := by
  cases h with
  | kept mem => exact .inl ⟨r, mem, rfl, rfl, Nat.le_refl _, fun _ => rfl⟩
  | changed p mem xid id generation event =>
    exact .inl ⟨p, mem, xid.symm, id.symm, by omega, by omega⟩
  | added new lower upper generation event => exact .inr lower

/-- Ids stay distinct: known clients bring theirs along, new ones get the next free ones. -/
theorem Fates.ids_nodup (h : Fates previous next rs events fresh)
    (hx : (rs.map ClientRecord.xid).Nodup)
    (inj : ∀ p ∈ previous, ∀ p' ∈ previous, p.descriptor.id = p'.descriptor.id → p = p')
    (below : ∀ p ∈ previous, p.descriptor.id.get < next) :
    (rs.map fun r => r.descriptor.id).Nodup := by
  induction h with
  | nil next => exact List.nodup_nil
  | @cons next fresh fresh' r rs es es' head tail ih =>
    rw [List.map_cons, List.nodup_cons] at hx ⊢
    refine ⟨fun hmem => ?_, ih hx.2 fun p hp => by have := below p hp; omega⟩
    obtain ⟨r', hr', hid⟩ := List.mem_map.mp hmem
    have hget := congrArg ClientId.get hid
    rcases (tail.origin r' hr').known with ⟨p', hp', hx', hid', -, -⟩ | hnew'
    · have hbelow' := below p' hp'
      rw [hid'] at hbelow'
      rcases head.origin.known with ⟨p, hp, hx₀, hid₀, -, -⟩ | hnew
      · have hpp := inj p hp p' hp' (by rw [hid₀, hid', hid])
        exact hx.1 (List.mem_map.mpr ⟨r', hr', by rw [← hx', ← hx₀, hpp]⟩)
      · omega
    · cases head with
      | kept p mem =>
        have := below _ mem
        omega
      | changed p r mem xid id generation =>
        have := below p mem
        rw [← id] at this
        omega
      | added r new id generation => omega

end Fates

/-! ## The invariant -/

/-- Any two records in the history under one id have one XID, and under one generation they are
    the same record. -/
def Consistent (history : List Model) : Prop :=
  ∀ h ∈ history, ∀ h' ∈ history, ∀ r ∈ h.clients, ∀ r' ∈ h'.clients,
    r.descriptor.id = r'.descriptor.id →
      r.xid = r'.xid ∧ (r.descriptor.generation = r'.descriptor.generation → r = r')

/-- An id that a model lacks after an earlier model had it is in no later model. -/
def Retired (history : List Model) : Prop :=
  ∀ h h' h'', [h, h', h''].Sublist history → ∀ id ∈ h.ids, id ∉ h'.ids → id ∉ h''.ids

/-- The models so far, the counter and the model in force. -/
structure History (history : List Model) (nextClient : Nat) (m : Model) : Prop where
  mem : m ∈ history
  xids : ∀ h ∈ history, (h.clients.map ClientRecord.xid).Nodup
  ids : ∀ h ∈ history, h.ids.Nodup
  below : ∀ h ∈ history, ∀ r ∈ h.clients, r.descriptor.id.get < nextClient
  newest : ∀ h ∈ history, ∀ r ∈ h.clients, ∀ r' ∈ m.clients,
    r.descriptor.id = r'.descriptor.id → r.descriptor.generation ≤ r'.descriptor.generation
  consistent : Consistent history
  gone : ∀ h h', [h, h'].Sublist history → ∀ id ∈ h.ids, id ∉ h'.ids → id ∉ m.ids
  retired : Retired history

/-- What is known of an observer whose counters have not run out. -/
structure IdInv (s : State) : Prop where
  absent : s.observer.model = none → models s.notes = []
  present : ∀ m, s.observer.model = some m → History (models s.notes) s.observer.nextClient m

theorem FirstModel.begins {m : Model} {nextClient fresh : Nat}
    (h : FirstModel m nextClient fresh) : History [m] (nextClient + fresh) m := by
  obtain ⟨changes, hfates⟩ := h.fates
  have hids : m.ids.Nodup := hfates.ids_nodup h.wf.nodup (by simp) (by simp)
  have one {h' : Model} (hm : h' ∈ [m]) : h' = m := by simpa using hm
  refine ⟨by simp, ?_, ?_, ?_, ?_, ?_, ?_, ?_⟩
  · intro h' hm
    rw [one hm]
    exact h.wf.nodup
  · intro h' hm
    rw [one hm]
    exact hids
  · intro h' hm r hr
    rw [one hm] at hr
    cases hfates.origin r hr with
    | kept mem => simp at mem
    | changed p mem xid id generation event => simp at mem
    | added new lower upper generation event => exact upper
  · intro h' hm r hr r' hr' hid
    rw [one hm] at hr
    exact Nat.le_of_eq (by rw [List.inj_on_of_nodup_map hids hr hr' hid])
  · intro h₁ hm₁ h₂ hm₂ r hr r' hr' hid
    rw [one hm₁] at hr
    rw [one hm₂] at hr'
    have := List.inj_on_of_nodup_map hids hr hr' hid
    exact ⟨by rw [this], fun _ => this⟩
  · intro h₁ h₂ hsub
    have := hsub.length_le
    simp at this
  · intro h₁ h₂ h₃ hsub
    have := hsub.length_le
    simp at this

theorem sublist_snoc {α : Type} {l xs : List α} {x : α} (h : l.Sublist (xs ++ [x])) :
    l.Sublist xs ∨ ∃ l', l = l' ++ [x] ∧ l'.Sublist xs := by
  obtain ⟨l₁, l₂, rfl, h₁, h₂⟩ := List.sublist_append_iff.mp h
  rcases List.sublist_singleton.mp h₂ with rfl | rfl
  · exact .inl (by simpa using h₁)
  · exact .inr ⟨l₁, rfl, h₁⟩

section Next

variable {history : List Model} {nextClient fresh : Nat} {p m : Model} {events : List Event}

/-- A new record against the history: it extends the record its id had, or its id is unused. -/
theorem History.against (inv : History history nextClient p)
    (diff : ModelDiff p m nextClient events fresh) {h : Model} {r r' : ClientRecord}
    (hh : h ∈ history) (hr : r ∈ h.clients) (hr' : r' ∈ m.clients)
    (hid : r.descriptor.id = r'.descriptor.id) :
    r.xid = r'.xid ∧ r.descriptor.generation ≤ r'.descriptor.generation ∧
      (r.descriptor.generation = r'.descriptor.generation → r = r') ∧
      r'.descriptor.id ∈ p.ids := by
  obtain ⟨changes, hfates, -⟩ := diff.fates
  rcases (hfates.origin r' hr').known with ⟨q, hq, hxid, hqid, hle, heq⟩ | hnew
  · have hsame : r.descriptor.id = q.descriptor.id := hid.trans hqid.symm
    obtain ⟨hx, hgen⟩ := inv.consistent h hh p inv.mem r hr q hq hsame
    have hnewest := inv.newest h hh r hr q hq hsame
    refine ⟨hx.trans hxid, Nat.le_trans hnewest hle, fun hg => ?_, ?_⟩
    · have hqr : q = r' := heq (by omega)
      rw [← hqr] at hg ⊢
      exact hgen hg
    · exact List.mem_map.mpr ⟨q, hq, hqid⟩
  · have hbelow := inv.below h hh r hr
    rw [hid] at hbelow
    omega

theorem ModelDiff.extends (diff : ModelDiff p m nextClient events fresh)
    (inv : History history nextClient p) : History (history ++ [m]) (nextClient + fresh) m := by
  obtain ⟨changes, hfates, -⟩ := diff.fates
  have hids : m.ids.Nodup := hfates.ids_nodup diff.wf.nodup
    (fun q hq q' hq' hid => List.inj_on_of_nodup_map (inv.ids p inv.mem) hq hq' hid)
    (fun q hq => inv.below p inv.mem q hq)
  have hgone (h h' : Model) (hsub : [h, h'].Sublist history) (id : ClientId) (hmem : id ∈ h.ids)
      (hnot : id ∉ h'.ids) : id ∉ m.ids := by
    intro hm
    obtain ⟨r, hr, rfl⟩ := List.mem_map.mp hmem
    obtain ⟨r', hr', hid⟩ := List.mem_map.mp hm
    have hh : h ∈ history := hsub.subset (by simp)
    have hback := (inv.against diff hh hr hr' hid.symm).2.2.2
    rw [hid] at hback
    exact inv.gone h h' hsub _ hmem hnot hback
  have split {h : Model} (hh : h ∈ history ++ [m]) : h ∈ history ∨ h = m := by
    simpa using hh
  refine ⟨by simp, ?_, ?_, ?_, ?_, ?_, ?_, ?_⟩
  · intro h hh
    rcases split hh with hh | rfl
    · exact inv.xids h hh
    · exact diff.wf.nodup
  · intro h hh
    rcases split hh with hh | rfl
    · exact inv.ids h hh
    · exact hids
  · intro h hh r hr
    rcases split hh with hh | rfl
    · have := inv.below h hh r hr
      omega
    · rcases hfates.origin r hr with hmem | ⟨q, hq, -, hid, -, -⟩ | ⟨-, -, hupper, -, -⟩
      · have := inv.below p inv.mem r hmem
        omega
      · have := inv.below p inv.mem q hq
        rw [hid]
        omega
      · exact hupper
  · intro h hh r hr r' hr' hid
    rcases split hh with hh | rfl
    · exact (inv.against diff hh hr hr' hid).2.1
    · exact Nat.le_of_eq (by rw [List.inj_on_of_nodup_map hids hr hr' hid])
  · intro h₁ hh₁ h₂ hh₂ r hr r' hr' hid
    rcases split hh₁ with old₁ | new₁ <;> rcases split hh₂ with old₂ | new₂
    · exact inv.consistent h₁ old₁ h₂ old₂ r hr r' hr' hid
    · obtain ⟨hx, -, heq, -⟩ := inv.against diff old₁ hr (new₂ ▸ hr') hid
      exact ⟨hx, heq⟩
    · obtain ⟨hx, -, heq, -⟩ := inv.against diff old₂ hr' (new₁ ▸ hr) hid.symm
      exact ⟨hx.symm, fun hg => (heq hg.symm).symm⟩
    · have := List.inj_on_of_nodup_map hids (new₁ ▸ hr) (new₂ ▸ hr') hid
      exact ⟨by rw [this], fun _ => this⟩
  · intro h h' hsub id hmem hnot
    rcases sublist_snoc hsub with hsub | ⟨l, hl, hsub⟩
    · exact hgone h h' hsub id hmem hnot
    · obtain ⟨-, hlast⟩ := @List.append_inj' _ [h] [h'] _ _ hl rfl
      rw [List.singleton_inj] at hlast
      rw [← hlast]
      exact hnot
  · intro h h' h'' hsub id hmem hnot
    rcases sublist_snoc hsub with hsub | ⟨l, hl, hsub⟩
    · exact inv.retired h h' h'' hsub id hmem hnot
    · obtain ⟨rfl, hlast⟩ := @List.append_inj' _ [h, h'] [h''] _ _ hl rfl
      rw [List.singleton_inj] at hlast
      rw [hlast]
      exact hgone h h' hsub id hmem hnot

end Next

/-! ## Runs -/

/-- A refresh that did not run out of a counter keeps the invariant. -/
theorem RefreshSpec.idInv {s s' : State} {r : Except Failure Unit} (spec : RefreshSpec s s' r)
    (inv : IdInv s) (room : .exhausted ∉ s'.notes) : IdInv s' := by
  cases spec with
  | failed e model nextClient sequence notes =>
    constructor
    · rw [model, notes]
      exact inv.absent
    · rw [model, notes, nextClient]
      exact inv.present
  | exhausted e mem => exact absurd mem room
  | first m fresh absent model start nextClient sequence notes =>
    have hmodels : models s'.notes = [m] := by
      rw [notes, models_append, inv.absent absent]
      rfl
    constructor
    · simp [model]
    · intro m' hm'
      rw [model, Option.some.injEq] at hm'
      subst hm'
      rw [hmodels, nextClient]
      exact start.begins
  | next p m events fresh added present model diff nextClient sequence notes pushes numbers =>
    have hmodels : models s'.notes = models s.notes ++ [m] := by
      rw [notes, models_append, models_append, models_pushes pushes, List.append_nil]
      rfl
    constructor
    · simp [model]
    · intro m' hm'
      rw [model, Option.some.injEq] at hm'
      subst hm'
      rw [hmodels, nextClient]
      exact diff.extends (inv.present p present)

/-- Notes are never taken back. -/
theorem refresh_notes (sample : Sample) (s : State) : s.notes ⊆ (refresh sample s).2.notes := by
  obtain ⟨-, added, hadded, -⟩ := (ticks_forward (refresh_ticks sample s)).1
  rw [hadded]
  exact List.subset_append_left _ _

theorem Connection.run_idInv (c : Connection) (ops : List Op)
    (room : .exhausted ∉ (c.run ops).state.notes) : IdInv (c.run ops).state := by
  refine c.run_invariant (P := fun s => .exhausted ∉ s.notes → IdInv s) ?_ ?_ ?_ ops room
  · intro _
    exact ⟨fun _ => rfl, fun m h => by simp [Connection.run, Run.start, Run.after, connected] at h⟩
  · intro sample s ih room
    exact (refresh_spec sample s).idInv (ih fun h => room (refresh_notes sample s h)) room
  · intro s o same ih room
    obtain ⟨hmodel, hnext, -, -⟩ := same
    dsimp only at hmodel hnext
    obtain ⟨absent, present⟩ := ih room
    constructor
    · simpa only [hmodel] using absent
    · simpa only [hmodel, hnext] using present

/-! ## Published descriptors -/

/-- The descriptor an event carries. -/
def eventDescriptor : Event → Option ClientDescriptor
  | .clientAdded client | .clientChanged client => some client
  | .clientRemoved _ | .activeChanged _ | .workspaceChanged _ | .applicationsChanged => none

/-- The descriptors a reply carries. -/
def OpReply.descriptors : OpReply → List ClientDescriptor
  | .snapshot (.ok snap) => snap.clients.asSlice
  | .events (.ok batch) => batch.events.asSlice.filterMap fun e => eventDescriptor e.event
  | .snapshot (.error _) | .events (.error _) | .subscribed _ | .refreshed _ => []

/-- Every descriptor published so far. -/
def Run.published (r : Run) : List ClientDescriptor := r.replies.flatMap OpReply.descriptors

/-- A descriptor of a model that was put in. -/
def Recorded (notes : List Note) (d : ClientDescriptor) : Prop :=
  ∃ m ∈ models notes, ∃ r ∈ m.clients, r.descriptor = d

theorem Recorded.mono {notes notes' : List Note} {d : ClientDescriptor} (h : Recorded notes d)
    (hext : ∃ added, notes' = notes ++ added) : Recorded notes' d := by
  obtain ⟨m, hm, r, hr, hd⟩ := h
  obtain ⟨added, rfl⟩ := hext
  exact ⟨m, by rw [models_append]; exact List.mem_append_left _ hm, r, hr, hd⟩

/-- What the fates of a refresh push is in the model it puts in. -/
theorem Fates.event_mem {previous rs : List ClientRecord} {next fresh : Nat} {events : List Event}
    (h : Fates previous next rs events fresh) {e : Event} (he : e ∈ events)
    {d : ClientDescriptor} (hd : eventDescriptor e = some d) : ∃ r ∈ rs, r.descriptor = d := by
  induction h with
  | nil next => simp at he
  | @cons next fresh fresh' r rs es es' head tail ih =>
    rcases List.mem_append.mp he with he | he
    · refine ⟨r, by simp, ?_⟩
      cases head with
      | kept p mem => simp at he
      | changed p r mem xid id generation | added r new id generation =>
        rw [List.mem_singleton] at he
        subst he
        simpa [eventDescriptor] using hd
    · obtain ⟨r, hr, hrd⟩ := ih he
      exact ⟨r, List.mem_cons_of_mem _ hr, hrd⟩

theorem ModelDiff.event_mem {p m : Model} {nextClient fresh : Nat} {events : List Event}
    (diff : ModelDiff p m nextClient events fresh) {e : Event} (he : e ∈ events)
    {d : ClientDescriptor} (hd : eventDescriptor e = some d) :
    ∃ r ∈ m.clients, r.descriptor = d := by
  obtain ⟨changes, hfates, rfl⟩ := diff.fates
  simp only [List.mem_append] at he
  rcases he with ((he | he) | he) | he
  · obtain ⟨r, -, rfl⟩ := List.mem_map.mp he
    simp [eventDescriptor] at hd
  · exact hfates.event_mem he hd
  · unfold workspaceEvents at he
    split at he
    · rw [List.mem_singleton] at he
      subst he
      simp [eventDescriptor] at hd
    · simp at he
  · unfold activeEvents at he
    split at he
    · rw [List.mem_singleton] at he
      subst he
      simp [eventDescriptor] at hd
    · simp at he

/-- Every descriptor an event carries is one of a model that was put in. -/
def JournalRecorded (s : State) : Prop :=
  ∀ e ∈ journal s.notes, ∀ d, eventDescriptor e.event = some d → Recorded s.notes d

theorem RefreshSpec.journalRecorded {s s' : State} {r : Except Failure Unit}
    (spec : RefreshSpec s s' r) (inv : JournalRecorded s) (room : .exhausted ∉ s'.notes) :
    JournalRecorded s' := by
  cases spec with
  | failed e model nextClient sequence notes =>
    unfold JournalRecorded
    rw [notes]
    exact inv
  | exhausted e mem => exact absurd mem room
  | first m fresh absent model start nextClient sequence notes =>
    intro e he d hd
    rw [notes, journal_append, journal_silent (by simp), List.append_nil] at he
    exact (inv e he d hd).mono ⟨_, notes⟩
  | next p m events fresh added present model diff nextClient sequence notes pushes numbers =>
    intro e he d hd
    rw [notes, journal_append, journal_append, journal_silent (by simp), List.append_nil,
      List.mem_append] at he
    rcases he with he | he
    · exact (inv e he d hd).mono ⟨_, by rw [notes, List.append_assoc]⟩
    · rw [numbers] at he
      obtain ⟨r, hr, hrd⟩ := diff.event_mem (mem_numbered he).2.2 hd
      refine ⟨m, ?_, r, hr, hrd⟩
      rw [notes, models_append]
      exact List.mem_append_right _ (by simp [models])

theorem Connection.run_journalRecorded (c : Connection) (ops : List Op)
    (room : .exhausted ∉ (c.run ops).state.notes) : JournalRecorded (c.run ops).state := by
  refine c.run_invariant (P := fun s => .exhausted ∉ s.notes → JournalRecorded s) ?_ ?_ ?_ ops
    room
  · intro _ e he
    simp [Connection.run, Run.start, Run.after, journal] at he
  · intro sample s ih room
    exact (refresh_spec sample s).journalRecorded (ih fun h => room (refresh_notes sample s h)) room
  · intro s o same ih room
    exact ih room

/-- What a reply publishes is recorded when the reply is given. -/
theorem Run.reply_recorded {r : Run} (inv : r.LogInv) (op : Op) (ids : IdInv (r.step op).state)
    (events : JournalRecorded (r.step op).state) {d : ClientDescriptor}
    (hd : d ∈ (r.reply op).descriptors) : Recorded (r.step op).state.notes d := by
  cases op with
  | snapshot sample =>
    rcases snapshot_spec sample r.state with ⟨e, -, hs⟩ | ⟨m, snap, -, hm, hsnap, hs⟩
    · simp [Run.reply, Op.exec, hs, OpReply.descriptors] at hd
    · simp only [Run.reply, Op.exec, hs, OpReply.descriptors] at hd
      have hmodel : (r.step (.snapshot sample)).state.observer.model = some m := by
        simp only [Run.step, Op.exec, hs, settle]
        split <;> exact hm
      have hclients : snap.clients.asSlice = m.clients.map ClientRecord.descriptor := by
        unfold snapshotOf at hsnap
        split at hsnap
        · simp at hsnap
        · split at hsnap
          · simp at hsnap
          · next clients hnew =>
            rw [Except.ok.injEq] at hsnap
            subst hsnap
            exact (BoundedList.new_eq_ok.mp hnew).symm
      rw [hclients] at hd
      obtain ⟨record, hrecord, rfl⟩ := List.mem_map.mp hd
      exact ⟨m, (ids.present m hmodel).mem, record, hrecord, rfl⟩
  | poll after limit sample rest =>
    cases hr : (X11.poll after limit sample rest r.state).1 with
    | error e => simp [Run.reply, Op.exec, hr, OpReply.descriptors] at hd
    | ok batch =>
      simp only [Run.reply, Op.exec, hr, OpReply.descriptors] at hd
      obtain ⟨e, he, hed⟩ := List.mem_filterMap.mp hd
      have hpoll : X11.poll after limit sample rest r.state =
          (.ok batch, (r.step (.poll after limit sample rest)).state) := Prod.ext hr rfl
      rw [(inv.poll_page hpoll).1] at he
      have hlog := (mem_since.mp (List.mem_of_mem_take he)).1
      exact events e ((logSince_sublist _ _).subset hlog) d hed
  | subscribe kinds sample => simp [Run.reply, Op.exec, OpReply.descriptors] at hd
  | refresh sample => simp [Run.reply, Op.exec, OpReply.descriptors] at hd

theorem Connection.run_notes (c : Connection) (ops more : List Op) :
    ∃ added, (c.run (ops ++ more)).state.notes = (c.run ops).state.notes ++ added := by
  obtain ⟨-, added, hadded, -⟩ := (c.run_later ops more).forward
  exact ⟨added, hadded⟩

/-- Room at the end of a run is room all along. -/
theorem Connection.run_room (c : Connection) {ops more : List Op}
    (room : .exhausted ∉ (c.run (ops ++ more)).state.notes) :
    .exhausted ∉ (c.run ops).state.notes := by
  obtain ⟨added, hadded⟩ := c.run_notes ops more
  intro h
  rw [hadded] at room
  exact room (List.mem_append_left _ h)

theorem Connection.published_recorded (c : Connection) (ops : List Op)
    (room : .exhausted ∉ (c.run ops).state.notes) :
    ∀ d ∈ (c.run ops).published, Recorded (c.run ops).state.notes d := by
  induction ops using List.reverseRecOn with
  | nil => simp [Connection.run, Run.start, Run.after, Run.published]
  | append_singleton ops op ih =>
    intro d hd
    have hreplies : (c.run (ops ++ [op])).replies =
        (c.run ops).replies ++ [(c.run ops).reply op] := by
      rw [c.run_snoc]
      rfl
    unfold Run.published at hd
    rw [hreplies, List.flatMap_append, List.mem_append] at hd
    rcases hd with hd | hd
    · exact (ih (c.run_room room) d hd).mono (c.run_notes ops [op])
    · have ids := c.run_idInv (ops ++ [op]) room
      have events := c.run_journalRecorded (ops ++ [op]) room
      rw [c.run_snoc] at ids events ⊢
      exact Run.reply_recorded (c.run_logInv ops) op ids events (by simpa using hd)

/-- Handle freshness. In every run whose counters have not run out: an id names one XID in all
    models there ever were; an id that was removed is in no later model; the ids and the XIDs of a
    model are distinct; published descriptors with the same id and generation are equal; and a
    target resolves only to a record that equals everything published under the request's pair. -/
theorem handles_fresh (c : Connection) (ops : List Op)
    (room : .exhausted ∉ (c.run ops).state.notes) :
    (∀ m ∈ models (c.run ops).state.notes, ∀ m' ∈ models (c.run ops).state.notes,
      ∀ r ∈ m.clients, ∀ r' ∈ m'.clients, r.descriptor.id = r'.descriptor.id → r.xid = r'.xid) ∧
    (∀ m m' m'', [m, m', m''].Sublist (models (c.run ops).state.notes) →
      ∀ id ∈ m.ids, id ∉ m'.ids → id ∉ m''.ids) ∧
    (∀ m ∈ models (c.run ops).state.notes,
      m.ids.Nodup ∧ (m.clients.map ClientRecord.xid).Nodup) ∧
    (∀ d ∈ (c.run ops).published, ∀ d' ∈ (c.run ops).published,
      d.id = d'.id → d.generation = d'.generation → d = d') ∧
    (∀ request t, (c.run ops).state.observer.target request = .ok t →
      ∃ m record, (c.run ops).state.observer.model = some m ∧ record ∈ m.clients ∧
        record.descriptor.id = request.client ∧ record.xid = t.xid ∧ ∀ d ∈ (c.run ops).published,
          d.id = request.client → d.generation = request.generation → record.descriptor = d) := by
  have inv := c.run_idInv ops room
  have recorded := c.published_recorded ops room
  have hist : (models (c.run ops).state.notes = []) ∨ ∃ m,
      (c.run ops).state.observer.model = some m ∧
      History (models (c.run ops).state.notes) (c.run ops).state.observer.nextClient m := by
    cases hm : (c.run ops).state.observer.model with
    | none => exact .inl (inv.absent hm)
    | some m => exact .inr ⟨m, rfl, inv.present m hm⟩
  have pinned (d d' : ClientDescriptor) (hd : Recorded (c.run ops).state.notes d)
      (hd' : Recorded (c.run ops).state.notes d') (hid : d.id = d'.id)
      (hgen : d.generation = d'.generation) : d = d' := by
    obtain ⟨m, hm, r, hr, rfl⟩ := hd
    obtain ⟨m', hm', r', hr', rfl⟩ := hd'
    rcases hist with hnil | ⟨_, _, hist⟩
    · rw [hnil] at hm
      simp at hm
    · rw [(hist.consistent m hm m' hm' r hr r' hr' hid).2 hgen]
  refine ⟨?_, ?_, ?_, ?_, ?_⟩
  · intro m hm m' hm' r hr r' hr' hid
    rcases hist with hnil | ⟨_, _, hist⟩
    · rw [hnil] at hm
      simp at hm
    · exact (hist.consistent m hm m' hm' r hr r' hr' hid).1
  · rcases hist with hnil | ⟨_, _, hist⟩
    · intro m m' m'' hsub
      rw [hnil] at hsub
      simp at hsub
    · exact hist.retired
  · intro m hm
    rcases hist with hnil | ⟨_, _, hist⟩
    · rw [hnil] at hm
      simp at hm
    · exact ⟨hist.ids m hm, hist.xids m hm⟩
  · intro d hd d' hd' hid hgen
    exact pinned d d' (recorded d hd) (recorded d' hd') hid hgen
  · intro request t ht
    obtain ⟨m, record, hm, hrecord, hid, hgen, hxid, -⟩ := Observer.target_ok ht
    refine ⟨m, record, hm, hrecord, hid, hxid.symm, fun d hd hdid hdgen => ?_⟩
    exact pinned _ _ ⟨m, (inv.present m hm).mem, record, hrecord, rfl⟩ (recorded d hd)
      (hid.trans hdid.symm) (hgen.trans hdgen.symm)

/-- A window changes its size and another one comes and goes between two snapshots. -/
theorem handles_fresh_exchange :
    .exhausted ∉ (plainConnection.run [.snapshot (plainSample 0 [⟨10, 0, 5⟩, ⟨11, 0, 5⟩] 10),
      .snapshot (plainSample 0 [⟨10, 0, 6⟩] 10),
      .snapshot (plainSample 0 [⟨10, 0, 6⟩, ⟨11, 0, 5⟩] 10)]).state.notes ∧
    (∀ m ∈ models (plainConnection.run
        [.snapshot (plainSample 0 [⟨10, 0, 5⟩, ⟨11, 0, 5⟩] 10),
          .snapshot (plainSample 0 [⟨10, 0, 6⟩] 10),
          .snapshot (plainSample 0 [⟨10, 0, 6⟩, ⟨11, 0, 5⟩] 10)]).state.notes,
      m.ids.Nodup ∧ (m.clients.map ClientRecord.xid).Nodup) ∧
    (plainConnection.run [.snapshot (plainSample 0 [⟨10, 0, 5⟩, ⟨11, 0, 5⟩] 10),
      .snapshot (plainSample 0 [⟨10, 0, 6⟩] 10),
      .snapshot (plainSample 0 [⟨10, 0, 6⟩, ⟨11, 0, 5⟩] 10)]).published.length = 5 := by
  have room : Note.exhausted ∉ (plainConnection.run
      [.snapshot (plainSample 0 [⟨10, 0, 5⟩, ⟨11, 0, 5⟩] 10),
        .snapshot (plainSample 0 [⟨10, 0, 6⟩] 10),
        .snapshot (plainSample 0 [⟨10, 0, 6⟩, ⟨11, 0, 5⟩] 10)]).state.notes := by decide
  exact ⟨room, (handles_fresh plainConnection _ room).2.2.1, by decide⟩

end AgentSeat.X11
