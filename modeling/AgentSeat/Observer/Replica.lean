/-
  A peer that follows the event stream has the observer's model.

  A replica is what a peer keeps: the set of client descriptors, the active client and the current
  workspace. It starts from a snapshot and applies the events of its polls. `Tracks` says that the
  replica, once it has applied every event the peer has not read yet, shows the observer's model;
  every refresh keeps this (`ModelDiff.replay_view`) and so does every page a peer applies.

  Main result:
  * `replica_converges`: whenever the peer's cursor is the observer's sequence, the replica is the
    view of the observer's model.
-/
import AgentSeat.Observer.Identity
import Mathlib.Data.Finset.Insert
import Mathlib.Data.Finset.Filter

namespace AgentSeat.X11

open AgentSeat.Lib AgentSeat.Proto

structure Replica where
  clients : Finset ClientDescriptor
  active : Option ClientId
  currentWorkspace : WorkspaceId
  deriving DecidableEq

namespace Replica

def apply (v : Replica) : Event → Replica
  | .clientAdded client => { v with clients := insert client v.clients }
  | .clientChanged client =>
    { v with clients := insert client (v.clients.filter fun d => d.id ≠ client.id) }
  | .clientRemoved id => { v with clients := v.clients.filter fun d => d.id ≠ id }
  | .activeChanged active => { v with active := active }
  | .workspaceChanged workspace => { v with currentWorkspace := workspace }
  | .applicationsChanged => v

def replay (v : Replica) (events : List Event) : Replica := events.foldl apply v

theorem replay_append (v : Replica) (es es' : List Event) :
    v.replay (es ++ es') = (v.replay es).replay es' :=
  List.foldl_append

def ofSnapshot (snap : DesktopSnapshot) : Replica :=
  ⟨snap.clients.asSlice.toFinset, snap.active, snap.currentWorkspace⟩

end Replica

/-- What a peer can see of a model, without the workspace descriptors. -/
def Model.view (m : Model) : Replica :=
  ⟨(m.clients.map ClientRecord.descriptor).toFinset, m.active, m.currentWorkspace⟩

/-! ## The events of a refresh lead from view to view -/

/-- Removals delete the descriptors of their ids and touch nothing else. -/
theorem replay_removed (v : Replica) (ids : List ClientId) :
    v.replay (ids.map .clientRemoved) = { v with clients := v.clients.filter fun d => d.id ∉ ids } := by
  induction ids generalizing v with
  | nil => simp [Replica.replay]
  | cons id ids ih =>
    rw [List.map_cons, Replica.replay, List.foldl_cons, ← Replica.replay, ih]
    simp only [Replica.apply, Finset.filter_filter, List.mem_cons, not_or]

/-- The fates of the listed clients turn the old descriptors of listed XIDs into the new ones.
    `done` is what the clients before them have put in. -/
theorem Fates.replay {previous rs : List ClientRecord} {next fresh : Nat} {events : List Event}
    (h : Fates previous next rs events fresh) (hx : (rs.map ClientRecord.xid).Nodup)
    (hprev : (previous.map ClientRecord.xid).Nodup)
    (inj : ∀ p ∈ previous, ∀ p' ∈ previous, p.descriptor.id = p'.descriptor.id → p = p')
    (below : ∀ p ∈ previous, p.descriptor.id.get < next) (v : Replica)
    (done : ClientDescriptor → Prop)
    (hv : ∀ d, d ∈ v.clients ↔
      done d ∨ ∃ p ∈ previous, p.xid ∈ rs.map ClientRecord.xid ∧ p.descriptor = d)
    (apart : ∀ d, done d → ∀ p ∈ previous, p.xid ∈ rs.map ClientRecord.xid →
      d.id ≠ p.descriptor.id) :
    (∀ d, d ∈ (v.replay events).clients ↔ done d ∨ d ∈ rs.map ClientRecord.descriptor) ∧
      (v.replay events).active = v.active ∧
      (v.replay events).currentWorkspace = v.currentWorkspace := by
  induction h generalizing v done with
  | nil next => exact ⟨by simpa [Replica.replay] using hv, rfl, rfl⟩
  | @cons next fresh fresh' r rs es es' head tail ih =>
    rw [List.map_cons, List.nodup_cons] at hx
    have below' : ∀ p ∈ previous, p.descriptor.id.get < next + fresh := by
      intro p hp
      have := below p hp
      omega
    -- the records still to come are those of the XIDs after `r`
    have others (p : ClientRecord) : (p.xid ∈ (r :: rs).map ClientRecord.xid) ↔
        p.xid = r.xid ∨ p.xid ∈ rs.map ClientRecord.xid := by
      rw [List.map_cons, List.mem_cons]
    have step (v' : Replica) (hactive : v'.active = v.active)
        (hworkspace : v'.currentWorkspace = v.currentWorkspace) (heq : v.replay es = v')
        (hv' : ∀ d, d ∈ v'.clients ↔ (done d ∨ d = r.descriptor) ∨
          ∃ p ∈ previous, p.xid ∈ rs.map ClientRecord.xid ∧ p.descriptor = d)
        (new : ∀ p ∈ previous, p.xid ∈ rs.map ClientRecord.xid →
          r.descriptor.id ≠ p.descriptor.id) :
        (∀ d, d ∈ (v.replay (es ++ es')).clients ↔
          done d ∨ d ∈ (r :: rs).map ClientRecord.descriptor) ∧
          (v.replay (es ++ es')).active = v.active ∧
          (v.replay (es ++ es')).currentWorkspace = v.currentWorkspace := by
      have hapart : ∀ d, done d ∨ d = r.descriptor → ∀ p ∈ previous,
          p.xid ∈ rs.map ClientRecord.xid → d.id ≠ p.descriptor.id := by
        rintro d (hd | rfl) p hp hpx
        · exact apart d hd p hp ((others p).mpr (.inr hpx))
        · exact new p hp hpx
      obtain ⟨hmem, ha, hw⟩ := ih hx.2 below' v' (fun d => done d ∨ d = r.descriptor) hv' hapart
      rw [Replica.replay_append, heq]
      refine ⟨fun d => ?_, ha.trans hactive, hw.trans hworkspace⟩
      rw [hmem d, List.map_cons, List.mem_cons, or_assoc]
    -- a record of the previous model behind `r` and one still to come have different ids
    have differ {q : ClientRecord} (hq : q ∈ previous) (hqx : q.xid = r.xid) (p : ClientRecord)
        (hp : p ∈ previous) (hpx : p.xid ∈ rs.map ClientRecord.xid) :
        q.descriptor.id ≠ p.descriptor.id := by
      intro hid
      have := inj q hq p hp hid
      rw [← this, hqx] at hpx
      exact hx.1 hpx
    cases head with
    | kept p mem =>
      refine step v rfl rfl rfl (fun d => ?_) fun p hp hpx => differ mem rfl p hp hpx
      rw [hv d]
      simp only [others]
      constructor
      · rintro (hd | ⟨q, hq, hqx | hqx, rfl⟩)
        · exact .inl (.inl hd)
        · exact .inl (.inr (by rw [List.inj_on_of_nodup_map hprev hq mem hqx]))
        · exact .inr ⟨q, hq, hqx, rfl⟩
      · rintro ((hd | rfl) | ⟨q, hq, hqx, rfl⟩)
        · exact .inl hd
        · exact .inr ⟨r, mem, .inl rfl, rfl⟩
        · exact .inr ⟨q, hq, .inr hqx, rfl⟩
    | changed p r mem xid id generation =>
      refine step (v.apply (.clientChanged r.descriptor)) rfl rfl rfl (fun d => ?_)
        fun q hq hqx => by rw [id]; exact differ mem xid.symm q hq hqx
      have hsame {q : ClientRecord} (hq : q ∈ previous) (hqx : q.xid = r.xid) : q = p :=
        List.inj_on_of_nodup_map hprev hq mem (hqx.trans xid)
      simp only [Replica.apply, Finset.mem_insert, Finset.mem_filter, hv d, others]
      constructor
      · rintro (hd | ⟨hd | ⟨q, hq, hqx | hqx, rfl⟩, hne⟩)
        · exact .inl (.inr hd)
        · exact .inl (.inl hd)
        · rw [hsame hq hqx, id] at hne
          exact absurd rfl hne
        · exact .inr ⟨q, hq, hqx, rfl⟩
      · rintro ((hd | hd) | ⟨q, hq, hqx, rfl⟩)
        · refine .inr ⟨.inl hd, ?_⟩
          rw [id]
          exact apart d hd p mem (by simp [xid])
        · exact .inl hd
        · refine .inr ⟨.inr ⟨q, hq, .inr hqx, rfl⟩, ?_⟩
          rw [id]
          exact (differ mem xid.symm q hq hqx).symm
    | added r new id generation =>
      refine step (v.apply (.clientAdded r.descriptor)) rfl rfl rfl (fun d => ?_)
        fun q hq hqx hid => by have := below q hq; rw [← hid] at this; omega
      simp only [Replica.apply, Finset.mem_insert, hv d, others]
      constructor
      · rintro (hd | hd | ⟨q, hq, hqx | hqx, rfl⟩)
        · exact .inl (.inr hd)
        · exact .inl (.inl hd)
        · exact absurd hqx (new q hq)
        · exact .inr ⟨q, hq, hqx, rfl⟩
      · rintro ((hd | hd) | ⟨q, hq, hqx, rfl⟩)
        · exact .inr (.inl hd)
        · exact .inl hd
        · exact .inr (.inr ⟨q, hq, .inr hqx, rfl⟩)

theorem removedEvents_eq (current : List Window) (previous : List ClientRecord) :
    removedEvents current previous =
      ((previous.filter fun r => r.xid ∉ current).map fun r => r.descriptor.id).map
        .clientRemoved := by
  rw [removedEvents, List.map_map]
  rfl

/-- The removals of a refresh leave the descriptors whose XID is still listed. -/
theorem mem_replay_removedEvents {p : Model} {nextClient : Nat} {history : List Model}
    (inv : History history nextClient p) (current : List Window) (d : ClientDescriptor) :
    d ∈ (p.view.replay (removedEvents current p.clients)).clients ↔
      ∃ q ∈ p.clients, q.xid ∈ current ∧ q.descriptor = d := by
  rw [removedEvents_eq, replay_removed]
  simp only [Model.view, Finset.mem_filter, List.mem_toFinset, List.mem_map, List.mem_filter,
    decide_eq_true_eq]
  constructor
  · rintro ⟨⟨q, hq, rfl⟩, hnot⟩
    refine ⟨q, hq, ?_, rfl⟩
    by_contra hx
    exact hnot ⟨q, ⟨hq, by simpa using hx⟩, rfl⟩
  · rintro ⟨q, hq, hx, rfl⟩
    refine ⟨⟨q, hq, rfl⟩, ?_⟩
    rintro ⟨q', ⟨hq', hx'⟩, hid⟩
    rw [List.inj_on_of_nodup_map (inv.ids p inv.mem) hq' hq hid] at hx'
    simp [hx] at hx'

theorem replay_workspaceEvents {p m : Model} (v : Replica)
    (h : v.currentWorkspace = p.currentWorkspace) :
    v.replay (workspaceEvents p m) = { v with currentWorkspace := m.currentWorkspace } := by
  unfold workspaceEvents
  split
  · rfl
  · next hsame =>
    rw [not_or, not_not] at hsame
    rw [← hsame.1, ← h]
    rfl

theorem replay_activeEvents {p m : Model} (v : Replica) (h : v.active = p.active) :
    v.replay (activeEvents p m) = { v with active := m.active } := by
  unfold activeEvents
  split
  · rfl
  · next hsame =>
    rw [not_not] at hsame
    rw [← hsame, ← h]
    rfl

theorem ModelDiff.replay_view {p m : Model} {nextClient fresh : Nat} {events : List Event}
    {history : List Model} (diff : ModelDiff p m nextClient events fresh)
    (inv : History history nextClient p) : p.view.replay events = m.view := by
  obtain ⟨changes, hfates, rfl⟩ := diff.fates
  rw [Replica.replay_append, Replica.replay_append, Replica.replay_append]
  generalize hv : p.view.replay (removedEvents (m.clients.map ClientRecord.xid) p.clients) = v
  have hkept : v.active = p.active ∧ v.currentWorkspace = p.currentWorkspace := by
    rw [← hv, removedEvents_eq, replay_removed]
    exact ⟨rfl, rfl⟩
  obtain ⟨hmem, hactive, hworkspace⟩ := hfates.replay diff.wf.nodup (inv.xids p inv.mem)
    (fun q hq q' hq' hid => List.inj_on_of_nodup_map (inv.ids p inv.mem) hq hq' hid)
    (fun q hq => inv.below p inv.mem q hq) v (fun _ => False)
    (fun d => by rw [← hv, mem_replay_removedEvents inv, false_or]) (fun _ h => h.elim)
  generalize v.replay changes = w at hmem hactive hworkspace
  have hclients : w.clients = m.view.clients := by
    ext d
    rw [hmem d]
    simp [Model.view]
  rw [replay_workspaceEvents w (hworkspace.trans hkept.2),
    replay_activeEvents ⟨w.clients, w.active, m.currentWorkspace⟩ (hactive.trans hkept.1)]
  simp only [Model.view, hclients]

/-! ## A replica along a run -/

/-- The events the peer has not read yet lead from the replica to the model. -/
structure Tracks (s : State) (replica : Replica) (cursor : Nat) : Prop where
  reached : cursor ≤ s.observer.sequence
  converges : ∃ m, s.observer.model = some m ∧
    replica.replay ((since EventEnvelope.sequence cursor (journal s.notes)).map
      EventEnvelope.event) = m.view

theorem RefreshSpec.tracks {s s' : State} {r : Except Failure Unit} {replica : Replica}
    {cursor : Nat} (spec : RefreshSpec s s' r) (ids : IdInv s) (h : Tracks s replica cursor)
    (room : .exhausted ∉ s'.notes) : Tracks s' replica cursor := by
  obtain ⟨hreached, p, hp, hconv⟩ := h
  cases spec with
  | failed e model nextClient sequence notes =>
    refine ⟨by rw [sequence]; exact hreached, p, model.trans hp, ?_⟩
    rw [notes]
    exact hconv
  | exhausted e mem => exact absurd mem room
  | first m fresh absent model start nextClient sequence notes =>
    rw [absent] at hp
    simp at hp
  | next p' m events fresh added present model diff nextClient sequence notes pushes numbers =>
    rw [present, Option.some.injEq] at hp
    subst hp
    refine ⟨by omega, m, model, ?_⟩
    have hnew : since EventEnvelope.sequence cursor (numbered s.observer.sequence events) =
        numbered s.observer.sequence events :=
      since_eq_self fun e he => Nat.lt_of_le_of_lt hreached (mem_numbered he).1
    rw [notes, journal_append, journal_append, journal_silent (by simp), List.append_nil, numbers,
      since_append, hnew, List.map_append, numbered_event, Replica.replay_append, hconv]
    exact diff.replay_view (ids.present p' present)

/-- The subscription in force asks for all kinds. -/
def AllKinds (s : State) : Prop :=
  s.observer.subscribed = true ∧ s.observer.subscribedKinds = []

/-- A call that does not narrow the subscription. -/
def Op.Unfiltered : Op → Prop
  | .subscribe kinds _ => kinds = []
  | .snapshot _ | .poll _ _ _ _ | .refresh _ => True

theorem ticks_allKinds {s s' : State} (h : Ticks s s') (all : AllKinds s) : AllKinds s' := by
  obtain ⟨-, same⟩ := ticks_forward h
  exact ⟨same.subscribed.trans all.1, same.kinds.trans all.2⟩

theorem Op.exec_allKinds {op : Op} (h : op.Unfiltered) {s : State} (all : AllKinds s) :
    AllKinds (op.exec s).2 := by
  cases op with
  | snapshot sample =>
    have h₁ := ticks_allKinds (refresh_ticks sample s) all
    rcases snapshot_spec sample s with ⟨e, -, hs⟩ | ⟨m, snap, -, -, -, hs⟩
    · simpa only [Op.exec, hs] using h₁
    · simp only [Op.exec, hs, AllKinds, settle]
      split <;> exact h₁
  | subscribe kinds sample =>
    have h₁ := ticks_allKinds (refresh_ticks sample s) all
    rcases subscribe_spec kinds sample s with ⟨e, -, hs⟩ | ⟨-, hs⟩
    · simpa only [Op.exec, hs] using h₁
    · simp only [Op.exec, hs]
      exact ⟨rfl, h⟩
  | poll after limit sample rest =>
    have hwait := ticks_allKinds (s := ⟨drain after s.observer, s.notes⟩)
      (pollWait_keeps (fun _ => .refl) (fun _ _ _ h h' => h.trans h') refresh_ticks after sample
        rest _) all
    change AllKinds (X11.poll after limit sample rest s).2
    have hspec := poll_spec after limit sample rest s
    generalize X11.poll after limit sample rest s = result at hspec
    cases hspec with
    | unsubscribed e h | outside h => exact all
    | stopped e s' h | paged s' subscribed retained reached h =>
      rw [h] at hwait
      exact hwait
  | refresh sample => exact ticks_allKinds (refresh_ticks sample s) all

/-- What a peer keeps: its replica and the cursor of its next poll. -/
structure Peer where
  replica : Replica
  cursor : Nat

/-- Apply a page and go on from its cursor. -/
def Peer.absorb (peer : Peer) (batch : EventBatch) : Peer :=
  ⟨peer.replica.replay (batch.events.asSlice.map EventEnvelope.event), batch.cursor⟩

def Peer.ofSnapshot (snap : DesktopSnapshot) : Peer := ⟨Replica.ofSnapshot snap, snap.sequence⟩

/-- A step of a run with a peer in it: the peer polls from its cursor, or any other call is made. -/
inductive PeerOp where
  | poll (limit : Nat) (sample : Sample) (rest : List Sample)
  | other (op : Op)

/-- The call behind a step. -/
def PeerOp.call (peer : Peer) : PeerOp → Op
  | .poll limit sample rest => .poll peer.cursor limit sample rest
  | .other op => op

/-- What the peer makes of the reply to its poll; a refused poll leaves it as it is. -/
def PeerOp.follow (peer : Peer) : PeerOp → OpReply → Peer
  | .poll _ _ _, .events (.ok batch) => peer.absorb batch
  | .poll _ _ _, _ => peer
  | .other _, _ => peer

/-- A run with a peer. -/
structure Following where
  run : Run
  peer : Peer

def Following.step (f : Following) (x : PeerOp) : Following :=
  ⟨f.run.step (x.call f.peer), x.follow f.peer (f.run.reply (x.call f.peer))⟩

def Following.after (f : Following) (steps : List PeerOp) : Following :=
  steps.foldl Following.step f

/-- Steps of a peer whose subscription stays at all kinds: polls with a limit the protocol accepts, and other calls
    that do not narrow it. -/
def PeerOp.Admitted : PeerOp → Prop
  | .poll limit _ _ => 1 ≤ limit
  | .other op => op.Unfiltered

/-- With all kinds subscribed and a cursor that is still retained, the ideal log after the cursor
    is the whole journal after it. -/
theorem LogInv.since_journal {s : State} {m n cursor : Nat} (inv : LogInv s m n)
    (all : AllKinds s) (hcursor : s.observer.retainedAfter ≤ cursor) :
    since EventEnvelope.sequence cursor (logSince s m) =
      since EventEnvelope.sequence cursor (journal s.notes) := by
  have hlog : logSince s m = journal (s.notes.drop m) := by
    unfold logSince
    rw [all.2]
    exact List.filter_eq_self.mpr fun e _ => rfl
  have hold : since EventEnvelope.sequence cursor (journal (s.notes.take m)) = [] :=
    since_eq_nil fun e he => Nat.le_trans (inv.before e he) hcursor
  conv_rhs => rw [← List.take_append_drop m s.notes, journal_append, since_append, hold]
  rw [hlog, List.nil_append]

/-- One call, not yet seen by the peer, keeps the replica on track. -/
theorem Op.exec_tracks (op : Op) {s : State} {replica : Replica} {cursor : Nat}
    (ids : .exhausted ∉ s.notes → IdInv s) (h : .exhausted ∉ s.notes → Tracks s replica cursor)
    (room : .exhausted ∉ (op.exec s).2.notes) : Tracks (op.exec s).2 replica cursor := by
  have key := Op.exec_keeps_model
    (R := fun s s' => (Note.exhausted ∉ s.notes → IdInv s ∧ Tracks s replica cursor) →
      Note.exhausted ∉ s'.notes → IdInv s' ∧ Tracks s' replica cursor)
    (fun _ h => h) (fun _ _ _ h h' => h' ∘ h) ?_ ?_ op s
  · exact (key (fun room => ⟨ids room, h room⟩) room).2
  · intro sample s ih room
    have before := ih fun h => room (refresh_notes sample s h)
    have spec := refresh_spec sample s
    exact ⟨spec.idInv before.1 room, spec.tracks before.1 before.2 room⟩
  · intro s o same ih room
    obtain ⟨hmodel, hnext, hseq, -⟩ := same
    dsimp only at hmodel hnext hseq
    obtain ⟨⟨absent, present⟩, reached, converges⟩ := ih room
    refine ⟨⟨?_, ?_⟩, ?_, ?_⟩
    · simpa only [hmodel] using absent
    · simpa only [hmodel, hnext] using present
    · simpa only [hseq] using reached
    · simpa only [hmodel] using converges

/-- A page the peer applies keeps the replica on track. -/
theorem Tracks.absorb {s s' : State} {m n limit : Nat} {sample : Sample} {rest : List Sample}
    {batch : EventBatch} {peer : Peer} (inv : LogInv s m n) (inv' : LogInv s' m n)
    (all : AllKinds s') (one : 1 ≤ limit)
    (hpoll : poll peer.cursor limit sample rest s = (.ok batch, s'))
    (h : Tracks s' peer.replica peer.cursor) :
    Tracks s' (peer.absorb batch).replica (peer.absorb batch).cursor := by
  obtain ⟨hpage, hcursor, -, -, hretained⟩ := inv.poll_page hpoll
  obtain ⟨hreached, model, hmodel, hconv⟩ := h
  have hlog := inv'.since_journal all hretained
  have hle : batch.cursor ≤ s'.observer.sequence :=
    (inv.poll_cursor inv' one hpoll).1
  rw [hlog] at hpage
  have hasc := inv'.ascending.since (c := peer.cursor)
  have hsplit := page_split hasc one fun e he => inv'.numbers_le e (mem_since.mp he).1
  rw [← hpage, ← hcursor] at hsplit
  have hahead : peer.cursor ≤ batch.cursor := by
    cases hlast : batch.events.asSlice.getLast? with
    | none =>
      rw [hlast] at hcursor
      rw [hcursor]
      exact hreached
    | some last =>
      rw [hlast] at hcursor
      have hmem := List.mem_of_getLast? hlast
      rw [hpage] at hmem
      rw [hcursor]
      exact Nat.le_of_lt (mem_since.mp (List.mem_of_mem_take hmem)).2
  refine ⟨hle, model, hmodel, ?_⟩
  rw [hsplit, List.map_append, Replica.replay_append, since_since hahead] at hconv
  exact hconv

/-- The run behind a peer, its subscription, and its replica. -/
structure FollowInv (c : Connection) (f : Following) : Prop where
  run : ∃ ops, f.run = c.run ops
  all : AllKinds f.run.state
  tracks : .exhausted ∉ f.run.state.notes → Tracks f.run.state f.peer.replica f.peer.cursor

theorem FollowInv.step {c : Connection} {f : Following} (inv : FollowInv c f) {x : PeerOp}
    (hx : x.Admitted) : FollowInv c (f.step x) := by
  obtain ⟨ops, hrun⟩ := inv.run
  have hcall : (x.call f.peer).Unfiltered := by
    cases x with
    | poll limit sample rest => trivial
    | other op => exact hx
  have hall := Op.exec_allKinds hcall inv.all
  refine ⟨⟨ops ++ [x.call f.peer], ?_⟩, hall, fun room => ?_⟩
  · rw [c.run_snoc, ← hrun]
    rfl
  · have hold : Tracks (f.run.step (x.call f.peer)).state f.peer.replica f.peer.cursor := by
      refine Op.exec_tracks (x.call f.peer) (fun room => ?_) inv.tracks room
      rw [hrun] at room ⊢
      exact c.run_idInv ops room
    cases x with
    | other op => exact hold
    | poll limit sample rest =>
      have hlog : f.run.LogInv := by
        rw [hrun]
        exact c.run_logInv ops
      have hlog' := (hlog.poll f.peer.cursor limit sample rest).1
      cases hreply : (X11.poll f.peer.cursor limit sample rest f.run.state).1 with
      | error e =>
        simpa only [Following.step, PeerOp.call, PeerOp.follow, Run.reply, Op.exec, hreply]
          using hold
      | ok batch =>
        simp only [Following.step, PeerOp.call, PeerOp.follow, Run.reply, Op.exec, hreply]
        exact Tracks.absorb hlog hlog' hall hx (Prod.ext hreply rfl) hold

theorem FollowInv.after {c : Connection} {f : Following} (inv : FollowInv c f)
    {steps : List PeerOp} (admitted : ∀ x ∈ steps, x.Admitted) : FollowInv c (f.after steps) := by
  induction steps generalizing f with
  | nil => exact inv
  | cons x steps ih =>
    exact ih (inv.step (admitted x (by simp))) fun y hy => admitted y (List.mem_cons_of_mem _ hy)

/-- The run of a peer: it subscribed to all kinds, later took a snapshot, and follows from there. -/
def Connection.following (c : Connection) (before : List Op) (first : Sample) (between : List Op)
    (second : Sample) (snap : DesktopSnapshot) (steps : List PeerOp) : Following :=
  Following.after
    ⟨c.run (before ++ [.subscribe [] first] ++ between ++ [.snapshot second]),
      Peer.ofSnapshot snap⟩ steps

theorem Connection.run_allKinds (c : Connection) {ops more : List Op}
    (all : AllKinds (c.run ops).state) (unfiltered : ∀ op ∈ more, op.Unfiltered) :
    AllKinds (c.run (ops ++ more)).state := by
  induction more using List.reverseRecOn with
  | nil => simpa using all
  | append_singleton more op ih =>
    rw [← List.append_assoc, c.run_snoc]
    exact Op.exec_allKinds (unfiltered op (by simp)) (ih fun op' h => unfiltered op' (by simp [h]))

/-- A snapshot starts a replica that is on track. -/
theorem Tracks.ofSnapshot {r : Run} (inv : r.LogInv) {sample : Sample} {snap : DesktopSnapshot}
    (taken : r.reply (.snapshot sample) = .snapshot (.ok snap)) :
    Tracks (r.step (.snapshot sample)).state (Replica.ofSnapshot snap) snap.sequence := by
  obtain ⟨hinv, -⟩ := inv.snapshot sample
  have hspec := refresh_spec sample r.state
  rcases snapshot_spec sample r.state with ⟨e, -, hs⟩ | ⟨m, snap', hok, hm, hsnap, hs⟩
  · simp [Run.reply, Op.exec, hs] at taken
  · simp only [Run.reply, Op.exec, hs, OpReply.snapshot.injEq, Except.ok.injEq] at taken
    subst taken
    rw [hok] at hspec
    obtain ⟨m', hm', wf⟩ := hspec.model_ok
    rw [hm, Option.some.injEq] at hm'
    subst hm'
    obtain ⟨snap'', hsnap'', hseq, hcur, -, hclients, hactive⟩ :=
      snapshotOf_ok wf (refresh sample r.state).2.observer.sequence
    rw [hsnap, Except.ok.injEq] at hsnap''
    subst hsnap''
    have hstate : (r.step (.snapshot sample)).state =
        ⟨settle (refresh sample r.state).2.observer, (refresh sample r.state).2.notes⟩ := by
      simp only [Run.step, Op.exec, hs]
    have hsettle : (settle (refresh sample r.state).2.observer).model = some m ∧
        (settle (refresh sample r.state).2.observer).sequence = snap'.sequence := by
      rw [hseq]
      unfold settle
      split <;> exact ⟨hm, rfl⟩
    have hnone : since EventEnvelope.sequence snap'.sequence
        (journal (r.step (.snapshot sample)).state.notes) = [] := by
      refine since_eq_nil fun e he => ?_
      have := hinv.numbers_le e he
      rw [hstate, hsettle.2] at this
      exact this
    rw [hstate] at hnone ⊢
    refine ⟨Nat.le_of_eq hsettle.2.symm, m, hsettle.1, ?_⟩
    rw [hnone, List.map_nil]
    simp only [Replica.replay, List.foldl_nil, Replica.ofSnapshot, Model.view, hclients, hactive,
      hcur]

/-- An empty desktop, and one on which a window has appeared. -/
def emptySample : Sample := plainSample 0 [] 0
def windowSample : Sample := plainSample 0 [⟨10, 0, 5⟩] 10

def emptySnapshot : DesktopSnapshot :=
  ⟨0, 0, ⟨[⟨0, none, none⟩, ⟨1, none, none⟩], by decide⟩, ⟨[], by decide⟩, none⟩

/-- A peer that subscribed and took its snapshot on the empty desktop. -/
def emptyFollowing (steps : List PeerOp) : Following :=
  plainConnection.following [] emptySample [] emptySample emptySnapshot steps

end AgentSeat.X11
