/-
  The sequence number pins the visible desktop.

  Every visible difference between a model and its successor pushes an event, and every push moves
  the sequence, subscribed or not. So a refresh that leaves the sequence where it was put in a model
  with the same view, and two models noted under one number show the same desktop.
-/
import AgentSeat.Observer.Identity

namespace AgentSeat.X11

open AgentSeat.Lib AgentSeat.Proto

/-- The same desktop up to the order of the clients. -/
structure SameView (m m' : Model) : Prop where
  currentWorkspace : m.currentWorkspace = m'.currentWorkspace
  workspaces : m.workspaces = m'.workspaces
  active : m.active = m'.active
  clients : (m.clients.map ClientRecord.descriptor).Perm (m'.clients.map ClientRecord.descriptor)

theorem SameView.refl (m : Model) : SameView m m := ⟨rfl, rfl, rfl, List.Perm.refl _⟩

theorem SameView.symm {m m' : Model} (h : SameView m m') : SameView m' m :=
  ⟨h.currentWorkspace.symm, h.workspaces.symm, h.active.symm, h.clients.symm⟩

theorem SameView.trans {m m' m'' : Model} (h : SameView m m') (h' : SameView m' m'') :
    SameView m m'' :=
  ⟨h.currentWorkspace.trans h'.currentWorkspace, h.workspaces.trans h'.workspaces,
    h.active.trans h'.active, h.clients.trans h'.clients⟩

/-- No event means that every listed client kept its record and no record was dropped. -/
theorem ModelDiff.sameView {p m : Model} {nextClient fresh : Nat}
    (diff : ModelDiff p m nextClient [] fresh) (wf : p.WF) : SameView p m := by
  obtain ⟨changes, hfates, hnil⟩ := diff.fates
  rw [eq_comm, List.append_eq_nil_iff, List.append_eq_nil_iff, List.append_eq_nil_iff] at hnil
  obtain ⟨⟨⟨hremoved, rfl⟩, hworkspace⟩, hactive⟩ := hnil
  have hkept (r : ClientRecord) (hr : r ∈ m.clients) : r ∈ p.clients := by
    cases hfates.origin r hr with
    | kept mem => exact mem
    | changed q mem xid id generation event => simp at event
    | added new lower upper generation event => simp at event
  have hlisted (r : ClientRecord) (hr : r ∈ p.clients) : r ∈ m.clients := by
    have hxid : r.xid ∈ m.clients.map ClientRecord.xid := by
      unfold removedEvents at hremoved
      rw [List.map_eq_nil_iff, List.filter_eq_nil_iff] at hremoved
      simpa using hremoved r hr
    obtain ⟨r', hr', hx⟩ := List.mem_map.mp hxid
    rwa [List.inj_on_of_nodup_map wf.nodup (hkept r' hr') hr hx] at hr'
  have hperm : p.clients.Perm m.clients :=
    (List.perm_ext_iff_of_nodup wf.nodup.of_map diff.wf.nodup.of_map).mpr
      fun r => ⟨hlisted r, hkept r⟩
  refine ⟨?_, ?_, ?_, hperm.map _⟩
  · by_contra h
    simp [workspaceEvents, h] at hworkspace
  · by_contra h
    simp [workspaceEvents, h] at hworkspace
  · by_contra h
    simp [activeEvents, h] at hactive

/-- What the notes say about the sequence and the model in force. -/
structure PinInv (s : State) : Prop where
  absent : s.observer.model = none → ∀ n m, .refreshed n m ∉ s.notes
  present : ∀ m, s.observer.model = some m →
    .refreshed s.observer.sequence m ∈ s.notes ∧ m.WF
  past : ∀ n m, .refreshed n m ∈ s.notes → n ≤ s.observer.sequence
  pinned : ∀ n m m', .refreshed n m ∈ s.notes → .refreshed n m' ∈ s.notes → SameView m m'

theorem RefreshSpec.pinInv {s s' : State} {r : Except Failure Unit} (spec : RefreshSpec s s' r)
    (inv : PinInv s) (room : .exhausted ∉ s'.notes) : PinInv s' := by
  cases spec with
  | failed e model nextClient sequence notes =>
    constructor
    · rw [model, notes]
      exact inv.absent
    · rw [model, notes, sequence]
      exact inv.present
    · rw [notes, sequence]
      exact inv.past
    · rw [notes]
      exact inv.pinned
  | exhausted e mem => exact absurd mem room
  | first m fresh absent model start nextClient sequence notes =>
    have only {n : Nat} {m' : Model} (h : .refreshed n m' ∈ s'.notes) :
        n = s'.observer.sequence ∧ m' = m := by
      rw [notes, List.mem_append] at h
      rcases h with h | h
      · exact absurd h (inv.absent absent n m')
      · simpa using h
    refine ⟨by simp [model], ?_, fun n m' h => Nat.le_of_eq (only h).1, ?_⟩
    · intro m' hm'
      rw [model, Option.some.injEq] at hm'
      subst hm'
      exact ⟨by rw [notes]; simp, start.wf⟩
    · intro n m₁ m₂ h₁ h₂
      rw [(only h₁).2, (only h₂).2]
      exact SameView.refl m
  | next p m events fresh added present model diff nextClient sequence notes pushes numbers =>
    obtain ⟨hp, wf⟩ := inv.present p present
    have split {n : Nat} {m' : Model} (h : .refreshed n m' ∈ s'.notes) :
        .refreshed n m' ∈ s.notes ∨ (n = s'.observer.sequence ∧ m' = m) := by
      rw [notes, List.mem_append, List.mem_append] at h
      rcases h with (h | h) | h
      · exact .inl h
      · obtain ⟨a, ha⟩ := pushes _ h
        simp at ha
      · exact .inr (by simpa using h)
    -- an old note under the new number means that the refresh pushed nothing
    have old {n : Nat} {m' : Model} (h : .refreshed n m' ∈ s.notes)
        (hn : n = s'.observer.sequence) : SameView m' m := by
      have hle := inv.past n m' h
      have hnil : events = [] := List.length_eq_zero_iff.mp (by omega)
      subst hnil
      rw [List.length_nil, Nat.add_zero] at sequence
      rw [hn, sequence] at h
      exact (inv.pinned _ m' p h hp).trans (diff.sameView wf)
    refine ⟨by simp [model], ?_, ?_, ?_⟩
    · intro m' hm'
      rw [model, Option.some.injEq] at hm'
      subst hm'
      exact ⟨by rw [notes]; simp, diff.wf⟩
    · intro n m' h
      rcases split h with h | ⟨h, -⟩
      · have := inv.past n m' h
        omega
      · omega
    · intro n m₁ m₂ h₁ h₂
      rcases split h₁ with h₁ | ⟨hn₁, rfl⟩ <;> rcases split h₂ with h₂ | ⟨hn₂, rfl⟩
      · exact inv.pinned n m₁ m₂ h₁ h₂
      · exact old h₁ hn₂
      · exact (old h₂ hn₁).symm
      · exact SameView.refl _

/-- A fresh observer has noted nothing. -/
theorem PinInv.fresh (c : Connection) : PinInv (c.run []).state := by
  have hnone : (c.run []).state.observer.model = none := rfl
  have hnotes : (c.run []).state.notes = [] := rfl
  constructor <;> simp [hnone, hnotes]

/-- A change of the queue alone keeps what the notes say. -/
theorem PinInv.sameModel {s s' : State} (inv : PinInv s) (same : SameModel s s') : PinInv s' := by
  obtain ⟨absent, present, past, pinned⟩ := inv
  obtain ⟨hmodel, -, hsequence, hnotes⟩ := same
  constructor
  · rw [hmodel, hnotes]
    exact absent
  · rw [hmodel, hsequence, hnotes]
    exact present
  · rw [hsequence, hnotes]
    exact past
  · rw [hnotes]
    exact pinned

/-- A refresh keeps what the notes say, as long as no counter ran out. -/
theorem PinInv.refresh {s : State} (inv : PinInv s) (sample : Sample)
    (room : .exhausted ∉ (X11.refresh sample s).2.notes) : PinInv (X11.refresh sample s).2 :=
  (refresh_spec sample s).pinInv inv room

/-- Two moments with one sequence number: the later state has noted both models. -/
theorem PinInv.sameView {s s' : State} {m m' : Model} (inv : PinInv s) (inv' : PinInv s')
    (notes : s.notes ⊆ s'.notes) (sequence : s'.observer.sequence = s.observer.sequence)
    (model : s.observer.model = some m) (model' : s'.observer.model = some m') : SameView m m' := by
  obtain ⟨hnote, -⟩ := inv.present m model
  obtain ⟨hnote', -⟩ := inv'.present m' model'
  rw [sequence] at hnote'
  exact inv'.pinned _ m m' (notes hnote) hnote'

end AgentSeat.X11
