/-
  From a request to the record it names (`observer/manager.rs`).

  A request names a client by its id and the generation its peer saw last. `target` finds the
  record of that id in the model and refuses it if the generation has moved.
-/
import AgentSeat.Observer.Model
import AgentSeat.Proto.Call

namespace AgentSeat.X11

open AgentSeat.Proto

structure Target where
  id : ClientId
  xid : Window
  frame : Option Rect
  states : List ClientState
  actions : List ClientAction
  deriving DecidableEq

/-- The record of a client id. -/
def Observer.record (o : Observer) (id : ClientId) : Option ClientRecord :=
  o.model.bind fun model => model.clients.find? fun record => record.descriptor.id = id

def Failure.noSuchClient (sequence : Nat) : Failure :=
  ⟨.noSuchClient, .reobserve, "the target is missing or outside the configured scope", none,
    some sequence⟩

def Failure.staleGeneration (generation sequence : Nat) : Failure :=
  ⟨.stale, .reobserve, "the target generation changed before send", some generation,
    some sequence⟩

def Observer.target (o : Observer) (request : TargetRequest) : Except Failure Target :=
  match o.record request.client with
  | none => .error (Failure.noSuchClient o.sequence)
  | some record =>
    if record.descriptor.generation ≠ request.generation then
      .error (Failure.staleGeneration record.descriptor.generation o.sequence)
    else
      .ok ⟨record.descriptor.id, record.xid, record.descriptor.frame,
        record.descriptor.states.asSlice, record.descriptor.actions.asSlice⟩

/-- A target is a record of the model under the requested id and generation. -/
theorem Observer.target_ok {o : Observer} {request : TargetRequest} {t : Target}
    (h : o.target request = .ok t) :
    ∃ model record, o.model = some model ∧ record ∈ model.clients ∧
      record.descriptor.id = request.client ∧
      record.descriptor.generation = request.generation ∧ t.xid = record.xid ∧
      t.id = request.client := by
  unfold Observer.target at h
  split at h
  · simp at h
  · next record hrec =>
    split at h
    · simp at h
    · next hgen =>
      obtain ⟨model, hm, hfind⟩ := Option.bind_eq_some_iff.mp hrec
      have hid : record.descriptor.id = request.client := by
        simpa using List.find?_some hfind
      simp only [Except.ok.injEq] at h
      subst h
      exact ⟨model, record, hm, List.mem_of_find?_eq_some hfind, hid, by simpa using hgen, rfl,
        hid⟩

/-- A request without a fresh target fails as stale or as naming no client. -/
theorem Observer.target_error {o : Observer} {request : TargetRequest} {f : Failure}
    (h : o.target request = .error f) : f.code = .noSuchClient ∨ f.code = .stale := by
  unfold Observer.target at h
  split at h
  · exact .inl (by rw [← Except.error.inj h]; rfl)
  · split at h
    · exact .inr (by rw [← Except.error.inj h]; rfl)
    · simp at h

end AgentSeat.X11
