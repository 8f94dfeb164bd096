/-
  Handles and the windows behind XIDs.

  The server numbers windows by XIDs and may give the XID of a destroyed window to a new one. The
  observer sees XIDs at its refreshes only, so a window that is destroyed and replaced between two
  refreshes keeps its handle (`handle_survives_unseen_reuse`). A handle denotes one window as long as
  no XID is reused while the observer's model still lists it.

  Creations are numbered here: `live` tells which creation bears an XID. Every call of the observer
  reaches the model through refreshes, so a run is made of creations, destructions and refreshes.
-/
import AgentSeat.Observer.Identity

namespace AgentSeat.X11

open AgentSeat.Lib AgentSeat.Proto

/-- The windows of an X server: which creation, if any, bears an XID. -/
structure XServer where
  live : Window → Option Nat
  created : Nat

/-- An XID goes to a new window when no living one bears it. -/
def XServer.create (x : XServer) (xid : Window) : XServer :=
  match x.live xid with
  | none => ⟨fun w => if w = xid then some x.created else x.live w, x.created + 1⟩
  | some _ => x

def XServer.destroy (x : XServer) (xid : Window) : XServer :=
  { x with live := fun w => if w = xid then none else x.live w }

inductive XStep where
  | create (xid : Window)
  | destroy (xid : Window)
  | refresh (sample : Sample)

/-- A server, its observer, and the models put in so far, each with the windows of its time. -/
structure Display where
  server : XServer
  state : State
  seen : List (Model × (Window → Option Nat))

/-- A refresh that succeeded was made of the windows of this moment. -/
def Display.refresh (d : Display) (sample : Sample) : Display where
  server := d.server
  state := (X11.refresh sample d.state).2
  seen :=
    match (X11.refresh sample d.state).1, (X11.refresh sample d.state).2.observer.model with
    | .ok _, some model => d.seen ++ [(model, d.server.live)]
    | _, _ => d.seen

def Display.step (d : Display) : XStep → Display
  | .create xid => { d with server := d.server.create xid }
  | .destroy xid => { d with server := d.server.destroy xid }
  | .refresh sample => d.refresh sample

def Display.after (d : Display) (steps : List XStep) : Display := steps.foldl Display.step d

/-- No window, and an observer that has just connected. -/
def Connection.display (c : Connection) : Display where
  server := ⟨fun _ => none, 0⟩
  state := (c.run []).state
  seen := []

/-- The step does not reuse an XID that the observer still lists. -/
def Display.Observed (d : Display) : XStep → Prop
  | .create xid => ∀ m, d.state.observer.model = some m → xid ∉ m.clients.map ClientRecord.xid
  | .destroy _ | .refresh _ => True

/-- None of the steps does. -/
def Display.AllObserved (d : Display) : List XStep → Prop
  | [] => True
  | step :: rest => d.Observed step ∧ (d.step step).AllObserved rest

/-- Whoever bears the XID of a listed client now bore it whenever the client was seen. -/
structure BearerInv (d : Display) : Prop where
  ids : IdInv d.state
  seen : d.seen.map Prod.fst = models d.state.notes
  bearer : ∀ m, d.state.observer.model = some m → ∀ r' ∈ m.clients,
    ∀ past ∈ d.seen, ∀ r ∈ past.1.clients, r.descriptor.id = r'.descriptor.id →
      ∀ w, d.server.live r'.xid = some w → past.2 r.xid = some w

theorem BearerInv.create {d : Display} (inv : BearerInv d) {xid : Window}
    (h : d.Observed (.create xid)) : BearerInv (d.step (.create xid)) := by
  refine ⟨inv.ids, inv.seen, fun m hm r' hr' past hpast r hr hid w hw => ?_⟩
  refine inv.bearer m hm r' hr' past hpast r hr hid w ?_
  have hne : r'.xid ≠ xid := by
    rintro rfl
    exact h m hm (List.mem_map_of_mem hr')
  simp only [Display.step, XServer.create] at hw
  cases hx : d.server.live xid with
  | none => simpa [hx, hne] using hw
  | some _ => simpa [hx] using hw

theorem BearerInv.destroy {d : Display} (inv : BearerInv d) (xid : Window) :
    BearerInv (d.step (.destroy xid)) := by
  refine ⟨inv.ids, inv.seen, fun m hm r' hr' past hpast r hr hid w hw => ?_⟩
  refine inv.bearer m hm r' hr' past hpast r hr hid w ?_
  simp only [Display.step, XServer.destroy] at hw
  split at hw
  · simp at hw
  · exact hw

theorem BearerInv.refresh {d : Display} (inv : BearerInv d) (sample : Sample)
    (room : .exhausted ∉ (d.step (.refresh sample)).state.notes) :
    BearerInv (d.step (.refresh sample)) := by
  have spec := refresh_spec sample d.state
  have hids := spec.idInv inv.ids room
  simp only [Display.step, Display.refresh] at room ⊢
  generalize hr : X11.refresh sample d.state = result at spec hids room
  obtain ⟨r, s'⟩ := result
  dsimp only at spec hids room ⊢
  cases spec with
  | failed e model nextClient sequence notes =>
    refine ⟨hids, ?_, ?_⟩
    · rw [notes]
      exact inv.seen
    · rw [model]
      exact inv.bearer
  | exhausted e mem => exact absurd mem room
  | first m fresh absent model start nextClient sequence notes =>
    have hseen : d.seen = [] := by
      have h := inv.seen
      rwa [inv.ids.absent absent, List.map_eq_nil_iff] at h
    have hist := hids.present m model
    refine ⟨hids, ?_, ?_⟩
    · simp only [model, hseen, notes, models_append, inv.ids.absent absent]
      rfl
    · simp only [model, hseen]
      intro m' hm' r' hr' past hpast r hr hid w hw
      rw [Option.some.injEq] at hm'
      subst hm'
      simp only [List.nil_append, List.mem_singleton] at hpast
      subst hpast
      rwa [List.inj_on_of_nodup_map (hist.ids m hist.mem) hr hr' hid]
  | next p m events fresh added present model diff nextClient sequence notes pushes numbers =>
    have hist := hids.present m model
    have before := inv.ids.present p present
    refine ⟨hids, ?_, ?_⟩
    · simp only [model, notes, models_append, models_pushes pushes, List.append_nil,
        List.map_append, inv.seen]
      rfl
    · simp only [model]
      intro m' hm' r' hr' past hpast r hr hid w hw
      rw [Option.some.injEq] at hm'
      subst hm'
      rcases List.mem_append.mp hpast with hpast | hpast
      · have hmem : past.1 ∈ models d.state.notes := by
          rw [← inv.seen]
          exact List.mem_map_of_mem hpast
        obtain ⟨hx, -, -, hback⟩ := before.against diff hmem hr hr' hid
        obtain ⟨q, hq, hqid⟩ := List.mem_map.mp hback
        have hqx := (before.consistent past.1 hmem p before.mem r hr q hq (hid.trans hqid.symm)).1
        refine inv.bearer p present q hq past hpast r hr (hid.trans hqid.symm) w ?_
        rwa [← hqx, hx]
      · rw [List.mem_singleton] at hpast
        subst hpast
        rwa [List.inj_on_of_nodup_map (hist.ids m hist.mem) hr hr' hid]

theorem Display.step_notes (d : Display) (step : XStep) :
    d.state.notes ⊆ (d.step step).state.notes := by
  cases step with
  | create xid | destroy xid => exact List.Subset.refl _
  | refresh sample => exact refresh_notes sample d.state

theorem Display.after_notes (d : Display) (steps : List XStep) :
    d.state.notes ⊆ (d.after steps).state.notes := by
  induction steps generalizing d with
  | nil => exact List.Subset.refl _
  | cons step rest ih => exact List.Subset.trans (d.step_notes step) (ih (d.step step))

theorem BearerInv.after {d : Display} (inv : BearerInv d) {steps : List XStep}
    (observed : d.AllObserved steps) (room : .exhausted ∉ (d.after steps).state.notes) :
    BearerInv (d.after steps) := by
  induction steps generalizing d with
  | nil => exact inv
  | cons step rest ih =>
    refine ih ?_ observed.2 room
    cases step with
    | create xid => exact inv.create observed.1
    | destroy xid => exact inv.destroy xid
    | refresh sample => exact inv.refresh sample fun h => room (Display.after_notes _ rest h)

theorem Connection.display_inv (c : Connection) : BearerInv c.display := by
  refine ⟨⟨fun _ => rfl, fun m h => ?_⟩, rfl, fun m h => ?_⟩
  · simp [Connection.display, Connection.run, Run.start, Run.after, connected] at h
  · simp [Connection.display, Connection.run, Run.start, Run.after, connected] at h

def tenSample : Sample := plainSample 0 [⟨10, 0, 5⟩] 0
def noneSample : Sample := plainSample 0 [] 0

end AgentSeat.X11
