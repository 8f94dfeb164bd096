/-
  One action for each load of the gate.

  A `Deed` is a request that others can see: an XTEST event, a claim of the selection, an answer to
  a requestor, an EWMH message, a capture, a launch. The request-local window of a transfer and the
  release of its selection are not deeds. `Action` says which deeds make up one action. The monitor
  `pacing` lets a deed pass only if the last load of the gate accepted the permit and all deeds
  since that load are those of one action.

  Main result: `providerCall_paced`. Every call of a session keeps the pace: an input or a text loads
  the gate again before each of its actions, the other calls act once on the load they are served
  under.
-/
import AgentSeat.Lib.Monitor
import AgentSeat.Provider.Host
import AgentSeat.Provider.Looks

namespace AgentSeat.Provider

open AgentSeat.Lib AgentSeat.Proto AgentSeat.X11 AgentSeat.Seat

/-! ## Actions -/

inductive Deed where
  | input (event : XTestEvent)
  | claim (owner : Window)
  | write (requestor : Window)
  | notify (requestor : Window)
  | message (event : ClientMessageEvent)
  | capture (window : Window)
  | launch (application : ApplicationId)

def deed : Step → Option Deed
  | .said (.fakeInput event) _ => some (.input event)
  | .said (.setSelectionOwner owner) _ => if owner = none32 then none else some (.claim owner)
  | .said (.changeProperty window ..) _ => some (.write window)
  | .said (.notifySelection event) _ => some (.notify event.requestor)
  | .said (.sendMessage _ event) _ => some (.message event)
  | .said (.readPixels window _) _ => some (.capture window)
  | .said (.launch application) _ => some (.launch application)
  | _ => none

/-- The keys that were pressed, in order. -/
def presses (events : List XTestEvent) : List Nat :=
  events.filterMap fun event => if event.kind = .keyPress then some event.detail else none

/-- A click: the motion, the button down and up, and the release that is tried if this one failed. -/
def clickEvents (button : PointerButton) (x y : Int) : List XTestEvent :=
  [⟨.motionNotify, 0, x, y⟩, ⟨.buttonPress, buttonDetail button, x, y⟩,
    ⟨.buttonRelease, buttonDetail button, x, y⟩, ⟨.buttonRelease, buttonDetail button, 0, 0⟩]

/-- The deeds of one action, or of its beginning. -/
inductive Action : List Deed → Prop
  | motion (x y : Int) : Action [.input ⟨.motionNotify, 0, x, y⟩]
  | click (button : PointerButton) (x y : Int) {events : List XTestEvent}
      (h : events <+: clickEvents button x y) : Action (events.map .input)
  | stroke (stroke : KeyStroke) {events : List XTestEvent}
      (hevents : ∀ event ∈ events, StrokeEvent stroke event)
      (hpresses : presses events <+: stroke.modifiers ++ [stroke.keycode]) :
      Action (events.map .input)
  | claim (owner : Window) : Action [.claim owner]
  | answer (requestor : Window) {deeds : List Deed}
      (h : deeds.Sublist [.write requestor, .notify requestor]) : Action deeds
  | message (event : ClientMessageEvent) : Action [.message event]
  | capture (window : Window) : Action [.capture window]
  | launch (application : ApplicationId) : Action [.launch application]

/-! ## The monitor -/

/-- Whether the last load accepted the permit, and the deeds since then. -/
structure Pace where
  accepted : Bool
  deeds : List Deed

def gateLoad : Step → Option Nat
  | .said .seatLoad raw => some raw
  | _ => none

/-- Not the begin or the end of a call. -/
def Inner : Step → Prop
  | .mark (.began _) | .mark (.answered _) => False
  | _ => True

def pacing (permit : SeatPermit) : Monitor Step Pace where
  step p e :=
    match gateLoad e with
    | some raw => ⟨Seat.accepts raw permit, []⟩
    | none => ⟨p.accepted, p.deeds ++ (deed e).toList⟩
  allows p e :=
    (∀ d, deed e = some d → p.accepted = true ∧ Action (p.deeds ++ [d])) ∧ Inner e

/-- Neither a deed nor a load, and inside a call. -/
def Idle (e : Step) : Prop := deed e = none ∧ gateLoad e = none ∧ Inner e

theorem Idle.ignored {permit : SeatPermit} {e : Step} (h : Idle e) : (pacing permit).Ignores e := by
  obtain ⟨hdeed, hload, hinner⟩ := h
  intro p
  refine ⟨⟨by simp [hdeed], hinner⟩, ?_⟩
  simp only [pacing, hload, hdeed, Option.toList_none, List.append_nil]

theorem Looking.idle {e : Step} (h : Looking e) : Idle e := by
  cases e with
  | said q a => cases q <;> first | exact h.elim | exact ⟨rfl, rfl, trivial⟩
  | mark m => cases m <;> first | exact h.elim | exact ⟨rfl, rfl, trivial⟩

/-- The last load accepted the permit, and the deeds since then have a property. -/
def On (D : List Deed → Prop) (p : Pace) : Prop := p.accepted = true ∧ D p.deeds

/-- Nothing was done yet on a load that accepted. -/
abbrev Ready : Pace → Prop := On fun deeds => deeds = []

abbrev Anywhere : Pace → Prop := fun _ => True

section Pace

variable {env : Outside} {permit : SeatPermit} {α β : Type}

theorem paced_looks {P : Pace → Prop} {m : XM α} (h : Utters Moves Looking m) :
    Watched (pacing permit) P m fun _ => P :=
  Watched.of_utters h fun _ he => he.idle.ignored

theorem paced_idle {P : Pace → Prop} {m : XM α} (h : Utters Moves Idle m) :
    Watched (pacing permit) P m fun _ => P :=
  Watched.of_utters h fun _ he => he.ignored

/-- A look, or another idle step, before what follows. -/
theorem paced_then {P : Pace → Prop} {m : XM α} {f : α → XM β} {G : Except Failure β → Pace → Prop}
    (hm : Watched (pacing permit) P m fun _ => P) (hf : ∀ a, Watched (pacing permit) P (f a) G)
    (hG : ∀ e p, P p → G (.error e) p) : Watched (pacing permit) P (m >>= f) G :=
  Watched.bind hm hf hG

/-- A deed that the deeds before it allow. -/
theorem deed_ask {D D' : List Deed → Prop} {q : Question} {d : Deed} {ε σ : Type}
    (hdeed : ∀ a, deed (asked q a) = some d) (hload : ∀ a, gateLoad (asked q a) = none)
    (h : ∀ deeds, D deeds → Action (deeds ++ [d]) ∧ D' (deeds ++ [d])) :
    Watched (pacing permit) (On D)
      (Dialogue.ask env q : Prog (Dialogue Question.Answer Mark σ) ε q.Answer) fun _ => On D' := by
  refine Watched.ask fun a p hp => ?_
  obtain ⟨hacc, hdeeds⟩ := hp
  obtain ⟨haction, hnext⟩ := h p.deeds hdeeds
  refine ⟨⟨fun d' hd' => ?_, trivial⟩, ?_⟩
  · rw [show deed (.said q a) = some d from hdeed a, Option.some.injEq] at hd'
    exact ⟨hacc, hd' ▸ haction⟩
  · simp only [pacing, show gateLoad (.said q a) = none from hload a,
      show deed (.said q a) = some d from hdeed a]
    exact ⟨hacc, hnext⟩

theorem paced_reply {P : Pace → Prop} {F : Pace → Prop} {request : XM (Except XFault α)}
    (h : Watched (pacing permit) P request fun _ => F) (onSend onReply : String) :
    Watched (pacing permit) P (reply onSend onReply request) fun _ => F :=
  Watched.bind h (fun _ => Watched.lift fun _ => id) fun _ _ => id

theorem sync_idle : Utters Moves Idle (Dialogue.ask env .sync : XM _) :=
  Utters.ask fun _ => ⟨rfl, rfl, trivial⟩

/-! ## Events -/

theorem fakeInput_paced {D D' : List Deed → Prop} {event : XTestEvent}
    (h : ∀ deeds, D deeds → Action (deeds ++ [.input event]) ∧ D' (deeds ++ [.input event])) :
    Watched (pacing permit) (On D) (fakeInput env event) fun _ => On D' := by
  unfold fakeInput
  refine Watched.bind (paced_reply (deed_ask (fun _ => rfl) (fun _ => rfl) h) _ _) (fun _ => ?_)
    fun _ _ => id
  exact paced_reply (paced_idle sync_idle) _ _

theorem bestEffortRelease_paced {D D' : List Deed → Prop} {kind : XTestKind} {detail : Nat}
    (h : ∀ deeds, D deeds → Action (deeds ++ [.input ⟨kind, detail, 0, 0⟩]) ∧
      D' (deeds ++ [.input ⟨kind, detail, 0, 0⟩])) :
    Watched (pacing permit) (On D) (bestEffortRelease env kind detail) fun _ => On D' := by
  unfold bestEffortRelease
  refine Watched.bind (deed_ask (fun _ => rfl) (fun _ => rfl) h) (fun answer => ?_) fun _ _ => id
  have hsynced : Watched (pacing permit) (On D')
      (do let _ ← Dialogue.ask env .sync; pure () : XM Unit) fun _ => On D' :=
    paced_then (paced_idle sync_idle) (fun _ => Watched.pure fun _ => id) fun _ _ => id
  match (answer : Except XFault Unit) with
  | .error .send => exact Watched.pure fun _ => id
  | .error .reply => exact hsynced
  | .ok _ => exact hsynced

/-- The first events of a click. -/
def Clicked (button : PointerButton) (x y : Int) (n : Nat) (deeds : List Deed) : Prop :=
  deeds = ((clickEvents button x y).take n).map .input

theorem Clicked.next {button : PointerButton} {x y : Int} {n : Nat} {event : XTestEvent}
    (hevent : (clickEvents button x y)[n]? = some event) (deeds : List Deed)
    (h : Clicked button x y n deeds) :
    Action (deeds ++ [.input event]) ∧ Clicked button x y (n + 1) (deeds ++ [.input event]) := by
  have htake : (clickEvents button x y).take (n + 1) = (clickEvents button x y).take n ++ [event] := by
    rw [List.take_add_one, hevent]
    rfl
  have hdeeds : deeds ++ [.input event] = ((clickEvents button x y).take (n + 1)).map .input := by
    rw [htake, h, List.map_append]
    rfl
  rw [hdeeds]
  exact ⟨.click button x y (List.take_prefix _ _), rfl⟩

theorem click_paced (button : PointerButton) (x y : Int) :
    Watched (pacing permit) Ready (do
      fakeInput env ⟨.motionNotify, 0, x, y⟩
      clickButton env button x y : XM Unit) fun _ => Anywhere := by
  have hmotion : Watched (pacing permit) Ready (fakeInput env ⟨.motionNotify, 0, x, y⟩)
      fun _ => On (Clicked button x y 1) :=
    fakeInput_paced fun deeds h => Clicked.next rfl deeds h
  have hpress : Watched (pacing permit) (On (Clicked button x y 1))
      (fakeInput env ⟨.buttonPress, buttonDetail button, x, y⟩) fun _ => On (Clicked button x y 2) :=
    fakeInput_paced (Clicked.next rfl)
  have hrelease : Watched (pacing permit) (On (Clicked button x y 2))
      (fakeInput env ⟨.buttonRelease, buttonDetail button, x, y⟩)
      fun _ => On (Clicked button x y 3) :=
    fakeInput_paced (Clicked.next rfl)
  have hagain : Watched (pacing permit) (On (Clicked button x y 3))
      (bestEffortRelease env .buttonRelease (buttonDetail button))
      fun _ => On (Clicked button x y 4) :=
    bestEffortRelease_paced (Clicked.next rfl)
  refine Watched.bind hmotion (fun _ => ?_) fun _ _ _ => trivial
  unfold clickButton
  refine Watched.bind hpress (fun _ => ?_) fun _ _ _ => trivial
  refine Watched.attempt_bind hrelease fun released => ?_
  cases released with
  | ok u => exact Watched.pure fun _ _ => trivial
  | error e => exact Watched.bind hagain (fun _ => Watched.fail fun _ _ => trivial) fun _ _ _ => trivial

/-- Events of one stroke, with the keys pressed so far. -/
def Stroked (stroke : KeyStroke) (pressed : List Nat) (deeds : List Deed) : Prop :=
  ∃ events : List XTestEvent, deeds = events.map .input ∧
    (∀ event ∈ events, StrokeEvent stroke event) ∧ presses events = pressed ∧
      pressed <+: stroke.modifiers ++ [stroke.keycode]

section Stroke

variable {stroke : KeyStroke} {pressed : List Nat} {key : Nat}

theorem presses_append (events : List XTestEvent) (event : XTestEvent) :
    presses (events ++ [event]) = presses events ++
      if event.kind = .keyPress then [event.detail] else [] := by
  unfold presses
  rw [List.filterMap_append]
  by_cases h : event.kind = .keyPress
  · simp [h]
  · simp [h]

theorem Stroked.action {deeds : List Deed} (h : Stroked stroke pressed deeds) : Action deeds := by
  obtain ⟨events, rfl, hevents, rfl, hbegins⟩ := h
  exact .stroke stroke hevents hbegins

/-- The release of a key of the stroke. -/
theorem Stroked.release (hkey : key ∈ stroke.keycode :: stroke.modifiers) (deeds : List Deed)
    (h : Stroked stroke pressed deeds) :
    Action (deeds ++ [.input ⟨.keyRelease, key, 0, 0⟩]) ∧
      Stroked stroke pressed (deeds ++ [.input ⟨.keyRelease, key, 0, 0⟩]) := by
  have hnext : Stroked stroke pressed (deeds ++ [.input ⟨.keyRelease, key, 0, 0⟩]) := by
    obtain ⟨events, rfl, hevents, rfl, hbegins⟩ := h
    refine ⟨events ++ [⟨.keyRelease, key, 0, 0⟩], by simp, fun event he => ?_, ?_, hbegins⟩
    · rcases List.mem_append.mp he with he | he
      · exact hevents event he
      · rw [List.mem_singleton.mp he]
        exact ⟨key, hkey, .inr rfl⟩
    · rw [presses_append, if_neg (by simp), List.append_nil]
  exact ⟨hnext.action, hnext⟩

/-- The press of the next key of the stroke. -/
theorem Stroked.press (hbegins : pressed ++ [key] <+: stroke.modifiers ++ [stroke.keycode])
    (deeds : List Deed) (h : Stroked stroke pressed deeds) :
    Action (deeds ++ [.input ⟨.keyPress, key, 0, 0⟩]) ∧
      Stroked stroke (pressed ++ [key]) (deeds ++ [.input ⟨.keyPress, key, 0, 0⟩]) := by
  have hkey : key ∈ stroke.keycode :: stroke.modifiers := by
    have hmem := hbegins.subset (List.mem_append_right pressed (List.mem_singleton.mpr rfl))
    simpa [or_comm] using hmem
  have hnext : Stroked stroke (pressed ++ [key]) (deeds ++ [.input ⟨.keyPress, key, 0, 0⟩]) := by
    obtain ⟨events, rfl, hevents, rfl, -⟩ := h
    refine ⟨events ++ [⟨.keyPress, key, 0, 0⟩], by simp, fun event he => ?_, ?_, hbegins⟩
    · rcases List.mem_append.mp he with he | he
      · exact hevents event he
      · rw [List.mem_singleton.mp he]
        exact ⟨key, hkey, .inl rfl⟩
    · rw [presses_append, if_pos rfl]
  exact ⟨hnext.action, hnext⟩

theorem releaseEach_paced {keys : List Nat} (h : ∀ k ∈ keys, k ∈ stroke.keycode :: stroke.modifiers) :
    Watched (pacing permit) (On (Stroked stroke pressed)) (releaseEach env keys)
      fun _ => On (Stroked stroke pressed) := by
  induction keys with
  | nil => exact Watched.pure fun _ => id
  | cons key rest ih =>
    have hkey := h key (List.mem_cons_self ..)
    refine Watched.bind (bestEffortRelease_paced (Stroked.release hkey)) (fun _ => ?_) fun _ _ => id
    exact ih fun k hk => h k (List.mem_cons_of_mem _ hk)

theorem releaseKeys_paced {keys : List Nat} (h : ∀ k ∈ keys, k ∈ stroke.keycode :: stroke.modifiers) :
    Watched (pacing permit) (On (Stroked stroke pressed)) (releaseKeys env keys)
      fun _ => On (Stroked stroke pressed) :=
  releaseEach_paced fun k hk => h k (List.mem_reverse.mp hk)

/-- The modifiers that are left are pressed in order, or those already down are released. -/
theorem pressModifiers_paced {keys : List Nat} (hkeys : pressed ++ keys = stroke.modifiers) :
    Watched (pacing permit) (On (Stroked stroke pressed)) (pressModifiers env keys pressed)
      fun r p => ∀ held, r = .ok held →
        held = stroke.modifiers ∧ On (Stroked stroke stroke.modifiers) p := by
  induction keys generalizing pressed with
  | nil =>
    rw [List.append_nil] at hkeys
    subst hkeys
    exact Watched.pure fun p hp held hheld => ⟨(Except.ok.inj hheld).symm, hp⟩
  | cons key rest ih =>
    have hnext : pressed ++ [key] ++ rest = stroke.modifiers := by simpa using hkeys
    have hbegins : pressed ++ [key] <+: stroke.modifiers ++ [stroke.keycode] :=
      ⟨rest ++ [stroke.keycode], by simp [← hnext]⟩
    have hpressed (k : Nat) (hk : k ∈ pressed) : k ∈ stroke.keycode :: stroke.modifiers := by
      rw [← hkeys]
      simp [hk]
    have hpress : Watched (pacing permit) (On (Stroked stroke pressed))
        (fakeInput env ⟨.keyPress, key, 0, 0⟩) fun _ => On (Stroked stroke (pressed ++ [key])) :=
      fakeInput_paced (Stroked.press hbegins)
    unfold pressModifiers
    refine Watched.attempt_bind hpress fun result => ?_
    cases result with
    | ok u => exact ih hnext
    | error e =>
      refine Watched.bind (releaseKeys_paced hpressed) (fun _ => ?_) fun _ _ _ _ h => by simp at h
      exact Watched.fail fun _ _ _ h => by simp at h

theorem popModifiers_paced {keys : List Nat} (h : ∀ k ∈ keys, k ∈ stroke.keycode :: stroke.modifiers) :
    Watched (pacing permit) (On (Stroked stroke pressed)) (popModifiers env keys)
      fun _ => Anywhere := by
  induction keys with
  | nil => exact Watched.pure fun _ _ => trivial
  | cons key rest ih =>
    have hkey := h key (List.mem_cons_self ..)
    have hrest (k : Nat) (hk : k ∈ rest) := h k (List.mem_cons_of_mem _ hk)
    unfold popModifiers
    refine Watched.attempt_bind (fakeInput_paced (Stroked.release hkey)) fun result => ?_
    cases result with
    | ok u => exact ih hrest
    | error e =>
      refine Watched.bind (bestEffortRelease_paced (Stroked.release hkey)) (fun _ => ?_)
        fun _ _ _ => trivial
      refine Watched.bind (releaseKeys_paced fun k hk => hrest k (List.mem_reverse.mp hk))
        (fun _ => Watched.fail fun _ _ => trivial) fun _ _ _ => trivial

end Stroke

theorem typeKey_paced (stroke : KeyStroke) :
    Watched (pacing permit) Ready (typeKey env stroke) fun _ => Anywhere := by
  have hmods (k : Nat) (hk : k ∈ stroke.modifiers) : k ∈ stroke.keycode :: stroke.modifiers :=
    List.mem_cons_of_mem _ hk
  have hmain : stroke.keycode ∈ stroke.keycode :: stroke.modifiers := List.mem_cons_self ..
  have hstart (p : Pace) (hp : Ready p) : On (Stroked stroke []) p :=
    ⟨hp.1, [], by rw [hp.2]; rfl, by simp, rfl, List.nil_prefix⟩
  have hdown : Watched (pacing permit) (On (Stroked stroke stroke.modifiers))
      (fakeInput env ⟨.keyPress, stroke.keycode, 0, 0⟩)
      fun _ => On (Stroked stroke (stroke.modifiers ++ [stroke.keycode])) :=
    fakeInput_paced (Stroked.press (List.prefix_refl _))
  unfold typeKey
  refine Watched.bind (Watched.weaken (pressModifiers_paced (List.nil_append _)) hstart
    fun _ _ => id) (fun held => ?_) fun _ _ _ => trivial
  refine Watched.assume (p := held = stroke.modifiers) (fun hheld => ?_) fun p hp => (hp held rfl).1
  subst hheld
  refine Watched.weaken (P := On (Stroked stroke stroke.modifiers)) ?_ (fun p hp => (hp _ rfl).2)
    fun _ _ => id
  refine Watched.attempt_bind hdown fun down => ?_
  cases down with
  | error e =>
    exact Watched.bind (releaseKeys_paced hmods) (fun _ => Watched.fail fun _ _ => trivial)
      fun _ _ _ => trivial
  | ok u =>
    refine Watched.attempt_bind (fakeInput_paced (Stroked.release hmain)) fun up => ?_
    cases up with
    | error e =>
      refine Watched.bind (bestEffortRelease_paced (Stroked.release hmain)) (fun _ => ?_)
        fun _ _ _ => trivial
      exact Watched.bind (releaseKeys_paced hmods) (fun _ => Watched.fail fun _ _ => trivial)
        fun _ _ _ => trivial
    | ok u => exact popModifiers_paced fun k hk => hmods k (List.mem_reverse.mp hk)

/-! ## The gate and the grab -/

/-- A load starts anew: what follows an acceptance may act once. -/
theorem accepts_paced {P : Pace → Prop} {f : Bool → XM β}
    (hyes : Watched (pacing permit) Ready (f true) fun _ => Anywhere)
    (hno : Watched (pacing permit) Anywhere (f false) fun _ => Anywhere) :
    Watched (pacing permit) P (accepts env permit >>= f) fun _ => Anywhere := by
  have hload : Watched (pacing permit) P (accepts env permit) fun r p =>
      ∃ yes, r = .ok yes ∧ p = ⟨yes, []⟩ := by
    unfold accepts
    refine Watched.bind (Watched.ask (F := fun r p => ∃ raw : Nat, r = .ok raw ∧
      p = ⟨Seat.accepts raw permit, []⟩) fun raw p _ => ?_) (fun raw => ?_) fun e p h => by simp at h
    · exact ⟨⟨by simp [deed], trivial⟩, raw, rfl, rfl⟩
    · refine Watched.pure fun p h => ?_
      obtain ⟨raw', heq, hp⟩ := h
      exact ⟨_, rfl, by rw [hp, Except.ok.inj heq]⟩
  refine Watched.bind hload (fun yes => ?_) fun e p _ => trivial
  cases yes with
  | true =>
    refine Watched.weaken hyes (fun p h => ?_) fun _ _ => id
    obtain ⟨yes, heq, rfl⟩ := h
    exact ⟨(Except.ok.inj heq).symm, rfl⟩
  | false => exact Watched.weaken hno (fun _ _ => trivial) fun _ _ => id

theorem onlyIfAccepted_paced {P : Pace → Prop} {emission : XM Unit}
    (h : Watched (pacing permit) Ready emission fun _ => Anywhere) :
    Watched (pacing permit) P (onlyIfAccepted env permit emission) fun _ => Anywhere := by
  unfold onlyIfAccepted
  refine accepts_paced ?_ ?_
  · exact Watched.bind h (fun _ => Watched.pure fun _ _ => trivial) fun _ _ _ => trivial
  · exact Watched.pure fun _ _ => trivial

theorem grab_idle : Utters Moves Idle (Dialogue.ask env .grabServer : XM _) :=
  Utters.ask fun _ => ⟨rfl, rfl, trivial⟩

theorem ungrab_idle : Utters Moves Idle (Dialogue.ask env .ungrabServer : XM _) :=
  Utters.ask fun _ => ⟨rfl, rfl, trivial⟩

theorem underServerGrab_paced {P : Pace → Prop} {action : XM α}
    (h : Watched (pacing permit) P action fun _ => Anywhere) :
    Watched (pacing permit) P (underServerGrab env action) fun _ => Anywhere := by
  unfold underServerGrab
  refine paced_then (paced_reply (paced_idle grab_idle) _ _) (fun _ => ?_) fun _ _ _ => trivial
  refine Watched.attempt_bind h fun result => ?_
  refine paced_then (paced_idle ungrab_idle) (fun _ => ?_) fun _ _ _ => trivial
  exact Watched.lift fun _ _ => trivial

/-- The gate is asked once more for the reply. -/
theorem action_paced {P : Pace → Prop} {action : XM Bool}
    (h : Watched (pacing permit) P action fun _ => Anywhere) :
    Watched (pacing permit) P (do
      let sent ← underServerGrab env action
      let still ← accepts env permit
      pure (actionReply sent still) : XM InputReply) fun _ => Anywhere := by
  refine Watched.bind (underServerGrab_paced h) (fun sent => ?_) fun _ _ _ => trivial
  exact accepts_paced (Watched.pure fun _ _ => trivial) (Watched.pure fun _ _ => trivial)

/-! ## Input -/

theorem pointerMove_paced (request : PointerMoveRequest) :
    Watched (pacing permit) Anywhere (pointerMove env request permit) fun _ => Anywhere := by
  unfold pointerMove moveAction
  refine action_paced (paced_then (paced_looks (pointerDestination_looks _ _ _)) (fun d => ?_)
    fun _ _ => id)
  obtain ⟨xid, rootX, rootY⟩ := d
  have hmotion : Watched (pacing permit) Ready (fakeInput env ⟨.motionNotify, 0, rootX, rootY⟩)
      fun _ => On fun _ => True := by
    refine fakeInput_paced fun deeds hdeeds => ⟨?_, trivial⟩
    rw [hdeeds]
    exact .motion rootX rootY
  exact onlyIfAccepted_paced (hmotion.weaken (fun _ => id) fun _ _ _ => trivial)

theorem pointerClick_paced (request : PointerClickRequest) :
    Watched (pacing permit) Anywhere (pointerClick env request permit) fun _ => Anywhere := by
  unfold pointerClick clickAction
  refine action_paced (paced_then (paced_looks (pointerDestination_looks _ _ _)) (fun d => ?_)
    fun _ _ => id)
  obtain ⟨xid, rootX, rootY⟩ := d
  exact onlyIfAccepted_paced (click_paced request.button rootX rootY)

theorem keyboardKey_paced (request : KeyboardKeyRequest) :
    Watched (pacing permit) Anywhere (keyboardKey env request permit) fun _ => Anywhere := by
  unfold keyboardKey keyAction
  refine action_paced ?_
  refine paced_then (paced_looks (freshTarget_looks _)) (fun target => ?_) fun _ _ => id
  refine paced_then (paced_looks (requireFocusOwnedBy_looks _)) (fun _ => ?_) fun _ _ => id
  refine paced_then (paced_looks (resolveKey_looks _ _)) (fun stroke => ?_) fun _ _ => id
  exact onlyIfAccepted_paced (typeKey_paced stroke)

/-- Each character has a load of its own before its stroke. -/
theorem characterAction_paced (request : TargetRequest) (character : Char) (position : Nat) :
    Watched (pacing permit) Anywhere (characterAction env request character position permit)
      fun _ => Anywhere := by
  unfold characterAction
  refine paced_then (paced_looks (freshTarget_looks _)) (fun target => ?_) fun _ _ => id
  refine paced_then (paced_looks (requireFocusOwnedBy_looks _)) (fun _ => ?_) fun _ _ => id
  refine accepts_paced ?_ (Watched.pure fun _ _ => trivial)
  refine paced_then (paced_looks (resolveCharacter_looks _ _)) (fun stroke => ?_)
    fun _ _ _ => trivial
  exact Watched.bind (typeKey_paced stroke) (fun _ => Watched.pure fun _ _ => trivial)
    fun _ _ _ => trivial

theorem typeCharacters_paced (request : TargetRequest) (text : List Char) (completed : Nat) :
    Watched (pacing permit) Anywhere (typeCharacters env request permit text completed)
      fun _ => Anywhere := by
  induction text generalizing completed with
  | nil => exact Watched.pure fun _ => id
  | cons character rest ih =>
    unfold typeCharacters
    refine Watched.bind (F := fun _ => Anywhere) (Watched.lift fun _ => id) (fun _ => ?_) fun _ _ => id
    refine Watched.attempt_bind (underServerGrab_paced (characterAction_paced _ _ _))
      fun result => ?_
    rcases result with e | typed
    · dsimp only
      split
      · exact Watched.fail fun _ => id
      · exact Watched.pure fun _ => id
    · cases typed with
      | false => exact Watched.pure fun _ => id
      | true =>
        refine accepts_paced ?_ (Watched.pure fun _ _ => trivial)
        exact Watched.weaken (ih _) (fun _ _ => trivial) fun _ _ => id

theorem keyboardText_paced (request : TargetRequest) (text : List Char) :
    Watched (pacing permit) Anywhere (keyboardText env request text permit) fun _ => Anywhere := by
  have hpreflight : Utters Moves Looking (preflight env request text) :=
    Utters.bind (freshTarget_looks _) fun _ => Utters.bind (requireFocusOwnedBy_looks _) fun _ =>
      Utters.bind (resolveText_looks _) fun _ => Utters.pure _
  unfold keyboardText
  refine Watched.bind (F := fun _ => Anywhere) (Watched.lift fun _ => id) (fun _ => ?_) fun _ _ => id
  refine Watched.bind (underServerGrab_paced (paced_looks hpreflight)) (fun _ => ?_) fun _ _ => id
  refine Watched.bind (typeCharacters_paced request text 0) (fun completed => ?_) fun _ _ => id
  unfold textComplete
  split
  · exact accepts_paced (Watched.pure fun _ _ => trivial) (Watched.pure fun _ _ => trivial)
  · exact Watched.bind (F := fun _ => Anywhere) (Watched.pure fun _ => id)
      (fun _ => Watched.pure fun _ => id) fun _ _ => id

/-! ## Transfer -/

/-- The answer to a requestor: a property, or none, and the notification. -/
theorem notified_paced {request : SelectionRequestEvent} {D : List Deed → Prop}
    (hD : ∀ deeds, D deeds → (deeds ++ [Deed.notify request.requestor]).Sublist
      [.write request.requestor, .notify request.requestor])
    (property : Atom) (message : String) (written : Bool) :
    Watched (pacing permit) (On D) (do
      notifySelection env request property
      synchronize env message
      pure written : XM Bool) fun _ => Anywhere := by
  have hnotify : Watched (pacing permit) (On D) (notifySelection env request property)
      fun _ => On fun _ => True :=
    paced_reply (deed_ask (fun _ => rfl) (fun _ => rfl) fun deeds hdeeds =>
      ⟨.answer request.requestor (hD deeds hdeeds), trivial⟩) _ _
  refine Watched.bind hnotify (fun _ => ?_) fun _ _ _ => trivial
  refine paced_then (paced_reply (paced_idle sync_idle) _ _) (fun _ => ?_) fun _ _ _ => trivial
  exact Watched.pure fun _ _ => trivial

theorem refuseSelection_paced (request : SelectionRequestEvent) (message : String) :
    Watched (pacing permit) Ready (refuseSelection env request message) fun _ => Anywhere := by
  refine notified_paced (fun deeds hdeeds => ?_) _ _ _
  rw [hdeeds]
  exact List.sublist_cons_self _ _

/-- A property of either kind, then the notification. -/
theorem written_paced {request : SelectionRequestEvent} {property type : Atom} {data : PropertyData}
    {onSend onReply message : String} {written : Bool} :
    Watched (pacing permit) Ready (do
      reply onSend onReply (Dialogue.ask env
        (.changeProperty request.requestor property type data))
      notifySelection env request property
      synchronize env message
      pure written : XM Bool) fun _ => Anywhere := by
  have hwrite : Watched (pacing permit) Ready (reply onSend onReply (Dialogue.ask env
      (.changeProperty request.requestor property type data)))
      fun _ => On fun deeds => deeds = [.write request.requestor] := by
    refine paced_reply (deed_ask (fun _ => rfl) (fun _ => rfl) fun deeds hdeeds => ?_) _ _
    rw [hdeeds]
    exact ⟨.answer request.requestor (List.Sublist.cons_cons _ (List.nil_sublist _)), rfl⟩
  refine Watched.bind hwrite (fun _ => ?_) fun _ _ _ => trivial
  refine notified_paced (fun deeds hdeeds => ?_) _ _ _
  rw [hdeeds]
  exact List.Sublist.refl _

theorem selectionAction_paced (t : Transfer) (request : SelectionRequestEvent) :
    Watched (pacing t.permit) Anywhere (selectionAction env t request) fun _ => Anywhere := by
  unfold selectionAction
  refine paced_then (paced_looks (freshTarget_looks _)) (fun target => ?_) fun _ _ => id
  refine paced_then (paced_looks (requireFocusOwnedBy_looks _)) (fun _ => ?_) fun _ _ => id
  refine accepts_paced ?_ (Watched.pure fun _ _ => trivial)
  refine paced_then (paced_looks (sameXClient_looks _ _)) (fun same => ?_) fun _ _ _ => trivial
  split
  · unfold serveSelection
    refine paced_then (paced_looks (selectionOwner_looks _)) (fun current => ?_) fun _ _ _ => trivial
    refine paced_then (paced_looks (this_quiet _)) (fun atoms => ?_) fun _ _ _ => trivial
    split
    · exact Watched.pure fun _ _ => trivial
    · split
      · exact written_paced
      · split
        · exact written_paced
        · exact refuseSelection_paced _ _
  · exact refuseSelection_paced _ _

theorem transferEvidence_paced (t : Transfer) :
    Watched (pacing t.permit) Anywhere (transferEvidenceIsCurrent env t) fun _ => Anywhere := by
  unfold transferEvidenceIsCurrent evidenceAction
  refine Watched.attempt_bind (underServerGrab_paced ?_) fun _ => Watched.pure fun _ => id
  refine paced_then (paced_looks (freshTarget_looks _)) (fun target => ?_) fun _ _ => id
  refine paced_then (paced_looks (requireFocusOwnedBy_looks _)) (fun _ => ?_) fun _ _ => id
  refine accepts_paced ?_ (Watched.pure fun _ _ => trivial)
  refine paced_then (paced_looks (selectionOwner_looks _)) (fun _ => ?_) fun _ _ _ => trivial
  exact Watched.pure fun _ _ => trivial

theorem pollForEvent_idle : Utters Moves Idle (Dialogue.ask env .pollForEvent : XM _) :=
  Utters.ask fun _ => ⟨rfl, rfl, trivial⟩

theorem serveEvents_paced (t : Transfer) (clipboard : Atom) (events requests : Nat)
    (delivered : Bool) :
    Watched (pacing t.permit) Anywhere (serveEvents env t clipboard events requests delivered)
      fun _ => Anywhere := by
  induction events generalizing requests delivered with
  | zero =>
    unfold serveEvents
    refine paced_then (paced_reply (paced_idle pollForEvent_idle) _ _) (fun pending => ?_) fun _ _ => id
    cases pending with
    | none => exact Watched.pure fun _ => id
    | some event => exact Watched.pure fun _ => id
  | succ events ih =>
    unfold serveEvents
    refine paced_then (paced_reply (paced_idle pollForEvent_idle) _ _) (fun pending => ?_) fun _ _ => id
    cases pending with
    | none => exact Watched.pure fun _ => id
    | some event =>
      cases event with
      | selectionClear owner selection =>
        dsimp only
        split
        · exact Watched.pure fun _ => id
        · exact ih _ _
      | selectionRequest request =>
        dsimp only
        split
        · split
          · exact Watched.pure fun _ => id
          · exact Watched.bind (underServerGrab_paced (selectionAction_paced t request))
              (fun _ => ih _ _) fun _ _ => id
        · exact ih _ _
      | other => exact ih _ _

theorem waitRounds_paced (t : Transfer) (clipboard : Atom) (bytes rounds : Nat) (s : Serving) :
    Watched (pacing t.permit) Anywhere (waitRounds env t clipboard bytes rounds s)
      fun _ => Anywhere := by
  induction rounds generalizing s with
  | zero =>
    unfold waitRounds
    refine Watched.bind (serveEvents_paced _ _ _ _ _) (fun served => ?_) fun _ _ => id
    cases served with
    | none => exact Watched.pure fun _ => id
    | some serving =>
      refine Watched.bind (transferEvidence_paced t) (fun current => ?_) fun _ _ => id
      split
      · exact Watched.pure fun _ => id
      · refine paced_then (paced_looks (Utters.ask fun _ => trivial)) (fun settled => ?_) fun _ _ => id
        split
        · exact Watched.pure fun _ => id
        · exact Watched.pure fun _ => id
  | succ rounds ih =>
    unfold waitRounds
    refine Watched.bind (serveEvents_paced _ _ _ _ _) (fun served => ?_) fun _ _ => id
    cases served with
    | none => exact Watched.pure fun _ => id
    | some serving =>
      refine Watched.bind (transferEvidence_paced t) (fun current => ?_) fun _ _ => id
      split
      · exact Watched.pure fun _ => id
      · refine paced_then (paced_looks (Utters.ask fun _ => trivial)) (fun settled => ?_) fun _ _ => id
        split
        · exact Watched.pure fun _ => id
        · have hpoll : Utters Moves Idle (Dialogue.ask env .pollStream : XM _) :=
            Utters.ask fun _ => ⟨rfl, rfl, trivial⟩
          exact paced_then (paced_reply (paced_idle hpoll) _ _) (fun _ => ih _) fun _ _ => id

/-- The claim and the paste stroke have a load each. -/
theorem pasteAction_paced (t : Transfer) :
    Watched (pacing t.permit) Anywhere (pasteAction env t) fun _ => Anywhere := by
  have hclaim : Watched (pacing t.permit) Ready (claimTransferSelection env t.owner)
      fun _ => Anywhere := by
    unfold claimTransferSelection
    refine Watched.bind (F := fun _ => Anywhere) ?_ (fun _ => ?_) fun _ _ => id
    · by_cases hnone : t.owner = none32
      · have hidle : Utters Moves Idle (Dialogue.ask env (.setSelectionOwner t.owner) : XM _) :=
          Utters.ask fun _ => ⟨by simp [deed, hnone], rfl, trivial⟩
        exact Watched.weaken (paced_reply (paced_idle hidle) _ _) (fun _ => id) fun _ _ _ => trivial
      · refine Watched.weaken (paced_reply (F := On fun _ => True) (deed_ask
          (d := .claim t.owner) (fun _ => by simp [deed, hnone]) (fun _ => rfl)
          fun deeds hdeeds => ⟨?_, trivial⟩) _ _) (fun _ => id) fun _ _ _ => trivial
        rw [hdeeds]
        exact .claim t.owner
    · refine paced_then (paced_looks (selectionOwner_looks _)) (fun _ => ?_) fun _ _ => id
      exact Watched.lift fun _ => id
  unfold pasteAction
  refine paced_then (paced_looks (freshTarget_looks _)) (fun target => ?_) fun _ _ => id
  refine paced_then (paced_looks (requireFocusOwnedBy_looks _)) (fun _ => ?_) fun _ _ => id
  refine paced_then (paced_looks (requireXresClientIdentity_looks _)) (fun _ => ?_) fun _ _ => id
  refine accepts_paced ?_ (Watched.pure fun _ _ => trivial)
  refine Watched.bind hclaim (fun _ => ?_) fun _ _ => id
  refine paced_then (paced_looks (resolveKey_looks _ _)) (fun stroke => ?_) fun _ _ => id
  exact onlyIfAccepted_paced (typeKey_paced stroke)

theorem afterOffer_paced (t : Transfer) (bytes : Nat) (offered : Except Failure Bool) :
    Watched (pacing t.permit) Anywhere (afterOffer env t bytes offered) fun _ => Anywhere := by
  match offered with
  | .ok true =>
    unfold afterOffer waitForTransfer
    refine paced_then (paced_looks (Utters.ask fun _ => trivial)) (fun deadline => ?_) fun _ _ => id
    refine paced_then (paced_looks (this_quiet _)) (fun clipboard => ?_) fun _ _ => id
    match (deadline : Option Nat) with
    | none => exact Watched.fail fun _ => id
    | some rounds => exact waitRounds_paced t clipboard bytes rounds _
  | .ok false => exact Watched.pure fun _ => id
  | .error e => exact Watched.fail fun _ => id

/-- The window of a request is neither made nor released by deeds. -/
theorem createTransferOwner_idle : Utters Moves Idle (createTransferOwner env) := by
  unfold createTransferOwner
  refine Utters.bind (reply_utters (Utters.ask fun _ => ⟨rfl, rfl, trivial⟩) _ _) fun owner => ?_
  exact Utters.bind (reply_utters (Utters.ask fun _ => ⟨rfl, rfl, trivial⟩) _ _) fun _ =>
    Utters.pure _

theorem releaseTransferOwner_idle (owner : Window) :
    Utters Moves Idle (releaseTransferOwner env owner) := by
  have hinside : Utters Moves Idle (releaseSelection env owner) := by
    unfold releaseSelection selectionOwner
    refine Utters.bind (reply_utters (Utters.ask fun _ => ⟨rfl, rfl, trivial⟩) _ _) fun current => ?_
    refine Utters.bind ?_ fun _ => reply_utters (Utters.ask fun _ => ⟨rfl, rfl, trivial⟩) _ _
    unfold Prog.onlyIf
    split
    · exact reply_utters (Utters.ask fun _ => ⟨rfl, rfl, trivial⟩) _ _
    · exact Utters.pure _
  unfold releaseTransferOwner
  refine Utters.bind (reply_utters grab_idle _ _) fun _ => ?_
  refine Utters.bind (Utters.attempt hinside) fun _ => Utters.bind ungrab_idle fun _ => ?_
  exact Utters.bind (Utters.lift _) fun _ => reply_utters sync_idle _ _

theorem textInsert_paced (request : TextInsertRequest) :
    Watched (pacing permit) Anywhere (textInsert env request permit) fun _ => Anywhere := by
  unfold textInsert
  refine Watched.bind (F := fun _ => Anywhere) (Watched.lift fun _ => id) (fun _ => ?_) fun _ _ => id
  refine paced_then (paced_idle createTransferOwner_idle) (fun owner => ?_) fun _ _ => id
  refine Watched.attempt_bind (underServerGrab_paced (pasteAction_paced
    ⟨owner, request.target, request.text.asStr.toUTF8.toList, permit⟩)) fun offered => ?_
  refine Watched.attempt_bind (afterOffer_paced
    ⟨owner, request.target, request.text.asStr.toUTF8.toList, permit⟩ _ offered) fun result => ?_
  refine Watched.attempt_bind (paced_idle (P := Anywhere) (releaseTransferOwner_idle owner))
    fun cleanup => ?_
  exact Watched.lift fun _ => id

/-! ## Calls that act once -/

theorem sendPrepared_paced (operation : Operation) :
    Watched (pacing permit) Ready (sendPrepared env operation) fun _ => Anywhere := by
  unfold sendPrepared
  refine paced_then (paced_looks refresh_looks) (fun _ => ?_) fun _ _ _ => trivial
  refine paced_then (paced_looks (Utters.ask fun _ => trivial)) (fun d => ?_) fun _ _ _ => trivial
  refine paced_then (paced_looks (this_quiet _)) (fun o => ?_) fun _ _ _ => trivial
  refine Watched.bind (F := fun _ => Ready) (Watched.lift fun _ => id) (fun prepared => ?_)
    fun _ _ _ => trivial
  have hsend : Watched (pacing permit) Ready (reply "cannot send an EWMH request"
      "the X server refused an EWMH request" (Dialogue.ask env (.sendMessage o.root prepared.event)))
      fun _ => On fun _ => True := by
    refine paced_reply (deed_ask (fun _ => rfl) (fun _ => rfl) fun deeds hdeeds => ⟨?_, trivial⟩) _ _
    rw [hdeeds]
    exact .message prepared.event
  exact Watched.bind hsend (fun _ => Watched.pure fun _ _ => trivial) fun _ _ _ => trivial

theorem manage_paced (operation : Operation) :
    Watched (pacing permit) Ready (manage env operation) fun _ => Anywhere := by
  have hflush : Utters Moves Idle (Dialogue.ask env .flush : XM _) :=
    Utters.ask fun _ => ⟨rfl, rfl, trivial⟩
  unfold manage
  refine paced_then (paced_reply (paced_idle grab_idle) _ _) (fun _ => ?_) fun _ _ _ => trivial
  refine Watched.attempt_bind (sendPrepared_paced operation) fun sent => ?_
  refine paced_then (paced_idle ungrab_idle) (fun _ => ?_) fun _ _ => id
  refine paced_then (paced_idle hflush) (fun _ => ?_) fun _ _ => id
  refine Watched.bind (F := fun _ => Anywhere) (Watched.lift fun _ => id) (fun desired => ?_)
    fun _ _ => id
  refine Watched.bind (F := fun _ => Anywhere) (Watched.lift fun _ => id) (fun _ => ?_) fun _ _ => id
  refine Watched.bind (F := fun _ => Anywhere) (Watched.lift fun _ => id) (fun _ => ?_) fun _ _ => id
  exact paced_looks (observeTerminal_looks desired)

theorem readTargetPixels_paced (request : TargetRequest) (region : Option CaptureRegion) :
    Watched (pacing permit) Ready (readTargetPixels env request region) fun _ => Anywhere := by
  unfold readTargetPixels
  refine paced_then (paced_looks (freshTarget_looks _)) (fun target => ?_) fun _ _ _ => trivial
  refine paced_then (paced_looks (this_quiet _)) (fun held => ?_) fun _ _ _ => trivial
  refine Watched.bind (F := fun _ => Ready) (Watched.lift fun _ => id) (fun _ => ?_)
    fun _ _ _ => trivial
  refine paced_then (paced_looks (reply_utters (Utters.ask fun _ => trivial) _ _)) (fun viewable => ?_)
    fun _ _ _ => trivial
  refine Watched.bind (F := fun _ => Ready) (Watched.lift fun _ => id) (fun _ => ?_)
    fun _ _ _ => trivial
  have hpixels : Watched (pacing permit) Ready
      (Dialogue.ask env (.readPixels target.xid region) : XM _) fun _ => On fun _ => True := by
    refine deed_ask (fun _ => rfl) (fun _ => rfl) fun deeds hdeeds => ⟨?_, trivial⟩
    rw [hdeeds]
    exact .capture target.xid
  exact Watched.bind hpixels (fun _ => Watched.lift fun _ _ => trivial) fun _ _ _ => trivial

/-- What both capture calls do: read under a grab, then encode. -/
theorem capture_paced {request : TargetRequest} {region : Option CaptureRegion}
    {wrap : RawCapture → CaptureData → β} :
    Watched (pacing permit) Ready (do
      let raw ← underServerGrab env (readTargetPixels env request region)
      let data ← encoded env raw
      pure (wrap raw data) : XM β) fun _ => Anywhere := by
  refine Watched.bind (underServerGrab_paced (readTargetPixels_paced _ _)) (fun raw => ?_) fun _ _ => id
  refine paced_then (paced_looks (encoded_looks raw)) (fun data => ?_) fun _ _ => id
  exact Watched.pure fun _ => id

end Pace

/-! ## Whole calls -/

section Calls

variable {env : Outside} {context : SessionContext} {permit : SeatPermit} {α : Type}

theorem method_paced {P : Pace → Prop} {m : XM α}
    (h : Watched (pacing permit) P m fun _ => Anywhere) :
    Watched (pacing permit) P (method m) fun _ => Anywhere := by
  intro w p hp
  unfold method
  rcases hs : w.state with _ | s
  · exact ⟨[], (List.append_nil _).symm, trivial, trivial⟩
  · exact h ⟨s, w.trace⟩ p hp

theorem observerFor_looks : Utters (Evolves context) Looking (observerFor env context) := by
  intro w _
  unfold observerFor
  rw [Prog.read_bind]
  rcases hs : w.state with _ | s
  · rw [Option.isSome_none, if_neg (by simp)]
    rcases connectObserver_run env context w with ⟨e, hrun⟩ | ⟨root, atoms, hrun⟩
    · rw [hrun]
      exact ⟨_, rfl, by simp [Looking], by rw [hs]; exact .stays _, trivial⟩
    · rw [hrun]
      exact ⟨_, rfl, by simp [Looking], .opens root atoms .refl, trivial⟩
  · rw [Option.isSome_some, if_pos rfl]
    exact ⟨[], (List.append_nil _).symm, by simp, by rw [← hs]; exact .stays _, trivial⟩

theorem onObserver_paced {P : Pace → Prop} {m : XM α}
    (h : Watched (pacing permit) P m fun _ => Anywhere) :
    Watched (pacing permit) P (onObserver env context m) fun _ => Anywhere := by
  unfold onObserver
  have hconnect : Watched (pacing permit) P (observerFor env context) fun _ => P :=
    Watched.of_utters observerFor_looks fun _ he => he.idle.ignored
  exact Watched.bind hconnect (fun _ => method_paced h) fun _ _ _ => trivial

theorem observing_paced {P : Pace → Prop} {wrap : α → Proto.Reply} {m : XM α}
    (h : Watched (pacing permit) P m fun _ => Anywhere) :
    Watched (pacing permit) P (observing env context wrap m) fun _ => Anywhere := by
  unfold observing
  refine Watched.attempt_bind (onObserver_paced h) fun result => ?_
  cases result with
  | ok value => exact Watched.pure fun _ => id
  | error e => exact Watched.pure fun _ => id

theorem launching_paced {P : Pace → Prop} {wrap : α → Proto.Reply}
    {m : Prog Host LaunchFailure α} (h : Watched (pacing permit) P m fun _ => Anywhere) :
    Watched (pacing permit) P (launching wrap m) fun _ => Anywhere := by
  unfold launching
  refine Watched.attempt_bind h fun result => ?_
  cases result with
  | ok value => exact Watched.pure fun _ => id
  | error e => exact Watched.pure fun _ => id

theorem launchApplication_paced (application : ApplicationId) :
    Watched (pacing permit) Ready (launchApplication env context application)
      fun _ => Anywhere := by
  have hbaseline : Utters (Evolves context) Looking (baselineFor env context) := by
    unfold baselineFor
    split
    · refine Utters.bind (Utters.attempt ?_) fun _ => Utters.pure _
      exact Utters.bind observerFor_looks fun _ => method_silent launchBaseline_looks
    · exact Utters.pure _
  have hlaunch : Watched (pacing permit) Ready
      (Dialogue.ask env (.launch application) : Prog Host LaunchFailure _)
      fun _ => On fun _ => True := by
    refine deed_ask (fun _ => rfl) (fun _ => rfl) fun deeds hdeeds => ⟨?_, trivial⟩
    rw [hdeeds]
    exact .launch application
  unfold launchApplication
  refine Watched.bind (Watched.of_utters hbaseline fun _ he => he.idle.ignored) (fun baseline => ?_)
    fun _ _ _ => trivial
  refine Watched.bind hlaunch (fun answer => ?_) fun _ _ _ => trivial
  refine Watched.bind (F := fun _ => Anywhere) (Watched.lift fun _ _ => trivial) (fun started => ?_)
    fun _ _ => id
  have hclient : Utters (Evolves context) Looking
      (launchedClient env started.startupId.toUTF8.toList baseline) := by
    cases baseline with
    | none => exact Utters.pure _
    | some windows =>
      exact Utters.bind (Utters.attempt (method_silent (correlateLaunch_looks _ _)))
        fun _ => Utters.pure _
  refine Watched.bind (Watched.of_utters hclient fun _ he => he.idle.ignored) (fun client => ?_)
    fun _ _ => id
  exact Watched.pure fun _ => id

/-- Every call keeps the pace from a load that accepted the permit on. -/
theorem providerCall_paced (env : Outside) (context : SessionContext) (call : Proto.Call) :
    Watched (pacing context.permit) Ready (providerCall env context call) fun _ => Anywhere := by
  have anywhere {ε α : Type} {m : Prog Host ε α}
      (h : Watched (pacing context.permit) Anywhere m fun _ => Anywhere) :
      Watched (pacing context.permit) Ready m fun _ => Anywhere :=
    h.weaken (fun _ _ => trivial) fun _ _ => id
  cases call with
  | seatStatus => exact Watched.still (fun _ => rfl) fun _ _ _ => trivial
  | desktopSnapshot => exact anywhere (observing_paced (paced_looks snapshot_looks))
  | eventsSubscribe arguments =>
    exact anywhere (observing_paced (paced_looks (subscribe_looks arguments)))
  | eventsPoll arguments => exact anywhere (observing_paced (paced_looks (poll_looks arguments)))
  | clientActivate arguments => exact observing_paced (manage_paced _)
  | clientClose arguments => exact observing_paced (manage_paced _)
  | workspaceSwitch arguments => exact observing_paced (manage_paced _)
  | clientWorkspace arguments => exact observing_paced (manage_paced _)
  | clientState arguments => exact observing_paced (manage_paced _)
  | clientGeometry arguments => exact observing_paced (manage_paced _)
  | applicationsList arguments =>
    have hlist : Utters (Evolves context) Looking (listApplications env arguments) :=
      Utters.bind (Utters.ask fun _ => trivial) fun _ => Utters.lift _
    exact anywhere (launching_paced (Watched.of_utters hlist fun _ he => he.idle.ignored))
  | applicationLaunch arguments => exact launching_paced (launchApplication_paced _)
  | pointerMove arguments => exact anywhere (observing_paced (pointerMove_paced arguments))
  | pointerClick arguments => exact anywhere (observing_paced (pointerClick_paced arguments))
  | keyboardType arguments => exact anywhere (observing_paced (keyboardText_paced _ _))
  | keyboardWrite arguments => exact anywhere (observing_paced (keyboardText_paced _ _))
  | keyboardKey arguments => exact anywhere (observing_paced (keyboardKey_paced arguments))
  | textInsert arguments => exact anywhere (observing_paced (textInsert_paced arguments))
  | captureObscured arguments => exact observing_paced capture_paced
  | captureRegion arguments => exact observing_paced capture_paced

end Calls

end AgentSeat.Provider
