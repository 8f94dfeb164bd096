/-
  The boundary every injected event stays behind.

  `Warrant` says what must stand in the grab of an XTEST event for the call it serves. `Acts` is the
  shape of everything that runs under a grab: quiet checks first, then events that the checks
  warrant. `Obeys` carries that over grabs, the characters of a text and whole calls.

  The result for whole calls is `markedCall_lawful` of `Provider.Host`. Whatever the server, the other clients, the window manager and the
  operator do, a call adds no event without its warrant.
-/
import AgentSeat.Provider.Silent

namespace AgentSeat.Provider

open AgentSeat.Lib AgentSeat.Proto AgentSeat.X11 AgentSeat.Seat

/-! ## Warrants -/

/-- The press or the release of a key of the stroke. -/
def StrokeEvent (stroke : KeyStroke) (event : XTestEvent) : Prop :=
  ∃ key ∈ stroke.keycode :: stroke.modifiers,
    event = ⟨.keyPress, key, 0, 0⟩ ∨ event = ⟨.keyRelease, key, 0, 0⟩

/-- The motion to the point, the button there, or its release wherever the pointer is. -/
def ClickEvent (button : PointerButton) (rootX rootY : Int) (event : XTestEvent) : Prop :=
  event = ⟨.motionNotify, 0, rootX, rootY⟩ ∨
    event = ⟨.buttonPress, buttonDetail button, rootX, rootY⟩ ∨
    event = ⟨.buttonRelease, buttonDetail button, rootX, rootY⟩ ∨
    event = ⟨.buttonRelease, buttonDetail button, 0, 0⟩

/-- A fresh target, a destination on it that passed the hit test, and the gate's acceptance. -/
def PointerWarrant (permit : SeatPermit) (request : TargetRequest) (x y : Nat)
    (events : Int → Int → XTestEvent → Prop) (grab : List Step) (event : XTestEvent) : Prop :=
  ∃ xid rootX rootY, Fresh request xid grab ∧ PointOwned xid x y rootX rootY grab ∧
    Accepted permit grab ∧ events rootX rootY event

/-- A fresh target that owns the focus, a stroke of a map read in the grab, and the gate's
    acceptance. -/
def KeyWarrant (permit : SeatPermit) (request : TargetRequest) (symbol : Nat)
    (modifiers : List KeyboardModifier) (grab : List Step) (event : XTestEvent) : Prop :=
  ∃ xid stroke, Fresh request xid grab ∧ FocusOwned xid grab ∧
    Resolved symbol modifiers stroke grab ∧ Accepted permit grab ∧ StrokeEvent stroke event

/-- Since the call began there was a grab in which the target was fresh and focused and the whole
    text had strokes. -/
def Preflight (request : TargetRequest) (text : List Char) (since : List Step) : Prop :=
  ∃ head tail grab xid, since = head ++ tail ∧ hold head = some grab ∧ Fresh request xid grab ∧
    FocusOwned xid grab ∧ TextResolved text grab

def TextWarrant (permit : SeatPermit) (request : TargetRequest) (text : List Char)
    (since grab : List Step) (event : XTestEvent) : Prop :=
  Preflight request text since ∧
    ∃ character ∈ text, KeyWarrant permit request (keysymForCharacter character) [] grab event

/-- What an XTEST event needs: `since` is what was said since the call began, `grab` what was said
    in the grab it is emitted in. A call that is not an input call has no warrant. -/
def Warrant (permit : SeatPermit) (since grab : List Step) (event : XTestEvent) :
    Proto.Call → Prop
  | .pointerMove r => PointerWarrant permit r.target r.x r.y
      (fun x y event => event = ⟨.motionNotify, 0, x, y⟩) grab event
  | .pointerClick r => PointerWarrant permit r.target r.x r.y (ClickEvent r.button) grab event
  | .keyboardType r => TextWarrant permit r.target r.text.asStr.toList since grab event
  | .keyboardWrite r => TextWarrant permit r.target r.text.asStr.toList since grab event
  | .keyboardKey r =>
    KeyWarrant permit r.target (keysymForKey r.key) r.modifiers.asSlice grab event
  | .textInsert r => KeyWarrant permit r.target (keysymForKey .v) [.control] grab event
  | _ => False

/-- Every XTEST event of the trace was emitted inside a grab that warranted it. -/
def Lawful (permit : SeatPermit) (trace : List Step) : Prop :=
  ∀ pre event answer post, trace = pre ++ .said (.fakeInput event) answer :: post →
    ∃ call since grab, current pre = some (call, since) ∧ hold pre = some grab ∧
      Warrant permit since grab event call

theorem PointerWarrant.mono {permit : SeatPermit} {request : TargetRequest} {x y : Nat}
    {events : Int → Int → XTestEvent → Prop} {grab grab' : List Step} {event : XTestEvent}
    (h : PointerWarrant permit request x y events grab event) (hsub : grab ⊆ grab') :
    PointerWarrant permit request x y events grab' event := by
  obtain ⟨xid, rootX, rootY, hfresh, hpoint, hacc, hevent⟩ := h
  exact ⟨xid, rootX, rootY, hfresh.mono hsub, hpoint.mono hsub, hacc.mono hsub, hevent⟩

theorem KeyWarrant.mono {permit : SeatPermit} {request : TargetRequest} {symbol : Nat}
    {modifiers : List KeyboardModifier} {grab grab' : List Step} {event : XTestEvent}
    (h : KeyWarrant permit request symbol modifiers grab event) (hsub : grab ⊆ grab') :
    KeyWarrant permit request symbol modifiers grab' event := by
  obtain ⟨xid, stroke, hfresh, hfocus, hstroke, hacc, hevent⟩ := h
  exact ⟨xid, stroke, hfresh.mono hsub, hfocus.mono hsub, hstroke.mono hsub, hacc.mono hsub,
    hevent⟩

theorem Preflight.append {request : TargetRequest} {text : List Char} {since : List Step}
    (h : Preflight request text since) (more : List Step) :
    Preflight request text (since ++ more) := by
  obtain ⟨head, tail, grab, xid, rfl, hgrab⟩ := h
  exact ⟨head, tail ++ more, grab, xid, List.append_assoc _ _ _, hgrab⟩

/-! ## What the emitting programs emit -/

/-- A quiet entry, or one of the events `V`. -/
def Emission (V : XTestEvent → Prop) (e : Step) : Prop :=
  Quiet e ∨ ∃ event answer, e = .said (.fakeInput event) answer ∧ V event

section Emission

variable {env : Outside} {V : XTestEvent → Prop} {α β : Type}

/-- An XTEST request and its synchronization, of which `A` holds. -/
theorem fakeInput_utters {A : Step → Prop} (hsync : ∀ a, A (asked .sync a)) {event : XTestEvent}
    (h : ∀ a, A (asked (.fakeInput event) a)) : Utters Moves A (fakeInput env event) := by
  unfold fakeInput
  refine Utters.bind (reply_utters (Utters.ask h) _ _) fun _ => ?_
  exact reply_utters (Utters.ask hsync) _ _

theorem bestEffortRelease_utters {A : Step → Prop} (hsync : ∀ a, A (asked .sync a))
    {kind : XTestKind} {detail : Nat} (h : ∀ a, A (asked (.fakeInput ⟨kind, detail, 0, 0⟩) a)) :
    Utters Moves A (bestEffortRelease env kind detail) := by
  unfold bestEffortRelease
  refine Utters.bind (Utters.ask h) fun answer => ?_
  have hsynced : Utters Moves A (do let _ ← Dialogue.ask env .sync; pure () : XM Unit) :=
    Utters.bind (Utters.ask hsync) fun _ => Utters.pure _
  match (answer : Except XFault Unit) with
  | .error .send => exact Utters.pure _
  | .error .reply => exact hsynced
  | .ok _ => exact hsynced

theorem clickButton_utters {A : Step → Prop} (hsync : ∀ a, A (asked .sync a))
    {button : PointerButton} {rootX rootY : Int}
    (h : ∀ event a, ClickEvent button rootX rootY event → A (asked (.fakeInput event) a)) :
    Utters Moves A (clickButton env button rootX rootY) := by
  unfold clickButton
  refine Utters.bind (fakeInput_utters hsync fun a => h _ a (.inr (.inl rfl))) fun _ => ?_
  refine Utters.bind (Utters.attempt (fakeInput_utters hsync fun a =>
    h _ a (.inr (.inr (.inl rfl))))) fun released => ?_
  cases released with
  | ok u => exact Utters.pure _
  | error e =>
    exact Utters.bind (bestEffortRelease_utters hsync fun a => h _ a (.inr (.inr (.inr rfl))))
      fun _ => Utters.fail _

section Keys

variable {A : Step → Prop} (hsync : ∀ a, A (asked .sync a))

include hsync

theorem releaseEach_utters {keys : List Nat}
    (h : ∀ k ∈ keys, ∀ a, A (asked (.fakeInput ⟨.keyRelease, k, 0, 0⟩) a)) :
    Utters Moves A (releaseEach env keys) := by
  induction keys with
  | nil => exact Utters.pure _
  | cons key rest ih =>
    exact Utters.bind (bestEffortRelease_utters hsync (h key (List.mem_cons_self ..))) fun _ =>
      ih fun k hk => h k (List.mem_cons_of_mem _ hk)

theorem releaseKeys_utters {keys : List Nat}
    (h : ∀ k ∈ keys, ∀ a, A (asked (.fakeInput ⟨.keyRelease, k, 0, 0⟩) a)) :
    Utters Moves A (releaseKeys env keys) :=
  releaseEach_utters hsync fun k hk => h k (List.mem_reverse.mp hk)

/-- The pressed modifiers are those of the stroke. -/
theorem pressModifiers_tells {keys pressed all : List Nat} (hkeys : keys ⊆ all)
    (hpressed : pressed ⊆ all)
    (hpress : ∀ k ∈ all, ∀ a, A (asked (.fakeInput ⟨.keyPress, k, 0, 0⟩) a))
    (hrelease : ∀ k ∈ all, ∀ a, A (asked (.fakeInput ⟨.keyRelease, k, 0, 0⟩) a)) :
    Tells Moves A (fun _ => True) (pressModifiers env keys pressed)
      fun r _ _ => ∀ held, r = .ok held → held ⊆ all := by
  induction keys generalizing pressed with
  | nil =>
    refine Tells.pure fun _ _ held hheld => ?_
    rwa [← Except.ok.inj hheld]
  | cons key rest ih =>
    have hkey := hkeys (List.mem_cons_self ..)
    refine Tells.bind (Utters.attempt (fakeInput_utters hsync (hpress key hkey)))
      (fun result _ => ?_) fun _ _ _ _ _ hh => by simp at hh
    cases result with
    | ok u =>
      refine ih (fun k hk => hkeys (List.mem_cons_of_mem _ hk)) fun k hk => ?_
      rcases List.mem_append.mp hk with hk | hk
      · exact hpressed hk
      · rwa [List.mem_singleton.mp hk]
    | error e =>
      refine Tells.bind (releaseKeys_utters hsync fun k hk => hrelease k (hpressed hk))
        (fun _ _ => ?_) fun _ _ _ _ _ hh => by simp at hh
      exact Tells.fail fun _ _ _ hh => by simp at hh

theorem popModifiers_utters {keys : List Nat}
    (h : ∀ k ∈ keys, ∀ a, A (asked (.fakeInput ⟨.keyRelease, k, 0, 0⟩) a)) :
    Utters Moves A (popModifiers env keys) := by
  induction keys with
  | nil => exact Utters.pure _
  | cons key rest ih =>
    have hrest (k : Nat) (hk : k ∈ rest) := h k (List.mem_cons_of_mem _ hk)
    have hkey := h key (List.mem_cons_self ..)
    refine Utters.bind (Utters.attempt (fakeInput_utters hsync hkey)) fun result => ?_
    cases result with
    | ok u => exact ih hrest
    | error e =>
      refine Utters.bind (bestEffortRelease_utters hsync hkey) fun _ => Utters.bind
        (releaseKeys_utters hsync fun k hk => hrest k (List.mem_reverse.mp hk)) fun _ =>
          Utters.fail _

theorem typeKey_utters {stroke : KeyStroke}
    (h : ∀ event a, StrokeEvent stroke event → A (asked (.fakeInput event) a)) :
    Utters Moves A (typeKey env stroke) := by
  have hpress (k : Nat) (hk : k ∈ stroke.keycode :: stroke.modifiers) (a : Except XFault Unit) :
      A (asked (.fakeInput ⟨.keyPress, k, 0, 0⟩) a) := h _ a ⟨k, hk, .inl rfl⟩
  have hrelease (k : Nat) (hk : k ∈ stroke.keycode :: stroke.modifiers) (a : Except XFault Unit) :
      A (asked (.fakeInput ⟨.keyRelease, k, 0, 0⟩) a) := h _ a ⟨k, hk, .inr rfl⟩
  have hmods (k : Nat) (hk : k ∈ stroke.modifiers) := List.mem_cons_of_mem stroke.keycode hk
  have hmain : stroke.keycode ∈ stroke.keycode :: stroke.modifiers := List.mem_cons_self ..
  unfold typeKey
  refine Tells.bind (pressModifiers_tells hsync (List.Subset.refl stroke.modifiers) (by simp)
    (fun k hk => hpress k (hmods k hk)) fun k hk => hrelease k (hmods k hk)) (fun held _ => ?_)
    fun _ _ _ _ => trivial
  intro w hw
  have hheld : held ⊆ stroke.modifiers := hw held rfl
  have hreleased (k : Nat) (hk : k ∈ held) := hrelease k (hmods k (hheld hk))
  refine Utters.bind (Utters.attempt (fakeInput_utters hsync (hpress _ hmain))) (fun down => ?_)
    w trivial
  cases down with
  | error e => exact Utters.bind (releaseKeys_utters hsync hreleased) fun _ => Utters.fail _
  | ok u =>
    refine Utters.bind (Utters.attempt (fakeInput_utters hsync (hrelease _ hmain))) fun up => ?_
    cases up with
    | error e =>
      exact Utters.bind (bestEffortRelease_utters hsync (hrelease _ hmain)) fun _ =>
        Utters.bind (releaseKeys_utters hsync hreleased) fun _ => Utters.fail _
    | ok u => exact popModifiers_utters hsync fun k hk => hreleased k (List.mem_reverse.mp hk)

end Keys

theorem fakeInput_emits {event : XTestEvent} (h : V event) :
    Utters Moves (Emission V) (fakeInput env event) :=
  fakeInput_utters (fun _ => .inl trivial) fun a => .inr ⟨event, a, rfl, h⟩

theorem clickButton_emits (button : PointerButton) (rootX rootY : Int) :
    Utters Moves (Emission (ClickEvent button rootX rootY)) (clickButton env button rootX rootY) :=
  clickButton_utters (fun _ => .inl trivial) fun event a h => .inr ⟨event, a, rfl, h⟩

theorem typeKey_emits (stroke : KeyStroke) :
    Utters Moves (Emission (StrokeEvent stroke)) (typeKey env stroke) :=
  typeKey_utters (fun _ => .inl trivial) fun event a h => .inr ⟨event, a, rfl, h⟩

end Emission

/-! ## Checks before events -/

/-- Quiet checks, then events that what was seen in the checks warrants. -/
def Acts {α : Type} (W : List Step → XTestEvent → Prop) (m : XM α) : Prop :=
  ∀ w, ∃ checks acts, (m w).2.trace = w.trace ++ (checks ++ acts) ∧ (∀ e ∈ checks, Quiet e) ∧
    (∀ e ∈ acts, Emission (W checks) e) ∧ Moves w.state (m w).2.state

section Acts

variable {env : Outside} {α β : Type} {W : List Step → XTestEvent → Prop}

theorem Acts.of_quiet {m : XM α} (h : Utters Moves Quiet m) : Acts W m := by
  intro w
  obtain ⟨added, htrace, hquiet, hmoves, -⟩ := h w trivial
  exact ⟨added, [], by rw [htrace, List.append_nil], hquiet, by simp, hmoves⟩

theorem Acts.of_emits {V : XTestEvent → Prop} {m : XM α} (h : Utters Moves (Emission V) m)
    (hV : ∀ event, V event → W [] event) : Acts W m := by
  intro w
  obtain ⟨added, htrace, hemits, hmoves, -⟩ := h w trivial
  refine ⟨[], added, htrace, by simp, fun e he => ?_, hmoves⟩
  rcases hemits e he with hquiet | ⟨event, answer, rfl, hevent⟩
  · exact .inl hquiet
  · exact .inr ⟨event, answer, rfl, hV event hevent⟩

theorem Acts.bind {m : XM α} {f : α → XM β} {F : α → List Step → Prop} (hm : Finds m F)
    (hf : ∀ a added, F a added → Acts (fun checks event => W (added ++ checks) event) (f a)) :
    Acts W (m >>= f) := by
  intro w
  obtain ⟨added, htrace, hquiet, hmoves, hF⟩ := hm w trivial
  rw [Prog.bind_run]
  rcases hr : m w with ⟨r, w₁⟩
  rw [hr] at htrace hmoves hF
  cases r with
  | error e => exact ⟨added, [], by rw [List.append_nil]; exact htrace, hquiet, by simp, hmoves⟩
  | ok a =>
    obtain ⟨checks, acts, htrace', hquiet', hacts, hmoves'⟩ := hf a added (hF a rfl) w₁
    refine ⟨added ++ checks, acts, ?_, ?_, hacts, hmoves.trans hmoves'⟩
    · dsimp only at htrace htrace' ⊢
      rw [htrace', htrace]
      simp only [List.append_assoc]
    · intro e he
      rcases List.mem_append.mp he with he | he
      · exact hquiet e he
      · exact hquiet' e he

/-- The last check is the gate's. -/
theorem onlyIfAccepted_acts {permit : SeatPermit} {V : XTestEvent → Prop} {emission : XM Unit}
    (h : Utters Moves (Emission V) emission)
    (hV : ∀ checks event, Accepted permit checks → V event → W checks event) :
    Acts W (onlyIfAccepted env permit emission) := by
  unfold onlyIfAccepted
  refine Acts.bind (accepts_finds permit) fun yes added hyes => ?_
  split
  · next hacc =>
    refine Acts.of_emits (Utters.bind h fun _ => Utters.pure _) fun event hevent => ?_
    rw [List.append_nil]
    exact hV added event (hyes hacc) hevent
  · exact Acts.of_quiet (Utters.pure _)

theorem moveAction_acts (request : PointerMoveRequest) (permit : SeatPermit) :
    Acts (PointerWarrant permit request.target request.x request.y
        fun x y event => event = ⟨.motionNotify, 0, x, y⟩)
      (moveAction env request permit) := by
  unfold moveAction
  refine Acts.bind (pointerDestination_finds _ _ _) fun d added hd => ?_
  obtain ⟨xid, rootX, rootY⟩ := d
  refine onlyIfAccepted_acts (fakeInput_emits (V := fun event => event = _) rfl) ?_
  intro checks event hacc hevent
  exact ⟨xid, rootX, rootY, hd.1.mono (List.subset_append_left _ _),
    hd.2.mono (List.subset_append_left _ _), hacc.mono (List.subset_append_right _ _), hevent⟩

theorem clickAction_acts (request : PointerClickRequest) (permit : SeatPermit) :
    Acts (PointerWarrant permit request.target request.x request.y (ClickEvent request.button))
      (clickAction env request permit) := by
  unfold clickAction
  refine Acts.bind (pointerDestination_finds _ _ _) fun d added hd => ?_
  obtain ⟨xid, rootX, rootY⟩ := d
  refine onlyIfAccepted_acts (V := ClickEvent request.button rootX rootY)
    (Utters.bind (fakeInput_emits (.inl rfl)) fun _ => clickButton_emits _ _ _) ?_
  intro checks event hacc hevent
  exact ⟨xid, rootX, rootY, hd.1.mono (List.subset_append_left _ _),
    hd.2.mono (List.subset_append_left _ _), hacc.mono (List.subset_append_right _ _), hevent⟩

theorem keyAction_acts (request : KeyboardKeyRequest) (permit : SeatPermit) :
    Acts (KeyWarrant permit request.target (keysymForKey request.key) request.modifiers.asSlice)
      (keyAction env request permit) := by
  unfold keyAction
  refine Acts.bind (freshTarget_finds _) fun target added hfresh => ?_
  refine Acts.bind (requireFocusOwnedBy_finds _) fun _ added₁ hfocus => ?_
  refine Acts.bind (resolveKey_finds _ _) fun stroke added₂ hstroke => ?_
  refine onlyIfAccepted_acts (typeKey_emits stroke) fun checks event hacc hevent => ?_
  exact ⟨target.xid, stroke, hfresh.mono (fun e he => by simp [he]),
    hfocus.mono (fun e he => by simp [he]), hstroke.mono (fun e he => by simp [he]),
    hacc.mono (fun e he => by simp [he]), hevent⟩

theorem characterAction_acts (request : TargetRequest) (character : Char) (position : Nat)
    (permit : SeatPermit) :
    Acts (KeyWarrant permit request (keysymForCharacter character) [])
      (characterAction env request character position permit) := by
  unfold characterAction
  refine Acts.bind (freshTarget_finds _) fun target added hfresh => ?_
  refine Acts.bind (requireFocusOwnedBy_finds _) fun _ added₁ hfocus => ?_
  refine Acts.bind (accepts_finds permit) fun yes added₂ hyes => ?_
  split
  · next hacc =>
    refine Acts.bind (resolveCharacter_finds _ _) fun stroke added₃ hstroke => ?_
    refine Acts.of_emits (Utters.bind (typeKey_emits stroke) fun _ => Utters.pure _) ?_
    intro event hevent
    exact ⟨target.xid, stroke, hfresh.mono (fun e he => by simp [he]),
      hfocus.mono (fun e he => by simp [he]), hstroke.mono (fun e he => by simp [he]),
      (hyes hacc).mono (fun e he => by simp [he]), hevent⟩
  · exact Acts.of_quiet (Utters.pure _)

theorem pasteAction_acts (t : Transfer) :
    Acts (KeyWarrant t.permit t.target (keysymForKey .v) [.control]) (pasteAction env t) := by
  unfold pasteAction
  refine Acts.bind (freshTarget_finds _) fun target added hfresh => ?_
  refine Acts.bind (requireFocusOwnedBy_finds _) fun _ added₁ hfocus => ?_
  refine Acts.bind (Finds.of_utters (requireXresClientIdentity_quiet _)) fun _ added₂ _ => ?_
  refine Acts.bind (accepts_finds t.permit) fun yes added₃ _ => ?_
  split
  · refine Acts.bind (Finds.of_utters (claimTransferSelection_quiet _)) fun _ added₄ _ => ?_
    refine Acts.bind (resolveKey_finds _ _) fun stroke added₅ hstroke => ?_
    refine onlyIfAccepted_acts (typeKey_emits stroke) fun checks event hacc hevent => ?_
    exact ⟨target.xid, stroke, hfresh.mono (fun e he => by simp [he]),
      hfocus.mono (fun e he => by simp [he]), hstroke.mono (fun e he => by simp [he]),
      hacc.mono (fun e he => by simp [he]), hevent⟩
  · exact Acts.of_quiet (Utters.pure _)

end Acts

/-! ## Grabs -/

theorem grab_run (env : Outside) (w : World) :
    reply "cannot request an X11 server grab" "cannot acquire an X11 server grab"
      (Dialogue.ask env .grabServer) w =
      (checked "cannot request an X11 server grab" "cannot acquire an X11 server grab"
        (env w.trace .grabServer),
        ⟨w.state, w.trace ++ [asked .grabServer (env w.trace .grabServer)]⟩) := rfl

/-- A grab fails and nothing is done, or everything is done between the grab and the ungrab. -/
theorem underServerGrab_run {α : Type} (env : Outside) (action : XM α) (w : World) :
    (∃ fault e, underServerGrab env action w =
      (.error e, ⟨w.state, w.trace ++ [asked .grabServer (.error fault)]⟩)) ∨
    ∃ released, underServerGrab env action w =
      (conclude (action ⟨w.state, w.trace ++ [asked .grabServer (.ok ())]⟩).1
        (checked "cannot request an X11 server ungrab" "cannot release the X11 server grab" released),
      ⟨(action ⟨w.state, w.trace ++ [asked .grabServer (.ok ())]⟩).2.state,
        (action ⟨w.state, w.trace ++ [asked .grabServer (.ok ())]⟩).2.trace ++
          [asked .ungrabServer released]⟩) := by
  unfold underServerGrab
  rw [Prog.bind_run, grab_run]
  cases hg : (env w.trace .grabServer : Except XFault Unit) with
  | error fault => exact .inl ⟨fault, by cases fault <;> exact ⟨_, rfl⟩⟩
  | ok u => exact .inr ⟨_, rfl⟩

/-- Under a fresh grab the held entries are those said since. -/
theorem hold_grabbed (trace : List Step) {said : List Step} (h : ∀ e ∈ said, Ungrabbing e) :
    hold (trace ++ asked .grabServer (.ok ()) :: said) = some said := by
  rw [hold_append, List.foldl_cons, foldl_holdStep h]
  rfl

/-! ## Whole calls -/

/-- What a call may append after `trace`, of which `since` was said since it began. -/
structure Conforms (permit : SeatPermit) (call : Proto.Call) (trace since added : List Step) :
    Prop where
  within : ∀ e ∈ added, Within e
  warranted : ∀ pre event answer post, added = pre ++ asked (.fakeInput event) answer :: post →
    ∃ grab, hold (trace ++ pre) = some grab ∧ Warrant permit (since ++ pre) grab event call

section Conforms

variable {permit : SeatPermit} {call : Proto.Call} {trace since added more : List Step}

theorem Conforms.append (h : Conforms permit call trace since added)
    (h' : Conforms permit call (trace ++ added) (since ++ added) more) :
    Conforms permit call trace since (added ++ more) := by
  refine ⟨fun e he => ?_, fun pre event answer post hsplit => ?_⟩
  · rcases List.mem_append.mp he with he | he
    · exact h.within e he
    · exact h'.within e he
  · rcases List.append_eq_append_iff.mp hsplit with ⟨mid, hpre, hmore⟩ | ⟨mid, hadded, hpost⟩
    · subst hpre
      rw [← List.append_assoc, ← List.append_assoc]
      exact h'.warranted mid event answer post hmore
    · cases mid with
      | nil =>
        rw [List.append_nil] at hadded
        subst hadded
        obtain ⟨grab, hgrab, hwarrant⟩ := h'.warranted [] event answer post hpost.symm
        rw [List.append_nil] at hgrab hwarrant
        exact ⟨grab, hgrab, hwarrant⟩
      | cons e mid =>
        obtain ⟨rfl, -⟩ := List.cons.inj hpost
        exact h.warranted pre event answer mid hadded

/-- Entries without input need no warrant. -/
theorem Conforms.of_silent (h : ∀ e ∈ added, Silent e) :
    Conforms permit call trace since added := by
  refine ⟨fun e he => ?_, fun pre event answer post hsplit => ?_⟩
  · have := h e he
    cases e with
    | said q a => trivial
    | mark m => cases m <;> trivial
  · exact absurd (h (asked (.fakeInput event) answer) (by rw [hsplit]; simp)) id

theorem current_began (trace : List Step) (call : Proto.Call) :
    current (trace ++ [.mark (.began call)]) = some (call, []) := by
  unfold current
  rw [List.foldl_append]
  rfl

/-- The call that is worked on has begun. -/
theorem mem_of_current {call : Proto.Call} (h : current trace = some (call, since)) :
    .mark (.began call) ∈ trace := by
  induction trace using List.reverseRecOn generalizing since with
  | nil => simp [current] at h
  | append_singleton trace e ih =>
    unfold current at h
    rw [List.foldl_append, List.foldl_cons, List.foldl_nil] at h
    by_cases hwithin : Within e
    · rw [currentStep_some hwithin] at h
      obtain ⟨c, hc, heq⟩ := Option.map_eq_some_iff.mp h
      obtain ⟨rfl, -⟩ := Prod.mk.inj heq
      exact List.mem_append_left _ (ih hc)
    · cases e with
      | said q a => exact (hwithin trivial).elim
      | mark m =>
        cases m with
        | refreshed _ _ | answered _ => exact (hwithin trivial).elim
        | began begun =>
          rw [currentStep, Option.some.injEq, Prod.mk.injEq] at h
          rw [← h.1]
          simp

theorem current_append {call : Proto.Call} (h : current trace = some (call, since))
    (hwithin : ∀ e ∈ added, Within e) : current (trace ++ added) = some (call, since ++ added) := by
  unfold current at h ⊢
  rw [List.foldl_append, foldl_currentStep hwithin, h]
  rfl

end Conforms

/-- A program that serves `call`: it appends only what the call may append. `P` is what holds of
    the entries since the call began, `F` what holds of them afterwards. -/
def Obeys {σ ε α : Type} (S : σ → σ → Prop) (permit : SeatPermit) (call : Proto.Call)
    (P : List Step → Prop) (m : Prog (Dialogue Question.Answer Mark σ) ε α)
    (F : Except ε α → List Step → Prop) : Prop :=
  ∀ w since, current w.trace = some (call, since) → P since →
    ∃ added, (m w).2.trace = w.trace ++ added ∧ Conforms permit call w.trace since added ∧
      S w.state (m w).2.state ∧ F (m w).1 (since ++ added)

section Obeys

variable {σ ε α β : Type} {S : σ → σ → Prop} {permit : SeatPermit} {call : Proto.Call}
  {P : List Step → Prop}

theorem Obeys.bind [IsPreorder σ S] {m : Prog (Dialogue Question.Answer Mark σ) ε α}
    {f : α → Prog (Dialogue Question.Answer Mark σ) ε β} {F : Except ε α → List Step → Prop}
    {G : Except ε β → List Step → Prop} (hm : Obeys S permit call P m F)
    (hf : ∀ a, Obeys S permit call (F (.ok a)) (f a) G)
    (herr : ∀ e since, F (.error e) since → G (.error e) since) :
    Obeys S permit call P (m >>= f) G := by
  intro w since hcall hP
  obtain ⟨added, htrace, hconf, hS, hF⟩ := hm w since hcall hP
  rw [Prog.bind_run]
  rcases hr : m w with ⟨r, w₁⟩
  rw [hr] at htrace hS hF
  dsimp only at htrace hS hF
  cases r with
  | error e => exact ⟨added, htrace, hconf, hS, herr e _ hF⟩
  | ok a =>
    have hcall₁ : current w₁.trace = some (call, since ++ added) := by
      rw [htrace]
      exact current_append hcall hconf.within
    obtain ⟨more, htrace', hconf', hS', hG⟩ := hf a w₁ (since ++ added) hcall₁ hF
    rw [htrace] at hconf'
    refine ⟨added ++ more, ?_, hconf.append hconf', trans_of S hS hS', ?_⟩
    · dsimp only at htrace' ⊢
      rw [htrace', htrace, List.append_assoc]
    · rw [← List.append_assoc]
      exact hG

theorem Obeys.weaken {m : Prog (Dialogue Question.Answer Mark σ) ε α}
    {F F' : Except ε α → List Step → Prop} {P' : List Step → Prop}
    (h : Obeys S permit call P m F) (hP : ∀ since, P' since → P since)
    (hF : ∀ r since, F r since → F' r since) : Obeys S permit call P' m F' := by
  intro w since hcall hw
  obtain ⟨added, htrace, hconf, hS, hr⟩ := h w since hcall (hP since hw)
  exact ⟨added, htrace, hconf, hS, hF _ _ hr⟩

theorem Obeys.attempt {ε' : Type} {m : Prog (Dialogue Question.Answer Mark σ) ε α}
    {F : Except ε α → List Step → Prop} (h : Obeys S permit call P m F) :
    Obeys S permit call P (Prog.attempt m : Prog (Dialogue Question.Answer Mark σ) ε' _)
      fun r since => ∃ a, r = .ok a ∧ F a since := by
  intro w since hcall hw
  obtain ⟨added, htrace, hconf, hS, hr⟩ := h w since hcall hw
  exact ⟨added, htrace, hconf, hS, _, rfl, hr⟩

/-- A program without input keeps every property that more entries do not break. -/
theorem Obeys.of_silent {m : Prog (Dialogue Question.Answer Mark σ) ε α}
    (h : Utters S Silent m) (hP : ∀ since more, P since → P (since ++ more)) :
    Obeys S permit call P m fun _ => P := by
  intro w since hcall hw
  obtain ⟨added, htrace, hsilent, hS, -⟩ := h w trivial
  exact ⟨added, htrace, Conforms.of_silent hsilent, hS, hP _ _ hw⟩

end Obeys

section Grab

variable {env : Outside} {α : Type} {permit : SeatPermit} {call : Proto.Call}
  {P : List Step → Prop} {W : List Step → XTestEvent → Prop}

theorem Quiet.ungrabbing {e : Step} (h : Quiet e) : Ungrabbing e := by
  cases e with
  | said q a => cases q <;> trivial
  | mark m => trivial

theorem Emission.ungrabbing {V : XTestEvent → Prop} {e : Step} (h : Emission V e) :
    Ungrabbing e := by
  rcases h with h | ⟨event, answer, rfl, -⟩
  · exact h.ungrabbing
  · trivial

theorem Emission.within {V : XTestEvent → Prop} {e : Step} (h : Emission V e) : Within e := by
  rcases h with h | ⟨event, answer, rfl, -⟩
  · cases e with
    | said q a => trivial
    | mark m => cases m <;> trivial
  · trivial

/-- The events under a grab, after their checks. -/
theorem Conforms.of_acts {trace since checks acts : List Step}
    (hquiet : ∀ e ∈ checks, Quiet e) (hacts : ∀ e ∈ acts, Emission (W checks) e)
    (hmono : ∀ grab grab' event, grab ⊆ grab' → W grab event → W grab' event)
    (hW : ∀ more grab event, W grab event → Warrant permit (since ++ more) grab event call) :
    Conforms permit call (trace ++ asked .grabServer (.ok ()) :: checks)
      (since ++ asked .grabServer (.ok ()) :: checks) acts := by
  refine ⟨fun e he => (hacts e he).within, fun pre event answer post hsplit => ?_⟩
  have hpre : ∀ e ∈ checks ++ pre, Ungrabbing e := by
    intro e he
    rcases List.mem_append.mp he with he | he
    · exact (hquiet e he).ungrabbing
    · exact (hacts e (by rw [hsplit]; exact List.mem_append_left _ he)).ungrabbing
  refine ⟨checks ++ pre, ?_, ?_⟩
  · rw [List.append_assoc, List.cons_append]
    exact hold_grabbed trace hpre
  · rw [List.append_assoc]
    refine hW _ _ event (hmono checks _ event (List.subset_append_left _ _) ?_)
    rcases hacts (asked (.fakeInput event) answer) (by rw [hsplit]; simp) with hq | ⟨_, _, he, hV⟩
    · exact absurd hq id
    · obtain ⟨hq, -⟩ := Entry.said.inj he
      rw [Question.fakeInput.injEq] at hq
      rwa [hq]

/-- What runs under a grab conforms if its events have their warrant from its checks. -/
theorem Obeys.grab {action : XM α} (h : Acts W action)
    (hmono : ∀ grab grab' event, grab ⊆ grab' → W grab event → W grab' event)
    (hW : ∀ since more grab event, P since → W grab event →
      Warrant permit (since ++ more) grab event call)
    (hP : ∀ since more, P since → P (since ++ more)) :
    Obeys Moves permit call P (underServerGrab env action) fun _ => P := by
  intro w since hcall hw
  rcases underServerGrab_run env action w with ⟨fault, e, hrun⟩ | ⟨released, hrun⟩
  · rw [hrun]
    exact ⟨[asked .grabServer (.error fault)], rfl, Conforms.of_silent (by simp [Silent]), .refl,
      hP _ _ hw⟩
  · obtain ⟨checks, acts, htrace, hquiet, hacts, hmoves⟩ :=
      h ⟨w.state, w.trace ++ [asked .grabServer (.ok ())]⟩
    rw [hrun]
    refine ⟨asked .grabServer (.ok ()) :: checks ++ (acts ++ [asked .ungrabServer released]), ?_,
      ?_, hmoves, hP _ _ hw⟩
    · dsimp only
      rw [htrace]
      simp
    · have hchecks : Conforms permit call w.trace since (asked .grabServer (.ok ()) :: checks) := by
        refine Conforms.of_silent fun e he => ?_
        rcases List.mem_cons.mp he with rfl | he
        · trivial
        · exact (hquiet e he).silent
      refine hchecks.append ((Conforms.of_acts hquiet hacts hmono ?_).append
        (Conforms.of_silent (by simp [Silent])))
      exact fun more grab event => hW since more grab event hw

/-- A grab that only looks: what it found stays on record. -/
theorem Obeys.grab_finds {m : XM α} {F : α → List Step → Prop} (h : Finds m F) :
    Obeys Moves permit call (fun _ => True) (underServerGrab env m) fun r since =>
      ∀ a, r = .ok a → ∃ head tail grab, since = head ++ tail ∧ hold head = some grab ∧ F a grab := by
  intro w since hcall _
  rcases underServerGrab_run env m w with ⟨fault, e, hrun⟩ | ⟨released, hrun⟩
  · rw [hrun]
    exact ⟨[asked .grabServer (.error fault)], rfl, Conforms.of_silent (by simp [Silent]), .refl,
      fun a ha => by simp at ha⟩
  · obtain ⟨seen, htrace, hquiet, hmoves, hF⟩ :=
      h ⟨w.state, w.trace ++ [asked .grabServer (.ok ())]⟩ trivial
    rw [hrun]
    refine ⟨asked .grabServer (.ok ()) :: (seen ++ [asked .ungrabServer released]), ?_, ?_, hmoves,
      fun a ha => ?_⟩
    · dsimp only
      rw [htrace]
      simp
    · refine Conforms.of_silent fun e he => ?_
      simp only [List.mem_cons, List.mem_append, List.not_mem_nil, or_false] at he
      rcases he with rfl | he | rfl
      · trivial
      · exact (hquiet e he).silent
      · trivial
    · refine ⟨since ++ asked .grabServer (.ok ()) :: seen, [asked .ungrabServer released], seen,
        by simp, hold_grabbed since fun e he => (hquiet e he).ungrabbing, hF a ?_⟩
      revert ha
      generalize (m ⟨w.state, w.trace ++ [asked .grabServer (.ok ())]⟩).1 = result
      generalize checked "cannot request an X11 server ungrab" "cannot release the X11 server grab"
        (released : Except XFault Unit) = freed
      intro ha
      unfold conclude at ha
      split at ha
      · exact ha
      · simp at ha
      · simp at ha

end Grab

/-! ## The input calls -/

section Input

variable {env : Outside} {permit : SeatPermit} {call : Proto.Call}

theorem accepts_silent : Utters Moves Silent (accepts env permit) :=
  utters_silent (accepts_finds permit).utters

/-- One action under a grab, then the reply. -/
theorem action_obeys {W : List Step → XTestEvent → Prop} {action : XM Bool} (h : Acts W action)
    (hmono : ∀ grab grab' event, grab ⊆ grab' → W grab event → W grab' event)
    (hW : ∀ since grab event, W grab event → Warrant permit since grab event call) :
    Obeys Moves permit call (fun _ => True) (do
      let sent ← underServerGrab env action
      let still ← accepts env permit
      pure (actionReply sent still) : XM InputReply) fun _ _ => True := by
  refine Obeys.bind (Obeys.grab h hmono (fun _ _ grab event _ => hW _ grab event)
    fun _ _ => id) (fun sent => ?_) fun _ _ => id
  exact Obeys.of_silent (Utters.bind accepts_silent fun _ => Utters.pure _) fun _ _ => id

theorem preflight_finds (request : TargetRequest) (text : List Char) :
    Finds (preflight env request text) fun _ added =>
      ∃ xid, Fresh request xid added ∧ FocusOwned xid added ∧ TextResolved text added := by
  unfold preflight
  refine Finds.bind (freshTarget_finds _) fun target added hfresh => ?_
  refine Finds.bind (requireFocusOwnedBy_finds _) fun _ added₁ hfocus => ?_
  refine Finds.bind (resolveText_finds _) fun _ added₂ htext => ?_
  exact Finds.weaken (Finds.pure _) fun _ more _ =>
    ⟨target.xid, hfresh.mono fun e he => by simp [he], hfocus.mono fun e he => by simp [he],
      htext.mono fun e he => by simp [he]⟩

/-- Every character is typed under a grab of its own, after the preflight of the whole text. -/
theorem typeCharacters_obeys {request : TargetRequest} {text : List Char}
    (hcall : ∀ since grab event, TextWarrant permit request text since grab event →
      Warrant permit since grab event call) {rest : List Char} (hrest : rest ⊆ text)
    (completed : Nat) :
    Obeys Moves permit call (Preflight request text)
      (typeCharacters env request permit rest completed) fun _ => Preflight request text := by
  have hkeep (since more : List Step) (h : Preflight request text since) :
      Preflight request text (since ++ more) := h.append more
  induction rest generalizing completed with
  | nil => exact Obeys.of_silent (Utters.pure _) hkeep
  | cons character rest ih =>
    have hgrab : Obeys Moves permit call (Preflight request text) (underServerGrab env
        (characterAction env request character (completed + 1) permit))
        fun _ => Preflight request text := by
      refine Obeys.grab (characterAction_acts request character _ permit)
        (fun _ _ _ hsub h => h.mono hsub) (fun since more grab event hpre h => ?_) hkeep
      exact hcall _ _ _ ⟨hpre.append more, character, hrest (List.mem_cons_self ..), h⟩
    unfold typeCharacters
    refine Obeys.bind (Obeys.of_silent (Utters.lift _) hkeep) (fun _ => ?_) fun _ _ => id
    refine Obeys.bind (Obeys.attempt hgrab) (fun result => ?_) fun _ _ ⟨_, h, _⟩ => by simp at h
    refine Obeys.weaken (P := Preflight request text) ?_ (fun _ ⟨_, _, h⟩ => h) fun _ _ => id
    match result with
    | .ok true =>
      refine Obeys.bind (Obeys.of_silent accepts_silent hkeep) (fun still => ?_) fun _ _ => id
      split
      · exact ih (fun c hc => hrest (List.mem_cons_of_mem _ hc)) _
      · exact Obeys.of_silent (Utters.pure _) hkeep
    | .ok false => exact Obeys.of_silent (Utters.pure _) hkeep
    | .error e =>
      dsimp only
      split
      · exact Obeys.of_silent (Utters.fail _) hkeep
      · exact Obeys.of_silent (Utters.pure _) hkeep

theorem keyboardText_obeys {request : TargetRequest} {text : List Char}
    (hcall : ∀ since grab event, TextWarrant permit request text since grab event →
      Warrant permit since grab event call) :
    Obeys Moves permit call (fun _ => True) (keyboardText env request text permit)
      fun _ _ => True := by
  unfold keyboardText
  refine Obeys.bind (Obeys.of_silent (Utters.lift _) fun _ _ => id) (fun _ => ?_) fun _ _ => id
  refine Obeys.bind (Obeys.grab_finds (preflight_finds request text)) (fun u => ?_)
    fun _ _ _ => trivial
  refine Obeys.weaken (P := Preflight request text) (F := fun _ => Preflight request text) ?_ ?_
    fun _ _ _ => trivial
  · have hkeep (since more : List Step) (h : Preflight request text since) :
        Preflight request text (since ++ more) := h.append more
    refine Obeys.bind (typeCharacters_obeys hcall (fun _ => id) 0) (fun completed => ?_)
      fun _ _ => id
    refine Obeys.of_silent (Utters.bind ?_ fun _ => Utters.pure _) hkeep
    unfold textComplete
    split
    · exact accepts_silent
    · exact Utters.pure _
  · intro since h
    obtain ⟨head, tail, grab, hsince, hgrab, xid, hfresh, hfocus, htext⟩ := h u rfl
    exact ⟨head, tail, grab, xid, hsince, hgrab, hfresh, hfocus, htext⟩

theorem textInsert_obeys (request : TextInsertRequest) :
    Obeys Moves permit (.textInsert request) (fun _ => True) (textInsert env request permit)
      fun _ _ => True := by
  unfold textInsert
  refine Obeys.bind (Obeys.of_silent (Utters.lift _) fun _ _ => id) (fun _ => ?_) fun _ _ => id
  refine Obeys.bind (Obeys.of_silent createTransferOwner_silent fun _ _ => id) (fun owner => ?_)
    fun _ _ => id
  have hpaste : Obeys Moves permit (.textInsert request) (fun _ => True)
      (underServerGrab env (pasteAction env
        ⟨owner, request.target, request.text.asStr.toUTF8.toList, permit⟩)) fun _ _ => True :=
    Obeys.grab (pasteAction_acts _) (fun _ _ _ hsub h => h.mono hsub) (fun _ _ _ _ _ h => h)
      fun _ _ => id
  refine Obeys.bind (Obeys.attempt hpaste) (fun offered => ?_) fun _ _ _ => trivial
  refine Obeys.weaken (P := fun _ => True) (F := fun _ _ => True) ?_ (fun _ _ => trivial)
    fun _ _ => id
  refine Obeys.of_silent (Utters.bind (Utters.attempt (afterOffer_silent _ _ _)) fun _ => ?_)
    fun _ _ => id
  exact Utters.bind (Utters.attempt (releaseTransferOwner_silent _)) fun _ => Utters.lift _

end Input

end AgentSeat.Provider
