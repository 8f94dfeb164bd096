/-
  How far a typed text is counted, whatever the server answers.

  A call grabs the server once to resolve the whole text and then once for each character. What was
  said under a grab tells which stroke was resolved there and whether the server took the press of
  its main key (`typedIn`). The loop counts a character if everything under its grab went well and
  the grab was released; a fault behind an accepted press ends the call with the character uncounted.
  So the count is exact just when there is no such fault (`typed_text_counted`).
-/
import AgentSeat.Provider.Boundary
import AgentSeat.Provider.Strokes
import AgentSeat.Session.Plain

namespace AgentSeat.Provider

open AgentSeat.Lib AgentSeat.Proto AgentSeat.X11 AgentSeat.Seat

/-! ## The grabs of a call -/

/-- What was said under a grab, and how its release was answered. -/
structure Grab where
  inside : List Step
  released : Except XFault Unit

def closes (held : Option (List Step)) : Step → List Grab
  | .said .ungrabServer answer => (held.map fun inside => ⟨inside, answer⟩).toList
  | _ => []

def grabsFrom (held : Option (List Step)) : List Step → List Grab
  | [] => []
  | entry :: rest => closes held entry ++ grabsFrom (holdStep held entry) rest

/-- The grabs that were taken and released among the entries. -/
def grabs (entries : List Step) : List Grab := grabsFrom none entries

/-- The entries take exactly these grabs, whatever stands behind them. -/
def Takes (added : List Step) (taken : List Grab) : Prop :=
  ∀ rest, grabsFrom none (added ++ rest) = taken ++ grabsFrom none rest

theorem Takes.append {added more : List Step} {taken taken' : List Grab} (h : Takes added taken)
    (h' : Takes more taken') : Takes (added ++ more) (taken ++ taken') := by
  intro rest
  rw [List.append_assoc, h, h', List.append_assoc]

theorem Takes.grabs_eq {added : List Step} {taken : List Grab} (h : Takes added taken) :
    grabs added = taken := by
  have := h []
  rwa [List.append_nil, show grabsFrom none [] = [] from rfl, List.append_nil] at this

theorem grabsFrom_ungrabbing {added : List Step} (h : ∀ e ∈ added, Ungrabbing e)
    (held : Option (List Step)) (rest : List Step) :
    grabsFrom held (added ++ rest) = grabsFrom (held.map (· ++ added)) rest := by
  induction added generalizing held with
  | nil => cases held <;> simp
  | cons e added ih =>
    have he := h e (List.mem_cons_self ..)
    have hcloses : closes held e = [] := by
      cases e with
      | mark m => rfl
      | said q a => cases q <;> first | rfl | exact absurd he id
    rw [List.cons_append, grabsFrom, hcloses, List.nil_append, holdStep_some he,
      ih fun e' he' => h e' (List.mem_cons_of_mem _ he')]
    cases held <;> simp

theorem Takes.ungrabbing {added : List Step} (h : ∀ e ∈ added, Ungrabbing e) : Takes added [] :=
  fun rest => grabsFrom_ungrabbing h none rest

theorem Takes.failed (fault : XFault) : Takes [.said .grabServer (.error fault)] [] := fun _ => rfl

theorem Takes.grab {inside : List Step} (h : ∀ e ∈ inside, Ungrabbing e)
    (released : Except XFault Unit) :
    Takes (.said .grabServer (.ok ()) :: (inside ++ [.said .ungrabServer released]))
      [⟨inside, released⟩] := by
  intro rest
  have hinside := grabsFrom_ungrabbing h (some []) (.said .ungrabServer released :: rest)
  show grabsFrom (some []) (inside ++ [.said .ungrabServer released] ++ rest) = _
  rw [List.append_assoc, List.singleton_append, hinside]
  rfl

/-- What a run under a grab appends: a failed grab, or the grab, what the action says and the
    release. -/
theorem underServerGrab_takes {α : Type} (env : Outside) {m : XM α}
    {F : Except Failure α → List Step → Prop}
    (h : Writes (fun _ => True) m fun r inside => (∀ e ∈ inside, Ungrabbing e) ∧ F r inside) :
    Writes (fun _ => True) (underServerGrab env m) fun r added => ∃ taken, Takes added taken ∧
      ((taken = [] ∧ ∃ e, r = .error e) ∨ ∃ r' inside released, taken = [⟨inside, released⟩] ∧
        F r' inside ∧ ∃ free, r = conclude r' free ∧ (free = .ok () ↔ released = .ok ())) := by
  intro w _
  have hrun : underServerGrab env m w =
      (Prog.lift (checked "cannot request an X11 server grab" "cannot acquire an X11 server grab"
          (env w.trace .grabServer)) >>= fun _ : Unit => do
        let result ← Prog.attempt m
        let released ← Dialogue.ask env .ungrabServer
        Prog.lift (conclude result (checked "cannot request an X11 server ungrab"
          "cannot release the X11 server grab" released)))
        ⟨w.state, w.trace ++ [.said .grabServer (env w.trace .grabServer)]⟩ := rfl
  rw [hrun]
  generalize env w.trace .grabServer = answer
  cases (answer : Except XFault Unit) with
  | error fault =>
    cases fault with
    | send => exact ⟨_, rfl, trivial, [], Takes.failed _, .inl ⟨rfl, _, rfl⟩⟩
    | reply => exact ⟨_, rfl, trivial, [], Takes.failed _, .inl ⟨rfl, _, rfl⟩⟩
  | ok u =>
    obtain ⟨inside, htrace, -, hungrabbing, hF⟩ :=
      h ⟨w.state, w.trace ++ [.said .grabServer (.ok u)]⟩ trivial
    rcases hm : m ⟨w.state, w.trace ++ [.said .grabServer (.ok u)]⟩ with ⟨r, s, trace⟩
    rw [hm] at htrace hF
    dsimp only at htrace
    subst htrace
    have hrest := Prog.attempt_bind (f := fun result => do
        let released ← Dialogue.ask env .ungrabServer
        Prog.lift (conclude result (checked "cannot request an X11 server ungrab"
          "cannot release the X11 server grab" released))) hm
    refine ⟨.said .grabServer (.ok u) :: (inside ++ [.said .ungrabServer
      (env (w.trace ++ [.said .grabServer (.ok u)] ++ inside) .ungrabServer)]), ?_, trivial, _,
      Takes.grab hungrabbing _, .inr ⟨r, inside, _, rfl, hF, checked
        "cannot request an X11 server ungrab" "cannot release the X11 server grab"
        (env (w.trace ++ [.said .grabServer (.ok u)] ++ inside) .ungrabServer), ?_, ?_⟩⟩
    · refine (congrArg (fun run => run.2.trace) hrest).trans ?_
      show w.trace ++ [.said .grabServer (.ok u)] ++ inside ++ [_] = _
      simp
    · exact congrArg Prod.fst hrest
    · generalize env (w.trace ++ [.said .grabServer (.ok u)] ++ inside) .ungrabServer = released
      cases (released : Except XFault Unit) with
      | ok u' => exact ⟨fun _ => rfl, fun _ => rfl⟩
      | error fault => cases fault <;> simp [checked]

/-! ## What was typed under a grab -/

def stateOf : Step → Option XkbState
  | .said .xkbGetState (.ok state) => some state
  | _ => none

def mapOf : Step → Option XkbMapReply
  | .said .xkbGetMap (.ok map) => some map
  | _ => none

/-- The stroke of a character by the keyboard state and map that were read last. -/
def strokeOf (entries : List Step) (character : Char) (position : Nat) : Option KeyStroke := do
  let state ← (entries.filterMap stateOf).getLast?
  let reply ← (entries.filterMap mapOf).getLast?
  let map ← (KeyboardMap.fromReply reply state).toOption
  (map.resolveAt character position).toOption

/-- The server took the press of the main key, the one behind the modifiers of the stroke. -/
def typedIn (entries : List Step) (character : Char) (position : Nat) : Prop :=
  ∃ stroke a, strokeOf entries character position = some stroke ∧
    (attempts entries)[stroke.modifiers.length]? = some a ∧ a.kind = .keyPress ∧
    a.detail = stroke.keycode ∧ a.fate ≠ .refused

/-- Every XTEST request and synchronization went through, and so did the release of the grab. -/
def Grab.Clean (g : Grab) : Prop := (∀ a ∈ attempts g.inside, a.Ok) ∧ g.released = .ok ()

theorem Makes.quiet {added : List Step} (h : ∀ e ∈ added, Quiet e) : Makes added [] := by
  intro rest
  induction added with
  | nil => rfl
  | cons e added ih =>
    have he := h e (List.mem_cons_self ..)
    have hstep : attempts (e :: (added ++ rest)) = attempts (added ++ rest) := by
      cases e with
      | mark m => rfl
      | said q a => cases q <;> first | rfl | exact absurd he id
    rw [List.cons_append, hstep]
    exact ih fun e' he' => h e' (List.mem_cons_of_mem _ he')

/-- A fault under the stroke is one of its calls. -/
def Blames {α : Type} (m : XM α) : Prop :=
  Attempting m fun r made => (∃ e, r = .error e) → ∃ a ∈ made, ¬ a.Ok

section Blames

variable (env : Outside) {α β : Type}

theorem Blames.pure (a : α) : Blames (Pure.pure a : XM α) :=
  Attempting.pure fun ⟨e, he⟩ => by simp at he

theorem Blames.bind {m : XM α} {f : α → XM β} (hm : Blames m) (hf : ∀ a, Blames (f a)) :
    Blames (m >>= f) := by
  refine Attempting.bind hm (fun a made _ => ?_) fun e made h _ => h ⟨e, rfl⟩
  refine Attempting.post (hf a) fun r more h he => ?_
  obtain ⟨c, hc, hfate⟩ := h he
  exact ⟨c, List.mem_append_right _ hc, hfate⟩

/-- What is done after a fault has that fault to blame. -/
theorem Blames.attempt_bind {m : XM α} {f : Except Failure α → XM β} (hm : Blames m)
    (hok : ∀ a, Blames (f (.ok a))) (herror : ∀ e, Attempting (f (.error e)) fun _ _ => True) :
    Blames (Prog.attempt m >>= f) := by
  refine Attempting.attempt_bind hm fun r made h => ?_
  cases r with
  | ok a =>
    refine Attempting.post (hok a) fun r more h he => ?_
    obtain ⟨c, hc, hfate⟩ := h he
    exact ⟨c, List.mem_append_right _ hc, hfate⟩
  | error e =>
    obtain ⟨c, hc, hfate⟩ := h ⟨e, rfl⟩
    exact Attempting.post (herror e) fun r more _ _ => ⟨c, List.mem_append_left _ hc, hfate⟩

theorem fakeInput_blames (event : XTestEvent) : Blames (fakeInput env event) := by
  refine Attempting.post (fakeInput_attempting env event) ?_
  rintro r made ⟨fate, rfl, hfate⟩ ⟨e, rfl⟩
  exact ⟨_, List.mem_singleton.mpr rfl, fun hok => by simpa using hfate.mpr hok⟩

theorem bestEffortRelease_makes (kind : XTestKind) (detail : Nat) :
    Attempting (bestEffortRelease env kind detail) fun _ _ => True :=
  Attempting.post (bestEffortRelease_attempting env kind detail) fun _ _ _ => trivial

theorem releaseKeys_makes (keys : List Nat) :
    Attempting (releaseKeys env keys) fun _ _ => True := by
  have h := releaseKeys_attempting env (Nat.le_refl keys.length)
  rw [List.take_length] at h
  exact Attempting.post h fun _ _ _ => trivial

/-- Clean up, then fail. -/
theorem released_makes {m : XM Unit} (h : Attempting m fun _ _ => True) (e : Failure) :
    Attempting (do m; Prog.fail e : XM α) fun _ _ => True :=
  Attempting.bind h (fun _ _ _ => Attempting.fail trivial) fun _ _ _ => trivial

theorem pressModifiers_blames (modifiers pressed : List Nat) :
    Blames (pressModifiers env modifiers pressed) := by
  induction modifiers generalizing pressed with
  | nil => exact Blames.pure _
  | cons k rest ih =>
    exact Blames.attempt_bind (fakeInput_blames env _) (fun _ => ih _)
      fun e => released_makes (releaseKeys_makes env _) e

theorem popModifiers_blames (modifiers : List Nat) : Blames (popModifiers env modifiers) := by
  induction modifiers with
  | nil => exact Blames.pure _
  | cons k rest ih =>
    refine Blames.attempt_bind (fakeInput_blames env _) (fun _ => ih) fun e => ?_
    exact Attempting.bind (bestEffortRelease_makes env _ _)
      (fun _ _ _ => released_makes (releaseKeys_makes env _) e) fun _ _ _ => trivial

theorem typeKey_blames (stroke : KeyStroke) : Blames (typeKey env stroke) := by
  refine Blames.bind (pressModifiers_blames env _ _) fun pressed => ?_
  refine Blames.attempt_bind (fakeInput_blames env _) (fun _ => ?_)
    fun e => released_makes (releaseKeys_makes env _) e
  refine Blames.attempt_bind (fakeInput_blames env _) (fun _ => popModifiers_blames env _) fun e => ?_
  exact Attempting.bind (bestEffortRelease_makes env _ _)
    (fun _ _ _ => released_makes (releaseKeys_makes env _) e) fun _ _ _ => trivial

end Blames

/-! ## One character -/

/-- What the result of a character's action says about its entries. -/
def Struck (character : Char) (position : Nat) : Except Failure Bool → List Step → Prop
  | .ok true, inside => typedIn inside character position ∧ ∀ a ∈ attempts inside, a.Ok
  | .ok false, inside => attempts inside = []
  | .error _, inside => attempts inside = [] ∨ ∃ a ∈ attempts inside, ¬ a.Ok

section Character

variable (env : Outside) {α : Type} {character : Char} {position : Nat}

theorem strokeOf_append_right {entries more : List Step} {stroke : KeyStroke}
    (h : strokeOf more character position = some stroke) :
    strokeOf (entries ++ more) character position = some stroke := by
  unfold strokeOf at h ⊢
  obtain ⟨state, hstate, h⟩ := Option.bind_eq_some_iff.mp h
  obtain ⟨reply, hreply, h⟩ := Option.bind_eq_some_iff.mp h
  rw [List.filterMap_append, List.filterMap_append, List.getLast?_append, List.getLast?_append,
    hstate, hreply]
  exact h

/-- Entries that read neither the state nor the map of the keyboard. -/
def Unread (e : Step) : Prop := stateOf e = none ∧ mapOf e = none ∧ Ungrabbing e

theorem strokeOf_append_left {entries more : List Step} (h : ∀ e ∈ more, Unread e) :
    strokeOf (entries ++ more) character position = strokeOf entries character position := by
  have hstate : more.filterMap stateOf = [] :=
    List.filterMap_eq_nil_iff.mpr fun e he => (h e he).1
  have hmap : more.filterMap mapOf = [] := List.filterMap_eq_nil_iff.mpr fun e he => (h e he).2.1
  unfold strokeOf
  rw [List.filterMap_append, List.filterMap_append, hstate, hmap, List.append_nil, List.append_nil]

theorem Struck.after_quiet {r : Except Failure Bool} {added more : List Step}
    (hquiet : ∀ e ∈ added, Quiet e) (h : Struck character position r more) :
    Struck character position r (added ++ more) := by
  have hattempts : attempts (added ++ more) = attempts more := Makes.quiet hquiet more
  cases r with
  | error e =>
    show attempts (added ++ more) = [] ∨ ∃ a ∈ attempts (added ++ more), ¬ a.Ok
    rw [hattempts]
    exact h
  | ok typed =>
    cases typed with
    | false => exact hattempts.trans h
    | true =>
      obtain ⟨⟨stroke, a, hstroke, ha, hrest⟩, hok⟩ := h
      refine ⟨⟨stroke, a, strokeOf_append_right hstroke, ?_, hrest⟩, ?_⟩
      · rw [hattempts]
        exact ha
      · rw [hattempts]
        exact hok

/-- The entries of a character's action, all under its grab. -/
abbrev Striking (character : Char) (position : Nat) (m : XM Bool) : Prop :=
  Writes (fun _ => True) m fun r inside =>
    (∀ e ∈ inside, Ungrabbing e) ∧ Struck character position r inside

/-- A check before the stroke. -/
theorem Striking.check {m : XM α} {f : α → XM Bool} (hm : Utters Moves Quiet m)
    (hf : ∀ a, Striking character position (f a)) : Striking character position (m >>= f) := by
  have hquiet : Writes (fun _ => True) m fun _ added => ∀ e ∈ added, Quiet e :=
    Writes.of_tells hm (fun _ _ _ _ => trivial) fun _ _ _ h _ => h
  refine Writes.bind hquiet (fun a added h => ?_) fun e added h => ?_
  · refine Writes.post (hf a) fun r more ⟨hmore, hstruck⟩ => ⟨fun e he => ?_, hstruck.after_quiet h⟩
    rcases List.mem_append.mp he with he | he
    · exact (h e he).ungrabbing
    · exact hmore e he
  · exact ⟨fun e he => (h e he).ungrabbing, .inl (Makes.quiet h).attempts_eq⟩

/-- A stroke that was resolved is the one its entries tell. -/
theorem resolveCharacter_ok {w w' : World} {stroke : KeyStroke}
    (h : resolveCharacter env character position w = (.ok stroke, w')) :
    ∃ added, w'.trace = w.trace ++ added ∧ strokeOf added character position = some stroke := by
  obtain ⟨map, w₁, hread, h⟩ := Prog.of_bind_ok h
  obtain ⟨hresolve, rfl⟩ := Prod.mk.inj h
  obtain ⟨supported, w₂, hsupported, hread⟩ := Prog.of_bind_ok hread
  obtain ⟨-, rfl⟩ := ask_ok (reply_ok hsupported)
  obtain ⟨u, w₃, hrefuse, hread⟩ := Prog.of_bind_ok hread
  obtain ⟨-, rfl⟩ := lift_refuseIf_ok hrefuse
  obtain ⟨state, w₄, hstate, hread⟩ := Prog.of_bind_ok hread
  obtain ⟨-, rfl⟩ := ask_ok (reply_ok hstate)
  obtain ⟨reply, w₅, hreply, hread⟩ := Prog.of_bind_ok hread
  obtain ⟨-, rfl⟩ := ask_ok (reply_ok hreply)
  obtain ⟨hmap, rfl⟩ := Prod.mk.inj hread
  refine ⟨[.said .xkbUseExtension (.ok supported), .said .xkbGetState (.ok state),
    .said .xkbGetMap (.ok reply)], by simp, ?_⟩
  show (KeyboardMap.fromReply reply state).toOption.bind
    (fun map => (map.resolveAt character position).toOption) = some stroke
  rw [hmap]
  show (map.resolveAt character position).toOption = some stroke
  rw [hresolve]
  rfl

theorem resolveCharacter_writes : Writes (fun _ => True) (resolveCharacter env character position)
    fun r added => (∀ e ∈ added, Quiet e) ∧
      ∀ stroke, r = .ok stroke → strokeOf added character position = some stroke := by
  intro w _
  obtain ⟨added, htrace, hquiet, -, -⟩ := @resolveCharacter_finds env character position w trivial
  refine ⟨added, htrace, trivial, hquiet, fun stroke hr => ?_⟩
  rcases hrun : resolveCharacter env character position w with ⟨r, w'⟩
  rw [hrun] at htrace hr
  obtain rfl : r = .ok stroke := hr
  obtain ⟨added', htrace', hstroke⟩ := resolveCharacter_ok env hrun
  have hsame : added' = added := List.append_cancel_left (htrace'.symm.trans htrace)
  exact hsame ▸ hstroke

theorem typeKey_writes (stroke : KeyStroke) : Writes (fun _ => True) (typeKey env stroke)
    fun r added => (∀ e ∈ added, Unread e) ∧ ∃ made, Makes added made ∧
      (r = .ok () → made = nested .keyPress .keyRelease (strokeKeys stroke)) ∧
      ((∃ e, r = .error e) → ∃ a ∈ made, ¬ a.Ok) := by
  have hunread : Writes (fun _ => True) (typeKey env stroke) fun _ added => ∀ e ∈ added, Unread e :=
    Writes.of_tells (typeKey_utters (A := Unread) (fun _ => ⟨rfl, rfl, trivial⟩)
      fun _ _ _ => ⟨rfl, rfl, trivial⟩) (fun _ _ _ _ => trivial) fun _ _ _ h _ => h
  have hblames : Writes (fun _ => True) (typeKey env stroke) fun r added => ∃ made,
      Makes added made ∧ ((∃ e, r = .error e) → ∃ a ∈ made, ¬ a.Ok) := typeKey_blames env stroke
  refine Writes.post (hunread.and (Writes.and (typeKey_attempting env stroke) hblames)) ?_
  rintro r added ⟨hentries, ⟨made, hmade, -, hnested⟩, made', hmade', hblame⟩
  obtain rfl : made' = made := hmade'.attempts_eq.symm.trans hmade.attempts_eq
  exact ⟨hentries, made', hmade', hnested, hblame⟩

theorem nested_main (stroke : KeyStroke) :
    (nested .keyPress .keyRelease (strokeKeys stroke))[stroke.modifiers.length]? =
      some ⟨.keyPress, stroke.keycode, .done⟩ := by
  simp [nested, strokeKeys]

theorem nested_ok (press release : XTestKind) (keys : List Nat) :
    ∀ a ∈ nested press release keys, a.Ok := by
  intro a ha
  unfold nested at ha
  rcases List.mem_append.mp ha with ha | ha
  · obtain ⟨k, -, rfl⟩ := List.mem_map.mp ha
    rfl
  · obtain ⟨k, -, rfl⟩ := List.mem_map.mp ha
    rfl

/-- The stroke itself: resolved, pressed and released. -/
theorem strike_striking : Striking character position (do
    let stroke ← resolveCharacter env character position
    typeKey env stroke
    pure true) := by
  refine Writes.bind (resolveCharacter_writes env) (fun stroke added h => ?_) fun e added h => ?_
  rotate_left
  · exact ⟨fun e he => (h.1 e he).ungrabbing, .inl (Makes.quiet h.1).attempts_eq⟩
  obtain ⟨hquiet, hstroke⟩ := h
  have hstroke := hstroke stroke rfl
  refine Writes.bind (typeKey_writes env stroke) (fun u more h => ?_) fun e more h => ?_
  · obtain ⟨hunread, made, hmade, hnested, -⟩ := h
    have hattempts : attempts (added ++ (more ++ [])) = nested .keyPress .keyRelease
        (strokeKeys stroke) := by
      rw [List.append_nil, ((Makes.quiet hquiet).append hmade).attempts_eq, hnested rfl]
      rfl
    refine Writes.pure ⟨fun e he => ?_, ⟨stroke, ⟨.keyPress, stroke.keycode, .done⟩, ?_,
      ?_, rfl, rfl, nofun⟩, ?_⟩
    · rw [List.append_nil] at he
      rcases List.mem_append.mp he with he | he
      · exact (hquiet e he).ungrabbing
      · exact (hunread e he).2.2
    · rw [List.append_nil, strokeOf_append_left hunread]
      exact hstroke
    · rw [hattempts]
      exact nested_main stroke
    · rw [hattempts]
      exact nested_ok _ _ _
  · obtain ⟨hunread, made, hmade, -, hblame⟩ := h
    refine ⟨fun e he => ?_, .inr ?_⟩
    · rcases List.mem_append.mp he with he | he
      · exact (hquiet e he).ungrabbing
      · exact (hunread e he).2.2
    · rw [((Makes.quiet hquiet).append hmade).attempts_eq]
      exact hblame ⟨e, rfl⟩

theorem characterAction_striking (request : TargetRequest) (permit : SeatPermit) :
    Striking character position (characterAction env request character position permit) := by
  refine Striking.check (freshTarget_finds request).utters fun target => ?_
  refine Striking.check (requireFocusOwnedBy_finds target.xid).utters fun _ => ?_
  refine Striking.check (accepts_finds permit).utters fun accepted => ?_
  cases accepted with
  | true => exact strike_striking env
  | false => exact Writes.pure ⟨fun _ he => absurd he List.not_mem_nil, rfl⟩

end Character

/-! ## The loop -/

/-- What the loop returns when a character stops it. -/
def Halts (completed : Nat) (r : Except Failure Nat) : Prop :=
  r = .ok completed ∨ completed = 0 ∧ ∃ e, r = .error e

/-- The runs of the loop: one grab for each character. The last one may fail behind its press. -/
inductive Typing : List Char → Nat → Except Failure Nat → List Grab → Prop
  | done (completed : Nat) : Typing [] completed (.ok completed) []
  | typed {character : Char} {rest : List Char} {completed : Nat} {r : Except Failure Nat} {g : Grab}
      {taken : List Grab} (typed : typedIn g.inside character (completed + 1)) (clean : g.Clean)
      (more : Typing rest (completed + 1) r taken) : Typing (character :: rest) completed r (g :: taken)
  | revoked {character : Char} {rest : List Char} {completed : Nat} {g : Grab}
      (typed : typedIn g.inside character (completed + 1)) (clean : g.Clean) :
      Typing (character :: rest) completed (.ok (completed + 1)) [g]
  | stopped {character : Char} {rest : List Char} {completed : Nat} {r : Except Failure Nat}
      {taken : List Grab} (short : taken.length ≤ 1)
      (unclean : ∀ g ∈ taken, typedIn g.inside character (completed + 1) → ¬ g.Clean)
      (stops : Halts completed r) : Typing (character :: rest) completed r taken

section Loop

variable (env : Outside)

theorem accepts_writes (permit : SeatPermit) : Writes (fun _ => True) (accepts env permit)
    fun r added => ∃ raw, r = .ok (Seat.accepts raw permit) ∧ added = [.said .seatLoad raw] :=
  fun _ _ => ⟨_, rfl, trivial, _, rfl, rfl⟩

theorem Takes.load (raw : Nat) : Takes [.said .seatLoad raw] [] :=
  Takes.ungrabbing fun e he => by
    rw [List.mem_singleton.mp he]
    trivial

/-- A character's grab and what the loop makes of it. -/
theorem Striking.grab {character : Char} {position : Nat} {m : XM Bool}
    (h : Striking character position m) :
    Writes (fun _ => True) (underServerGrab env m) fun r added => ∃ taken, Takes added taken ∧
      ((r = .ok true ∧ ∃ g, taken = [g] ∧ typedIn g.inside character position ∧ g.Clean) ∨
        (r = .ok false ∨ ∃ e, r = .error e) ∧ taken.length ≤ 1 ∧
          ∀ g ∈ taken, typedIn g.inside character position → ¬ g.Clean) := by
  refine Writes.post (underServerGrab_takes env h) ?_
  rintro r added ⟨taken, htakes, ⟨rfl, he⟩ | ⟨r', inside, released, rfl, hstruck, free, hr, hfree⟩⟩
  · exact ⟨[], htakes, .inr ⟨.inr he, Nat.zero_le _, nofun⟩⟩
  refine ⟨_, htakes, ?_⟩
  have hnone (hnone : attempts inside = []) : ¬ typedIn inside character position := by
    rintro ⟨stroke, a, -, ha, -⟩
    rw [hnone] at ha
    exact absurd ha nofun
  cases r' with
  | error e =>
    refine .inr ⟨.inr ⟨e, hr⟩, Nat.le_refl 1, fun g hg htyped hclean => ?_⟩
    rw [List.mem_singleton.mp hg] at htyped hclean
    rcases hstruck with h | ⟨a, ha, hfault⟩
    · exact hnone h htyped
    · exact hfault (hclean.1 a ha)
  | ok typed =>
    cases free with
    | error e =>
      refine .inr ⟨.inr ⟨e, hr⟩, Nat.le_refl 1, fun g hg _ hclean => ?_⟩
      rw [List.mem_singleton.mp hg] at hclean
      exact absurd (hfree.mpr hclean.2) nofun
    | ok u =>
      cases typed with
      | true => exact .inl ⟨hr, _, rfl, hstruck.1, hstruck.2, hfree.mp rfl⟩
      | false =>
        refine .inr ⟨.inl hr, Nat.le_refl 1, fun g hg htyped => ?_⟩
        rw [List.mem_singleton.mp hg] at htyped
        exact absurd htyped (hnone hstruck)

theorem typeCharacters_typing (request : TargetRequest) (permit : SeatPermit) (rest : List Char)
    (completed : Nat) (hbound : completed + rest.length ≤ u16Max) :
    Writes (fun _ => True) (typeCharacters env request permit rest completed)
      fun r added => ∃ taken, Takes added taken ∧ Typing rest completed r taken := by
  induction rest generalizing completed with
  | nil => exact Writes.pure ⟨[], fun _ => rfl, .done completed⟩
  | cons character rest ih =>
    have hcount : refuseIf (completed + 1 > u16Max)
        (Failure.internal "keyboard action count overflowed") = .ok () := by
      rw [List.length_cons] at hbound
      exact if_neg (by omega)
    unfold typeCharacters
    rw [hcount]
    refine Writes.bind (F := fun r added => r = .ok () ∧ added = []) (Writes.lift ⟨rfl, rfl⟩) ?_
      fun e added h => by simp at h
    rintro - - ⟨-, rfl⟩
    refine Writes.attempt_bind (Striking.grab env (characterAction_striking env request permit)) ?_
    rintro r added ⟨taken, htakes, ⟨rfl, g, rfl, htyped, hclean⟩ | ⟨hr, hshort, hunclean⟩⟩
    · refine Writes.bind (accepts_writes env permit) ?_ ?_
      rotate_left
      · rintro e more ⟨raw, h, -⟩
        simp at h
      rintro still more ⟨raw, -, rfl⟩
      have hbehind {more : List Step} {taken : List Grab} (hmore : Takes more taken) :
          Takes (added ++ ([.said .seatLoad raw] ++ more)) (g :: taken) :=
        htakes.append ((Takes.load raw).append hmore)
      cases still with
      | false =>
        have hnothing : Takes ([] : List Step) [] := fun _ => rfl
        exact Writes.pure ⟨[g], hbehind hnothing, .revoked htyped hclean⟩
      | true =>
        have hnext : completed + 1 + rest.length ≤ u16Max := by
          rw [List.length_cons] at hbound
          omega
        refine Writes.post (ih (completed + 1) hnext) ?_
        rintro r more ⟨taken, hmore, htyping⟩
        exact ⟨g :: taken, hbehind hmore, .typed htyped hclean htyping⟩
    · have hadded : Takes (added ++ []) taken := by
        rw [List.append_nil]
        exact htakes
      rcases hr with rfl | ⟨e, rfl⟩
      · exact Writes.pure ⟨taken, hadded, .stopped hshort hunclean (.inl rfl)⟩
      · dsimp only
        split_ifs with hzero
        · exact Writes.fail ⟨taken, hadded, .stopped hshort hunclean (.inr ⟨hzero, e, rfl⟩)⟩
        · exact Writes.pure ⟨taken, hadded, .stopped hshort hunclean (.inl rfl)⟩

end Loop

/-! ## The count -/

/-- The main key of the character at place `i` was taken, in the grab at that place. Places count
    from `first`. -/
def TypedAt (first : Nat) (text : List Char) (taken : List Grab) (i : Nat) : Prop :=
  ∃ g character, taken[i]? = some g ∧ text[i]? = some character ∧
    typedIn g.inside character (first + i + 1)

/-- No fault stands behind an accepted press. -/
def FaultlessBehind (first : Nat) (text : List Char) (taken : List Grab) : Prop :=
  ∀ i g character, taken[i]? = some g → text[i]? = some character →
    typedIn g.inside character (first + i + 1) → g.Clean

/-- The count is that of the characters taken, and these come first; a failure took none. -/
def Exactly (first : Nat) (text : List Char) (taken : List Grab) : Except Failure Nat → Prop
  | .ok n => first ≤ n ∧ n ≤ first + text.length ∧ ∀ i, TypedAt first text taken i ↔ first + i < n
  | .error _ => ∀ i, ¬ TypedAt first text taken i

section Count

variable {text rest : List Char} {character : Char} {first completed : Nat}
  {r : Except Failure Nat} {g : Grab} {taken : List Grab}

theorem typedAt_nil (i : Nat) : ¬ TypedAt first text [] i := by
  rintro ⟨g, character, hg, -⟩
  exact absurd hg nofun

theorem typedAt_zero : TypedAt first (character :: rest) (g :: taken) 0 ↔
    typedIn g.inside character (first + 1) := by
  constructor
  · rintro ⟨g', character', hg, hcharacter, htyped⟩
    obtain rfl := Option.some.inj hg
    obtain rfl := Option.some.inj hcharacter
    exact htyped
  · intro htyped
    exact ⟨g, character, rfl, rfl, htyped⟩

theorem typedAt_succ (i : Nat) : TypedAt first (character :: rest) (g :: taken) (i + 1) ↔
    TypedAt (first + 1) rest taken i := by
  have hplace : first + (i + 1) + 1 = first + 1 + i + 1 := by omega
  unfold TypedAt
  rw [hplace]
  simp only [List.getElem?_cons_succ]

theorem faultlessBehind_cons : FaultlessBehind first (character :: rest) (g :: taken) ↔
    (typedIn g.inside character (first + 1) → g.Clean) ∧ FaultlessBehind (first + 1) rest taken := by
  constructor
  · intro h
    refine ⟨fun htyped => h 0 g character rfl rfl htyped, fun i g' c hg hc htyped => ?_⟩
    have hplace : first + 1 + i + 1 = first + (i + 1) + 1 := by omega
    exact h (i + 1) g' c hg hc (hplace ▸ htyped)
  · rintro ⟨hhead, hrest⟩ i g' c hg hc htyped
    cases i with
    | zero =>
      obtain rfl := Option.some.inj hg
      obtain rfl := Option.some.inj hc
      exact hhead htyped
    | succ i =>
      have hplace : first + (i + 1) + 1 = first + 1 + i + 1 := by omega
      exact hrest i g' c hg hc (hplace ▸ htyped)

theorem faultlessBehind_nil : FaultlessBehind first text [] := by
  intro i g character hg
  exact absurd hg nofun

/-- Only the first character can make the loop fail. -/
theorem Typing.error_first {e : Failure} (h : Typing text completed (.error e) taken) :
    completed = 0 := by
  generalize hr : (Except.error e : Except Failure Nat) = r at h
  induction h with
  | done => exact absurd hr nofun
  | typed _ _ _ ih => exact absurd (ih hr) (Nat.succ_ne_zero _)
  | revoked => exact absurd hr nofun
  | stopped _ _ stops =>
    rcases stops with hok | ⟨hzero, -⟩
    · exact absurd (hr.trans hok) nofun
    · exact hzero

/-- A character that stops the loop is not counted. -/
theorem Halts.exactly (hshort : taken.length ≤ 1) (stops : Halts first r)
    (hno : ∀ g ∈ taken, ¬ typedIn g.inside character (first + 1)) :
    Exactly first (character :: rest) taken r := by
  have hnone (i : Nat) : ¬ TypedAt first (character :: rest) taken i := by
    rintro ⟨g, c, hg, hc, htyped⟩
    have hi : i = 0 := by
      have := (List.getElem?_eq_some_iff.mp hg).1
      omega
    subst hi
    obtain rfl := Option.some.inj hc
    exact hno g (List.mem_of_getElem? hg) htyped
  rcases stops with rfl | ⟨-, e, rfl⟩
  · refine ⟨Nat.le_refl _, Nat.le_add_right _ _, fun i => ⟨fun h => absurd h (hnone i), ?_⟩⟩
    intro h
    omega
  · exact hnone

/-- ... although the server may have taken its key. -/
theorem Halts.not_exactly (stops : Halts first r)
    (htyped : typedIn g.inside character (first + 1)) :
    ¬ Exactly first (character :: rest) (g :: taken) r := by
  intro h
  have hfirst : TypedAt first (character :: rest) (g :: taken) 0 := typedAt_zero.mpr htyped
  rcases stops with rfl | ⟨-, e, rfl⟩
  · have := (h.2.2 0).mp hfirst
    omega
  · exact h 0 hfirst

theorem Typing.exactly_iff (h : Typing text first r taken) :
    Exactly first text taken r ↔ FaultlessBehind first text taken := by
  induction h with
  | done completed =>
    refine ⟨fun _ => faultlessBehind_nil, fun _ => ⟨Nat.le_refl _, Nat.le_refl _, fun i => ?_⟩⟩
    exact ⟨fun h => absurd h (typedAt_nil i), fun h => by omega⟩
  | @typed character rest completed r g taken htyped hclean more ih =>
    rw [faultlessBehind_cons, ← ih]
    cases r with
    | error e => exact absurd more.error_first (Nat.succ_ne_zero _)
    | ok n =>
      have hfirst : TypedAt completed (character :: rest) (g :: taken) 0 :=
        typedAt_zero.mpr htyped
      constructor
      · rintro ⟨-, hn, hiff⟩
        have hzero := (hiff 0).mp hfirst
        rw [List.length_cons] at hn
        refine ⟨fun _ => hclean, by omega, by omega, fun i => ?_⟩
        have hsucc : TypedAt completed (character :: rest) (g :: taken) (i + 1) ↔
            TypedAt (completed + 1) rest taken i := typedAt_succ i
        rw [← hsucc, hiff]
        omega
      · rintro ⟨-, hlow, hn, hiff⟩
        refine ⟨by omega, ?_, fun i => ?_⟩
        · rw [List.length_cons]
          omega
        · cases i with
          | zero => exact ⟨fun _ => by omega, fun _ => hfirst⟩
          | succ i =>
            rw [typedAt_succ, hiff]
            omega
  | @revoked character rest completed g htyped hclean =>
    refine ⟨fun _ => faultlessBehind_cons.mpr ⟨fun _ => hclean, faultlessBehind_nil⟩, fun _ => ?_⟩
    refine ⟨Nat.le_succ _, ?_, fun i => ?_⟩
    · rw [List.length_cons]
      omega
    · cases i with
      | zero => exact ⟨fun _ => Nat.lt_succ_self _, fun _ => typedAt_zero.mpr htyped⟩
      | succ i =>
        rw [typedAt_succ]
        exact ⟨fun h => absurd h (typedAt_nil i), fun h => by omega⟩
  | @stopped character rest completed r taken short unclean stops =>
    cases taken with
    | nil => exact ⟨fun _ => faultlessBehind_nil, fun _ => stops.exactly short nofun⟩
    | cons g more =>
      obtain rfl : more = [] := by
        rw [List.length_cons] at short
        exact List.eq_nil_of_length_eq_zero (by omega)
      have hunclean := unclean g (List.mem_singleton.mpr rfl)
      by_cases htyped : typedIn g.inside character (completed + 1)
      · refine ⟨fun h => absurd h (stops.not_exactly htyped), fun h => ?_⟩
        exact absurd ((faultlessBehind_cons.mp h).1 htyped) (hunclean htyped)
      · refine ⟨fun _ => faultlessBehind_cons.mpr ⟨fun h => absurd h htyped, faultlessBehind_nil⟩,
          fun _ => stops.exactly short fun g' hg' => ?_⟩
        rw [List.mem_singleton.mp hg']
        exact htyped

end Count

/-! ## The call -/

/-- The last word of the call is a load of the gate that accepts the permit. -/
def StillAccepts (permit : SeatPermit) (added : List Step) : Prop :=
  ∃ before raw, added = before ++ [.said .seatLoad raw] ∧ Seat.accepts raw permit = true

/-- The characters of the text whose main key the server took; the first grab of a call only
    resolves. -/
def TypedIn (text : List Char) (added : List Step) (i : Nat) : Prop :=
  TypedAt 0 text (grabs added).tail i

/-- The reply tells exactly how far the text got, and a failure that nothing was typed. -/
def Counted (text : List Char) (permit : SeatPermit) (added : List Step) :
    Except Failure InputReply → Prop
  | .ok reply => reply.requested = text.length ∧ reply.completed ≤ text.length ∧
      (∀ i, TypedIn text added i ↔ i < reply.completed) ∧
      (reply.terminal = .queued ↔ reply.completed = text.length ∧ StillAccepts permit added)
  | .error _ => ∀ i, ¬ TypedIn text added i

section Call

variable (env : Outside) {text : List Char} {permit : SeatPermit}

/-- A failure before the first character typed nothing. -/
theorem counted_unstarted {added : List Step} {taken : List Grab} (h : Takes added taken)
    (hshort : taken.length ≤ 1) (e : Failure) :
    Counted text permit added (.error e) ↔ FaultlessBehind 0 text (grabs added).tail := by
  have htail : (grabs added).tail = [] := by
    rw [h.grabs_eq]
    refine List.eq_nil_of_length_eq_zero ?_
    rw [List.length_tail]
    omega
  unfold Counted TypedIn
  rw [htail]
  exact ⟨fun _ => faultlessBehind_nil, fun _ => typedAt_nil⟩

theorem preflight_grab (request : TargetRequest) (text : List Char) :
    Writes (fun _ => True) (underServerGrab env (preflight env request text)) fun r added =>
      ∃ taken, Takes added taken ∧ taken.length ≤ 1 ∧ (r = .ok () → taken.length = 1) := by
  have hquiet : Writes (fun _ => True) (preflight env request text) fun _ inside =>
      (∀ e ∈ inside, Ungrabbing e) ∧ True :=
    Writes.of_tells (preflight_finds request text).utters (fun _ _ _ _ => trivial)
      fun _ _ _ h _ => ⟨fun e he => (h e he).ungrabbing, trivial⟩
  refine Writes.post (underServerGrab_takes env hquiet) ?_
  rintro r added ⟨taken, htakes, ⟨rfl, e, rfl⟩ | ⟨r', inside, released, rfl, -⟩⟩
  · exact ⟨[], htakes, Nat.zero_le _, nofun⟩
  · exact ⟨_, htakes, Nat.le_refl 1, fun _ => rfl⟩

/-- The last question of a call, and how the reply is made of it. -/
theorem textComplete_writes (permit : SeatPermit) (completed requested : Nat) :
    Writes (fun _ => True) (textComplete env permit completed requested) fun r added =>
      Takes added [] ∧ ∃ complete, r = .ok complete ∧
        ∀ before, (complete = true ↔ completed = requested ∧ StillAccepts permit (before ++ added)) := by
  unfold textComplete
  split_ifs with hall
  · refine Writes.post (accepts_writes env permit) ?_
    rintro r added ⟨raw, rfl, rfl⟩
    refine ⟨Takes.load raw, _, rfl, fun before => ⟨fun h => ⟨hall, before, raw, rfl, h⟩, ?_⟩⟩
    rintro ⟨-, before', raw', heq, haccepts⟩
    have hlast : Entry.said Question.seatLoad raw = (.said .seatLoad raw' : Step) :=
      List.singleton_inj.mp (List.append_inj_right' heq rfl)
    obtain rfl : raw = raw' := by injection hlast
    exact haccepts
  · refine Writes.pure ⟨fun _ => rfl, false, rfl, fun before => ⟨nofun, fun h => absurd h.1 hall⟩⟩

end Call

/-! ## A release that fails -/

/-- A keyboard with the one key `a`. -/
def oneKey : XkbMapReply where
  minKeyCode := 8
  maxKeyCode := 8
  firstType := 0
  nTypes := 1
  totalTypes := 1
  firstKeySym := 8
  nKeySyms := 1
  typesRtrn := some [⟨0, 1, []⟩]
  symsRtrn := some [⟨fun _ => 0, 1, 1, ['a'.toNat]⟩]
  modmapRtrn := some []

/-- Keys go down but not up; everything else is plain. -/
def stuckOutside : Outside := fun trace question =>
  match question with
  | .xkbUseExtension => .ok true
  | .xkbGetState => .ok ⟨0, 0, 0, 0, 0, 0, 0⟩
  | .xkbGetMap => .ok oneKey
  | .fakeInput event => if event.kind = .keyRelease then .error .reply else .ok ()
  | question => Session.plainOutside 1 (fun _ => ⟨0, [⟨7, 0, 20⟩], 7⟩) trace question

/-- The call on the text `a`. -/
def stuckRun : Except Failure InputReply × World :=
  keyboardText stuckOutside ⟨⟨1, Nat.one_ne_zero⟩, 0⟩ ['a'] ⟨1⟩
    ⟨⟨connected plainRoot plainAtoms .allWorkspaces false false, []⟩, []⟩

end AgentSeat.Provider
