/-
  Providers, a discovery and other clients at one X server (`ownership.rs`).

  A provider makes a window, takes the selection while it has grabbed the server and finds it free,
  and writes its advertisement on its window and on the root; it withdraws by undoing this. Each of
  these is a request, and between any two the others may get theirs in, unless one of them has the
  server grabbed. A request may fail, and may have been carried out all the same; a client may go away
  at any time, and the server then clears away its windows, which it may give to another, but not what
  was written on the root.

  Other clients make and destroy windows of their own and may take the selection for them; what is
  assumed is that they leave the property alone.
-/
import AgentSeat.Lib.Runs
import AgentSeat.X11.Discovery
import Mathlib.Logic.Function.Basic

namespace AgentSeat.X11

open AgentSeat.Lib AgentSeat.Lib.Text AgentSeat.Proto

/-! ## The server -/

/-- The screen, and what is known of atoms; the selection and the property have one each. -/
structure Screen where
  root : Window
  utf8 : Atom
  selection : Atom
  property : Atom
  root_ne : root ≠ noneId
  utf8_ne : utf8 ≠ noneId
  selection_ne : selection ≠ noneId
  property_ne : property ≠ noneId

/-- The providers, by number, have made the windows in `maker`. The selection is owned by a window or
    by `noneId`; a property is a text. -/
structure Server where
  owner : Window
  maker : Window → Option Nat
  foreign : Window → Bool
  text : Window → Option (List UInt8)
  grab : Option Nat

/-! ## The providers -/

/-- What a provider is about to do, with the window it has made. -/
inductive Stage where
  | idle
  | grabbing (w : Window)
  | reading (w : Window)
  | setting (w : Window)
  | confirming (w : Window)
  | ungrabbing (w : Window) (claimed : Bool)
  | abandoning (w : Window)
  | advertising (w : Window)
  | advertisingRoot (w : Window)
  | flushing (w : Window)
  | active (w : Window)
  | releasing (w : Window)
  | rechecking (w : Window)
  | unrooting (w : Window)
  | unowning (w : Window)
  | clearing (w : Window)
  | destroying (w : Window)
  | leaving
  | closing
  | closed

/-- A discovery between two of its questions. -/
inductive Discovery where
  | idle
  | owned (owner : Window)
  | read (owner : Window) (ownerProperty : Except String PropertyReply)
  | both (owner : Window) (ownerProperty rootProperty : Except String PropertyReply)
  | done (replies : Replies)

structure Arena where
  server : Server
  stage : Nat → Stage
  discovery : Discovery

namespace Server

def exists? (screen : Screen) (s : Server) (w : Window) : Bool :=
  w = screen.root || (s.maker w).isSome || s.foreign w

def setOwner (s : Server) (w : Window) : Server := { s with owner := w }

def setText (s : Server) (w : Window) (text : Option (List UInt8)) : Server :=
  { s with text := Function.update s.text w text }

def make (s : Server) (i : Nat) (w : Window) : Server :=
  { s with maker := Function.update s.maker w (some i), text := Function.update s.text w none }

def setGrab (s : Server) (grab : Option Nat) : Server := { s with grab := grab }

/-- A window that is destroyed loses its property, and the selection. -/
def destroy (s : Server) (w : Window) : Server :=
  { s with
    owner := if s.owner = w then noneId else s.owner
    maker := Function.update s.maker w none
    text := Function.update s.text w none }

/-- All that goes with the connection of a client. -/
def disconnect (s : Server) (i : Nat) : Server :=
  { s with
    owner := if s.maker s.owner = some i then noneId else s.owner
    maker := fun w => if s.maker w = some i then none else s.maker w
    text := fun w => if s.maker w = some i then none else s.text w
    grab := if s.grab = some i then none else s.grab }

def getProperty (screen : Screen) (s : Server) (w : Window) : Except String PropertyReply :=
  if s.exists? screen w then
    match s.text w with
    | none => .ok ⟨noneId, 0, 0, [], none⟩
    | some text =>
      let sent := text.take (4 * (maxAdvertisementBytes.div 4 + 1))
      .ok ⟨screen.utf8, 8, text.length - sent.length, sent, none⟩
  else .error "BadWindow"

end Server

/-- What a request of a provider does to the server, where it is carried out. -/
def Stage.request (screen : Screen) (i : Nat) (value : List UInt8) (fresh : Window) (s : Server) :
    Stage → Server
  | .idle => s.make i fresh
  | .grabbing _ => s.setGrab (some i)
  | .setting w => s.setOwner w
  | .ungrabbing _ _ => s.setGrab none
  | .abandoning w => s.destroy w
  | .advertising w => s.setText w (some value)
  | .advertisingRoot _ => s.setText screen.root (some value)
  | .releasing _ => s.setGrab (some i)
  | .unrooting _ => s.setText screen.root none
  | .unowning w => s.setText w none
  | .clearing _ => s.setOwner noneId
  | .destroying w => s.destroy w
  | .leaving => s.setGrab none
  | _ => s

/-- Where a provider goes on; `owner` is what it is told of the selection. -/
def Stage.next (ok : Bool) (fresh owner : Window) : Stage → Stage
  | .idle => if ok then .grabbing fresh else .closing
  | .grabbing w => if ok then .reading w else .abandoning w
  | .reading w => if ok && owner = noneId then .setting w else .ungrabbing w false
  | .setting w => if ok then .confirming w else .ungrabbing w false
  | .confirming w => .ungrabbing w (ok && owner = w)
  | .ungrabbing w claimed => if claimed && ok then .advertising w else .abandoning w
  | .abandoning _ => .closing
  | .advertising w => if ok then .advertisingRoot w else .releasing w
  | .advertisingRoot w => if ok then .flushing w else .releasing w
  | .flushing w => if ok then .active w else .closing
  | .active w => .releasing w
  | .releasing w => if ok then .rechecking w else .closing
  | .rechecking w => if ok && owner = w then .unrooting w else .destroying w
  | .unrooting w => if ok then .unowning w else .destroying w
  | .unowning w => if ok then .clearing w else .destroying w
  | .clearing w => .destroying w
  | .destroying _ => .leaving
  | .leaving => .closing
  | .closing => .closing
  | .closed => .closed

/-! ## The steps -/

inductive ArenaMove where
  | provider (i : Nat) (carried ok : Bool) (fresh : Window)
  | crash (i : Nat)
  | foreignWindow (w : Window)
  | foreignDestroy (w : Window)
  | foreignOwner (w : Window)
  | discover

/-- A client is heard while no other has the server grabbed. -/
def Server.hears (s : Server) (i : Nat) : Bool := s.grab = none || s.grab = some i

/-- A request that is answered was carried out, and a window that is made is a new one. -/
def Arena.mayRequest (screen : Screen) (arena : Arena) (i : Nat) (carried ok : Bool) (fresh : Window) :
    Bool :=
  arena.server.hears i && (carried || !ok) &&
    match arena.stage i with
    | .idle => fresh ≠ noneId && !arena.server.exists? screen fresh
    | .closing => false
    | .closed => false
    | _ => true

def Discovery.ask (screen : Screen) (s : Server) : Discovery → Option Discovery
  | .idle => some (.owned s.owner)
  | .owned owner => some (.read owner (s.getProperty screen owner))
  | .read owner first => some (.both owner first (s.getProperty screen screen.root))
  | .both owner first second =>
    some (.done ⟨some [58], .ok (some screen.root), .ok screen.selection, .ok owner,
      .ok screen.property, .ok screen.utf8, first, second, .ok s.owner⟩)
  | .done _ => none

/-- A provider with number `i` advertises `value i`. -/
def Arena.step (screen : Screen) (value : Nat → Advertisement) (arena : Arena) :
    ArenaMove → Option Arena
  | .provider i carried ok fresh =>
    if arena.mayRequest screen i carried ok fresh = false then none
    else
      some { arena with
        server := if carried then
            (arena.stage i).request screen i (value i).encode fresh arena.server
          else arena.server
        stage := Function.update arena.stage i ((arena.stage i).next ok fresh arena.server.owner) }
  | .crash i =>
    some { arena with
      server := arena.server.disconnect i
      stage := Function.update arena.stage i .closed }
  | .foreignWindow w =>
    if w = noneId || arena.server.exists? screen w then none
    else some { arena with server := { arena.server with
      foreign := Function.update arena.server.foreign w true } }
  | .foreignDestroy w =>
    if arena.server.foreign w = false then none
    else some { arena with server := { arena.server with
      foreign := Function.update arena.server.foreign w false
      owner := if arena.server.owner = w then noneId else arena.server.owner } }
  | .foreignOwner w =>
    if arena.server.grab.isSome || !(w = noneId || arena.server.foreign w) then none
    else some { arena with server := arena.server.setOwner w }
  | .discover =>
    if arena.server.grab.isSome then none
    else (arena.discovery.ask screen arena.server).map fun d => { arena with discovery := d }

/-- No provider has done anything, and no window has a property; on the root one may have been left,
    and the selection may be taken. -/
structure Arena.Start (screen : Screen) (arena : Arena) : Prop where
  maker : ∀ w, arena.server.maker w = none
  owner : arena.server.owner = noneId ∨ arena.server.foreign arena.server.owner = true
  foreign : ∀ w, arena.server.foreign w = true → w ≠ noneId ∧ w ≠ screen.root
  text : ∀ w, w ≠ screen.root → arena.server.text w = none
  grab : arena.server.grab = none
  stage : ∀ i, arena.stage i = .idle
  discovery : arena.discovery = .idle

/-! ## Where the property comes from -/

/-- The window a provider works with. -/
def Stage.window : Stage → Option Window
  | .grabbing w => some w
  | .reading w => some w
  | .setting w => some w
  | .confirming w => some w
  | .ungrabbing w _ => some w
  | .abandoning w => some w
  | .advertising w => some w
  | .advertisingRoot w => some w
  | .flushing w => some w
  | .active w => some w
  | .releasing w => some w
  | .rechecking w => some w
  | .unrooting w => some w
  | .unowning w => some w
  | .clearing w => some w
  | .destroying w => some w
  | _ => none

/-- The stages in which a provider may have its advertisement on its window. It gets there only by
    finding the selection free and taking it. -/
def Stage.claimed : Stage → Bool
  | .advertising _ => true
  | .advertisingRoot _ => true
  | .flushing _ => true
  | .active _ => true
  | .releasing _ => true
  | .rechecking _ => true
  | .unrooting _ => true
  | .unowning _ => true
  | .clearing _ => true
  | .destroying _ => true
  | .leaving => true
  | .closing => true
  | _ => false

/-- What is so of the windows, whatever anyone does. -/
structure Sound (screen : Screen) (value : Nat → Advertisement) (s : Server) (stage : Nat → Stage) :
    Prop where
  root : s.maker screen.root = none
  noneId : s.maker noneId = none
  foreign : ∀ w, s.foreign w = true → w ≠ X11.noneId ∧ w ≠ screen.root ∧ s.maker w = none
  owner : s.owner = X11.noneId ∨ s.foreign s.owner = true ∨ (s.maker s.owner).isSome = true
  window : ∀ i w, (stage i).window = some w → s.maker w = some i
  gone : ∀ i w, stage i = .closed ∨ stage i = .idle → s.maker w ≠ some i
  text : ∀ w text, w ≠ screen.root → s.text w = some text → ∃ i, s.maker w = some i ∧
    text = (value i).encode ∧ (stage i).claimed = true

namespace Sound

variable {screen : Screen} {value : Nat → Advertisement} {s : Server} {stage : Nat → Stage}

theorem start {arena : Arena} (h : arena.Start screen) :
    Sound screen value arena.server arena.stage := by
  refine ⟨h.maker _, h.maker _, fun w hw => ?_, ?_, fun i w hw => ?_, fun i w _ => ?_, fun w t hw ht => ?_⟩
  · exact ⟨(h.foreign w hw).1, (h.foreign w hw).2, h.maker w⟩
  · rcases h.owner with hnone | hforeign
    · exact Or.inl hnone
    · exact Or.inr (Or.inl hforeign)
  · rw [h.stage] at hw
    cases hw
  · rw [h.maker]
    exact (Option.some_ne_none i).symm
  · rw [h.text w hw] at ht
    cases ht

/-- A step of one provider that makes and destroys no window. -/
theorem keep (h : Sound screen value s stage) {i : Nat} {s' : Server} {next : Stage}
    (hmaker : s'.maker = s.maker) (hforeign : s'.foreign = s.foreign)
    (howner : s'.owner = s.owner ∨ s'.owner = X11.noneId ∨ (s.maker s'.owner).isSome = true)
    (hwindow : ∀ w, next.window = some w → (stage i).window = some w)
    (hopen : next ≠ .closed ∧ next ≠ .idle)
    (hclaimed : (stage i).claimed = true → next.claimed = true)
    (htext : ∀ w, w ≠ screen.root → s'.text w = s.text w ∨ s'.text w = none ∨
      s'.text w = some (value i).encode ∧ s.maker w = some i ∧ next.claimed = true) :
    Sound screen value s' (Function.update stage i next) := by
  refine ⟨hmaker ▸ h.root, hmaker ▸ h.noneId, fun w hw => ?_, ?_, fun j w hj => ?_, fun j w hj => ?_,
    fun w t hw ht => ?_⟩
  · rw [hforeign] at hw
    rw [hmaker]
    exact h.foreign w hw
  · rw [hmaker, hforeign]
    rcases howner with hsame | hnone | hmade
    · rw [hsame]
      exact h.owner
    · exact Or.inl hnone
    · exact Or.inr (Or.inr hmade)
  · rw [hmaker]
    by_cases hij : j = i
    · rw [hij, Function.update_self] at hj
      rw [hij]
      exact h.window i w (hwindow w hj)
    · rw [Function.update_of_ne hij] at hj
      exact h.window j w hj
  · rw [hmaker]
    by_cases hij : j = i
    · rw [hij, Function.update_self] at hj
      exact absurd hj (not_or.mpr hopen)
    · rw [Function.update_of_ne hij] at hj
      exact h.gone j w hj
  · have hkept (j : Nat) (hj : (stage j).claimed = true) :
        (Function.update stage i next j).claimed = true := by
      by_cases hij : j = i
      · rw [hij, Function.update_self]
        exact hclaimed (hij ▸ hj)
      · rw [Function.update_of_ne hij]
        exact hj
    rw [hmaker]
    rcases htext w hw with hsame | hnone | ⟨hwritten, hmade, hnext⟩
    · obtain ⟨j, hj, hvalue, hstage⟩ := h.text w t hw (hsame ▸ ht)
      exact ⟨j, hj, hvalue, hkept j hstage⟩
    · rw [hnone] at ht
      cases ht
    · rw [hwritten] at ht
      refine ⟨i, hmade, (Option.some.inj ht).symm, ?_⟩
      rw [Function.update_self]
      exact hnext

/-- A provider makes its window. -/
theorem make (h : Sound screen value s stage) {i : Nat} {w : Window} {next : Stage}
    (hidle : stage i = .idle) (hne : w ≠ X11.noneId) (hnew : s.exists? screen w = false)
    (hnext : next = .grabbing w ∨ next = .closing) :
    Sound screen value (s.make i w) (Function.update stage i next) := by
  unfold Server.exists? at hnew
  simp only [Bool.or_eq_false_iff, decide_eq_false_iff_not] at hnew
  obtain ⟨⟨hroot, hunmade⟩, hnative⟩ := hnew
  have hunmade : s.maker w = none := by simpa using hunmade
  have hmaker (w' : Window) (hw : w' ≠ w) : (s.make i w).maker w' = s.maker w' :=
    Function.update_of_ne hw _ _
  have hself : (s.make i w).maker w = some i := Function.update_self ..
  refine ⟨?_, ?_, fun w' hw' => ?_, ?_, fun j w' hj => ?_, fun j w' hj => ?_, fun w' t hw' ht => ?_⟩
  · rw [hmaker _ (Ne.symm hroot)]
    exact h.root
  · rw [hmaker _ (Ne.symm hne)]
    exact h.noneId
  · have hother : w' ≠ w := by
      rintro rfl
      exact absurd (hnative.symm.trans hw') (by simp)
    rw [hmaker w' hother]
    exact h.foreign w' hw'
  · show s.owner = _ ∨ s.foreign s.owner = true ∨ ((s.make i w).maker s.owner).isSome = true
    by_cases howner : s.owner = w
    · rw [howner, hself]
      exact Or.inr (Or.inr rfl)
    · rw [hmaker _ howner]
      exact h.owner
  · by_cases hij : j = i
    · rw [hij, Function.update_self] at hj
      rcases hnext with rfl | rfl
      · obtain rfl := Option.some.inj hj
        rw [hself, hij]
      · cases hj
    · rw [Function.update_of_ne hij] at hj
      have hmade := h.window j w' hj
      have hother : w' ≠ w := by
        rintro rfl
        exact absurd (hunmade.symm.trans hmade) (by simp)
      rw [hmaker w' hother]
      exact hmade
  · by_cases hij : j = i
    · rw [hij, Function.update_self] at hj
      rcases hnext with rfl | rfl <;> simp at hj
    · rw [Function.update_of_ne hij] at hj
      by_cases hw : w' = w
      · rw [hw, hself]
        exact fun heq => hij (Option.some.inj heq).symm
      · rw [hmaker w' hw]
        exact h.gone j w' hj
  · have ht : Function.update s.text w none w' = some t := ht
    have hw : w' ≠ w := by
      rintro rfl
      rw [Function.update_self] at ht
      cases ht
    rw [Function.update_of_ne hw] at ht
    rw [hmaker w' hw]
    obtain ⟨j, hj, hvalue, hstage⟩ := h.text w' t hw' ht
    have hij : j ≠ i := by
      rintro rfl
      rw [hidle] at hstage
      cases hstage
    refine ⟨j, hj, hvalue, ?_⟩
    rw [Function.update_of_ne hij]
    exact hstage

/-- Windows of a provider go, one or all of them, and with each its property and the selection. -/
theorem clear (h : Sound screen value s stage) {i : Nat} {s' : Server} {next : Stage}
    (hmaker : ∀ w, s'.maker w = s.maker w ∨ s'.maker w = none ∧ s.maker w = some i ∧
      s'.text w = none ∧ s'.owner ≠ w)
    (hforeign : s'.foreign = s.foreign) (howner : s'.owner = s.owner ∨ s'.owner = X11.noneId)
    (htext : ∀ w, s'.text w = s.text w ∨ s'.text w = none)
    (hwindow : next.window = none)
    (hgone : next = .closed ∨ next = .idle → ∀ w, s'.maker w ≠ some i)
    (hclaimed : (stage i).claimed = true → next.claimed = true ∨ ∀ w, s'.maker w ≠ some i) :
    Sound screen value s' (Function.update stage i next) := by
  have hother {w : Window} {j : Nat} (hw : s.maker w = some j) (hij : j ≠ i) :
      s'.maker w = some j := by
    rcases hmaker w with hsame | ⟨-, hmade, -⟩
    · rw [hsame]
      exact hw
    · exact absurd (Option.some.inj (hw.symm.trans hmade)) hij
  have hless {w : Window} (hw : s.maker w = none) : s'.maker w = none := by
    rcases hmaker w with hsame | ⟨hnone, -⟩
    · rw [hsame]
      exact hw
    · exact hnone
  refine ⟨hless h.root, hless h.noneId, fun w hw => ?_, ?_, fun j w hj => ?_, fun j w hj => ?_,
    fun w t hw ht => ?_⟩
  · rw [hforeign] at hw
    exact ⟨(h.foreign w hw).1, (h.foreign w hw).2.1, hless (h.foreign w hw).2.2⟩
  · rw [hforeign]
    rcases howner with hsame | hnone
    · rcases hmaker s'.owner with hkept | ⟨-, -, -, hlost⟩
      · rw [hkept, hsame]
        exact h.owner
      · exact absurd rfl hlost
    · exact Or.inl hnone
  · by_cases hij : j = i
    · rw [hij, Function.update_self, hwindow] at hj
      cases hj
    · rw [Function.update_of_ne hij] at hj
      exact hother (h.window j w hj) hij
  · by_cases hij : j = i
    · rw [hij, Function.update_self] at hj
      rw [hij]
      exact hgone hj w
    · rw [Function.update_of_ne hij] at hj
      intro hmade
      rcases hmaker w with hsame | ⟨hnone, -⟩
      · exact h.gone j w hj (hsame ▸ hmade)
      · rw [hnone] at hmade
        cases hmade
  · rcases htext w with hsame | hnone
    · obtain ⟨j, hj, hvalue, hstage⟩ := h.text w t hw (hsame ▸ ht)
      have hmade : s'.maker w = some j := by
        rcases hmaker w with hkept | ⟨-, -, hnotext, -⟩
        · rw [hkept]
          exact hj
        · rw [hnotext] at ht
          cases ht
      refine ⟨j, hmade, hvalue, ?_⟩
      by_cases hij : j = i
      · rw [hij, Function.update_self]
        exact (hclaimed (hij ▸ hstage)).resolve_right fun hnone => hnone w (hij ▸ hmade)
      · rw [Function.update_of_ne hij]
        exact hstage
    · rw [hnone] at ht
      cases ht

theorem next_window {st : Stage} {ok : Bool} {fresh owner w : Window} (hidle : st ≠ .idle)
    (h : (st.next ok fresh owner).window = some w) : st.window = some w := by
  cases st <;> simp only [Stage.next] at h <;> try split_ifs at h
  all_goals first
    | exact h
    | exact absurd rfl hidle
    | cases h

theorem next_open {st : Stage} (ok : Bool) (fresh owner : Window) (hclosed : st ≠ .closed) :
    st.next ok fresh owner ≠ .closed ∧ st.next ok fresh owner ≠ .idle := by
  cases st <;> simp only [Stage.next] <;> try split_ifs
  all_goals first
    | exact absurd rfl hclosed
    | simp

theorem next_claimed {st : Stage} (ok : Bool) (fresh owner : Window) (h : st.claimed = true) :
    (st.next ok fresh owner).claimed = true := by
  cases st <;> simp only [Stage.next] <;> try split_ifs
  all_goals first
    | rfl
    | cases h

/-- A step of one provider that leaves windows, texts and the selection as they are. -/
theorem quiet (h : Sound screen value s stage) {i : Nat} {s' : Server} {next : Stage}
    (hsame : s'.maker = s.maker ∧ s'.foreign = s.foreign ∧ s'.owner = s.owner ∧ s'.text = s.text)
    (hwindow : ∀ w, next.window = some w → (stage i).window = some w)
    (hopen : next ≠ .closed ∧ next ≠ .idle)
    (hclaimed : (stage i).claimed = true → next.claimed = true) :
    Sound screen value s' (Function.update stage i next) :=
  h.keep hsame.1 hsame.2.1 (Or.inl hsame.2.2.1) hwindow hopen hclaimed fun w _ =>
    Or.inl (congrFun hsame.2.2.2 w)

/-- The window of one provider is destroyed. -/
theorem destroy (h : Sound screen value s stage) {i : Nat} {w : Window} {next : Stage}
    (hmade : s.maker w = some i) (hwindow : next.window = none)
    (hopen : next ≠ .closed ∧ next ≠ .idle)
    (hclaimed : (stage i).claimed = true → next.claimed = true) :
    Sound screen value (s.destroy w) (Function.update stage i next) := by
  refine h.clear (fun w' => ?_) rfl ?_ (fun w' => ?_) hwindow
    (fun hgone => absurd hgone (not_or.mpr hopen)) fun hstage => Or.inl (hclaimed hstage)
  · by_cases hw : w' = w
    · refine Or.inr ⟨?_, hw ▸ hmade, ?_, ?_⟩
      · rw [hw]
        exact Function.update_self ..
      · rw [hw]
        exact Function.update_self ..
      · show (if s.owner = w then X11.noneId else s.owner) ≠ w'
        split_ifs with howner
        · intro hnone
          have := h.noneId
          rw [hnone, hw, hmade] at this
          cases this
        · rw [hw]
          exact howner
    · exact Or.inl (Function.update_of_ne hw _ _)
  · show (if s.owner = w then X11.noneId else s.owner) = _ ∨
      (if s.owner = w then X11.noneId else s.owner) = _
    split_ifs
    · exact Or.inr rfl
    · exact Or.inl rfl
  · by_cases hw : w' = w
    · exact Or.inr (hw ▸ Function.update_self ..)
    · exact Or.inl (Function.update_of_ne hw _ _)

theorem disconnect (h : Sound screen value s stage) (i : Nat) :
    Sound screen value (s.disconnect i) (Function.update stage i .closed) := by
  have hnone (w : Window) : (s.disconnect i).maker w ≠ some i := by
    show (if s.maker w = some i then none else s.maker w) ≠ some i
    split_ifs with hmade
    · exact (Option.some_ne_none i).symm
    · exact hmade
  refine h.clear (fun w => ?_) rfl ?_ (fun w => ?_) rfl (fun _ => hnone) fun _ => Or.inr hnone
  · by_cases hmade : s.maker w = some i
    · refine Or.inr ⟨if_pos hmade, hmade, if_pos hmade, ?_⟩
      show (if s.maker s.owner = some i then X11.noneId else s.owner) ≠ w
      split_ifs with howner
      · intro hw
        have := h.noneId
        rw [hw, hmade] at this
        cases this
      · rintro rfl
        exact howner hmade
    · exact Or.inl (if_neg hmade)
  · show (if s.maker s.owner = some i then X11.noneId else s.owner) = _ ∨
      (if s.maker s.owner = some i then X11.noneId else s.owner) = _
    split_ifs
    · exact Or.inr rfl
    · exact Or.inl rfl
  · by_cases hmade : s.maker w = some i
    · exact Or.inr (if_pos hmade)
    · exact Or.inl (if_neg hmade)

/-- What a request does that is carried out. -/
theorem request (h : Sound screen value s stage) {i : Nat} {ok : Bool} {fresh owner : Window}
    (hnew : stage i = .idle → fresh ≠ X11.noneId ∧ s.exists? screen fresh = false)
    (hclosed : stage i ≠ .closed) :
    Sound screen value ((stage i).request screen i (value i).encode fresh s)
      (Function.update stage i ((stage i).next ok fresh owner)) := by
  have hopen := next_open ok fresh owner hclosed
  have hclaimed := @next_claimed (stage i) ok fresh owner
  cases hstage : stage i with
  | idle =>
    refine h.make hstage (hnew hstage).1 (hnew hstage).2 ?_
    cases ok
    · exact Or.inr rfl
    · exact Or.inl rfl
  | closed => exact absurd hstage hclosed
  | setting w =>
    have hmade := h.window i w (by rw [hstage]; rfl)
    rw [hstage] at hopen hclaimed
    refine h.keep rfl rfl (Or.inr (Or.inr ?_)) (fun w' => ?_) hopen (hstage ▸ hclaimed) fun w' _ => Or.inl rfl
    · show (s.maker w).isSome = true
      rw [hmade]
      rfl
    · rw [hstage]
      exact next_window (by simp)
  | clearing w =>
    rw [hstage] at hopen hclaimed
    refine h.keep rfl rfl (Or.inr (Or.inl rfl)) (fun w' => ?_) hopen (hstage ▸ hclaimed) fun w' _ => Or.inl rfl
    rw [hstage]
    exact next_window (by simp)
  | advertising w =>
    have hmade := h.window i w (by rw [hstage]; rfl)
    rw [hstage] at hopen hclaimed
    refine h.keep rfl rfl (Or.inl rfl) (fun w' => ?_) hopen (hstage ▸ hclaimed) fun w' _ => ?_
    · rw [hstage]
      exact next_window (by simp)
    · by_cases hw : w' = w
      · refine Or.inr (Or.inr ⟨?_, hw ▸ hmade, hclaimed rfl⟩)
        rw [hw]
        exact Function.update_self ..
      · exact Or.inl (Function.update_of_ne hw _ _)
  | unowning w =>
    rw [hstage] at hopen hclaimed
    refine h.keep rfl rfl (Or.inl rfl) (fun w' => ?_) hopen (hstage ▸ hclaimed) fun w' _ => ?_
    · rw [hstage]
      exact next_window (by simp)
    · by_cases hw : w' = w
      · refine Or.inr (Or.inl ?_)
        rw [hw]
        exact Function.update_self ..
      · exact Or.inl (Function.update_of_ne hw _ _)
  | advertisingRoot w =>
    rw [hstage] at hopen hclaimed
    refine h.keep rfl rfl (Or.inl rfl) (fun w' => ?_) hopen (hstage ▸ hclaimed) fun w' hw =>
      Or.inl (Function.update_of_ne hw _ _)
    rw [hstage]
    exact next_window (by simp)
  | unrooting w =>
    rw [hstage] at hopen hclaimed
    refine h.keep rfl rfl (Or.inl rfl) (fun w' => ?_) hopen (hstage ▸ hclaimed) fun w' hw =>
      Or.inl (Function.update_of_ne hw _ _)
    rw [hstage]
    exact next_window (by simp)
  | abandoning w =>
    have hmade := h.window i w (by rw [hstage]; rfl)
    rw [hstage] at hopen hclaimed
    exact h.destroy hmade rfl hopen (hstage ▸ hclaimed)
  | destroying w =>
    have hmade := h.window i w (by rw [hstage]; rfl)
    rw [hstage] at hopen hclaimed
    exact h.destroy hmade rfl hopen (hstage ▸ hclaimed)
  | _ =>
    rw [hstage] at hopen hclaimed
    refine h.quiet ⟨rfl, rfl, rfl, rfl⟩ (fun w' => ?_) hopen (hstage ▸ hclaimed)
    rw [hstage]
    exact next_window (by simp)

theorem foreignStep (h : Sound screen value s stage) {s' : Server} (hmaker : s'.maker = s.maker)
    (htext : s'.text = s.text)
    (hforeign : ∀ w, s'.foreign w = true → s.foreign w = true ∨
      w ≠ X11.noneId ∧ s.exists? screen w = false)
    (howner : s'.owner = X11.noneId ∨ s'.foreign s'.owner = true ∨
      (s'.maker s'.owner).isSome = true) :
    Sound screen value s' stage := by
  refine ⟨hmaker ▸ h.root, hmaker ▸ h.noneId, fun w hw => ?_, howner, hmaker ▸ h.window,
    hmaker ▸ h.gone, fun w t hw ht => ?_⟩
  · rw [hmaker]
    rcases hforeign w hw with hbefore | ⟨hne, hnew⟩
    · exact h.foreign w hbefore
    · unfold Server.exists? at hnew
      simp only [Bool.or_eq_false_iff, decide_eq_false_iff_not] at hnew
      exact ⟨hne, hnew.1.1, by simpa using hnew.1.2⟩
  · rw [htext] at ht
    rw [hmaker]
    exact h.text w t hw ht

theorem mayRequest_idle {arena : Arena} {i : Nat} {carried ok : Bool} {fresh : Window}
    (h : arena.mayRequest screen i carried ok fresh = true) :
    (arena.server.hears i = true ∧ (carried = true ∨ ok = false)) ∧ arena.stage i ≠ .closing ∧
      arena.stage i ≠ .closed ∧
      (arena.stage i = .idle → fresh ≠ X11.noneId ∧ arena.server.exists? screen fresh = false) := by
  unfold Arena.mayRequest at h
  simp only [Bool.and_eq_true, Bool.or_eq_true, Bool.not_eq_true'] at h
  obtain ⟨hheard, hstage⟩ := h
  cases hat : arena.stage i <;> rw [hat] at hstage <;> simp_all

theorem step {arena arena' : Arena} {move : ArenaMove}
    (h : Sound screen value arena.server arena.stage)
    (hstep : arena.step screen value move = some arena') :
    Sound screen value arena'.server arena'.stage := by
  cases move with
  | provider i carried ok fresh =>
    simp only [Arena.step] at hstep
    split_ifs at hstep with hmay hcarried
    · obtain rfl := Option.some.inj hstep
      obtain ⟨-, -, hclosed, hnew⟩ := mayRequest_idle (Bool.not_eq_false _ ▸ hmay)
      exact h.request hnew hclosed
    · obtain rfl := Option.some.inj hstep
      obtain ⟨⟨-, hfailed⟩, -, hclosed, hnew⟩ := mayRequest_idle (Bool.not_eq_false _ ▸ hmay)
      obtain rfl := hfailed.resolve_left hcarried
      refine h.quiet ⟨rfl, rfl, rfl, rfl⟩ (fun w hw => ?_) (next_open _ _ _ hclosed) (next_claimed _ _ _)
      by_cases hidle : arena.stage i = .idle
      · rw [hidle] at hw
        cases hw
      · exact next_window hidle hw
  | crash i =>
    obtain rfl := Option.some.inj hstep
    exact h.disconnect i
  | foreignWindow w =>
    simp only [Arena.step] at hstep
    split_ifs at hstep with hnew
    obtain rfl := Option.some.inj hstep
    simp only [Bool.or_eq_true, decide_eq_true_eq, not_or, Bool.not_eq_true] at hnew
    refine h.foreignStep rfl rfl (fun w' hw' => ?_) ?_
    · have hw' : Function.update arena.server.foreign w true w' = true := hw'
      by_cases hw : w' = w
      · exact Or.inr (hw ▸ hnew)
      · rw [Function.update_of_ne hw] at hw'
        exact Or.inl hw'
    · show arena.server.owner = _ ∨ Function.update arena.server.foreign w true arena.server.owner = true ∨ _
      rcases h.owner with hnone | hforeign | hmade
      · exact Or.inl hnone
      · refine Or.inr (Or.inl ?_)
        by_cases hw : arena.server.owner = w
        · rw [hw]
          exact Function.update_self ..
        · rw [Function.update_of_ne hw]
          exact hforeign
      · exact Or.inr (Or.inr hmade)
  | foreignDestroy w =>
    simp only [Arena.step] at hstep
    by_cases hmissing : arena.server.foreign w = false
    · rw [if_pos hmissing] at hstep
      cases hstep
    rw [if_neg hmissing] at hstep
    obtain rfl := Option.some.inj hstep
    refine h.foreignStep rfl rfl (fun w' hw' => ?_) ?_
    · have hw' : Function.update arena.server.foreign w false w' = true := hw'
      by_cases hw : w' = w
      · rw [hw, Function.update_self] at hw'
        cases hw'
      · rw [Function.update_of_ne hw] at hw'
        exact Or.inl hw'
    · show (if arena.server.owner = w then X11.noneId else arena.server.owner) = _ ∨
        Function.update arena.server.foreign w false
          (if arena.server.owner = w then X11.noneId else arena.server.owner) = true ∨
        (arena.server.maker (if arena.server.owner = w then X11.noneId else arena.server.owner)).isSome = true
      split_ifs with howner
      · exact Or.inl rfl
      · rw [Function.update_of_ne howner]
        exact h.owner
  | foreignOwner w =>
    simp only [Arena.step] at hstep
    split_ifs at hstep with hmay
    obtain rfl := Option.some.inj hstep
    refine h.foreignStep rfl rfl (fun w' hw' => Or.inl hw') ?_
    show w = _ ∨ arena.server.foreign w = true ∨ (arena.server.maker w).isSome = true
    simp only [Bool.or_eq_true, Bool.not_eq_true', not_or, Bool.or_eq_false_iff,
      decide_eq_false_iff_not, not_and_or, not_not, Bool.not_eq_false] at hmay
    exact hmay.2.imp id Or.inl
  | discover =>
    simp only [Arena.step] at hstep
    split_ifs at hstep with hgrab
    obtain ⟨d, -, rfl⟩ := Option.map_eq_some_iff.mp hstep
    exact h

end Sound

abbrev Arena.Runs (screen : Screen) (value : Nat → Advertisement) :
    List (Arena × ArenaMove) → Arena → Prop :=
  Run (Arena.Start screen) (Arena.step screen value) fun _ _ => True

theorem Arena.Runs.sound {screen : Screen} {value : Nat → Advertisement}
    {past : List (Arena × ArenaMove)} {arena : Arena} (run : Arena.Runs screen value past arena) :
    Sound screen value arena.server arena.stage :=
  run.invariant (fun _ => Sound.start) fun _ _ _ hsound _ => hsound.step

/-! ## What a discovery has seen -/

theorem Sound.owner_ne_root {screen : Screen} {value : Nat → Advertisement} {s : Server}
    {stage : Nat → Stage} (h : Sound screen value s stage) : s.owner ≠ screen.root := by
  intro hroot
  rcases h.owner with hnone | hforeign | hmade
  · exact screen.root_ne (hroot.symm.trans hnone)
  · exact (h.foreign _ hforeign).2.1 hroot
  · rw [hroot, h.root] at hmade
    cases hmade

/-- A whole text is read only where it is. -/
theorem getProperty_text {screen : Screen} {s : Server} {w : Window} {reply : PropertyReply}
    (hread : s.getProperty screen w = .ok reply) (htext : reply.isText screen.utf8 = true) :
    s.text w = some reply.value := by
  unfold Server.getProperty at hread
  split_ifs at hread with hexists
  unfold PropertyReply.isText at htext
  simp only [Bool.and_eq_true, decide_eq_true_eq] at htext
  split at hread
  · obtain rfl := Except.ok.inj hread
    exact absurd htext.1.1.1.symm screen.utf8_ne
  · next text hsome =>
    obtain rfl := Except.ok.inj hread
    have hwhole : text.length - (text.take (4 * (maxAdvertisementBytes.div 4 + 1))).length = 0 :=
      htext.1.2
    rw [List.length_take] at hwhole
    have hfits : text.length ≤ 4 * (maxAdvertisementBytes.div 4 + 1) := by omega
    rw [hsome]
    show some text = some (text.take _)
    rw [List.take_of_length_le hfits]

theorem encode_injective {a b : Advertisement} (h : a.encode = b.encode) : a = b := by
  have hparse := a.parse_encode
  rw [h, b.parse_encode] at hparse
  exact (Except.ok.inj hparse).symm

/-- The window owned the selection. -/
def OwnerSeen (screen : Screen) (value : Nat → Advertisement) (w : Window) (arena : Arena)
    (_ : List (Arena × ArenaMove)) : Prop :=
  Sound screen value arena.server arena.stage ∧ arena.server.owner = w

/-- Its property was read, after that. -/
def PropertySeen (screen : Screen) (value : Nat → Advertisement) (w : Window)
    (first : Except String PropertyReply) (arena : Arena) (past : List (Arena × ArenaMove)) : Prop :=
  Sound screen value arena.server arena.stage ∧ first = arena.server.getProperty screen w ∧
    Before (OwnerSeen screen value w) past

/-- And then that of the root. -/
def RootSeen (screen : Screen) (value : Nat → Advertisement) (w : Window)
    (first second : Except String PropertyReply) (arena : Arena) (past : List (Arena × ArenaMove)) :
    Prop :=
  second = arena.server.getProperty screen screen.root ∧
    Before (PropertySeen screen value w first) past

/-- What a discovery has come to is what it has seen. -/
def Discovery.Traced (screen : Screen) (value : Nat → Advertisement) (past : List (Arena × ArenaMove)) :
    Discovery → Prop
  | .idle => True
  | .owned w => Before (OwnerSeen screen value w) past
  | .read w first => Before (PropertySeen screen value w first) past
  | .both w first second => Before (RootSeen screen value w first second) past
  | .done r => ∃ w first second, r.owner = .ok w ∧ r.ownerProperty = first ∧
      r.rootProperty = second ∧ r.utf8 = .ok screen.utf8 ∧
      Before (fun arena earlier => r.currentOwner = .ok arena.server.owner ∧
        Before (RootSeen screen value w first second) earlier) past

theorem Discovery.Traced.earlier {screen : Screen} {value : Nat → Advertisement}
    {past : List (Arena × ArenaMove)} {d : Discovery} (h : d.Traced screen value past)
    (latest : Arena × ArenaMove) : d.Traced screen value (latest :: past) := by
  cases d with
  | idle => trivial
  | owned w => exact Before.earlier latest h
  | read w first => exact Before.earlier latest h
  | both w first second => exact Before.earlier latest h
  | done r =>
    obtain ⟨w, first, second, howner, hfirst, hsecond, hutf8, hlast⟩ := h
    exact ⟨w, first, second, howner, hfirst, hsecond, hutf8, hlast.earlier latest⟩

theorem Discovery.Traced.ask {screen : Screen} {value : Nat → Advertisement}
    {past : List (Arena × ArenaMove)} {arena : Arena} {d : Discovery}
    (h : arena.discovery.Traced screen value past)
    (hsound : Sound screen value arena.server arena.stage) (move : ArenaMove)
    (hask : arena.discovery.ask screen arena.server = some d) :
    d.Traced screen value ((arena, move) :: past) := by
  cases hat : arena.discovery with
  | idle =>
    rw [hat] at hask
    obtain rfl := Option.some.inj hask
    exact Before.here move ⟨hsound, rfl⟩
  | owned w =>
    rw [hat] at hask h
    obtain rfl := Option.some.inj hask
    exact Before.here move ⟨hsound, rfl, h⟩
  | read w first =>
    rw [hat] at hask h
    obtain rfl := Option.some.inj hask
    exact Before.here move ⟨rfl, h⟩
  | both w first second =>
    rw [hat] at hask h
    obtain rfl := Option.some.inj hask
    exact ⟨w, first, second, rfl, rfl, rfl, rfl, Before.here move ⟨rfl, h⟩⟩
  | done r =>
    rw [hat] at hask
    cases hask

theorem Arena.step_discovery {screen : Screen} {value : Nat → Advertisement} {arena arena' : Arena}
    {move : ArenaMove} (h : arena.step screen value move = some arena') :
    arena'.discovery = arena.discovery ∨
      arena.discovery.ask screen arena.server = some arena'.discovery := by
  cases move <;> simp only [Arena.step] at h
  case discover =>
    split_ifs at h
    obtain ⟨d, hd, rfl⟩ := Option.map_eq_some_iff.mp h
    exact Or.inr hd
  case crash i => exact Or.inl (Option.some.inj h ▸ rfl)
  all_goals
    split at h
    · cases h
    · exact Or.inl (Option.some.inj h ▸ rfl)

theorem Arena.Runs.traced {screen : Screen} {value : Nat → Advertisement}
    {past : List (Arena × ArenaMove)} {arena : Arena} (run : Arena.Runs screen value past arena) :
    arena.discovery.Traced screen value past := by
  refine (run.history (I := fun past arena => Sound screen value arena.server arena.stage ∧
    arena.discovery.Traced screen value past) (fun arena hstart => ?_) ?_).2
  · refine ⟨Sound.start hstart, ?_⟩
    rw [hstart.discovery]
    trivial
  · intro past arena move arena' ⟨hsound, htraced⟩ _ hstep
    refine ⟨hsound.step hstep, ?_⟩
    rcases Arena.step_discovery hstep with hsame | hask
    · rw [hsame]
      exact htraced.earlier _
    · exact htraced.ask hsound move hask

end AgentSeat.X11
