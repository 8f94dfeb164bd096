/-
  What one scan of the X server reads, and the bounded property readers over it.

  A `Desktop` is the family of replies one scan receives. A scan asks each question at most
  once, so a pass that overlaps with changes made by other clients is one `Desktop` as well:
  the family of the values at the moments they were read.
-/
import AgentSeat.Lib.Prog
import AgentSeat.Proto.Message

namespace AgentSeat.X11

open AgentSeat.Proto

/-! ## Failures of an observer call -/

structure Failure where
  code : ErrorCode
  retry : Retry
  message : String
  currentGeneration : Option Nat
  currentSequence : Option Nat
  deriving DecidableEq

namespace Failure

def unavailable (message : String) : Failure := ⟨.unavailable, .reconnect, message, none, none⟩
def unsupported (message : String) : Failure := ⟨.unsupported, .never, message, none, none⟩
def invalid (message : String) : Failure := ⟨.invalidArgument, .never, message, none, none⟩
def malformed (message : String) : Failure := ⟨.malformed, .reobserve, message, none, none⟩
def tooLarge (message : String) : Failure := ⟨.tooLarge, .never, message, none, none⟩
def internal (message : String) : Failure := ⟨.internal, .never, message, none, none⟩

def resync (sequence : Nat) : Failure :=
  ⟨.resyncRequired, .reobserve, "event cursor is outside the retained observation history",
    none, some sequence⟩

end Failure

/-! ## Replies -/

abbrev Window := Nat
abbrev Atom := Nat

/-- `x11rb::NONE`. -/
def none32 : Nat := 0

/-- The request could not be sent, or the server answered it with an error. -/
inductive XFault where
  | send | reply
  deriving DecidableEq

/-- Both ways a request fails end in an `unavailable` failure, each with its own text. -/
def checked {α : Type} (onSend onReply : String) : Except XFault α → Except Failure α
  | .ok a => .ok a
  | .error .send => .error (Failure.unavailable onSend)
  | .error .reply => .error (Failure.unavailable onReply)

/-- A `GetProperty` reply: `value32` is the payload as 32-bit items, absent for another format. -/
structure PropertyReply where
  type : Atom
  format : Nat
  bytesAfter : Nat
  value : List UInt8
  value32 : Option (List Nat)

structure Geometry where
  width : Nat
  height : Nat

/-- The replies one scan receives; `getProperty` is asked for a window, a property, a type and
    the number of 32-bit units it may return. -/
structure Desktop where
  getProperty : Window → Atom → Atom → Nat → Except XFault PropertyReply
  getGeometry : Window → Except XFault Geometry
  translateCoordinates : Window → Window → Int → Int → Except XFault (Int × Int)

/-- `AtomEnum::ATOM`, `AtomEnum::CARDINAL` and `AtomEnum::WINDOW`. -/
def atomType : Atom := 4
def cardinalType : Atom := 6
def windowType : Atom := 33

/-- The atoms interned when the observer connects. -/
structure Atoms where
  supported : Atom
  clientList : Atom
  clientListStacking : Atom
  numberOfDesktops : Atom
  currentDesktop : Atom
  desktopNames : Atom
  activeWindow : Atom
  workarea : Atom
  supportingWmCheck : Atom
  wmVisibleName : Atom
  wmName : Atom
  wmDesktop : Atom
  wmState : Atom
  wmAllowedActions : Atom
  frameExtents : Atom
  moveresizeWindow : Atom
  closeWindow : Atom
  wmProtocols : Atom
  wmDeleteWindow : Atom
  clientLeader : Atom
  startupId : Atom
  utf8 : Atom
  clipboard : Atom
  targets : Atom
  textPlainUtf8 : Atom
  textPlain : Atom
  stateAbove : Atom
  stateBelow : Atom
  stateFullscreen : Atom
  stateHidden : Atom
  stateMaximizedHorz : Atom
  stateMaximizedVert : Atom
  stateDemandsAttention : Atom
  stateSticky : Atom
  stateShaded : Atom
  actionAbove : Atom
  actionBelow : Atom
  actionFullscreen : Atom
  actionMaximizeHorz : Atom
  actionMaximizeVert : Atom
  actionShade : Atom
  actionStick : Atom
  actionClose : Atom
  actionChangeDesktop : Atom
  actionMove : Atom
  actionResize : Atom

/-! ## Property readers -/

/-- `u32::MAX`, the EWMH mark of a client on every workspace. -/
def u32Max : Nat := 2 ^ 32 - 1

/-- `u16::MAX`. -/
def u16Max : Nat := 2 ^ 16 - 1

/-- The early return of a failure when a check does not hold. -/
def refuseIf {ε : Type} (bad : Prop) [Decidable bad] (failure : ε) : Except ε Unit :=
  if bad then .error failure else .ok ()

/-- Any 32-bit item list of at most `maxItems` items; an absent property is `none`. -/
def property32 (d : Desktop) (window : Window) (property expectedType : Atom) (maxItems : Nat) :
    Except Failure (Option (List Nat)) := do
  refuseIf (maxItems > u32Max) (Failure.internal "property item bound cannot be represented")
  let reply ← checked "cannot request an X11 property" "cannot read an X11 property"
    (d.getProperty window property expectedType maxItems)
  if reply.type = none32 then
    pure none
  else do
    refuseIf (reply.type ≠ expectedType ∨ reply.format ≠ 32)
      (Failure.malformed "an EWMH property has the wrong type or format")
    refuseIf (reply.bytesAfter ≠ 0) (Failure.tooLarge "an EWMH property exceeds its public bound")
    match reply.value32 with
    | none => .error (Failure.malformed "an EWMH property is not 32-bit")
    | some values => do
      refuseIf (values.length > maxItems)
        (Failure.tooLarge "an EWMH property exceeds its public bound")
      pure (some values)

/-- A byte string of at most `maxBytes` bytes; an absent property is `none`. -/
def propertyBytes (d : Desktop) (window : Window) (property expectedType : Atom)
    (maxBytes : Nat) : Except Failure (Option (List UInt8)) := do
  let longs := (maxBytes + 3) / 4
  refuseIf (longs > u32Max) (Failure.internal "property byte bound cannot be represented")
  let reply ← checked "cannot request an X11 text property" "cannot read an X11 text property"
    (d.getProperty window property expectedType longs)
  if reply.type = none32 then
    pure none
  else do
    refuseIf (reply.type ≠ expectedType ∨ reply.format ≠ 8)
      (Failure.malformed "an EWMH text property has the wrong type or format")
    refuseIf (reply.bytesAfter ≠ 0 ∨ reply.value.length > maxBytes)
      (Failure.tooLarge "an EWMH text property exceeds its public bound")
    pure (some reply.value)

/-- `.ok().flatten()` on a property read. -/
def readable {α : Type} : Except Failure (Option α) → Option α
  | .ok value => value
  | .error _ => none

def optionalCardinal (d : Desktop) (window : Window) (property : Atom) : Option Nat :=
  match readable (property32 d window property cardinalType 1) with
  | some [value] => some value
  | _ => none

def requiredCardinal (d : Desktop) (window : Window) (property : Atom) : Except Failure Nat :=
  match optionalCardinal d window property with
  | some value => .ok value
  | none => .error (Failure.unsupported "required EWMH workspace property is unavailable")

def optionalWindow (d : Desktop) (window : Window) (property : Atom) : Option Window :=
  match readable (property32 d window property windowType 1) with
  | some [value] => if value ≠ none32 then some value else none
  | _ => none

/-! ## Inverting a successful read -/

theorem except_bind_congr {ε α β : Type} {x : Except ε α} {f g : α → Except ε β}
    (h : ∀ a, x = .ok a → f a = g a) : (x >>= f) = (x >>= g) := by
  cases x with
  | error e => rfl
  | ok a => exact h a rfl

theorem refuseIf_ok {ε : Type} {bad : Prop} [Decidable bad] {failure : ε} {u : Unit}
    (h : refuseIf bad failure = .ok u) : ¬ bad := by
  unfold refuseIf at h
  split at h
  · simp at h
  · assumption

theorem ok_bind {ε α β : Type} (a : α) (f : α → Except ε β) : (Except.ok a >>= f) = f a := rfl

theorem refuseIf_neg {ε α : Type} {bad : Prop} [Decidable bad] {failure : ε} (h : ¬ bad)
    (f : Unit → Except ε α) : (refuseIf bad failure >>= f) = f () := by
  unfold refuseIf
  rw [if_neg h]
  rfl

theorem refuseIf_pos {ε α : Type} {bad : Prop} [Decidable bad] {failure : ε} (h : bad)
    (f : Unit → Except ε α) : (refuseIf bad failure >>= f) = .error failure := by
  unfold refuseIf
  rw [if_pos h]
  rfl

theorem except_bind_error {ε α β : Type} {x : Except ε α} {f : α → Except ε β} {e : ε}
    (h : (x >>= f) = .error e) : x = .error e ∨ ∃ a, x = .ok a ∧ f a = .error e := by
  cases x with
  | error e' => exact .inl (congrArg Except.error (Except.error.inj h))
  | ok a => exact .inr ⟨a, rfl, h⟩

theorem refuseIf_error {ε : Type} {bad : Prop} [Decidable bad] {failure e : ε}
    (h : refuseIf bad failure = .error e) : e = failure := by
  unfold refuseIf at h
  split at h
  · exact (Except.error.inj h).symm
  · simp at h

theorem checked_error {α : Type} {onSend onReply : String} {answer : Except XFault α} {f : Failure}
    (h : checked onSend onReply answer = .error f) : f.code = .unavailable := by
  cases answer with
  | ok a => simp [checked] at h
  | error fault => cases fault <;> (rw [← Except.error.inj h]; rfl)

/-- How reading an item list fails. -/
theorem property32_error {d : Desktop} {window : Window} {property expectedType : Atom}
    {maxItems : Nat} {f : Failure} (h : property32 d window property expectedType maxItems = .error f) :
    f.code = .internal ∨ f.code = .unavailable ∨ f.code = .malformed ∨ f.code = .tooLarge := by
  unfold property32 at h
  rcases except_bind_error h with h | ⟨-, -, h⟩
  · exact .inl (by rw [refuseIf_error h]; rfl)
  rcases except_bind_error h with h | ⟨reply, -, h⟩
  · exact .inr (.inl (checked_error h))
  split at h
  · simp [pure, Except.pure] at h
  rcases except_bind_error h with h | ⟨-, -, h⟩
  · exact .inr (.inr (.inl (by rw [refuseIf_error h]; rfl)))
  rcases except_bind_error h with h | ⟨-, -, h⟩
  · exact .inr (.inr (.inr (by rw [refuseIf_error h]; rfl)))
  cases hv : reply.value32 with
  | none =>
    simp only [hv] at h
    exact .inr (.inr (.inl (by rw [← Except.error.inj h]; rfl)))
  | some values =>
    simp only [hv] at h
    rcases except_bind_error h with h | ⟨-, -, h⟩
    · exact .inr (.inr (.inr (by rw [refuseIf_error h]; rfl)))
    · simp [pure, Except.pure] at h

/-- An item list is no longer than the bound it was read with. -/
theorem property32_length {d : Desktop} {window : Window} {property expectedType : Atom}
    {maxItems : Nat} {values : List Nat}
    (h : property32 d window property expectedType maxItems = .ok (some values)) :
    values.length ≤ maxItems := by
  unfold property32 at h
  obtain ⟨-, -, h⟩ := Lib.except_bind_ok h
  obtain ⟨reply, -, h⟩ := Lib.except_bind_ok h
  split at h
  · simp [pure, Except.pure] at h
  · obtain ⟨-, -, h⟩ := Lib.except_bind_ok h
    obtain ⟨-, -, h⟩ := Lib.except_bind_ok h
    cases hv : reply.value32 with
    | none => simp [hv] at h
    | some read =>
      simp only [hv] at h
      obtain ⟨_, hlen, h⟩ := Lib.except_bind_ok h
      simp only [pure, Except.pure, Except.ok.injEq, Option.some.injEq] at h
      have := refuseIf_ok hlen
      rw [← h]
      omega

end AgentSeat.X11
