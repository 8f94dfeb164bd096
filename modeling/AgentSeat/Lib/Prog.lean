/-
  Programs that pass a state along and may stop early with a failure. A failure keeps the
  state it was raised in, as a method with `&mut self` does when `?` returns from its middle.

  Two rules carry most proofs over such programs. `Keeps R m` says that every run of `m` moves
  the state along the relation `R`; it composes over `bind` for any preorder `R`. `Triple P m Q`
  is the Hoare triple whose postcondition sees the result, success or failure.
-/
import Mathlib.Logic.Relation

namespace AgentSeat.Lib

/-- A computation without a state that succeeded, did so in both halves. -/
theorem except_bind_ok {ε α β : Type} {x : Except ε α} {f : α → Except ε β} {b : β}
    (h : (x >>= f) = .ok b) : ∃ a, x = .ok a ∧ f a = .ok b := by
  cases x with
  | error e => simp [bind, Except.bind] at h
  | ok a => exact ⟨a, rfl, h⟩

/-- A program over the state `σ` that returns `α` or fails with `ε`. -/
def Prog (σ ε α : Type) : Type := σ → Except ε α × σ

namespace Prog

variable {σ τ ε α β : Type}

instance : Monad (Prog σ ε) where
  pure a := fun s => (.ok a, s)
  bind m f := fun s =>
    match m s with
    | (.ok a, s') => f a s'
    | (.error e, s') => (.error e, s')

/-- Stop with a failure; the state stays. -/
def fail (e : ε) : Prog σ ε α := fun s => (.error e, s)

/-- Read a component of the state. -/
def read (f : σ → α) : Prog σ ε α := fun s => (.ok (f s), s)

/-- Replace the state. -/
def update (f : σ → σ) : Prog σ ε Unit := fun s => (.ok (), f s)

/-- A result computed without the state. -/
def lift (r : Except ε α) : Prog σ ε α := fun s => (r, s)

/-- Run a program only if the condition holds. -/
def onlyIf (c : Bool) (m : Prog σ ε Unit) : Prog σ ε Unit := if c then m else pure ()

/-- Run a program and hand its result over as a value: the caller decides about a failure. -/
def attempt {ε' : Type} (m : Prog σ ε α) : Prog σ ε' (Except ε α) :=
  fun s => (.ok (m s).1, (m s).2)

/-- A program that cannot fail, among programs that can. -/
def total (m : Prog σ Empty α) : Prog σ ε α :=
  fun s => ((m s).1.mapError Empty.elim, (m s).2)

/-- Run a program on one component of a larger state. -/
def zoom (view : τ → σ) (put : σ → τ → τ) (m : Prog σ ε α) : Prog τ ε α :=
  fun t => ((m (view t)).1, put (m (view t)).2 t)

theorem pure_run (a : α) (s : σ) : (pure a : Prog σ ε α) s = (.ok a, s) := rfl

theorem bind_run (m : Prog σ ε α) (f : α → Prog σ ε β) (s : σ) :
    (m >>= f) s = match m s with
      | (.ok a, s') => f a s'
      | (.error e, s') => (.error e, s') := rfl

theorem bind_ok {m : Prog σ ε α} {f : α → Prog σ ε β} {s s' : σ} {a : α}
    (h : m s = (.ok a, s')) : (m >>= f) s = f a s' := by
  rw [bind_run, h]

theorem bind_error {m : Prog σ ε α} {f : α → Prog σ ε β} {s s' : σ} {e : ε}
    (h : m s = (.error e, s')) : (m >>= f) s = (.error e, s') := by
  rw [bind_run, h]

theorem attempt_bind {ε' : Type} {m : Prog σ ε α} {f : Except ε α → Prog σ ε' β} {s s' : σ}
    {r : Except ε α} (h : m s = (r, s')) : (attempt m >>= f) s = f r s' := by
  have hrun : (attempt m : Prog σ ε' (Except ε α)) s = (.ok r, s') := by
    unfold attempt
    rw [h]
  exact bind_ok hrun

theorem read_bind (f : σ → α) (g : α → Prog σ ε β) (s : σ) :
    (read f >>= g) s = g (f s) s := rfl

theorem update_bind (f : σ → σ) (g : Unit → Prog σ ε β) (s : σ) :
    (update f >>= g) s = g () (f s) := rfl

theorem lift_ok_bind (a : α) (g : α → Prog σ ε β) (s : σ) :
    (lift (.ok a) >>= g) s = g a s := rfl

theorem lift_error_bind (e : ε) (g : α → Prog σ ε β) (s : σ) :
    (lift (.error e) >>= g) s = (.error e, s) := rfl

/-- A successful `bind` is two successful runs, one after the other. -/
theorem of_bind_ok {m : Prog σ ε α} {f : α → Prog σ ε β} {s s' : σ} {b : β}
    (h : (m >>= f) s = (.ok b, s')) :
    ∃ a s₁, m s = (.ok a, s₁) ∧ f a s₁ = (.ok b, s') := by
  rw [bind_run] at h
  rcases hm : m s with ⟨r, s₁⟩
  rw [hm] at h
  cases r with
  | ok a => exact ⟨a, s₁, rfl, h⟩
  | error e => simp at h

/-- A failing `bind` failed in its first or in its second part. -/
theorem of_bind_error {m : Prog σ ε α} {f : α → Prog σ ε β} {s s' : σ} {e : ε}
    (h : (m >>= f) s = (.error e, s')) :
    m s = (.error e, s') ∨ ∃ a s₁, m s = (.ok a, s₁) ∧ f a s₁ = (.error e, s') := by
  rw [bind_run] at h
  rcases hm : m s with ⟨r, s₁⟩
  rw [hm] at h
  cases r with
  | ok a => exact .inr ⟨a, s₁, rfl, h⟩
  | error e' =>
    simp only [Prod.mk.injEq, Except.error.injEq] at h
    exact .inl (by rw [h.1, h.2])

/-- Two continuations that agree on what the first part can return. -/
theorem bind_congr {m : Prog σ ε α} {f g : α → Prog σ ε β} {s : σ}
    (h : ∀ a s', m s = (.ok a, s') → f a s' = g a s') : (m >>= f) s = (m >>= g) s := by
  rw [bind_run, bind_run]
  rcases hm : m s with ⟨r, s'⟩
  cases r with
  | ok a => exact h a s' hm
  | error e => rfl

/-! ## Programs that move the state along a relation -/

/-- Every run of `m`, successful or not, relates the state before to the state after. -/
def Keeps (R : σ → σ → Prop) (m : Prog σ ε α) : Prop := ∀ s, R s (m s).2

section Keeps

variable {R : σ → σ → Prop}

theorem Keeps.pure (refl : ∀ s, R s s) (a : α) : Keeps R (Pure.pure a : Prog σ ε α) :=
  fun s => refl s

theorem Keeps.fail (refl : ∀ s, R s s) (e : ε) : Keeps R (Prog.fail e : Prog σ ε α) :=
  fun s => refl s

theorem Keeps.read (refl : ∀ s, R s s) (f : σ → α) : Keeps R (Prog.read f : Prog σ ε α) :=
  fun s => refl s

theorem Keeps.lift (refl : ∀ s, R s s) (r : Except ε α) : Keeps R (Prog.lift r : Prog σ ε α) :=
  fun s => refl s

theorem Keeps.update {f : σ → σ} (h : ∀ s, R s (f s)) : Keeps R (Prog.update f : Prog σ ε Unit) :=
  h

theorem Keeps.bind (trans : ∀ a b c, R a b → R b c → R a c) {m : Prog σ ε α}
    {f : α → Prog σ ε β} (hm : Keeps R m) (hf : ∀ a, Keeps R (f a)) : Keeps R (m >>= f) := by
  intro s
  have h₁ := hm s
  rw [bind_run]
  rcases h : m s with ⟨r, s₁⟩
  rw [h] at h₁
  cases r with
  | ok a => exact trans _ _ _ h₁ (hf a s₁)
  | error e => exact h₁

theorem Keeps.onlyIf (refl : ∀ s, R s s) {m : Prog σ ε Unit} (hm : Keeps R m) (c : Bool) :
    Keeps R (Prog.onlyIf c m) := by
  unfold Prog.onlyIf
  split
  · exact hm
  · exact Keeps.pure refl ()

theorem Keeps.attempt {ε' : Type} {m : Prog σ ε α} (hm : Keeps R m) :
    Keeps R (Prog.attempt m : Prog σ ε' (Except ε α)) :=
  fun s => hm s

end Keeps

/-! ## Hoare triples -/

/-- From every state with `P`, the result and the state after `m` satisfy `Q`. -/
def Triple (P : σ → Prop) (m : Prog σ ε α) (Q : Except ε α → σ → Prop) : Prop :=
  ∀ s, P s → Q (m s).1 (m s).2

section Triple

variable {P P' : σ → Prop} {Q Q' : Except ε α → σ → Prop} {S : Except ε β → σ → Prop}

theorem Triple.weaken {m : Prog σ ε α} (h : Triple P m Q) (hP : ∀ s, P' s → P s)
    (hQ : ∀ r s, Q r s → Q' r s) : Triple P' m Q' :=
  fun s hs => hQ _ _ (h s (hP s hs))

theorem Triple.pure {a : α} (h : ∀ s, P s → Q (.ok a) s) :
    Triple P (Pure.pure a : Prog σ ε α) Q := h

theorem Triple.fail {e : ε} (h : ∀ s, P s → Q (.error e) s) :
    Triple P (Prog.fail e : Prog σ ε α) Q := h

theorem Triple.bind {m : Prog σ ε α} {f : α → Prog σ ε β} (hm : Triple P m Q)
    (hok : ∀ a, Triple (Q (.ok a)) (f a) S) (herr : ∀ e s, Q (.error e) s → S (.error e) s) :
    Triple P (m >>= f) S := by
  intro s hs
  have h₁ := hm s hs
  rw [bind_run]
  rcases h : m s with ⟨r, s₁⟩
  rw [h] at h₁
  cases r with
  | ok a => exact hok a s₁ h₁
  | error e => exact herr e s₁ h₁

/-- The rule for a step whose failure and success both keep an invariant `I`. -/
theorem Triple.bind_inv {I : σ → Prop} {m : Prog σ ε α} {f : α → Prog σ ε β}
    (hm : Triple I m fun _ => I) (hf : ∀ a, Triple I (f a) fun _ => I) :
    Triple I (m >>= f) fun _ => I :=
  hm.bind hf fun _ _ h => h

end Triple

/-! ## Failures -/

/-- Every failure of `m` satisfies `P`. -/
def Throws (P : ε → Prop) (m : Prog σ ε α) : Prop := ∀ s e, (m s).1 = .error e → P e

section Throws

variable {P : ε → Prop}

theorem Throws.pure (a : α) : Throws P (Pure.pure a : Prog σ ε α) :=
  fun _ _ h => absurd h nofun

theorem Throws.fail {e : ε} (h : P e) : Throws P (Prog.fail e : Prog σ ε α) :=
  fun _ _ he => Except.error.inj he ▸ h

theorem Throws.read (f : σ → α) : Throws P (Prog.read f : Prog σ ε α) :=
  fun _ _ h => absurd h nofun

theorem Throws.lift {r : Except ε α} (h : ∀ e, r = .error e → P e) :
    Throws P (Prog.lift r : Prog σ ε α) :=
  fun _ e he => h e he

theorem Throws.bind {m : Prog σ ε α} {f : α → Prog σ ε β} (hm : Throws P m)
    (hf : ∀ a, Throws P (f a)) : Throws P (m >>= f) := by
  intro s e h
  rw [bind_run] at h
  rcases hr : m s with ⟨r, s'⟩
  rw [hr] at h
  cases r with
  | ok a => exact hf a s' e h
  | error e' =>
    obtain rfl := Except.error.inj h
    exact hm s e' (by rw [hr])

/-- What is attempted hands its failure on as a value that satisfies `P`. -/
theorem Throws.attempt_bind {m : Prog σ ε α} {f : Except ε α → Prog σ ε β} (hm : Throws P m)
    (hf : ∀ r, (∀ e, r = .error e → P e) → Throws P (f r)) : Throws P (Prog.attempt m >>= f) :=
  fun s e h => hf (m s).1 (fun e' he' => hm s e' he') (m s).2 e h

theorem Throws.onlyIf {m : Prog σ ε Unit} (hm : Throws P m) (c : Bool) :
    Throws P (Prog.onlyIf c m) := by
  unfold Prog.onlyIf
  split
  · exact hm
  · exact Throws.pure ()

end Throws

end Prog

end AgentSeat.Lib
