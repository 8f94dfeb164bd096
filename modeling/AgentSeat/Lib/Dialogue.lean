/-
  Programs that talk to an environment they do not control.

  A program asks questions of type `Q` and gets answers of type `R q`. The environment is any
  function of everything said so far, so that a statement about all environments is one about every
  behaviour of the other side, adaptive ones included. The trace records each question with its
  answer and the marks the program leaves; programs only append to it.

  `Tells S A P m F` is the specification used throughout: from a state with `P`, a run of `m`
  appends entries that all satisfy `A`, moves the state along `S`, and ends with a result, the
  appended entries and a state that satisfy `F`. Because `F` sees the appended entries, a check is
  specified by the answers it saw, and the rule for `bind` hands these on to what follows.
  `Utters` and `Writes` are its two halves: the entries and the moves, the result and the entries.
-/
import AgentSeat.Lib.Prog
import Mathlib.Order.Defs.Unbundled

namespace AgentSeat.Lib

variable {Q M σ τ ε α β : Type} {R : Q → Type}

inductive Entry (R : Q → Type) (M : Type) : Type
  | said (question : Q) (answer : R question)
  | mark (m : M)

/-- The state of a program and everything said so far, oldest first. -/
structure Dialogue (R : Q → Type) (M σ : Type) where
  state : σ
  trace : List (Entry R M)

/-- The other side: an answer to every question, given what was said before. -/
abbrev Env (R : Q → Type) (M : Type) : Type := List (Entry R M) → (q : Q) → R q

/-- Not a mark. -/
def Entry.IsSaid : Entry R M → Prop
  | .said .. => True
  | .mark _ => False

/-- An element without a property stands behind all those that have it. -/
theorem split_past {A : α → Prop} {xs rest pre post : List α} {x : α} (h : ∀ y ∈ xs, A y)
    (hx : ¬ A x) (split : xs ++ rest = pre ++ x :: post) :
    ∃ pre', pre = xs ++ pre' ∧ rest = pre' ++ x :: post := by
  rcases List.append_eq_append_iff.mp split with ⟨mid, hpre, hrest⟩ | ⟨mid, hxs, hpost⟩
  · exact ⟨mid, hpre, hrest⟩
  · cases mid with
    | nil =>
      rw [List.append_nil] at hxs
      exact ⟨[], by rw [hxs, List.append_nil], hpost.symm⟩
    | cons y mid =>
      obtain ⟨rfl, -⟩ := List.cons.inj hpost
      exact (hx (h x (by simp [hxs]))).elim

/-- An element without a property stands before all those that have it. -/
theorem split_before {A : α → Prop} {xs rest pre post : List α} {x : α} (h : ∀ y ∈ rest, A y)
    (hx : ¬ A x) (split : xs ++ rest = pre ++ x :: post) : ∃ post', xs = pre ++ x :: post' := by
  rcases List.append_eq_append_iff.mp split with ⟨mid, hpre, hrest⟩ | ⟨mid, hxs, hpost⟩
  · exact (hx (h x (by simp [hrest]))).elim
  · cases mid with
    | nil => exact (hx (h x (by rw [← List.nil_append rest, ← hpost]; simp))).elim
    | cons y mid =>
      obtain ⟨rfl, -⟩ := List.cons.inj hpost
      exact ⟨mid, hxs⟩

/-- An element that is not the last one stands before it. -/
theorem split_last {xs pre post : List α} {x y : α} (hne : y ≠ x)
    (split : xs ++ [y] = pre ++ x :: post) : ∃ post', xs = pre ++ x :: post' := by
  rcases List.eq_nil_or_concat post with rfl | ⟨post', z, rfl⟩
  · exact (hne (List.singleton_inj.mp (List.append_inj_right' split rfl))).elim
  · rw [List.concat_eq_append, ← List.cons_append, ← List.append_assoc] at split
    exact ⟨post', List.append_inj_left' split rfl⟩

/-- A mark of a trace stands behind everything that was only said before it. -/
theorem Entry.split_said {said rest pre post : List (Entry R M)} {m : M}
    (h : ∀ e ∈ said, e.IsSaid) (split : said ++ rest = pre ++ .mark m :: post) :
    ∃ pre', pre = said ++ pre' ∧ rest = pre' ++ .mark m :: post :=
  split_past h id split

theorem Entry.ne_split {said pre post : List (Entry R M)} {m : M} (h : ∀ e ∈ said, e.IsSaid) :
    said ≠ pre ++ .mark m :: post := by
  intro split
  exact h (.mark m) (by simp [split])

namespace Dialogue

def ask (env : Env R M) (q : Q) : Prog (Dialogue R M σ) ε (R q) := fun w =>
  (.ok (env w.trace q), ⟨w.state, w.trace ++ [.said q (env w.trace q)]⟩)

/-- Leave a mark in the trace. -/
def write (m : M) : Prog (Dialogue R M σ) ε Unit :=
  Prog.update fun w => ⟨w.state, w.trace ++ [.mark m]⟩

/-- A program that only works on the state. -/
def within (m : Prog σ ε α) : Prog (Dialogue R M σ) ε α :=
  Prog.zoom Dialogue.state (fun s w => ⟨s, w.trace⟩) m

end Dialogue

/-- What every run of `m` appends, how it moves the state, and what holds when it is done. -/
def Tells (S : σ → σ → Prop) (A : Entry R M → Prop) (P : σ → Prop) (m : Prog (Dialogue R M σ) ε α)
    (F : Except ε α → List (Entry R M) → σ → Prop) : Prop :=
  ∀ w, P w.state → ∃ added, (m w).2.trace = w.trace ++ added ∧ (∀ e ∈ added, A e) ∧
    S w.state (m w).2.state ∧ F (m w).1 added (m w).2.state

namespace Tells

variable {S : σ → σ → Prop} [IsPreorder σ S] {A A' : Entry R M → Prop} {P P' : σ → Prop}
  {F F' : Except ε α → List (Entry R M) → σ → Prop}
  {G : Except ε β → List (Entry R M) → σ → Prop}

omit [IsPreorder σ S] in
theorem weaken {m : Prog (Dialogue R M σ) ε α} (h : Tells S A P m F) (hA : ∀ e, A e → A' e)
    (hP : ∀ s, P' s → P s) (hF : ∀ r added s, F r added s → F' r added s) :
    Tells S A' P' m F' := by
  intro w hw
  obtain ⟨added, htrace, ha, hs, hf⟩ := h w (hP _ hw)
  exact ⟨added, htrace, fun e he => hA e (ha e he), hs, hF _ _ _ hf⟩

omit [IsPreorder σ S] in
/-- A weaker postcondition. -/
theorem post {m : Prog (Dialogue R M σ) ε α} (h : Tells S A P m F)
    (hF : ∀ r added s, F r added s → F' r added s) : Tells S A P m F' :=
  h.weaken (fun _ => id) (fun _ => id) hF

theorem lift {r : Except ε α} (h : ∀ s, P s → F r [] s) :
    Tells S A P (Prog.lift r : Prog (Dialogue R M σ) ε α) F :=
  fun w hw => ⟨[], (List.append_nil _).symm, by simp, refl_of S _, h _ hw⟩

theorem pure {a : α} (h : ∀ s, P s → F (.ok a) [] s) :
    Tells S A P (Pure.pure a : Prog (Dialogue R M σ) ε α) F :=
  lift h

theorem fail {e : ε} (h : ∀ s, P s → F (.error e) [] s) :
    Tells S A P (Prog.fail e : Prog (Dialogue R M σ) ε α) F :=
  lift h

/-- Reading the state. -/
theorem read {f : σ → α} (h : ∀ s, P s → F (.ok (f s)) [] s) :
    Tells S A P (Prog.read fun w => f w.state : Prog (Dialogue R M σ) ε α) F :=
  fun w hw => ⟨[], (List.append_nil _).symm, by simp, refl_of S _, h _ hw⟩

theorem ask {env : Env R M} {q : Q} {F : Except ε (R q) → List (Entry R M) → σ → Prop}
    (hA : ∀ a, A (.said q a)) (h : ∀ a s, P s → F (.ok a) [.said q a] s) :
    Tells S A P (Dialogue.ask env q) F :=
  fun w hw => ⟨[.said q (env w.trace q)], rfl, by simpa using hA _, refl_of S _, h _ _ hw⟩

theorem write {m : M} {F : Except ε Unit → List (Entry R M) → σ → Prop} (hA : A (.mark m))
    (h : ∀ s, P s → F (.ok ()) [.mark m] s) : Tells S A P (Dialogue.write m) F :=
  fun w hw => ⟨[.mark m], rfl, by simpa using hA, refl_of S _, h _ hw⟩

omit [IsPreorder σ S] in
theorem within {m : Prog σ ε α} (hS : Prog.Keeps S m) (h : ∀ s, P s → F (m s).1 [] (m s).2) :
    Tells S A P (Dialogue.within m) F :=
  fun w hw => ⟨[], (List.append_nil _).symm, by simp, hS _, h _ hw⟩

theorem bind {m : Prog (Dialogue R M σ) ε α} {f : α → Prog (Dialogue R M σ) ε β}
    (hm : Tells S A P m F)
    (hf : ∀ a added, Tells S A (F (.ok a) added) (f a) fun r more s => G r (added ++ more) s)
    (herr : ∀ e added s, F (.error e) added s → G (.error e) added s) :
    Tells S A P (m >>= f) G := by
  intro w hw
  obtain ⟨added, htrace, ha, hs, hF⟩ := hm w hw
  rw [Prog.bind_run]
  rcases hr : m w with ⟨r, w₁⟩
  rw [hr] at htrace hs hF
  cases r with
  | error e => exact ⟨added, htrace, ha, hs, herr e added _ hF⟩
  | ok a =>
    obtain ⟨more, htrace', ha', hs', hG⟩ := hf a added w₁ hF
    refine ⟨added ++ more, ?_, ?_, trans_of S hs hs', hG⟩
    · dsimp only at htrace htrace' ⊢
      rw [htrace', htrace, List.append_assoc]
    · intro e he
      rcases List.mem_append.mp he with he | he
      · exact ha e he
      · exact ha' e he

omit [IsPreorder σ S] in
/-- A program whose failure the caller inspects. -/
theorem attempt {ε' : Type} {m : Prog (Dialogue R M σ) ε α}
    {G : Except ε' (Except ε α) → List (Entry R M) → σ → Prop} (hm : Tells S A P m F)
    (h : ∀ r added s, F r added s → G (.ok r) added s) : Tells S A P (Prog.attempt m) G := by
  intro w hw
  obtain ⟨added, htrace, ha, hs, hF⟩ := hm w hw
  exact ⟨added, htrace, ha, hs, h _ _ _ hF⟩

end Tells

/-! ## Programs of which only the entries and the moves matter -/

/-- Every run of `m` appends entries with `A` and moves the state along `S`. -/
def Utters (S : σ → σ → Prop) (A : Entry R M → Prop) (m : Prog (Dialogue R M σ) ε α) : Prop :=
  Tells S A (fun _ => True) m fun _ _ _ => True

namespace Utters

variable {S : σ → σ → Prop} [IsPreorder σ S] {A : Entry R M → Prop}

omit [IsPreorder σ S] in
theorem of_tells {P : σ → Prop} {m : Prog (Dialogue R M σ) ε α}
    {F : Except ε α → List (Entry R M) → σ → Prop} (h : Tells S A P m F) (hP : ∀ s, P s) :
    Utters S A m :=
  h.weaken (fun _ => id) (fun s _ => hP s) fun _ _ _ _ => trivial

theorem lift (r : Except ε α) : Utters S A (Prog.lift r : Prog (Dialogue R M σ) ε α) :=
  Tells.lift fun _ _ => trivial

theorem pure (a : α) : Utters S A (Pure.pure a : Prog (Dialogue R M σ) ε α) :=
  Tells.pure fun _ _ => trivial

theorem fail (e : ε) : Utters S A (Prog.fail e : Prog (Dialogue R M σ) ε α) :=
  Tells.fail fun _ _ => trivial

theorem read (f : σ → α) :
    Utters S A (Prog.read fun w => f w.state : Prog (Dialogue R M σ) ε α) :=
  Tells.read fun _ _ => trivial

theorem ask {env : Env R M} {q : Q} (hA : ∀ a, A (.said q a)) :
    Utters S A (Dialogue.ask env q : Prog (Dialogue R M σ) ε (R q)) :=
  Tells.ask hA fun _ _ _ => trivial

theorem write {m : M} (hA : A (.mark m)) :
    Utters S A (Dialogue.write m : Prog (Dialogue R M σ) ε Unit) :=
  Tells.write hA fun _ _ => trivial

omit [IsPreorder σ S] in
theorem within {m : Prog σ ε α} (hS : Prog.Keeps S m) :
    Utters S A (Dialogue.within m : Prog (Dialogue R M σ) ε α) :=
  Tells.within hS fun _ _ => trivial

theorem bind {m : Prog (Dialogue R M σ) ε α} {f : α → Prog (Dialogue R M σ) ε β}
    (hm : Utters S A m) (hf : ∀ a, Utters S A (f a)) : Utters S A (m >>= f) :=
  Tells.bind hm (fun a _ => hf a) fun _ _ _ _ => trivial

omit [IsPreorder σ S] in
theorem attempt {ε' : Type} {m : Prog (Dialogue R M σ) ε α} (hm : Utters S A m) :
    Utters S A (Prog.attempt m : Prog (Dialogue R M σ) ε' (Except ε α)) :=
  Tells.attempt hm fun _ _ _ _ => trivial

end Utters

/-! ## Programs of which only the result and the entries matter -/

/-- What every run of `m` appends, as long as `P` holds of the state; `P` holds afterwards too. -/
def Writes (P : σ → Prop) (m : Prog (Dialogue R M σ) ε α)
    (F : Except ε α → List (Entry R M) → Prop) : Prop :=
  ∀ w, P w.state → ∃ added, (m w).2.trace = w.trace ++ added ∧ P (m w).2.state ∧ F (m w).1 added

namespace Writes

variable {P : σ → Prop} {F F' : Except ε α → List (Entry R M) → Prop}
  {G : Except ε β → List (Entry R M) → Prop}

theorem post {m : Prog (Dialogue R M σ) ε α} (h : Writes P m F)
    (hF : ∀ r added, F r added → F' r added) : Writes P m F' := by
  intro w hw
  obtain ⟨added, htrace, hP, hf⟩ := h w hw
  exact ⟨added, htrace, hP, hF _ _ hf⟩

theorem of_tells {S : σ → σ → Prop} {A : Entry R M → Prop} {m : Prog (Dialogue R M σ) ε α}
    {T : Except ε α → List (Entry R M) → σ → Prop} (h : Tells S A (fun _ => True) m T)
    (hS : ∀ s s', S s s' → P s → P s')
    (hF : ∀ r added s, (∀ e ∈ added, A e) → T r added s → F r added) : Writes P m F := by
  intro w hw
  obtain ⟨added, htrace, ha, hmoves, hT⟩ := h w trivial
  exact ⟨added, htrace, hS _ _ hmoves hw, hF _ _ _ ha hT⟩

/-- Two specifications of one program speak about the same entries. -/
theorem and {m : Prog (Dialogue R M σ) ε α} (h : Writes P m F) (h' : Writes P m F') :
    Writes P m fun r added => F r added ∧ F' r added := by
  intro w hw
  obtain ⟨added, htrace, hP, hf⟩ := h w hw
  obtain ⟨added', htrace', -, hf'⟩ := h' w hw
  have hsame : added' = added := List.append_cancel_left (htrace'.symm.trans htrace)
  exact ⟨added, htrace, hP, hf, hsame ▸ hf'⟩

theorem lift {r : Except ε α} (h : F r []) :
    Writes P (Prog.lift r : Prog (Dialogue R M σ) ε α) F :=
  fun _ hw => ⟨[], (List.append_nil _).symm, hw, h⟩

theorem pure {a : α} (h : F (.ok a) []) :
    Writes P (Pure.pure a : Prog (Dialogue R M σ) ε α) F :=
  lift h

theorem fail {e : ε} (h : F (.error e) []) :
    Writes P (Prog.fail e : Prog (Dialogue R M σ) ε α) F :=
  lift h

theorem read {f : σ → α} (h : ∀ s, P s → F (.ok (f s)) []) :
    Writes P (Prog.read fun w => f w.state : Prog (Dialogue R M σ) ε α) F :=
  fun _ hw => ⟨[], (List.append_nil _).symm, hw, h _ hw⟩

theorem ask {env : Env R M} {q : Q} {F : Except ε (R q) → List (Entry R M) → Prop}
    (h : ∀ a, F (.ok a) [.said q a]) :
    Writes P (Dialogue.ask env q : Prog (Dialogue R M σ) ε (R q)) F :=
  fun _ hw => ⟨_, rfl, hw, h _⟩

theorem bind {m : Prog (Dialogue R M σ) ε α} {f : α → Prog (Dialogue R M σ) ε β}
    (hm : Writes P m F)
    (hf : ∀ a added, F (.ok a) added → Writes P (f a) fun r more => G r (added ++ more))
    (herr : ∀ e added, F (.error e) added → G (.error e) added) : Writes P (m >>= f) G := by
  intro w hw
  obtain ⟨added, htrace, hP, hF⟩ := hm w hw
  rw [Prog.bind_run]
  rcases hr : m w with ⟨r, w₁⟩
  rw [hr] at htrace hP hF
  cases r with
  | error e => exact ⟨added, htrace, hP, herr e added hF⟩
  | ok a =>
    obtain ⟨more, htrace', hP', hG⟩ := hf a added hF w₁ hP
    refine ⟨added ++ more, ?_, hP', hG⟩
    dsimp only at htrace htrace' ⊢
    rw [htrace', htrace, List.append_assoc]

/-- A program whose failure the caller inspects, and what the caller does then. -/
theorem attempt_bind {ε' : Type} {m : Prog (Dialogue R M σ) ε α}
    {f : Except ε α → Prog (Dialogue R M σ) ε' β} {G : Except ε' β → List (Entry R M) → Prop}
    (hm : Writes P m F)
    (hf : ∀ r added, F r added → Writes P (f r) fun r' more => G r' (added ++ more)) :
    Writes P (Prog.attempt m >>= f) G := by
  have hattempt : Writes P (Prog.attempt m : Prog (Dialogue R M σ) ε' (Except ε α))
      fun r added => ∃ inner, r = .ok inner ∧ F inner added := by
    intro w hw
    obtain ⟨added, htrace, hP, hF⟩ := hm w hw
    exact ⟨added, htrace, hP, _, rfl, hF⟩
  refine bind hattempt (fun r added h => ?_) fun e added h => by simp at h
  obtain ⟨inner, heq, hF⟩ := h
  obtain rfl := Except.ok.inj heq
  exact hf r added hF

end Writes

/-! ## Programs from one state -/

/-- What every run of `m` from the state `s` returns and appends, and the state it ends in. -/
def Does (s : σ) (m : Prog (Dialogue R M σ) ε α)
    (F : Except ε α → List (Entry R M) → σ → Prop) : Prop :=
  ∀ trace, ∃ added, (m ⟨s, trace⟩).2.trace = trace ++ added ∧
    F (m ⟨s, trace⟩).1 added (m ⟨s, trace⟩).2.state

namespace Does

variable {s : σ} {F K : Except ε α → List (Entry R M) → σ → Prop}
  {G : Except ε β → List (Entry R M) → σ → Prop}

theorem post {m : Prog (Dialogue R M σ) ε α} (h : Does s m F)
    (hF : ∀ r added s', F r added s' → K r added s') : Does s m K := by
  intro trace
  obtain ⟨added, htrace, hf⟩ := h trace
  exact ⟨added, htrace, hF _ _ _ hf⟩

theorem lift {r : Except ε α} (h : F r [] s) :
    Does s (Prog.lift r : Prog (Dialogue R M σ) ε α) F :=
  fun _ => ⟨[], (List.append_nil _).symm, h⟩

theorem pure {a : α} (h : F (.ok a) [] s) :
    Does s (Pure.pure a : Prog (Dialogue R M σ) ε α) F :=
  lift h

theorem fail {e : ε} (h : F (.error e) [] s) :
    Does s (Prog.fail e : Prog (Dialogue R M σ) ε α) F :=
  lift h

theorem read {f : σ → α} (h : F (.ok (f s)) [] s) :
    Does s (Prog.read fun w => f w.state : Prog (Dialogue R M σ) ε α) F :=
  fun _ => ⟨[], (List.append_nil _).symm, h⟩

theorem update {f : σ → σ} {F : Except ε Unit → List (Entry R M) → σ → Prop}
    (h : F (.ok ()) [] (f s)) :
    Does s (Prog.update fun w => ⟨f w.state, w.trace⟩ : Prog (Dialogue R M σ) ε Unit) F :=
  fun _ => ⟨[], (List.append_nil _).symm, h⟩

theorem ask {env : Env R M} {q : Q} {F : Except ε (R q) → List (Entry R M) → σ → Prop}
    (h : ∀ a, F (.ok a) [.said q a] s) :
    Does s (Dialogue.ask env q : Prog (Dialogue R M σ) ε (R q)) F :=
  fun _ => ⟨_, rfl, h _⟩

theorem write {m : M} {F : Except ε Unit → List (Entry R M) → σ → Prop}
    (h : F (.ok ()) [.mark m] s) :
    Does s (Dialogue.write m : Prog (Dialogue R M σ) ε Unit) F :=
  fun _ => ⟨_, rfl, h⟩

theorem bind {m : Prog (Dialogue R M σ) ε α} {f : α → Prog (Dialogue R M σ) ε β}
    (hm : Does s m F)
    (hf : ∀ a added s', F (.ok a) added s' → Does s' (f a) fun r more => G r (added ++ more))
    (herr : ∀ e added s', F (.error e) added s' → G (.error e) added s') : Does s (m >>= f) G := by
  intro trace
  obtain ⟨added, htrace, hF⟩ := hm trace
  rw [Prog.bind_run]
  rcases hr : m ⟨s, trace⟩ with ⟨r, s₁, trace₁⟩
  rw [hr] at htrace hF
  dsimp only at htrace hF
  subst htrace
  cases r with
  | error e => exact ⟨added, rfl, herr e added _ hF⟩
  | ok a =>
    obtain ⟨more, htrace', hG⟩ := hf a added s₁ hF (trace ++ added)
    refine ⟨added ++ more, ?_, hG⟩
    dsimp only at htrace' ⊢
    rw [htrace', List.append_assoc]

/-! What follows a step that only computes, reads or writes the state, or leaves a mark. -/

theorem lift_bind {r : Except ε α} {f : α → Prog (Dialogue R M σ) ε β}
    (hok : ∀ a, r = .ok a → Does s (f a) G) (herr : ∀ e, r = .error e → G (.error e) [] s) :
    Does s (Prog.lift r >>= f) G := by
  cases r with
  | ok a => exact hok a rfl
  | error e => exact Does.fail (herr e rfl)

theorem read_bind {g : σ → α} {f : α → Prog (Dialogue R M σ) ε β} (h : Does s (f (g s)) G) :
    Does s ((Prog.read fun w => g w.state) >>= f) G := h

theorem update_bind {g : σ → σ} {f : Unit → Prog (Dialogue R M σ) ε β} (h : Does (g s) (f ()) G) :
    Does s ((Prog.update fun w => ⟨g w.state, w.trace⟩) >>= f) G := h

theorem write_bind {m : M} {f : Unit → Prog (Dialogue R M σ) ε β}
    (h : Does s (f ()) fun r more => G r (.mark m :: more)) :
    Does s (Dialogue.write m >>= f) G :=
  Does.bind (F := fun r added s' => r = .ok () ∧ added = [.mark m] ∧ s' = s)
    (Does.write ⟨rfl, rfl, rfl⟩) (fun _ _ _ ⟨_, hadded, hs⟩ => by rw [hadded, hs]; exact h)
    fun _ _ _ hF => absurd hF.1 (by simp)

/-- A program whose failure the caller inspects. -/
theorem attempt {ε' : Type} {m : Prog (Dialogue R M σ) ε α}
    {G : Except ε' (Except ε α) → List (Entry R M) → σ → Prop} (hm : Does s m F)
    (h : ∀ r added s', F r added s' → G (.ok r) added s') : Does s (Prog.attempt m) G := by
  intro trace
  obtain ⟨added, htrace, hF⟩ := hm trace
  exact ⟨added, htrace, h _ _ _ hF⟩

/-- A program that cannot fail, among programs that can. -/
theorem total {m : Prog (Dialogue R M σ) Empty α}
    {F : Except Empty α → List (Entry R M) → σ → Prop} (hm : Does s m F)
    (h : ∀ a added s', F (.ok a) added s' → K (.ok a) added s') :
    Does s (Prog.total m : Prog (Dialogue R M σ) ε α) K := by
  intro trace
  obtain ⟨added, htrace, hF⟩ := hm trace
  refine ⟨added, htrace, ?_⟩
  unfold Prog.total
  cases hr : (m ⟨s, trace⟩).1 with
  | error e => exact e.elim
  | ok a =>
    rw [hr] at hF
    exact h a added _ hF

end Does

end AgentSeat.Lib
