/-
  Monitors: one-pass watchers of a trace.

  A monitor keeps a state of its own, moves it with every entry, and says which entries it allows
  in which state. A trace passes if each of its entries is allowed where it stands.
  `Watched M P m Q` is a Hoare triple over the states of the monitor: from a state with `P`, what a
  run of `m` appends passes, and the state after it satisfies `Q`. Entries a monitor ignores
  (`Ignores`) are dealt with by the class of entries a program utters.
-/
import AgentSeat.Lib.Dialogue

namespace AgentSeat.Lib

structure Monitor (E μ : Type) where
  step : μ → E → μ
  allows : μ → E → Prop

namespace Monitor

variable {E μ : Type} (M : Monitor E μ)

/-- The state after a trace. -/
def after (s : μ) (trace : List E) : μ := trace.foldl M.step s

def Passes : μ → List E → Prop
  | _, [] => True
  | s, e :: rest => M.allows s e ∧ Passes (M.step s e) rest

/-- The entry is always allowed and never moves the state. -/
def Ignores (e : E) : Prop := ∀ s, M.allows s e ∧ M.step s e = s

@[simp]
theorem after_nil (s : μ) : M.after s [] = s := rfl

@[simp]
theorem after_cons (s : μ) (e : E) (rest : List E) :
    M.after s (e :: rest) = M.after (M.step s e) rest := rfl

theorem after_append (s : μ) (trace more : List E) :
    M.after s (trace ++ more) = M.after (M.after s trace) more := List.foldl_append

theorem passes_append {s : μ} {trace more : List E} :
    M.Passes s (trace ++ more) ↔ M.Passes s trace ∧ M.Passes (M.after s trace) more := by
  induction trace generalizing s with
  | nil => simp [Passes]
  | cons e rest ih =>
    simp only [List.cons_append, Passes, after_cons, ih]
    exact and_assoc.symm

/-- Each entry of a trace that passes is allowed where it stands. -/
theorem passes_split {s : μ} {pre post : List E} {e : E} (h : M.Passes s (pre ++ e :: post)) :
    M.allows (M.after s pre) e :=
  (M.passes_append.mp h).2.1

theorem passes_ignored {s : μ} {trace : List E} (h : ∀ e ∈ trace, M.Ignores e) :
    M.Passes s trace ∧ M.after s trace = s := by
  induction trace with
  | nil => exact ⟨trivial, rfl⟩
  | cons e rest ih =>
    obtain ⟨hallows, hstep⟩ := h e (List.mem_cons_self ..) s
    obtain ⟨hpasses, hafter⟩ := ih fun e' he' => h e' (List.mem_cons_of_mem _ he')
    rw [after_cons, Passes, hstep]
    exact ⟨⟨hallows, hpasses⟩, hafter⟩

end Monitor

variable {Q K σ ε α β μ : Type} {R : Q → Type}

/-- From a state of the monitor with `P`, what a run of `m` appends passes, and leads to one with
    `F`. -/
def Watched (M : Monitor (Entry R K) μ) (P : μ → Prop) (m : Prog (Dialogue R K σ) ε α)
    (F : Except ε α → μ → Prop) : Prop :=
  ∀ w s, P s → ∃ added, (m w).2.trace = w.trace ++ added ∧ M.Passes s added ∧
    F (m w).1 (M.after s added)

namespace Watched

variable {M : Monitor (Entry R K) μ} {P P' : μ → Prop} {F F' : Except ε α → μ → Prop}
  {G : Except ε β → μ → Prop}

theorem weaken {m : Prog (Dialogue R K σ) ε α} (h : Watched M P m F) (hP : ∀ s, P' s → P s)
    (hF : ∀ r s, F r s → F' r s) : Watched M P' m F' := by
  intro w s hs
  obtain ⟨added, htrace, hpasses, hafter⟩ := h w s (hP s hs)
  exact ⟨added, htrace, hpasses, hF _ _ hafter⟩

/-- What is known about the monitor's state, and not about the monitor, is known beforehand. -/
theorem assume {p : Prop} {m : Prog (Dialogue R K σ) ε α} (h : p → Watched M P m F)
    (hp : ∀ s, P s → p) : Watched M P m F :=
  fun w s hs => h (hp s hs) w s hs

/-- A program that says nothing. -/
theorem still {m : Prog (Dialogue R K σ) ε α} (hm : ∀ w, (m w).2.trace = w.trace)
    (h : ∀ r s, P s → F r s) : Watched M P m F := by
  intro w s hs
  refine ⟨[], ?_, trivial, h _ _ hs⟩
  rw [hm w, List.append_nil]

theorem lift {r : Except ε α} (h : ∀ s, P s → F r s) :
    Watched M P (Prog.lift r : Prog (Dialogue R K σ) ε α) F :=
  fun _ s hs => ⟨[], (List.append_nil _).symm, trivial, h s hs⟩

theorem pure {a : α} (h : ∀ s, P s → F (.ok a) s) :
    Watched M P (Pure.pure a : Prog (Dialogue R K σ) ε α) F :=
  lift h

theorem fail {e : ε} (h : ∀ s, P s → F (.error e) s) :
    Watched M P (Prog.fail e : Prog (Dialogue R K σ) ε α) F :=
  lift h

theorem ask {env : Env R K} {q : Q} {F : Except ε (R q) → μ → Prop}
    (h : ∀ a s, P s → M.allows s (.said q a) ∧ F (.ok a) (M.step s (.said q a))) :
    Watched M P (Dialogue.ask env q : Prog (Dialogue R K σ) ε (R q)) F := by
  intro w s hs
  obtain ⟨hallows, hF⟩ := h (env w.trace q) s hs
  exact ⟨[.said q (env w.trace q)], rfl, ⟨hallows, trivial⟩, hF⟩

/-- A program of which the monitor ignores every entry. -/
theorem of_utters {S : σ → σ → Prop} {A : Entry R K → Prop} {m : Prog (Dialogue R K σ) ε α}
    (h : Utters S A m) (hA : ∀ e, A e → M.Ignores e) : Watched M P m fun _ => P := by
  intro w s hs
  obtain ⟨added, htrace, hadded, -, -⟩ := h w trivial
  obtain ⟨hpasses, hafter⟩ := M.passes_ignored (s := s) fun e he => hA e (hadded e he)
  exact ⟨added, htrace, hpasses, by rwa [hafter]⟩

theorem bind {m : Prog (Dialogue R K σ) ε α} {f : α → Prog (Dialogue R K σ) ε β}
    (hm : Watched M P m F) (hf : ∀ a, Watched M (F (.ok a)) (f a) G)
    (herr : ∀ e s, F (.error e) s → G (.error e) s) : Watched M P (m >>= f) G := by
  intro w s hs
  obtain ⟨added, htrace, hpasses, hF⟩ := hm w s hs
  rw [Prog.bind_run]
  rcases hr : m w with ⟨r, w₁⟩
  rw [hr] at htrace hF
  cases r with
  | error e => exact ⟨added, htrace, hpasses, herr e _ hF⟩
  | ok a =>
    obtain ⟨more, htrace', hpasses', hG⟩ := hf a w₁ _ hF
    refine ⟨added ++ more, ?_, M.passes_append.mpr ⟨hpasses, hpasses'⟩, ?_⟩
    · dsimp only at htrace htrace' ⊢
      rw [htrace', htrace, List.append_assoc]
    · rw [M.after_append]
      exact hG

/-- A program whose failure the caller inspects, and what the caller does then. -/
theorem attempt_bind {ε' : Type} {m : Prog (Dialogue R K σ) ε α}
    {f : Except ε α → Prog (Dialogue R K σ) ε' β} {G : Except ε' β → μ → Prop}
    (hm : Watched M P m F) (hf : ∀ r, Watched M (F r) (f r) G) :
    Watched M P (Prog.attempt m >>= f) G := by
  have hattempt : Watched M P (Prog.attempt m : Prog (Dialogue R K σ) ε' (Except ε α))
      fun r s => ∃ inner, r = .ok inner ∧ F inner s := by
    intro w s hs
    obtain ⟨added, htrace, hpasses, hF⟩ := hm w s hs
    exact ⟨added, htrace, hpasses, _, rfl, hF⟩
  refine bind hattempt (fun r => (hf r).weaken (fun s h => ?_) fun _ _ => id)
    fun e s h => by simp at h
  obtain ⟨inner, heq, hF⟩ := h
  rwa [Except.ok.inj heq]

end Watched

end AgentSeat.Lib
