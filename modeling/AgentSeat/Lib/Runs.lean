/-
  Runs of a system that takes one step after the other.

  A system is a step function that may refuse, and a condition on the steps that are taken. A run
  keeps the states it has left with the step taken in each. What holds at the start and is kept by
  every step holds at the end of every run (`Run.invariant`), and a list of steps that can be
  evaluated is a run (`Run.replay`).
-/
import Mathlib.Data.Option.Basic
import Mathlib.Tactic.SplitIfs

namespace AgentSeat.Lib

variable {σ α : Type} (start : σ → Prop) (step : σ → α → Option σ) (allowed : σ → α → Prop)

/-- A run, and what is past of it, the latest step first. -/
inductive Run : List (σ × α) → σ → Prop
  | start {s : σ} (h : start s) : Run [] s
  | step {past : List (σ × α)} {s s' : σ} (run : Run past s) (a : α) (ok : allowed s a)
      (taken : step s a = some s') : Run ((s, a) :: past) s'

/-- Take the steps one after the other, while each is allowed and not refused. -/
def replay [∀ s a, Decidable (allowed s a)] (past : List (σ × α)) (s : σ) :
    List α → Option (List (σ × α) × σ)
  | [] => some (past, s)
  | a :: rest =>
    if allowed s a then (step s a).bind fun s' => replay ((s, a) :: past) s' rest else none

/-- Some step of the past was taken in a state of which, with its own past, `P` holds. -/
def Before {σ α : Type} (P : σ → List (σ × α) → Prop) (past : List (σ × α)) : Prop :=
  ∃ later s a earlier, past = later ++ (s, a) :: earlier ∧ P s earlier

theorem Before.here {P : σ → List (σ × α) → Prop} {past : List (σ × α)} {s : σ} (a : α)
    (h : P s past) : Before P ((s, a) :: past) := ⟨[], s, a, past, rfl, h⟩

theorem Before.earlier {P : σ → List (σ × α) → Prop} {past : List (σ × α)} (latest : σ × α)
    (h : Before P past) : Before P (latest :: past) := by
  obtain ⟨later, s, a, earlier, rfl, hp⟩ := h
  exact ⟨latest :: later, s, a, earlier, rfl, hp⟩

theorem Before.imp {P Q : σ → List (σ × α) → Prop} {past : List (σ × α)} (h : Before P past)
    (hpq : ∀ s earlier, P s earlier → Q s earlier) : Before Q past := by
  obtain ⟨later, s, a, earlier, hpast, hp⟩ := h
  exact ⟨later, s, a, earlier, hpast, hpq s earlier hp⟩

variable {start step allowed}

namespace Run

variable {past : List (σ × α)} {s : σ}

theorem invariant {I : σ → Prop} (run : Run start step allowed past s)
    (hstart : ∀ s, start s → I s)
    (hstep : ∀ s a s', I s → allowed s a → step s a = some s' → I s') : I s := by
  induction run with
  | start h => exact hstart _ h
  | step run a ok taken ih => exact hstep _ a _ ih ok taken

/-- As `invariant`, for what is said of a state together with its past. -/
theorem history {I : List (σ × α) → σ → Prop} (run : Run start step allowed past s)
    (hstart : ∀ s, start s → I [] s)
    (hstep : ∀ past s a s', I past s → allowed s a → step s a = some s' → I ((s, a) :: past) s') :
    I past s := by
  induction run with
  | start h => exact hstart _ h
  | step run a ok taken ih => exact hstep _ _ a _ ih ok taken

/-- A step that is past was taken at the end of a run. -/
theorem before {later earlier : List (σ × α)} {s₀ : σ} {a : α}
    (run : Run start step allowed past s) (hpast : past = later ++ (s₀, a) :: earlier) :
    Run start step allowed earlier s₀ := by
  induction run generalizing later with
  | start h => simp at hpast
  | step run b ok taken ih =>
    cases later with
    | nil =>
      obtain ⟨hfirst, rfl⟩ := List.cons.inj hpast
      obtain ⟨rfl, rfl⟩ := Prod.mk.inj hfirst
      exact run
    | cons first later => exact ih (List.cons.inj hpast).2

theorem taken_of_mem {s₀ : σ} {a : α} (run : Run start step allowed past s)
    (hmem : (s₀, a) ∈ past) : allowed s₀ a ∧ ∃ s₁, step s₀ a = some s₁ := by
  induction run with
  | start h => simp at hmem
  | step run b ok taken ih =>
    rcases List.mem_cons.mp hmem with heq | hmem
    · obtain ⟨rfl, rfl⟩ := Prod.mk.inj heq
      exact ⟨ok, _, taken⟩
    · exact ih hmem

theorem replay [∀ s a, Decidable (allowed s a)] (run : Run start step allowed past s)
    {as : List α} {end' : List (σ × α) × σ}
    (h : Lib.replay step allowed past s as = some end') :
    Run start step allowed end'.1 end'.2 := by
  induction as generalizing past s with
  | nil =>
    obtain rfl := Option.some.inj h
    exact run
  | cons a rest ih =>
    unfold Lib.replay at h
    split_ifs at h with hok
    obtain ⟨s', htaken, hrest⟩ := Option.bind_eq_some_iff.mp h
    exact ih (run.step a hok htaken) hrest

end Run

end AgentSeat.Lib
