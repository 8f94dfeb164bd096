/-
  Reading a text in which references stand for values.

  `refersTo` says which reference a text begins with and how much of the text it takes up. `expand`
  puts its value in place of each reference, from the left. A text without references is read as it
  stands (`expand_literal`). If every value is shorter than its reference, a text with one is not
  (`expand_shorter`).
-/
import Mathlib.Data.List.Infix
import Mathlib.Tactic.Common

namespace AgentSeat.Lib.Expansion

variable {α ρ : Type} (refersTo : List α → Option (ρ × Nat)) (value : ρ → List α)

/-- `skip` is what is left of the reference that was read last. -/
def expand : Nat → List α → List α
  | _, [] => []
  | skip + 1, _ :: rest => expand skip rest
  | 0, c :: rest =>
    match refersTo (c :: rest) with
    | some (reference, taken) => value reference ++ expand (taken - 1) rest
    | none => c :: expand 0 rest

/-- No reference begins anywhere in the text. -/
def Literal (text : List α) : Prop := ∀ rest ∈ text.tails, refersTo rest = none

instance (text : List α) [∀ rest, Decidable (refersTo rest = none)] :
    Decidable (Literal refersTo text) :=
  inferInstanceAs (Decidable (∀ rest ∈ text.tails, _))

variable {refersTo value}

theorem literal_cons {c : α} {rest : List α} :
    Literal refersTo (c :: rest) ↔ refersTo (c :: rest) = none ∧ Literal refersTo rest := by
  unfold Literal
  rw [List.tails_cons, List.forall_mem_cons]

theorem expand_literal {text : List α} (h : Literal refersTo text) :
    expand refersTo value 0 text = text := by
  induction text with
  | nil => rfl
  | cons c rest ih =>
    obtain ⟨hnone, hrest⟩ := literal_cons.mp h
    rw [expand, hnone]
    exact congrArg (c :: ·) (ih hrest)

/-- A reference takes up more than its value, and no more than there is. -/
def Shortens (refersTo : List α → Option (ρ × Nat)) (value : ρ → List α) : Prop :=
  ∀ text reference taken, refersTo text = some (reference, taken) →
    (value reference).length < taken ∧ taken ≤ text.length

theorem expand_length_le (h : Shortens refersTo value) (text : List α) (skip : Nat)
    (hskip : skip ≤ text.length) :
    (expand refersTo value skip text).length + skip ≤ text.length := by
  induction text generalizing skip with
  | nil =>
    have := Nat.le_zero.mp hskip
    rw [this]
    exact Nat.le_refl _
  | cons c rest ih =>
    rw [List.length_cons] at hskip ⊢
    cases skip with
    | succ skip =>
      have := ih skip (by omega)
      rw [expand]
      omega
    | zero =>
      cases hrefers : refersTo (c :: rest) with
      | none =>
        have := ih 0 (Nat.zero_le _)
        rw [expand, hrefers]
        show (expand refersTo value 0 rest).length + 1 ≤ rest.length + 1
        omega
      | some found =>
        obtain ⟨reference, taken⟩ := found
        obtain ⟨hvalue, htaken⟩ := h _ _ _ hrefers
        rw [List.length_cons] at htaken
        have := ih (taken - 1) (by omega)
        rw [expand, hrefers]
        show (value reference ++ expand refersTo value (taken - 1) rest).length ≤ rest.length + 1
        rw [List.length_append]
        omega

theorem expand_shorter (h : Shortens refersTo value) {text : List α}
    (href : ¬ Literal refersTo text) : (expand refersTo value 0 text).length < text.length := by
  induction text with
  | nil =>
    refine absurd (fun rest hrest => ?_) href
    rw [List.mem_singleton.mp hrest]
    cases hnil : refersTo [] with
    | none => rfl
    | some found =>
      have := h [] found.1 found.2 hnil
      rw [List.length_nil] at this
      omega
  | cons c rest ih =>
    cases hrefers : refersTo (c :: rest) with
    | none =>
      have hrest : ¬ Literal refersTo rest := fun hlit => href (literal_cons.mpr ⟨hrefers, hlit⟩)
      have := ih hrest
      rw [expand, hrefers]
      show (expand refersTo value 0 rest).length + 1 < rest.length + 1
      omega
    | some found =>
      obtain ⟨reference, taken⟩ := found
      obtain ⟨hvalue, htaken⟩ := h _ _ _ hrefers
      rw [List.length_cons] at htaken
      have := expand_length_le h rest (taken - 1) (by omega)
      rw [expand, hrefers]
      show (value reference ++ expand refersTo value (taken - 1) rest).length < rest.length + 1
      rw [List.length_append]
      omega

end AgentSeat.Lib.Expansion
