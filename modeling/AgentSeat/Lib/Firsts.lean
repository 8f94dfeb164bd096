/-
  The first value under each key, and lists put in the order of a key.

  `firsts` keeps a value if no value before it has its key, so under each key it keeps the one that
  `find?` finds (`mem_firsts`). In a list that was put in order that is the least one (`find?_sortBy`).
-/
import Mathlib.Data.List.Lex
import Mathlib.Data.List.Sort

namespace AgentSeat.Lib

/-! ## The first under each key -/

section Firsts

variable {α κ : Type} [DecidableEq κ] {key : α → Option κ}

/-- The values whose keys are not seen before, with these keys; a value without a key is passed
    over. -/
def firsts (key : α → Option κ) : List κ → List α → List (κ × α)
  | _, [] => []
  | seen, a :: rest =>
    match key a with
    | none => firsts key seen rest
    | some k =>
      if seen.contains k then firsts key seen rest else (k, a) :: firsts key (k :: seen) rest

theorem mem_firsts {seen : List κ} {l : List α} {k : κ} {a : α} :
    (k, a) ∈ firsts key seen l ↔ k ∉ seen ∧ l.find? (fun b => key b = some k) = some a := by
  induction l generalizing seen with
  | nil => simp [firsts]
  | cons b rest ih =>
    rw [firsts, List.find?_cons]
    cases hkey : key b with
    | none => simpa using ih
    | some k' =>
      dsimp only
      by_cases hsame : k' = k
      · subst hsame
        by_cases hseen : seen.contains k' = true
        · rw [if_pos hseen, ih]
          have hmem : k' ∈ seen := List.contains_iff_mem.mp hseen
          simp [hmem]
        · rw [if_neg hseen, List.mem_cons, ih]
          have hmem : k' ∉ seen := fun h => hseen (List.contains_iff_mem.mpr h)
          simp [hmem, eq_comm]
      · have hne : decide (some k' = some k) = false := by simpa using hsame
        rw [hne]
        dsimp only
        split
        · exact ih
        · rw [List.mem_cons, ih]
          have hpair : (k, a) ≠ (k', b) := fun h => hsame (congrArg Prod.fst h).symm
          have hkeep : k ∉ k' :: seen ↔ k ∉ seen := by
            rw [List.mem_cons, not_or]
            exact and_iff_right (Ne.symm hsame)
          rw [hkeep]
          exact or_iff_right hpair

theorem firsts_nodup (seen : List κ) (l : List α) :
    ((firsts key seen l).map Prod.fst).Nodup := by
  induction l generalizing seen with
  | nil => exact List.nodup_nil
  | cons b rest ih =>
    rw [firsts]
    split
    · exact ih seen
    · next k hkey =>
      split
      · exact ih seen
      · rw [List.map_cons, List.nodup_cons]
        refine ⟨fun hmem => ?_, ih _⟩
        obtain ⟨⟨k', a⟩, hfirst, rfl⟩ := List.mem_map.mp hmem
        exact (mem_firsts.mp hfirst).1 List.mem_cons_self

/-- Of two lists in a row the second brings the keys the first did not have. -/
theorem firsts_append (seen : List κ) (l l' : List α) :
    firsts key seen (l ++ l') =
      firsts key seen l ++ firsts key (((firsts key seen l).map Prod.fst).reverse ++ seen) l' := by
  induction l generalizing seen with
  | nil => rfl
  | cons b rest ih =>
    rw [List.cons_append, firsts, firsts]
    cases key b with
    | none => exact ih seen
    | some k =>
      dsimp only
      split
      · exact ih seen
      · rw [ih (k :: seen), List.cons_append, List.map_cons, List.reverse_cons, List.append_assoc,
          List.singleton_append]

end Firsts

/-! ## Lists in order -/

section Order

variable {α κ : Type} [LinearOrder κ] {key : α → κ}

def sortBy (key : α → κ) (l : List α) : List α := l.insertionSort fun a b => key a ≤ key b

theorem mem_sortBy {l : List α} {a : α} : a ∈ sortBy key l ↔ a ∈ l :=
  List.mem_insertionSort _

theorem sortBy_perm (l : List α) : (sortBy key l).Perm l := List.perm_insertionSort _ l

theorem sortBy_pairwise (l : List α) : (sortBy key l).Pairwise fun a b => key a ≤ key b := by
  have htotal : Std.Total fun a b : α => key a ≤ key b := ⟨fun a b => le_total (key a) (key b)⟩
  have htrans : IsTrans α fun a b => key a ≤ key b := ⟨fun _ _ _ => le_trans⟩
  exact List.pairwise_insertionSort _ l

/-- With distinct keys the order is strict. -/
theorem sortBy_strict {l : List α} (distinct : (l.map key).Nodup) :
    ((sortBy key l).map key).Pairwise (· < ·) := by
  have hnodup : ((sortBy key l).map key).Nodup :=
    ((sortBy_perm l).map key).nodup_iff.mpr distinct
  refine List.Pairwise.imp₂ (fun a b hle hne => lt_of_le_of_ne hle hne) ?_ hnodup
  exact List.pairwise_map.mpr (sortBy_pairwise l)

/-- What is found first in order is least. -/
theorem find?_sortBy {l : List α} (injective : ∀ a ∈ l, ∀ b ∈ l, key a = key b → a = b)
    (p : α → Bool) (a : α) :
    (sortBy key l).find? p = some a ↔ a ∈ l ∧ p a = true ∧ ∀ b ∈ l, p b = true → key a ≤ key b := by
  have hsound : ∀ c, (sortBy key l).find? p = some c →
      c ∈ l ∧ p c = true ∧ ∀ b ∈ l, p b = true → key c ≤ key b := by
    intro c hfind
    obtain ⟨hp, before, after, hsplit, hbefore⟩ := List.find?_eq_some_iff_append.mp hfind
    refine ⟨mem_sortBy.mp (List.mem_of_find?_eq_some hfind), hp, fun b hb hpb => ?_⟩
    have hsorted := @sortBy_pairwise α κ _ key l
    have hmem := (@mem_sortBy α κ _ key l b).mpr hb
    rw [hsplit] at hsorted hmem
    rcases List.mem_append.mp hmem with hmem | hmem
    · simpa [hpb] using hbefore b hmem
    · rcases List.mem_cons.mp hmem with rfl | hmem
      · exact le_refl _
      · exact (List.pairwise_cons.mp (List.pairwise_append.mp hsorted).2.1).1 b hmem
  refine ⟨hsound a, fun h => ?_⟩
  obtain ⟨ha, hp, hleast⟩ := h
  cases hfind : (sortBy key l).find? p with
  | none => exact absurd hp (by simpa using List.find?_eq_none.mp hfind a (mem_sortBy.mpr ha))
  | some c =>
    obtain ⟨hc, hpc, hcleast⟩ := hsound c hfind
    rw [injective c hc a ha (le_antisymm (hcleast a ha hp) (hleast c hc hpc))]

end Order

end AgentSeat.Lib
