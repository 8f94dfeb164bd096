/-
  Two lists as one change: a common front, what is replaced by what, and a common back.

  The front is the longest one. The back is the longest one behind it: where elements repeat, or one
  list goes on where the other ends, the two may not overlap.
-/
import Mathlib.Data.List.Basic

namespace AgentSeat.Lib

variable {α : Type} [DecidableEq α]

/-- How many elements two lists share from the front. -/
def agreeing (xs ys : List α) : Nat := ((xs.zip ys).takeWhile fun pair => pair.1 = pair.2).length

theorem agreeing_cons (x y : α) (xs ys : List α) :
    agreeing (x :: xs) (y :: ys) = if x = y then agreeing xs ys + 1 else 0 := by
  unfold agreeing
  rw [List.zip_cons_cons, List.takeWhile_cons]
  by_cases h : x = y <;> simp [h]

theorem agreeing_le (xs ys : List α) : agreeing xs ys ≤ xs.length ∧ agreeing xs ys ≤ ys.length := by
  have hzip : agreeing xs ys ≤ (xs.zip ys).length := (List.takeWhile_sublist _).length_le
  rw [List.length_zip] at hzip
  omega

theorem take_agreeing (xs ys : List α) : xs.take (agreeing xs ys) = ys.take (agreeing xs ys) := by
  induction xs generalizing ys with
  | nil => simp [agreeing]
  | cons x xs ih =>
    cases ys with
    | nil => simp [agreeing]
    | cons y ys =>
      rw [agreeing_cons]
      split_ifs with h
      · rw [List.take_succ_cons, List.take_succ_cons, ih ys, h]
      · rfl

/-- No common front is longer. -/
theorem length_le_agreeing (front xs ys : List α) :
    front.length ≤ agreeing (front ++ xs) (front ++ ys) := by
  induction front with
  | nil => exact Nat.zero_le _
  | cons x front ih =>
    rw [List.cons_append, List.cons_append, agreeing_cons, if_pos rfl, List.length_cons]
    omega

/-- Looking at no more than so many pairs. -/
theorem length_takeWhile_take {β : Type} (p : β → Bool) (n : Nat) (l : List β) :
    ((l.take n).takeWhile p).length = min n (l.takeWhile p).length := by
  induction l generalizing n with
  | nil => simp
  | cons x l ih =>
    cases n with
    | zero => simp
    | succ n =>
      rw [List.take_succ_cons, List.takeWhile_cons, List.takeWhile_cons]
      split
      · rw [List.length_cons, List.length_cons, ih]
        omega
      · simp

/-- `xs` and `ys` differ by one change. -/
structure Change (xs ys front removed added back : List α) : Prop where
  before : xs = front ++ removed ++ back
  after : ys = front ++ added ++ back
  /-- No common front is longer. -/
  front_longest : ∀ front' xs' ys', xs = front' ++ xs' → ys = front' ++ ys' →
    front'.length ≤ front.length
  /-- No common back that leaves the front alone is longer. -/
  back_longest : ∀ back' xs' ys', removed ++ back = xs' ++ back' → added ++ back = ys' ++ back' →
    back'.length ≤ back.length

/-- How many elements two lists share from the back, if the first `front` are left alone. -/
def agreeingBack (front : Nat) (xs ys : List α) : Nat :=
  min (min xs.length ys.length - front) (agreeing xs.reverse ys.reverse)

theorem agreeingBack_le (front : Nat) (xs ys : List α) :
    agreeingBack front xs ys ≤ xs.length - front ∧ agreeingBack front xs ys ≤ ys.length - front := by
  have hle : agreeingBack front xs ys ≤ min xs.length ys.length - front := Nat.min_le_left _ _
  omega

theorem drop_agreeingBack (front : Nat) (xs ys : List α) :
    xs.drop (xs.length - agreeingBack front xs ys) = ys.drop (ys.length - agreeingBack front xs ys) := by
  have hle : agreeingBack front xs ys ≤ agreeing xs.reverse ys.reverse := Nat.min_le_right _ _
  have htake := congrArg (List.take (agreeingBack front xs ys))
    (take_agreeing xs.reverse ys.reverse)
  rw [List.take_take, List.take_take, Nat.min_eq_left hle, List.take_reverse, List.take_reverse] at htake
  exact List.reverse_injective htake

omit [DecidableEq α] in
theorem take_drop_drop (xs : List α) {low high : Nat} (h : low ≤ high) :
    xs = xs.take low ++ (xs.take high).drop low ++ xs.drop high := by
  have hlow : xs.take low = (xs.take high).take low := by rw [List.take_take, Nat.min_eq_left h]
  rw [hlow, List.take_append_drop, List.take_append_drop]

/-- A common back is within reach when it leaves the front alone. -/
theorem length_le_agreeingBack {front : Nat} {xs ys xs' ys' back : List α}
    (hxs : xs.drop front = xs' ++ back) (hys : ys.drop front = ys' ++ back) :
    back.length ≤ agreeingBack front xs ys := by
  have hxs_length := congrArg List.length hxs
  have hys_length := congrArg List.length hys
  rw [List.length_drop, List.length_append] at hxs_length hys_length
  have hback : back.reverse.length ≤ agreeing xs.reverse ys.reverse := by
    have hxs_split := List.take_append_drop front xs
    have hys_split := List.take_append_drop front ys
    rw [hxs, ← List.append_assoc] at hxs_split
    rw [hys, ← List.append_assoc] at hys_split
    rw [← hxs_split, ← hys_split]
    simp only [List.reverse_append]
    exact length_le_agreeing _ _ _
  rw [List.length_reverse] at hback
  unfold agreeingBack
  omega

/-- The two counts give the change. -/
theorem change_of_agreeing (xs ys : List α) :
    Change xs ys (xs.take (agreeing xs ys))
      ((xs.take (xs.length - agreeingBack (agreeing xs ys) xs ys)).drop (agreeing xs ys))
      ((ys.take (ys.length - agreeingBack (agreeing xs ys) xs ys)).drop (agreeing xs ys))
      (xs.drop (xs.length - agreeingBack (agreeing xs ys) xs ys)) := by
  have hfront := agreeing_le xs ys
  have hback := agreeingBack_le (agreeing xs ys) xs ys
  have hbefore := take_drop_drop xs
    (show agreeing xs ys ≤ xs.length - agreeingBack (agreeing xs ys) xs ys by omega)
  have hafter := take_drop_drop ys
    (show agreeing xs ys ≤ ys.length - agreeingBack (agreeing xs ys) xs ys by omega)
  rw [← take_agreeing, ← drop_agreeingBack] at hafter
  have hdrop {zs front rest : List α} (h : zs = front ++ rest) (hlength : front.length = agreeing xs ys) :
      zs.drop (agreeing xs ys) = rest := by
    rw [h, ← hlength, List.drop_left]
  have hlength : (xs.take (agreeing xs ys)).length = agreeing xs ys := by
    rw [List.length_take]
    omega
  refine ⟨hbefore, hafter, fun front' xs' ys' hxs hys => ?_, fun back' xs' ys' hxs hys => ?_⟩
  · rw [hlength]
    have hle := length_le_agreeing front' xs' ys'
    rw [← hxs, ← hys] at hle
    exact hle
  · rw [List.length_drop]
    rw [List.append_assoc] at hbefore hafter
    have hle := length_le_agreeingBack ((hdrop hbefore hlength).trans hxs)
      ((hdrop hafter hlength).trans hys)
    omega

end AgentSeat.Lib
