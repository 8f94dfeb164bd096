/-
  The difference that is shown before a policy is saved (`unified_diff` of `agent-seat-settings`).

  Both texts are taken line by line. The lines they share in front and at the end are counted from
  both ends, the second count no further than the first leaves room for; what is between is shown as
  removed and added, with two lines around it.

  Main result:
  * `unified_diff_faithful`: all slices are in range, and what is shown is the change that leads from
    the lines of one text to those of the other, with the longest front and back.
-/
import AgentSeat.Lib.Change
import AgentSeat.Lib.Chars

namespace AgentSeat.Settings

open AgentSeat.Lib AgentSeat.Lib.Chars

/-! ## The code -/

/-- `&lines[low..high]`; a range that is not one of the list panics. -/
def sliceLines (low high : Nat) (all : List (List Char)) : Option (List (List Char)) :=
  if low ≤ high ∧ high ≤ all.length then some ((all.take high).drop low) else none

def pushLine (sign : Char) (result line : List Char) : List Char := result ++ sign :: (line ++ ['\n'])

def diffHeader : List Char := "--- saved policy\n+++ draft policy\n".toList

/-- The second half of `unified_diff`: the output, when both counts are known. -/
def pushChange (prefixCount suffixCount : Nat) (before after : List (List Char)) :
    Option (List Char) := do
  let beforeChangedEnd := before.length - suffixCount
  let afterChangedEnd := after.length - suffixCount
  let contextStart := prefixCount - 2
  let contextEndBefore := min (beforeChangedEnd + 2) before.length
  let result := (← sliceLines contextStart prefixCount before).foldl (pushLine ' ') diffHeader
  let result := (← sliceLines prefixCount beforeChangedEnd before).foldl (pushLine '-') result
  let result := (← sliceLines prefixCount afterChangedEnd after).foldl (pushLine '+') result
  let result := (← sliceLines beforeChangedEnd contextEndBefore before).foldl (pushLine ' ') result
  return result

def unifiedDiff (before after : List Char) : Option (List Char) :=
  let before := lines before
  let after := lines after
  let prefixCount := ((before.zip after).takeWhile fun pair => pair.1 = pair.2).length
  let possibleSuffix := min before.length after.length - prefixCount
  let suffixCount :=
    (((before.reverse.zip after.reverse).take possibleSuffix).takeWhile fun pair => pair.1 = pair.2).length
  pushChange prefixCount suffixCount before after

/-! ## What is shown -/

/-- Lines with a sign in front. -/
def signed (sign : Char) (shown : List (List Char)) : List Char :=
  shown.flatMap fun line => sign :: (line ++ ['\n'])

/-- A change as it is shown: what is removed and added, with at most two lines around it. -/
def shownChange (front removed added back : List (List Char)) : List Char :=
  diffHeader ++ signed ' ' (front.drop (front.length - 2)) ++ signed '-' removed ++ signed '+' added ++
    signed ' ' (back.take 2)

/-- The lines with these replaced, if they are there. -/
def applyChange (position : Nat) (removed added all : List (List Char)) : Option (List (List Char)) :=
  if removed.isPrefixOf (all.drop position) then
    some (all.take position ++ added ++ all.drop (position + removed.length))
  else none

theorem foldl_pushLine (sign : Char) (shown : List (List Char)) (result : List Char) :
    shown.foldl (pushLine sign) result = result ++ signed sign shown := by
  unfold signed
  induction shown generalizing result with
  | nil => simp
  | cons line shown ih => rw [List.foldl_cons, ih, List.flatMap_cons, pushLine, List.append_assoc]

theorem sliceLines_some {low high : Nat} {all : List (List Char)} (h : low ≤ high)
    (h' : high ≤ all.length) : sliceLines low high all = some ((all.take high).drop low) :=
  if_pos ⟨h, h'⟩

/-- Counts that leave room for each other give slices in range. -/
theorem pushChange_some {front back : Nat} {before after : List (List Char)}
    (h : front + back ≤ before.length) (h' : front + back ≤ after.length) :
    pushChange front back before after = some (shownChange (before.take front)
      ((before.take (before.length - back)).drop front) ((after.take (after.length - back)).drop front)
      (before.drop (before.length - back))) := by
  have hcontext : (before.take front).drop (front - 2) =
      (before.take front).drop ((before.take front).length - 2) := by
    rw [List.length_take, Nat.min_eq_left (by omega)]
  have hlast : (before.take (min (before.length - back + 2) before.length)).drop
      (before.length - back) = (before.drop (before.length - back)).take 2 := by
    rw [← List.take_take, List.take_length, List.drop_take]
    congr 1
    omega
  unfold pushChange
  dsimp only
  rw [sliceLines_some (by omega) (by omega), sliceLines_some (by omega) (by omega),
    sliceLines_some (by omega) (by omega), sliceLines_some (by omega) (by omega), hcontext, hlast]
  show some _ = some _
  rw [foldl_pushLine, foldl_pushLine, foldl_pushLine, foldl_pushLine]
  rfl

/-- The counts of the code are those of the change. -/
theorem unifiedDiff_eq (before after : List Char) : unifiedDiff before after =
    pushChange (agreeing (lines before) (lines after))
      (agreeingBack (agreeing (lines before) (lines after)) (lines before) (lines after))
      (lines before) (lines after) := by
  unfold unifiedDiff
  dsimp only
  rw [length_takeWhile_take]
  rfl

/-- A change that is applied where it was found leads to the other list. -/
theorem applyChange_of_change {before after front removed added back : List (List Char)}
    (h : Change before after front removed added back) :
    applyChange front.length removed added before = some after := by
  have hdrop : before.drop front.length = removed ++ back := by
    rw [h.before, List.append_assoc, List.drop_left]
  have hback : before.drop (front.length + removed.length) = back := by
    rw [← List.drop_drop, hdrop, List.drop_left]
  have htake : before.take front.length = front := by
    rw [h.before, List.append_assoc, List.take_left]
  unfold applyChange
  rw [hdrop, if_pos (List.isPrefixOf_iff_prefix.mpr (List.prefix_append _ _)), htake, hback, h.after]

/-- For every two texts: the slices are in range, and what is shown is a change from the lines of the
    first to the lines of the second, whose front is the longest they share and whose back the longest
    behind it. Applied behind the front, it gives exactly the lines of the second. -/
theorem unified_diff_faithful (before after : List Char) :
    ∃ front removed added back, Change (lines before) (lines after) front removed added back ∧
      unifiedDiff before after = some (shownChange front removed added back) ∧
      applyChange front.length removed added (lines before) = some (lines after) := by
  have hchange := change_of_agreeing (lines before) (lines after)
  refine ⟨_, _, _, _, hchange, ?_, applyChange_of_change hchange⟩
  have hfront := agreeing_le (lines before) (lines after)
  have hback := agreeingBack_le (agreeing (lines before) (lines after)) (lines before) (lines after)
  rw [unifiedDiff_eq]
  exact pushChange_some (by omega) (by omega)

end AgentSeat.Settings
