/-
  Ordered association lists.

  The entries of a map in the order of their keys, as an ordered map iterates them. `insert` replaces
  the value under a key in its place, `set` writes the value of a key that is there, `erase` removes
  a key. What a key finds afterwards (`lookup_insert`, `lookup_set`, `lookup_erase`) does not depend
  on the entries being in order.
-/
import Mathlib.Data.List.Induction

namespace AgentSeat.Lib.Assoc

variable {κ α : Type} [DecidableEq κ] [LT κ] [DecidableLT κ]

def insert (key : κ) (value : α) : List (κ × α) → List (κ × α)
  | [] => [(key, value)]
  | (k, v) :: rest =>
    if key = k then (key, value) :: rest
    else if key < k then (key, value) :: (k, v) :: rest
    else (k, v) :: insert key value rest

omit [LT κ] [DecidableLT κ] in
def erase (key : κ) (entries : List (κ × α)) : List (κ × α) :=
  entries.filter fun entry => decide (entry.1 ≠ key)

omit [LT κ] [DecidableLT κ] in
/-- The value under a key, if there is one, written in place. -/
def set (key : κ) (value : α) (entries : List (κ × α)) : List (κ × α) :=
  entries.map fun entry => if entry.1 = key then (key, value) else entry

/-- A map from its members, of which the last one under a key counts. -/
def ofList (members : List (κ × α)) : List (κ × α) :=
  members.foldl (fun entries member => insert member.1 member.2 entries) []

omit [LT κ] [DecidableLT κ] in
theorem lookup_cons (key k : κ) (v : α) (rest : List (κ × α)) :
    List.lookup key ((k, v) :: rest) = if key = k then some v else rest.lookup key := by
  rw [List.lookup_cons]
  by_cases h : key = k
  · rw [if_pos h, h, beq_self_eq_true]
  · rw [if_neg h, beq_eq_false_iff_ne.mpr h]

omit [LT κ] [DecidableLT κ] in
theorem lookup_append (key : κ) (xs ys : List (κ × α)) :
    (xs ++ ys).lookup key = (xs.lookup key).or (ys.lookup key) := by
  induction xs with
  | nil => rfl
  | cons x xs ih =>
    rw [List.cons_append, lookup_cons, lookup_cons, ih]
    split <;> rfl

omit [LT κ] [DecidableLT κ] in
theorem mem_of_lookup {key : κ} {value : α} {entries : List (κ × α)}
    (h : entries.lookup key = some value) : (key, value) ∈ entries := by
  induction entries with
  | nil => exact absurd h (by simp)
  | cons first rest ih =>
    rw [lookup_cons] at h
    split at h
    · rename_i heq
      obtain rfl := Option.some.inj h
      rw [heq]
      exact List.mem_cons_self
    · exact List.mem_cons_of_mem _ (ih h)

theorem lookup_insert (key other : κ) (value : α) (entries : List (κ × α)) :
    (insert key value entries).lookup other =
      if other = key then some value else entries.lookup other := by
  induction entries with
  | nil => exact lookup_cons other key value []
  | cons entry rest ih =>
    obtain ⟨k, v⟩ := entry
    unfold insert
    by_cases heq : key = k
    · rw [if_pos heq, lookup_cons, lookup_cons, ← heq]
      by_cases ho : other = key
      · rw [if_pos ho, if_pos ho]
      · rw [if_neg ho, if_neg ho, if_neg ho]
    · rw [if_neg heq]
      by_cases hlt : key < k
      · rw [if_pos hlt, lookup_cons]
      · rw [if_neg hlt, lookup_cons, ih, lookup_cons]
        by_cases ho : other = key
        · have hk : other ≠ k := ho ▸ heq
          rw [if_pos ho, if_neg hk, if_pos ho]
        · rw [if_neg ho, if_neg ho]

omit [LT κ] [DecidableLT κ] in
theorem lookup_erase (key other : κ) (entries : List (κ × α)) :
    (erase key entries).lookup other = if other = key then none else entries.lookup other := by
  induction entries with
  | nil => simp [erase]
  | cons entry rest ih =>
    obtain ⟨k, v⟩ := entry
    unfold erase at ih ⊢
    by_cases heq : k = key
    · rw [List.filter_cons_of_neg (by simp [heq]), ih, lookup_cons]
      by_cases ho : other = key
      · rw [if_pos ho, if_pos ho]
      · have hk : other ≠ k := heq ▸ ho
        rw [if_neg ho, if_neg ho, if_neg hk]
    · rw [List.filter_cons_of_pos (by simp [heq]), lookup_cons, lookup_cons, ih]
      by_cases ho : other = key
      · have hk : other ≠ k := fun h => heq (h.symm.trans ho)
        rw [if_pos ho, if_neg hk, if_pos ho]
      · rw [if_neg ho, if_neg ho]

omit [LT κ] [DecidableLT κ] in
theorem lookup_set (key other : κ) (value : α) (entries : List (κ × α)) :
    (set key value entries).lookup other =
      if other = key then (entries.lookup key).map fun _ => value else entries.lookup other := by
  induction entries with
  | nil => simp [set]
  | cons entry rest ih =>
    obtain ⟨k, v⟩ := entry
    unfold set at ih ⊢
    rw [List.map_cons]
    by_cases heq : k = key
    · rw [if_pos heq, lookup_cons, ih, lookup_cons, lookup_cons, heq]
      by_cases ho : other = key
      · rw [if_pos ho, if_pos ho, if_pos rfl]
        rfl
      · rw [if_neg ho, if_neg ho, if_neg ho, if_neg ho]
    · have hk : key ≠ k := fun h => heq h.symm
      rw [if_neg heq, lookup_cons, ih, lookup_cons, lookup_cons, if_neg hk]
      by_cases ho : other = key
      · have hok : other ≠ k := fun h => heq (h.symm.trans ho)
        rw [if_neg hok, if_pos ho, if_pos ho]
      · rw [if_neg ho, if_neg ho]

omit [LT κ] [DecidableLT κ] in
theorem length_set (key : κ) (value : α) (entries : List (κ × α)) :
    (set key value entries).length = entries.length := List.length_map _

omit [LT κ] [DecidableLT κ] in
theorem length_erase_le (key : κ) (entries : List (κ × α)) :
    (erase key entries).length ≤ entries.length := List.length_filter_le _ _

/-- A map from its members finds the last one under a key. -/
theorem lookup_ofList (key : κ) (members : List (κ × α)) :
    (ofList members).lookup key = members.reverse.lookup key := by
  induction members using List.reverseRecOn with
  | nil => rfl
  | append_singleton members member ih =>
    obtain ⟨k, v⟩ := member
    have hsnoc : ofList (members ++ [(k, v)]) = insert k v (ofList members) := by
      unfold ofList
      rw [List.foldl_append]
      rfl
    rw [hsnoc, lookup_insert, ih, List.reverse_append, List.reverse_singleton, List.singleton_append,
      lookup_cons]

theorem length_insert_le (key : κ) (value : α) (entries : List (κ × α)) :
    (insert key value entries).length ≤ entries.length + 1 := by
  induction entries with
  | nil => simp [insert]
  | cons entry rest ih =>
    obtain ⟨k, v⟩ := entry
    unfold insert
    split
    · simp
    · split
      · simp
      · simp only [List.length_cons]
        omega

end AgentSeat.Lib.Assoc
