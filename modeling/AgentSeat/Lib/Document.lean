/-
  Configuration documents as trees of keys and values with comments.

  A table is a list of entries in the order of the text. A value is assigned in its place and keeps
  the comment above its key; the comment behind the old value goes with that value. A table can be
  written under a header, inline or by dotted keys, which makes no difference to what a reader of
  records sees: it looks keys up (`get`) and rejects keys it does not know (`onlyKeys`).

  For each change of a table there is one lemma about what `get` finds afterwards and one about the
  keys.
-/
import Mathlib.Algebra.Group.Int.Defs
import Mathlib.Data.List.Basic

namespace AgentSeat.Lib

inductive Layout where
  | header | inline | dotted
  deriving DecidableEq

structure Comments where
  above : String
  behind : String
  deriving DecidableEq

/-- A value of a document. Floats and dates are kept as their tokens. -/
inductive Node where
  | bool (value : Bool)
  | integer (value : Int)
  | text (value : String)
  | array (items : List Node)
  | token (value : String)
  | table (layout : Layout) (entries : List (String × Comments × Node))

abbrev Table := List (String × Comments × Node)

namespace Table

variable {key other : String} {node : Node} {t : Table}

def get (key : String) : Table → Option Node
  | [] => none
  | (k, _, n) :: rest => if k = key then some n else get key rest

def keys (t : Table) : List String := t.map Prod.fst

/-! ## Changes -/

/-- Write a value in its place, or at the end. -/
def assign (key : String) (node : Node) : Table → Table
  | [] => [(key, ⟨"", ""⟩, node)]
  | (k, comments, n) :: rest =>
    if k = key then (k, ⟨comments.above, ""⟩, node) :: rest
    else (k, comments, n) :: assign key node rest

/-- Change the value of a key and none of its comments. -/
def modify (key : String) (f : Node → Node) : Table → Table
  | [] => []
  | (k, comments, n) :: rest =>
    if k = key then (k, comments, f n) :: rest else (k, comments, n) :: modify key f rest

def remove (key : String) (t : Table) : Table := t.filter fun entry => decide (entry.1 ≠ key)

/-- The value of a key that is not there yet. -/
def ensure (key : String) (node : Node) (t : Table) : Table :=
  if (t.get key).isSome then t else t.assign key node

/-- The inner table of a key after a value is written to it. -/
def assignInner (key : String) (node : Node) : Node → Node
  | .table layout entries => .table layout (assign key node entries)
  | other => other

/-- `t[section][key] = node`. A missing section becomes an inline table; a section that is no table
    has no place for the key. -/
def assignIn (inner key : String) (node : Node) (t : Table) : Option Table :=
  match t.get inner with
  | none => some (t.assign inner (.table .inline [(key, ⟨"", ""⟩, node)]))
  | some (.table _ _) => some (t.modify inner (assignInner key node))
  | some _ => none

theorem get_assign : (t.assign key node).get other =
    if key = other then some node else t.get other := by
  induction t with
  | nil => rfl
  | cons entry rest ih =>
    obtain ⟨k, comments, n⟩ := entry
    unfold assign
    by_cases hk : k = key
    · rw [if_pos hk, get, get, hk]
      split <;> rfl
    · rw [if_neg hk, get, get, ih]
      by_cases ho : k = other
      · rw [if_pos ho, if_pos ho, if_neg (fun h => hk (ho.trans h.symm))]
      · rw [if_neg ho, if_neg ho]

theorem get_modify {f : Node → Node} : (t.modify key f).get other =
    if key = other then (t.get other).map f else t.get other := by
  induction t with
  | nil => simp [modify, get]
  | cons entry rest ih =>
    obtain ⟨k, comments, n⟩ := entry
    unfold modify
    by_cases hk : k = key
    · rw [if_pos hk, get, get, hk]
      split <;> rfl
    · rw [if_neg hk, get, get, ih]
      by_cases ho : k = other
      · rw [if_pos ho, if_pos ho, if_neg (fun h => hk (ho.trans h.symm))]
      · rw [if_neg ho, if_neg ho]

theorem get_remove : (t.remove key).get other = if key = other then none else t.get other := by
  induction t with
  | nil => simp [remove, get]
  | cons entry rest ih =>
    obtain ⟨k, comments, n⟩ := entry
    unfold remove at ih ⊢
    by_cases hk : k = key
    · rw [List.filter_cons_of_neg (by simp [hk]), ih, get, hk]
      split <;> rfl
    · rw [List.filter_cons_of_pos (by simp [hk]), get, get, ih]
      by_cases ho : k = other
      · rw [if_pos ho, if_pos ho, if_neg (fun h => hk (ho.trans h.symm))]
      · rw [if_neg ho, if_neg ho]

theorem get_ensure_ne (h : key ≠ other) : (t.ensure key node).get other = t.get other := by
  unfold ensure
  split
  · rfl
  · rw [get_assign, if_neg h]

theorem get_ensure : (t.ensure key node).get key = some ((t.get key).getD node) := by
  unfold ensure
  cases h : t.get key with
  | some n => simp [h]
  | none => simp [get_assign]

/-- Writing to a section that is a table. -/
theorem assignIn_table {inner : String} {layout : Layout} {entries : Table}
    (h : t.get inner = some (.table layout entries)) :
    t.assignIn inner key node = some (t.modify inner (assignInner key node)) := by
  unfold assignIn
  rw [h]

/-! ## Keys -/

/-- No key but these. -/
def onlyKeys (known : List String) (t : Table) : Bool := t.all fun entry => known.contains entry.1

theorem onlyKeys_assign {known : List String} (h : t.onlyKeys known = true) (key : String)
    (node : Node) (hkey : key ∈ known) : (t.assign key node).onlyKeys known = true := by
  induction t with
  | nil => simp [assign, onlyKeys, hkey]
  | cons entry rest ih =>
    obtain ⟨k, comments, n⟩ := entry
    simp only [onlyKeys, List.all_cons, Bool.and_eq_true] at h ih
    unfold assign
    split
    · simp only [onlyKeys, List.all_cons, Bool.and_eq_true]
      exact h
    · simp only [onlyKeys, List.all_cons, Bool.and_eq_true]
      exact ⟨h.1, ih h.2⟩

theorem onlyKeys_modify {known : List String} {f : Node → Node} (h : t.onlyKeys known = true) :
    (t.modify key f).onlyKeys known = true := by
  induction t with
  | nil => rfl
  | cons entry rest ih =>
    obtain ⟨k, comments, n⟩ := entry
    simp only [onlyKeys, List.all_cons, Bool.and_eq_true] at h ih
    unfold modify
    split
    · simp only [onlyKeys, List.all_cons, Bool.and_eq_true]
      exact h
    · simp only [onlyKeys, List.all_cons, Bool.and_eq_true]
      exact ⟨h.1, ih h.2⟩

theorem onlyKeys_remove {known : List String} (h : t.onlyKeys known = true) :
    (t.remove key).onlyKeys known = true := by
  unfold onlyKeys at h ⊢
  rw [List.all_eq_true] at h ⊢
  exact fun entry hentry => h entry (List.mem_filter.mp hentry).1

theorem onlyKeys_ensure {known : List String} (h : t.onlyKeys known = true) (hkey : key ∈ known) :
    (t.ensure key node).onlyKeys known = true := by
  unfold ensure
  split
  · exact h
  · exact onlyKeys_assign h key node hkey

end Table

/-! ## Reading records -/

namespace Node

def asBool : Node → Option Bool
  | .bool value => some value
  | _ => none

/-- An unsigned integer below a bound. -/
def asNat (bound : Nat) : Node → Option Nat
  | .integer value => if 0 ≤ value ∧ value < bound then some value.toNat else none
  | _ => none

def asText : Node → Option String
  | .text value => some value
  | _ => none

/-- The value of a unit variant when it is not spelled as a text. -/
def isUnit : Node → Bool
  | .table _ [] => true
  | .array [] => true
  | _ => false

/-- The name of a unit variant: a text, or a table with the name as its one key. -/
def variantName : Node → Option String
  | .text value => some value
  | .table _ [(name, _, node)] => if node.isUnit then some name else none
  | _ => none

variable {α : Type}

/-- Read every item of a list. -/
def readAll (read : Node → Option α) : List Node → Option (List α)
  | [] => some []
  | node :: rest => do
    let value ← read node
    let values ← readAll read rest
    pure (value :: values)

def asList (read : Node → Option α) : Node → Option (List α)
  | .array items => readAll read items
  | _ => none

def asTable (read : Table → Option α) : Node → Option α
  | .table _ entries => read entries
  | _ => none

theorem asNat_integer {bound n : Nat} (h : n < bound) : asNat bound (.integer n) = some n := by
  have hrange : 0 ≤ (n : Int) ∧ (n : Int) < bound := by omega
  show (if 0 ≤ (n : Int) ∧ (n : Int) < bound then some (n : Int).toNat else none) = some n
  rw [if_pos hrange, Int.toNat_natCast]

theorem readAll_map {read : Node → Option α} {write : α → Node} (values : List α)
    (h : ∀ a, read (write a) = some a) : readAll read (values.map write) = some values := by
  induction values with
  | nil => rfl
  | cons a rest ih =>
    rw [List.map_cons, readAll, h, ih]
    rfl

theorem asTable_eq_some {read : Table → Option α} {node : Node} {a : α}
    (h : asTable read node = some a) :
    ∃ layout entries, node = .table layout entries ∧ read entries = some a := by
  cases node with
  | table layout entries => exact ⟨layout, entries, rfl, h⟩
  | _ => simp [asTable] at h

end Node

namespace Table

variable {α : Type}

/-- A key that must be there. -/
def required (key : String) (read : Node → Option α) (t : Table) : Option α :=
  (t.get key).bind read

/-- A key with a default. -/
def defaulted (key : String) (default : α) (read : Node → Option α) (t : Table) : Option α :=
  match t.get key with
  | none => some default
  | some node => read node

theorem required_congr {key : String} {read : Node → Option α} {t t' : Table}
    (h : t'.get key = t.get key) : t'.required key read = t.required key read := by
  unfold required
  rw [h]

theorem defaulted_congr {key : String} {default : α} {read : Node → Option α} {t t' : Table}
    (h : t'.get key = t.get key) : t'.defaulted key default read = t.defaulted key default read := by
  unfold defaulted
  rw [h]

theorem required_of_get {key : String} {read : Node → Option α} {t : Table} {node : Node}
    (h : t.get key = some node) : t.required key read = read node := by
  unfold required
  rw [h]
  rfl

theorem defaulted_of_get {key : String} {default : α} {read : Node → Option α} {t : Table}
    {node : Node} (h : t.get key = some node) : t.defaulted key default read = read node := by
  unfold defaulted
  rw [h]

end Table

end AgentSeat.Lib
