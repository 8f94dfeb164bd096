/-
  Logs whose entries carry ascending numbers, and reading them from a cursor.

  `since key c log` is what a reader with cursor `c` has not seen yet. The lemmas say how it moves
  when the log grows, when the cursor advances, and which entries a page of bounded size covers.
-/
import Mathlib.Data.List.Basic
import Mathlib.Data.List.Pairwise

namespace AgentSeat.Lib

variable {α : Type} (key : α → Nat)

/-- Every entry has a larger number than those before it. -/
def Ascending (log : List α) : Prop := log.Pairwise fun a b => key a < key b

/-- The entries numbered after the cursor. -/
def since (cursor : Nat) (log : List α) : List α := log.filter fun a => cursor < key a

variable {key} {log log' : List α} {c d : Nat}

theorem mem_since {a : α} : a ∈ since key c log ↔ a ∈ log ∧ c < key a := by
  simp [since]

theorem since_append : since key c (log ++ log') = since key c log ++ since key c log' :=
  List.filter_append _ _

/-- A reader further on sees the same from what a reader behind it saw. -/
theorem since_since (h : c ≤ d) : since key d (since key c log) = since key d log := by
  unfold since
  rw [List.filter_filter]
  refine List.filter_congr fun a _ => ?_
  rw [Bool.and_eq_left_iff_imp]
  simp only [decide_eq_true_eq]
  omega

theorem since_eq_self (h : ∀ a ∈ log, c < key a) : since key c log = log :=
  List.filter_eq_self.mpr (by simpa using h)

theorem since_eq_nil (h : ∀ a ∈ log, key a ≤ c) : since key c log = [] :=
  List.filter_eq_nil_iff.mpr (by simpa using h)

theorem since_extends (h : log <+: log') : since key c log <+: since key c log' := by
  obtain ⟨rest, rfl⟩ := h
  rw [since_append]
  exact List.prefix_append _ _

theorem Ascending.since (h : Ascending key log) : Ascending key (since key c log) :=
  List.Pairwise.filter _ h

theorem Ascending.sublist (h : Ascending key log') (hs : log.Sublist log') : Ascending key log :=
  List.Pairwise.sublist hs h

/-- A log stays ascending when what it gains is numbered after everything it has. -/
theorem Ascending.append (h : Ascending key log) (h' : Ascending key log')
    (hlt : ∀ a ∈ log, ∀ b ∈ log', key a < key b) : Ascending key (log ++ log') :=
  List.pairwise_append.mpr ⟨h, h', hlt⟩

/-- A page holds every entry up to its last one. -/
theorem Ascending.mem_take (h : Ascending key log) {n : Nat} {a last : α} (ha : a ∈ log)
    (hlast : last ∈ log.take n) (hle : key a ≤ key last) : a ∈ log.take n := by
  rw [← List.take_append_drop n log] at ha h
  rcases List.mem_append.mp ha with ha | ha
  · exact ha
  · have := (List.pairwise_append.mp h).2.2 last hlast a ha
    omega

/-- Reading a page and going on from its last number reads the whole log. -/
theorem page_split (h : Ascending key log) {n top : Nat} (one : 1 ≤ n)
    (htop : ∀ a ∈ log, key a ≤ top) :
    log = log.take n ++ since key ((log.take n).getLast?.elim top key) log := by
  cases hlast : (log.take n).getLast? with
  | none =>
    rcases List.take_eq_nil_iff.mp (List.getLast?_eq_none_iff.mp hlast) with hn | rfl
    · omega
    · simp [since]
  | some last =>
    obtain ⟨front, hfront⟩ := List.getLast?_eq_some_iff.mp hlast
    have hsplit := h
    rw [← List.take_append_drop n log] at hsplit
    obtain ⟨htake, -, hcross⟩ := List.pairwise_append.mp hsplit
    have hpage : since key (key last) (log.take n) = [] := by
      refine since_eq_nil fun a ha => ?_
      rw [hfront] at htake ha
      rcases List.mem_append.mp ha with ha | ha
      · exact Nat.le_of_lt ((List.pairwise_append.mp htake).2.2 a ha last (by simp))
      · exact Nat.le_of_eq (by rw [List.mem_singleton.mp ha])
    have hrest : since key (key last) (log.drop n) = log.drop n :=
      since_eq_self fun a ha => hcross last (by rw [hfront]; simp) a ha
    have hwhole : since key (key last) log = log.drop n := by
      conv_lhs => rw [← List.take_append_drop n log]
      rw [since_append, hpage, hrest, List.nil_append]
    rw [Option.elim_some, hwhole, List.take_append_drop]

end AgentSeat.Lib
