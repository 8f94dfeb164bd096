/-
  Bytes as sets of bits, and the sublists of a list numbered by the bits of a number.

  A byte is the set of the places where `testBit` holds: equality, union over a list and inclusion
  are stated that way. `pick l c` is the sublist of `l` at the places of the bits of `c`; as `c` runs
  through the numbers below `2 ^ l.length` it meets every sublist (`exists_pick`). A loop that
  takes the lowest bit of a word and clears it meets every bit once (`bitPlaces_eq`).
-/
import Mathlib.Data.List.Basic
import Mathlib.Data.Nat.Bitwise

namespace AgentSeat.Lib

/-! ## Bytes -/

section Bytes

variable {α : Type} {a b : UInt8}

theorem byte_ext (h : ∀ i, a.toNat.testBit i = b.toNat.testBit i) : a = b :=
  UInt8.toNat_inj.mp (Nat.eq_of_testBit_eq h)

theorem testBit_byte_lt {i : Nat} (h : a.toNat.testBit i = true) : i < 8 := by
  by_contra hi
  have hlt : a.toNat < 2 ^ i :=
    Nat.lt_of_lt_of_le a.toNat_lt (Nat.pow_le_pow_right (by decide) (by omega))
  rw [Nat.testBit_lt_two_pow hlt] at h
  exact absurd h (by decide)

theorem testBit_or (i : Nat) :
    (a ||| b).toNat.testBit i = (a.toNat.testBit i || b.toNat.testBit i) := by
  rw [UInt8.toNat_or, Nat.testBit_or]

theorem testBit_and (i : Nat) :
    (a &&& b).toNat.testBit i = (a.toNat.testBit i && b.toNat.testBit i) := by
  rw [UInt8.toNat_and, Nat.testBit_and]

theorem testBit_not {i : Nat} (hi : i < 8) : (~~~a).toNat.testBit i = !a.toNat.testBit i := by
  show (~~~a.toBitVec).getLsbD i = !a.toBitVec.getLsbD i
  rw [BitVec.getLsbD_not]
  simp [hi]

theorem testBit_zero (i : Nat) : (0 : UInt8).toNat.testBit i = false := Nat.zero_testBit i

/-- `a & !b == 0` is inclusion. -/
theorem and_not_eq_zero :
    a &&& ~~~b = 0 ↔ ∀ i, a.toNat.testBit i = true → b.toNat.testBit i = true := by
  constructor
  · intro h i ha
    have hbit : (a &&& ~~~b).toNat.testBit i = false := by
      rw [h]
      exact testBit_zero i
    rw [testBit_and, testBit_not (testBit_byte_lt ha), ha] at hbit
    simpa using hbit
  · intro h
    refine byte_ext fun i => ?_
    rw [testBit_and, testBit_zero]
    cases ha : a.toNat.testBit i with
    | false => rfl
    | true => rw [testBit_not (testBit_byte_lt ha), h i ha]; rfl

/-- The union over a list. -/
theorem testBit_foldl_or (f : α → UInt8) (l : List α) (start : UInt8) (i : Nat) :
    (l.foldl (fun bits x => bits ||| f x) start).toNat.testBit i = true ↔
      start.toNat.testBit i = true ∨ ∃ x ∈ l, (f x).toNat.testBit i = true := by
  induction l generalizing start with
  | nil => simp
  | cons x l ih =>
    rw [List.foldl_cons, ih, testBit_or, Bool.or_eq_true]
    simp [or_assoc]

end Bytes

/-! ## Numbered sublists -/

section Pick

variable {α : Type}

def pick (l : List α) (c : Nat) : List α := (l.zipIdx.filter fun x => c.testBit x.2).map Prod.fst

theorem pick_cons (a : α) (l : List α) (c : Nat) :
    pick (a :: l) c = if c.testBit 0 then a :: pick l (c / 2) else pick l (c / 2) := by
  have htail : ((l.zipIdx 1).filter fun x => c.testBit x.2).map Prod.fst = pick l (c / 2) := by
    rw [List.zipIdx_succ, List.filter_map, List.map_map]
    unfold pick
    congr 1
    refine List.filter_congr fun x _ => ?_
    exact Nat.testBit_succ c x.2
  unfold pick
  rw [List.zipIdx_cons, List.filter_cons]
  split_ifs
  · rw [List.map_cons, htail]
    rfl
  · rw [htail]
    rfl

theorem pick_sublist (l : List α) (c : Nat) : (pick l c).Sublist l := by
  have h := (List.filter_sublist (p := fun x => c.testBit x.2) (l := l.zipIdx)).map Prod.fst
  rwa [List.zipIdx_map_fst] at h

theorem exists_pick {s l : List α} (h : s.Sublist l) : ∃ c < 2 ^ l.length, pick l c = s := by
  induction h with
  | slnil => exact ⟨0, Nat.one_pos, rfl⟩
  | @cons s l a h ih =>
    obtain ⟨c, hc, hpick⟩ := ih
    refine ⟨2 * c, ?_, ?_⟩
    · rw [List.length_cons, Nat.pow_succ]
      omega
    · rw [pick_cons, if_neg (by simp), Nat.mul_div_cancel_left c (by decide), hpick]
  | @cons_cons s l a h ih =>
    obtain ⟨c, hc, hpick⟩ := ih
    refine ⟨2 * c + 1, ?_, ?_⟩
    · rw [List.length_cons, Nat.pow_succ]
      omega
    · have hhalf : (2 * c + 1) / 2 = c := by omega
      rw [pick_cons, if_pos (by simp), hhalf, hpick]

end Pick

/-! ## Bit by bit

A loop that takes the lowest bit of a number and clears it meets all bits, in their order. -/

/-- The place of the lowest bit of a number below `2 ^ width`; all places of zero are empty. -/
def trailingZeros (width n : Nat) : Nat := ((List.range width).find? n.testBit).getD width

/-- The places of the bits, in their order. -/
def bitPlaces (width n : Nat) : List Nat := (List.range width).filter n.testBit

theorem and_pred_lt {n : Nat} (h : n ≠ 0) : n &&& (n - 1) < n :=
  Nat.lt_of_le_of_lt Nat.and_le_right (by omega)

/-- Up to its lowest bit a number is a power of two. -/
theorem mod_lowest {n k : Nat} (hk : n.testBit k = true) (hlow : ∀ i < k, n.testBit i = false) :
    n % 2 ^ (k + 1) = 2 ^ k := by
  refine Nat.eq_of_testBit_eq fun i => ?_
  rw [Nat.testBit_mod_two_pow, Nat.testBit_two_pow]
  rcases Nat.lt_trichotomy i k with hi | rfl | hi
  · rw [hlow i hi, Bool.and_false, eq_comm, decide_eq_false_iff_not]
    omega
  · simp [hk]
  · have hbeyond : ¬ i < k + 1 := by omega
    have hne : k ≠ i := by omega
    simp [hbeyond, hne]

/-- Subtracting one turns the lowest bit into ones below it, so that only this bit is cleared. -/
theorem testBit_and_pred {n k : Nat} (hk : n.testBit k = true) (hlow : ∀ i < k, n.testBit i = false)
    (i : Nat) : (n &&& (n - 1)).testBit i = (n.testBit i && decide (i ≠ k)) := by
  have hpow : 2 ^ k < 2 ^ (k + 1) := Nat.pow_lt_pow_right (by decide) (Nat.lt_succ_self k)
  have hpos : 0 < 2 ^ k := Nat.two_pow_pos k
  have hn : n = 2 ^ (k + 1) * (n / 2 ^ (k + 1)) + 2 ^ k := by
    have hdiv := Nat.div_add_mod n (2 ^ (k + 1))
    rw [mod_lowest hk hlow] at hdiv
    exact hdiv.symm
  have hpred : n - 1 = 2 ^ (k + 1) * (n / 2 ^ (k + 1)) + (2 ^ k - 1) := by omega
  rw [Nat.testBit_and]
  rcases Nat.lt_trichotomy i k with hi | rfl | hi
  · rw [hlow i hi, Bool.false_and, Bool.false_and]
  · rw [hpred, Nat.testBit_two_pow_mul_add _ (by omega), if_pos (Nat.lt_succ_self i),
      Nat.testBit_two_pow_sub_one]
    simp
  · have hsame : (n - 1).testBit i = n.testBit i := by
      rw [hpred, Nat.testBit_two_pow_mul_add _ (by omega), if_neg (by omega), Nat.testBit_div_two_pow]
      congr 1
      omega
    have hne : i ≠ k := by omega
    rw [hsame, Bool.and_self, decide_eq_true hne, Bool.and_true]

theorem filter_of_find? {α : Type} [DecidableEq α] {p : α → Bool} {l : List α} {a : α}
    (nodup : l.Nodup) (h : l.find? p = some a) :
    l.filter p = a :: l.filter fun b => p b && decide (b ≠ a) := by
  induction l with
  | nil => simp at h
  | cons b rest ih =>
    obtain ⟨hnew, hrest⟩ := List.nodup_cons.mp nodup
    rw [List.find?_cons] at h
    by_cases hb : p b = true
    · rw [hb] at h
      obtain rfl := Option.some.inj h
      rw [List.filter_cons_of_pos hb, List.filter_cons_of_neg (by simp)]
      refine congrArg _ (List.filter_congr fun c hc => ?_)
      have hne : c ≠ b := fun heq => hnew (heq ▸ hc)
      simp [hne]
    · rw [Bool.not_eq_true] at hb
      rw [hb] at h
      rw [List.filter_cons_of_neg (by simp [hb]), List.filter_cons_of_neg (by simp [hb])]
      exact ih hrest h

/-- One turn of the loop. -/
theorem bitPlaces_eq {width n : Nat} (h : n ≠ 0) (hlt : n < 2 ^ width) :
    bitPlaces width n = trailingZeros width n :: bitPlaces width (n &&& (n - 1)) := by
  cases hfind : (List.range width).find? n.testBit with
  | none =>
    refine absurd (Nat.eq_of_testBit_eq fun i => ?_) h
    rw [Nat.zero_testBit]
    by_cases hi : i < width
    · simpa using List.find?_eq_none.mp hfind i (List.mem_range.mpr hi)
    · exact Nat.testBit_lt_two_pow (Nat.lt_of_lt_of_le hlt (Nat.pow_le_pow_right (by decide) (by omega)))
  | some k =>
    obtain ⟨hk, -, hbefore⟩ := List.find?_range_eq_some.mp hfind
    have hlow : ∀ i < k, n.testBit i = false := fun i hi => by simpa using hbefore i hi
    unfold bitPlaces trailingZeros
    rw [filter_of_find? List.nodup_range hfind, hfind, Option.getD_some]
    exact congrArg _ (List.filter_congr fun i _ => (testBit_and_pred hk hlow i).symm)

@[simp] theorem bitPlaces_zero (width : Nat) : bitPlaces width 0 = [] := by
  unfold bitPlaces
  exact List.filter_eq_nil_iff.mpr fun i _ => by simp

theorem mem_bitPlaces {width n i : Nat} : i ∈ bitPlaces width n ↔ i < width ∧ n.testBit i = true := by
  unfold bitPlaces
  rw [List.mem_filter, List.mem_range]

theorem bitPlaces_pairwise (width n : Nat) : (bitPlaces width n).Pairwise (· < ·) :=
  List.Pairwise.filter _ List.pairwise_lt_range

end AgentSeat.Lib
