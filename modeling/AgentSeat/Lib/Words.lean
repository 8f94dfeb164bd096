/-
  Words of fixed width in a buffer of bytes.

  A buffer is cut into pieces of one size, a piece is a number in either byte order, and a mask
  selects a field of a number. For a mask that is a run of ones, `field_eq` reads the field by a
  division.
-/
import Mathlib.Data.Nat.Bitwise
import Mathlib.Data.List.Basic
import Mathlib.Tactic.Ring

namespace AgentSeat.Lib.Words

/-! ## Pieces -/

section Pieces

variable {α β ε : Type}

/-- Pieces of `size` items each; what is left at the end is dropped. -/
def chunksExact (size : Nat) (data : List α) : List (List α) :=
  (List.range (data.length / size)).map fun i => (data.drop (i * size)).take size

/-- What a loop that appends to its output does with each item in turn. -/
def concatM (f : α → Except ε (List β)) : List α → Except ε (List β)
  | [] => .ok []
  | x :: xs => do
    let first ← f x
    let rest ← concatM f xs
    return first ++ rest

theorem concatM_ok {f : α → Except ε (List β)} {g : α → List β} :
    ∀ {xs : List α}, (∀ x ∈ xs, f x = .ok (g x)) → concatM f xs = .ok (xs.flatMap g)
  | [], _ => rfl
  | x :: xs, h => by
    unfold concatM
    rw [h x List.mem_cons_self, concatM_ok fun y hy => h y (List.mem_cons_of_mem x hy)]
    rfl

theorem concatM_error {f : α → Except ε (List β)} {e : ε} :
    ∀ {xs : List α}, concatM f xs = .error e → ∃ x ∈ xs, f x = .error e
  | x :: xs, h => by
    unfold concatM at h
    cases hx : f x with
    | error e' =>
      rw [hx] at h
      exact ⟨x, List.mem_cons_self, hx.trans h⟩
    | ok first =>
      rw [hx] at h
      cases hxs : concatM f xs with
      | error e' =>
        rw [hxs] at h
        obtain ⟨y, hy, hfail⟩ := concatM_error (hxs.trans h)
        exact ⟨y, List.mem_cons_of_mem x hy, hfail⟩
      | ok rest =>
        rw [hxs] at h
        exact absurd h (by simp [bind, Except.bind, pure, Except.pure])

theorem concatM_congr {f g : α → Except ε (List β)} : ∀ {xs : List α}, (∀ x ∈ xs, f x = g x) →
    concatM f xs = concatM g xs
  | [], _ => rfl
  | x :: xs, h => by
    unfold concatM
    rw [h x List.mem_cons_self, concatM_congr fun y hy => h y (List.mem_cons_of_mem x hy)]

theorem concatM_map {γ : Type} (f : α → Except ε (List β)) (g : γ → α) : ∀ xs : List γ,
    concatM f (xs.map g) = concatM (fun x => f (g x)) xs
  | [] => rfl
  | x :: xs => by
    rw [List.map_cons, concatM, concatM, concatM_map f g xs]

/-- A piece that lies in front of the cut does not see it. -/
theorem take_drop_take {i m n : Nat} (h : i + n ≤ m) (data : List α) :
    ((data.take m).drop i).take n = (data.drop i).take n := by
  rw [List.drop_take, List.take_take, Nat.min_eq_left (by omega)]

theorem chunksExact_eq {size count : Nat} {data : List α} (hsize : 0 < size)
    (hlength : data.length = count * size) :
    chunksExact size data = (List.range count).map fun i => (data.drop (i * size)).take size := by
  rw [chunksExact, hlength, Nat.mul_div_cancel count hsize]

theorem length_flatMap_const {f : α → List β} {n : Nat} :
    ∀ {xs : List α}, (∀ x ∈ xs, (f x).length = n) → (xs.flatMap f).length = xs.length * n
  | [], _ => by simp
  | x :: xs, h => by
    rw [List.flatMap_cons, List.length_append, h x List.mem_cons_self,
      length_flatMap_const fun y hy => h y (List.mem_cons_of_mem x hy), List.length_cons,
      Nat.succ_mul, Nat.add_comm]

/-- Where the output of one item stands among the outputs of equal length. -/
theorem getElem?_flatMap_const {f : α → List β} {n : Nat} :
    ∀ {xs : List α}, (∀ x ∈ xs, (f x).length = n) → ∀ {i : Nat} {x : α}, xs[i]? = some x →
      ∀ {k : Nat}, k < n → (xs.flatMap f)[i * n + k]? = (f x)[k]?
  | y :: ys, h, 0, x, hx, k, hk => by
    obtain rfl : y = x := Option.some.inj hx
    rw [List.flatMap_cons, Nat.zero_mul, Nat.zero_add,
      List.getElem?_append_left (by rw [h y List.mem_cons_self]; exact hk)]
  | y :: ys, h, i + 1, x, hx, k, hk => by
    have hy : (f y).length = n := h y List.mem_cons_self
    rw [List.flatMap_cons, List.getElem?_append_right (by rw [hy, Nat.succ_mul]; omega), hy,
      show (i + 1) * n + k - n = i * n + k by rw [Nat.succ_mul]; omega]
    exact getElem?_flatMap_const (fun z hz => h z (List.mem_cons_of_mem y hz)) hx hk

end Pieces

/-! ## Byte order -/

def littleEndian : List UInt8 → Nat
  | [] => 0
  | b :: rest => b.toNat + 256 * littleEndian rest

def bigEndian (bytes : List UInt8) : Nat := littleEndian bytes.reverse

theorem littleEndian_append (bytes more : List UInt8) : littleEndian (bytes ++ more) =
    littleEndian bytes + 256 ^ bytes.length * littleEndian more := by
  induction bytes with
  | nil => simp [littleEndian]
  | cons b rest ih =>
    rw [List.cons_append, littleEndian, ih, littleEndian, List.length_cons, Nat.pow_succ]
    ring

theorem littleEndian_lt (bytes : List UInt8) : littleEndian bytes < 256 ^ bytes.length := by
  induction bytes with
  | nil => exact Nat.one_pos
  | cons b rest ih =>
    have hb := b.toNat_lt
    rw [littleEndian, List.length_cons, Nat.pow_succ]
    omega

/-- The low bytes of a number, as many as asked for. -/
def toLittleEndian : Nat → Nat → List UInt8
  | 0, _ => []
  | count + 1, n => UInt8.ofNat n :: toLittleEndian count (n / 256)

theorem toLittleEndian_length (count n : Nat) : (toLittleEndian count n).length = count := by
  induction count generalizing n with
  | zero => rfl
  | succ count ih => rw [toLittleEndian, List.length_cons, ih]

theorem littleEndian_toLittleEndian {count n : Nat} (h : n < 256 ^ count) :
    littleEndian (toLittleEndian count n) = n := by
  induction count generalizing n with
  | zero => exact (Nat.lt_one_iff.mp h).symm
  | succ count ih =>
    have hrest : n / 256 < 256 ^ count := by
      rw [Nat.div_lt_iff_lt_mul (by decide)]
      rwa [Nat.pow_succ] at h
    rw [toLittleEndian, littleEndian, ih hrest, UInt8.toNat_ofNat']
    exact Nat.mod_add_div n 256

theorem toLittleEndian_littleEndian (bytes : List UInt8) :
    toLittleEndian bytes.length (littleEndian bytes) = bytes := by
  induction bytes with
  | nil => rfl
  | cons b rest ih =>
    have hb := b.toNat_lt
    have hlow : UInt8.ofNat (b.toNat + 256 * littleEndian rest) = b := by
      apply UInt8.toNat_inj.mp
      rw [UInt8.toNat_ofNat']
      omega
    have hhigh : (b.toNat + 256 * littleEndian rest) / 256 = littleEndian rest := by omega
    rw [List.length_cons, littleEndian, toLittleEndian, hlow, hhigh, ih]

/-- A number has one spelling of each length that it fits in. -/
theorem bigEndian_eq_iff {bytes : List UInt8} {n : Nat} (h : n < 256 ^ bytes.length) :
    bigEndian bytes = n ↔ bytes = (toLittleEndian bytes.length n).reverse := by
  constructor
  · intro heq
    have hback := toLittleEndian_littleEndian bytes.reverse
    rw [List.length_reverse, show littleEndian bytes.reverse = n from heq] at hback
    rw [hback, List.reverse_reverse]
  · intro heq
    rw [bigEndian, heq, List.reverse_reverse]
    exact littleEndian_toLittleEndian h

/-- The next byte of a number in little endian order stands above those read before it. -/
theorem or_shiftLeft {value : Nat} {bytes : List UInt8} (h : value = littleEndian bytes) (b : UInt8) :
    value ||| b.toNat <<< (bytes.length * 8) = littleEndian (bytes ++ [b]) := by
  have hlt : value < 2 ^ (bytes.length * 8) := by
    rw [Nat.mul_comm, Nat.pow_mul, h]
    exact littleEndian_lt bytes
  rw [Nat.lor_comm, ← Nat.shiftLeft_add_eq_or_of_lt hlt, littleEndian_append, h, Nat.shiftLeft_eq,
    Nat.mul_comm bytes.length, Nat.pow_mul]
  show b.toNat * 256 ^ bytes.length + littleEndian bytes =
    littleEndian bytes + 256 ^ bytes.length * (b.toNat + 256 * 0)
  ring

/-- The next byte of a number in big endian order stands below those read before it. -/
theorem shiftLeft_or {value : Nat} {bytes : List UInt8} (h : value = bigEndian bytes) (b : UInt8) :
    value <<< 8 ||| b.toNat = bigEndian (bytes ++ [b]) := by
  rw [← Nat.shiftLeft_add_eq_or_of_lt (show b.toNat < 2 ^ 8 from b.toNat_lt), h, Nat.shiftLeft_eq,
    bigEndian, bigEndian, List.reverse_append]
  show _ = b.toNat + 256 * littleEndian bytes.reverse
  ring

/-! ## Masks -/

/-- The zeros below the lowest one of a word of `bits` bits, `bits` for zero. -/
def trailingZeros : Nat → Nat → Nat
  | 0, _ => 0
  | bits + 1, n => if n % 2 = 1 then 0 else trailingZeros bits (n / 2) + 1

/-- `width` ones above `low` zeros. -/
def ones (low width : Nat) : Nat := (2 ^ width - 1) <<< low

theorem trailingZeros_lt : ∀ {bits n : Nat}, n ≠ 0 → n < 2 ^ bits →
    trailingZeros bits n < bits ∧ 0 < n >>> trailingZeros bits n
  | 0, n, hn, hlt => by
    rw [Nat.pow_zero] at hlt
    omega
  | bits + 1, n, hn, hlt => by
    unfold trailingZeros
    split_ifs with hodd
    · exact ⟨Nat.succ_pos bits, Nat.pos_of_ne_zero hn⟩
    · rw [Nat.pow_succ] at hlt
      have hhalf : n / 2 ≠ 0 := by omega
      have hless : n / 2 < 2 ^ bits := by omega
      obtain ⟨hbits, hpos⟩ := trailingZeros_lt hhalf hless
      refine ⟨Nat.succ_lt_succ hbits, ?_⟩
      rw [Nat.add_comm, Nat.shiftRight_add]
      exact hpos

theorem trailingZeros_shiftLeft {m : Nat} (hm : m % 2 = 1) : ∀ {low bits : Nat}, low < bits →
    trailingZeros bits (m <<< low) = low
  | 0, bits + 1, _ => by
    unfold trailingZeros
    rw [Nat.shiftLeft_zero, if_pos hm]
  | low + 1, bits + 1, h => by
    have hhalf : m <<< (low + 1) / 2 = m <<< low := by
      rw [Nat.shiftLeft_succ]
      omega
    have heven : ¬ m <<< (low + 1) % 2 = 1 := by
      rw [Nat.shiftLeft_succ]
      omega
    unfold trailingZeros
    rw [if_neg heven, hhalf, trailingZeros_shiftLeft hm (Nat.lt_of_succ_lt_succ h)]

theorem two_pow_odd {width : Nat} (h : 0 < width) : (2 ^ width - 1) % 2 = 1 := by
  obtain ⟨w, rfl⟩ : ∃ w, width = w + 1 := ⟨width - 1, by omega⟩
  have := Nat.two_pow_pos w
  rw [Nat.pow_succ]
  omega

theorem trailingZeros_ones {low width bits : Nat} (hwidth : 0 < width) (hlow : low < bits) :
    trailingZeros bits (ones low width) = low :=
  trailingZeros_shiftLeft (two_pow_odd hwidth) hlow

theorem ones_shiftRight (low width : Nat) : ones low width >>> low = 2 ^ width - 1 := by
  rw [ones, Nat.shiftLeft_shiftRight]

/-- The field that a run of ones selects. -/
theorem field_eq (pixel low width : Nat) :
    (pixel &&& ones low width) >>> low = pixel / 2 ^ low % 2 ^ width := by
  rw [Nat.shiftRight_and_distrib, ones_shiftRight, Nat.and_two_pow_sub_one_eq_mod,
    Nat.shiftRight_eq_div_pow]

theorem field_le (pixel mask shift : Nat) : (pixel &&& mask) >>> shift ≤ mask >>> shift := by
  rw [Nat.shiftRight_and_distrib]
  exact Nat.and_le_right

/-! ## Rounding -/

/-- The integer closest to `p / q`, the larger one of two. -/
def roundHalfUp (p q : Nat) : Nat := (2 * p + q) / (2 * q)

/-- With an odd divisor no quotient lies half way, and half the divisor may be rounded down. -/
theorem roundHalfUp_odd {p q : Nat} (hq : q % 2 = 1) : (p + q / 2) / q = roundHalfUp p q := by
  have hhalf : (2 * p + q) / 2 = p + q / 2 := by omega
  rw [roundHalfUp, ← Nat.div_div_eq_div_mul, hhalf]

end AgentSeat.Lib.Words
