/-
  What a reviewed bitmap says of a device (`DeviceCapabilities::matches` of `device_set.rs`).

  A bitmap is hexadecimal words with blanks between, the last one for the lowest bits. The check of a
  bitmap looks at its characters and its length; reading it takes 64 bits for a word and 16 bits for
  a code, and what does not fit is left out.

  Main result:
  * `capability_matches_iff`: a bitmap is matched by exactly its bits when each word fits 64 bits and
    only the last 1024 words have any.
-/
import AgentSeat.Broker.DeviceSet
import AgentSeat.Lib.Bits
import Mathlib.Data.List.Sort

namespace AgentSeat.Broker

open AgentSeat.Lib AgentSeat.Lib.Paths AgentSeat.Lib.Text

/-! ## The code -/

inductive CapabilityKind where
  | absolute | event | forceFeedback | key | led | misc | relative | sound | switch | property
  deriving DecidableEq

def CapabilityKind.index : CapabilityKind → Nat
  | .absolute => 0
  | .event => 1
  | .forceFeedback => 2
  | .key => 3
  | .led => 4
  | .misc => 5
  | .relative => 6
  | .sound => 7
  | .switch => 8
  | .property => 9

theorem CapabilityKind.index_lt (kind : CapabilityKind) : kind.index < 10 := by
  cases kind <;> decide

def usizeBits : Nat := 64

def saturatingMul (a b : Nat) : Nat := min (a * b) (2 ^ usizeBits - 1)
def saturatingAdd (a b : Nat) : Nat := min (a + b) (2 ^ usizeBits - 1)

/-- `u16::try_from`. -/
def toU16 (n : Nat) : Option UInt16 := if n < 2 ^ 16 then some (UInt16.ofNat n) else none

def isHexDigit (byte : UInt8) : Bool := isDigit byte || within 0x61 0x66 byte || within 0x41 0x46 byte

def hexDigit (byte : UInt8) : Nat :=
  if isDigit byte then byte.toNat - 48
  else if within 0x61 0x66 byte then byte.toNat - 87
  else byte.toNat - 55

/-- The number that hexadecimal digits spell. -/
def hexNumber (text : Bytes) : Nat := text.foldl (fun n byte => 16 * n + hexDigit byte) 0

/-- `usize::from_str_radix` with radix 16. -/
def usizeFromHex (text : Bytes) : Option Nat :=
  let text := if text.head? = some 0x2b then text.tail else text
  if text ≠ [] ∧ text.all isHexDigit ∧ hexNumber text < 2 ^ usizeBits then some (hexNumber text)
  else none

/-- The loop over the bits of one word. -/
def wordCodes (base word : Nat) : List UInt16 :=
  if word = 0 then []
  else
    (toU16 (saturatingAdd base (trailingZeros usizeBits word))).toList ++
      wordCodes base (word &&& (word - 1))
termination_by word
decreasing_by exact and_pred_lt ‹_›

/-- The loop over the words, the last one first. -/
def codesFrom (wordIndex : Nat) : List Bytes → List UInt16
  | [] => []
  | word :: words =>
    wordCodes (saturatingMul wordIndex usizeBits) ((usizeFromHex word).getD 0) ++
      codesFrom (wordIndex + 1) words

def bitmapCodes (value : Bytes) : List UInt16 :=
  (codesFrom 0 (value.splitOn 32).reverse).mergeSort fun code other => code ≤ other

def DeviceCapabilities.bitmap (capabilities : DeviceCapabilities) (kind : CapabilityKind) : Bytes :=
  capabilities.values.get ⟨kind.index, by rw [capabilities.ten]; exact kind.index_lt⟩

def DeviceCapabilities.matches (capabilities : DeviceCapabilities) (kind : CapabilityKind)
    (codes : List UInt16) : Bool :=
  bitmapCodes (capabilities.bitmap kind) = codes

/-! ## What a bitmap says -/

/-- The words of a bitmap, the last one first. -/
def bitmapWords (value : Bytes) : List Nat := (value.splitOn 32).reverse.map hexNumber

/-- The words are words of 64 bits, and these are the positions of their bits, in order. -/
structure BitPositions (value : Bytes) (positions : List Nat) : Prop where
  words : ∀ word ∈ bitmapWords value, word < 2 ^ 64
  increasing : positions.Pairwise (· < ·)
  set : ∀ p, p ∈ positions ↔
    ∃ word, (bitmapWords value)[p / 64]? = some word ∧ word.testBit (p % 64) = true

/-- Every word fits 64 bits, and every position 16. -/
structure FitsCodes (value : Bytes) : Prop where
  words : ∀ word ∈ bitmapWords value, word < 2 ^ 64
  high : ∀ i word, (bitmapWords value)[i]? = some word → 1024 ≤ i → word = 0

/-- The positions of the bits of the words from an index on. -/
def placesFrom (index : Nat) : List Nat → List Nat
  | [] => []
  | word :: words => (bitPlaces 64 word).map (64 * index + ·) ++ placesFrom (index + 1) words

theorem mem_placesFrom {index p : Nat} {words : List Nat} : p ∈ placesFrom index words ↔
    64 * index ≤ p ∧ ∃ word, words[p / 64 - index]? = some word ∧ word.testBit (p % 64) = true := by
  induction words generalizing index with
  | nil => simp [placesFrom]
  | cons word words ih =>
    unfold placesFrom
    rw [List.mem_append, ih, List.mem_map]
    constructor
    · intro h
      rcases h with ⟨bit, hbit, rfl⟩ | ⟨hp, other, hother, htest⟩
      · obtain ⟨hlt, htest⟩ := mem_bitPlaces.mp hbit
        refine ⟨Nat.le_add_right _ _, word, ?_, ?_⟩
        · have hindex : (64 * index + bit) / 64 - index = 0 := by omega
          rw [hindex]
          rfl
        · have hmod : (64 * index + bit) % 64 = bit := by omega
          rw [hmod]
          exact htest
      · refine ⟨by omega, other, ?_, htest⟩
        have hindex : p / 64 - index = p / 64 - (index + 1) + 1 := by omega
        rw [hindex, List.getElem?_cons_succ]
        exact hother
    · intro h
      obtain ⟨hp, other, hother, htest⟩ := h
      by_cases hlast : p / 64 = index
      · rw [hlast, Nat.sub_self, List.getElem?_cons_zero] at hother
        obtain rfl := Option.some.inj hother
        exact .inl ⟨p % 64, mem_bitPlaces.mpr ⟨Nat.mod_lt _ (by decide), htest⟩, by omega⟩
      · refine .inr ⟨by omega, other, ?_, htest⟩
        have hindex : p / 64 - index = p / 64 - (index + 1) + 1 := by omega
        rw [hindex, List.getElem?_cons_succ] at hother
        exact hother

theorem placesFrom_pairwise (index : Nat) (words : List Nat) :
    (placesFrom index words).Pairwise (· < ·) := by
  induction words generalizing index with
  | nil => exact List.Pairwise.nil
  | cons word words ih =>
    unfold placesFrom
    refine List.pairwise_append.mpr ⟨?_, ih (index + 1), fun p hp other hother => ?_⟩
    · rw [List.pairwise_map]
      exact (bitPlaces_pairwise 64 word).imp fun h => by omega
    · obtain ⟨bit, hbit, rfl⟩ := List.mem_map.mp hp
      have hlt := (mem_bitPlaces.mp hbit).1
      have hbeyond := (mem_placesFrom.mp hother).1
      omega

/-- The positions of a bitmap whose words fit: there is one list of them. -/
theorem bitPositions_iff {value : Bytes} (h : ∀ word ∈ bitmapWords value, word < 2 ^ 64)
    {positions : List Nat} :
    BitPositions value positions ↔ positions = placesFrom 0 (bitmapWords value) := by
  have hset (p : Nat) : p ∈ placesFrom 0 (bitmapWords value) ↔
      ∃ word, (bitmapWords value)[p / 64]? = some word ∧ word.testBit (p % 64) = true := by
    rw [mem_placesFrom, Nat.sub_zero, and_iff_right (Nat.zero_le _)]
  constructor
  · intro hpositions
    exact hpositions.increasing.eq_of_mem_iff (placesFrom_pairwise 0 _) fun p =>
      (hpositions.set p).trans (hset p).symm
  · intro heq
    rw [heq]
    exact ⟨h, placesFrom_pairwise 0 _, hset⟩

/-! ## What is read of it -/

theorem toU16_saturatingAdd (index bit : Nat) :
    toU16 (saturatingAdd (saturatingMul index usizeBits) bit) = toU16 (64 * index + bit) := by
  unfold toU16 saturatingAdd saturatingMul usizeBits
  by_cases hlt : 64 * index + bit < 2 ^ 16
  · have hbase : min (index * 64) (2 ^ 64 - 1) = 64 * index := by omega
    have hsum : min (64 * index + bit) (2 ^ 64 - 1) = 64 * index + bit := by omega
    rw [hbase, hsum]
  · rw [if_neg hlt, if_neg (by omega)]

/-- The loop over a word takes its bits in their order. -/
theorem wordCodes_eq (index : Nat) {word : Nat} (h : word < 2 ^ 64) :
    wordCodes (saturatingMul index usizeBits) word =
      ((bitPlaces 64 word).map (64 * index + ·)).filterMap toU16 := by
  induction word using Nat.strongRecOn with
  | _ word ih =>
    unfold wordCodes
    split_ifs with hzero
    · rw [hzero, bitPlaces_zero]
      rfl
    · have hsmaller := and_pred_lt hzero
      rw [ih _ hsmaller (Nat.lt_trans hsmaller h), bitPlaces_eq hzero h, List.map_cons,
        toU16_saturatingAdd]
      unfold usizeBits
      cases hcode : toU16 (64 * index + trailingZeros 64 word) with
      | none => rw [List.filterMap_cons_none hcode]; rfl
      | some code => rw [List.filterMap_cons_some hcode]; rfl

/-- What the loop takes a word for. -/
def readWord (word : Bytes) : Nat := (usizeFromHex word).getD 0

theorem readWord_lt (word : Bytes) : readWord word < 2 ^ 64 := by
  unfold readWord usizeFromHex usizeBits
  generalize (if word.head? = some 0x2b then word.tail else word) = text
  dsimp only
  split_ifs with htext
  · exact htext.2.2
  · exact Nat.two_pow_pos 64

theorem codesFrom_eq (index : Nat) (words : List Bytes) :
    codesFrom index words = (placesFrom index (words.map readWord)).filterMap toU16 := by
  induction words generalizing index with
  | nil => rfl
  | cons word words ih =>
    unfold codesFrom
    rw [ih, List.map_cons, placesFrom, List.filterMap_append]
    exact congrArg (· ++ _) (wordCodes_eq index (readWord_lt word))

theorem toU16_some {p : Nat} {code : UInt16} (h : toU16 p = some code) : code.toNat = p := by
  unfold toU16 at h
  split_ifs at h with hlt
  rw [← Option.some.inj h, UInt16.toNat_ofNat']
  exact Nat.mod_eq_of_lt hlt

/-- The codes come in order already, and all that is left out is what does not fit 16 bits. -/
theorem bitmapCodes_eq (value : Bytes) : (bitmapCodes value).map UInt16.toNat =
    (placesFrom 0 ((value.splitOn 32).reverse.map readWord)).filter (· < 2 ^ 16) := by
  have hordered := placesFrom_pairwise 0 ((value.splitOn 32).reverse.map readWord)
  unfold bitmapCodes
  rw [codesFrom_eq, List.mergeSort_of_pairwise]
  · generalize placesFrom 0 _ = positions
    induction positions with
    | nil => rfl
    | cons p positions ih =>
      by_cases hlt : p < 2 ^ 16
      · have hcode : toU16 p = some (UInt16.ofNat p) := if_pos hlt
        rw [List.filterMap_cons_some hcode, List.map_cons, ih, toU16_some hcode,
          List.filter_cons_of_pos (by simpa using hlt)]
      · have hcode : toU16 p = none := if_neg hlt
        rw [List.filterMap_cons_none hcode, ih, List.filter_cons_of_neg (by simpa using hlt)]
  · refine List.pairwise_filterMap.mpr (hordered.imp fun {p q} hpq code hcode other hother => ?_)
    rw [decide_eq_true_eq, UInt16.le_iff_toNat_le, toU16_some hcode, toU16_some hother]
    exact Nat.le_of_lt hpq

theorem map_toNat_inj {codes others : List UInt16}
    (h : codes.map UInt16.toNat = others.map UInt16.toNat) : codes = others :=
  List.map_injective_iff.mpr (fun _ _ => UInt16.toNat_inj.mp) h

/-! ## When a bitmap is matched by its bits -/

/-- The words of an accepted bitmap are read for what they are, if they fit. -/
theorem readWord_eq {value : Bytes} (hvalue : validateCapabilityValue value = true)
    (h : ∀ word ∈ bitmapWords value, word < 2 ^ 64) :
    (value.splitOn 32).reverse.map readWord = bitmapWords value := by
  refine List.map_congr_left fun word hword => ?_
  have hmem : word ∈ value.splitOn 32 := List.mem_reverse.mp hword
  have hlt : hexNumber word < 2 ^ 64 := h _ (List.mem_map_of_mem hword)
  have hdigits : ∀ b ∈ word, (isDigit b || within 0x61 0x66 b) = true := by
    intro b hb
    simp only [validateCapabilityValue, Bool.and_eq_true, List.all_eq_true] at hvalue
    have hchar := hvalue.2 b (mem_of_mem_splitOn hmem hb)
    have hblank : b ≠ 32 := fun heq => not_mem_of_mem_splitOn hmem (heq ▸ hb)
    simpa [hblank] using hchar
  have hplus : word.head? ≠ some 0x2b := by
    intro hhead
    have hplus := hdigits 0x2b (List.mem_of_mem_head? (Option.mem_def.mpr hhead))
    exact absurd hplus (by decide)
  unfold readWord usizeFromHex
  rw [if_neg hplus]
  by_cases hnil : word = []
  · rw [hnil]
    rfl
  · have hall : word.all isHexDigit = true :=
      List.all_eq_true.mpr fun b hb => by rw [isHexDigit, hdigits b hb, Bool.true_or]
    rw [if_pos ⟨hnil, hall, hlt⟩]
    rfl

theorem FitsCodes.bitmapCodes {value : Bytes} (hvalue : validateCapabilityValue value = true)
    (h : FitsCodes value) :
    (Broker.bitmapCodes value).map UInt16.toNat = placesFrom 0 (bitmapWords value) := by
  rw [bitmapCodes_eq, readWord_eq hvalue h.words, List.filter_eq_self]
  intro p hp
  obtain ⟨-, word, hword, htest⟩ := mem_placesFrom.mp hp
  rw [decide_eq_true_eq]
  by_contra hbeyond
  have hzero := h.high (p / 64) word hword (by omega)
  rw [hzero, Nat.zero_testBit] at htest
  cases htest

/-- A bitmap that has its codes for its bits fits. -/
theorem BitPositions.fits {value : Bytes} {codes : List UInt16}
    (h : BitPositions value (codes.map UInt16.toNat)) : FitsCodes value := by
  refine ⟨h.words, fun i word hword hhigh => ?_⟩
  by_contra hne
  have hlt := h.words word (List.mem_of_getElem? hword)
  obtain ⟨bit, hbit⟩ := Nat.exists_testBit_of_ne_zero hne
  have hbound : bit < 64 := by
    by_contra hbeyond
    rw [Nat.testBit_lt_two_pow
      (Nat.lt_of_lt_of_le hlt (Nat.pow_le_pow_right (by decide) (Nat.le_of_not_lt hbeyond)))] at hbit
    cases hbit
  have hdiv : (64 * i + bit) / 64 = i := by omega
  have hmod : (64 * i + bit) % 64 = bit := by omega
  have hmem := (h.set (64 * i + bit)).mpr ⟨word, by rw [hdiv]; exact hword, by rw [hmod]; exact hbit⟩
  obtain ⟨code, -, hcode⟩ := List.mem_map.mp hmem
  have hcode_lt := code.toNat_lt
  omega

/-- For every accepted bitmaps and every kind: the codes that match are the bits of the bitmap, each
    once and in order, exactly when every word fits 64 bits and only the last 1024 words have bits. -/
theorem capability_matches_iff (capabilities : DeviceCapabilities) (kind : CapabilityKind) :
    (∀ codes, capabilities.matches kind codes = true ↔
      BitPositions (capabilities.bitmap kind) (codes.map UInt16.toNat)) ↔
    FitsCodes (capabilities.bitmap kind) := by
  have hvalue : validateCapabilityValue (capabilities.bitmap kind) = true :=
    List.all_eq_true.mp capabilities.valid _ (List.get_mem _ _)
  constructor
  · intro h
    have hself : capabilities.matches kind (bitmapCodes (capabilities.bitmap kind)) = true :=
      decide_eq_true rfl
    exact ((h _).mp hself).fits
  · intro h codes
    unfold DeviceCapabilities.matches
    rw [decide_eq_true_eq, bitPositions_iff h.words, ← h.bitmapCodes hvalue, eq_comm]
    exact ⟨congrArg _, map_toNat_inj⟩

/-- A bitmap with one bit, the lowest of the first word, and words without bits after it. -/
def farBitmap (zeros : Nat) : Bytes := [32].intercalate ([49] :: List.replicate zeros [48])

theorem splitOn_farBitmap (zeros : Nat) :
    (farBitmap zeros).splitOn 32 = [49] :: List.replicate zeros [48] := by
  unfold farBitmap
  refine List.splitOn_intercalate 32 (fun word hword => ?_) (List.cons_ne_nil _ _)
  rcases List.mem_cons.mp hword with rfl | hword
  · decide
  · rw [(List.mem_replicate.mp hword).2]
    decide

theorem map_farBitmap {f : Bytes → Nat} (hone : f [49] = 1) (hzero : f [48] = 0) (zeros : Nat) :
    ((farBitmap zeros).splitOn 32).reverse.map f = List.replicate zeros 0 ++ [1] := by
  rw [splitOn_farBitmap]
  simp [hone, hzero]

theorem placesFrom_far (zeros : Nat) : ∀ p ∈ placesFrom 0 (List.replicate zeros 0 ++ [1]),
    64 * zeros ≤ p := by
  intro p hp
  obtain ⟨-, word, hword, htest⟩ := mem_placesFrom.mp hp
  by_contra hlt
  rw [Nat.sub_zero, List.getElem?_append_left (by simp; omega), List.getElem?_replicate,
    if_pos (by omega)] at hword
  rw [← Option.some.inj hword, Nat.zero_testBit] at htest
  cases htest

theorem bitmapWords_far (zeros : Nat) : (bitmapWords (farBitmap zeros))[zeros]? = some 1 := by
  unfold bitmapWords
  rw [map_farBitmap (by decide) (by decide), List.getElem?_append_right (by simp)]
  simp

/-- Ten bitmaps of 1025 words. -/
def farCapabilities : DeviceCapabilities where
  values := List.replicate 10 (farBitmap 1024)
  ten := rfl
  valid := by
    have hfar : validateCapabilityValue (farBitmap 1024) = true := by decide +kernel
    rw [List.all_replicate, hfar]
    rfl

/-- The bit is set at 65536, and the bitmap is matched by no codes at all. -/
theorem capability_far_bit : farCapabilities.matches .key [] = true ∧
    ¬ BitPositions (farCapabilities.bitmap .key) [] := by
  have hbitmap : farCapabilities.bitmap .key = farBitmap 1024 := rfl
  constructor
  · have hcodes : (bitmapCodes (farBitmap 1024)).map UInt16.toNat = [] := by
      rw [bitmapCodes_eq, map_farBitmap (by decide) (by decide), List.filter_eq_nil_iff]
      intro p hp
      have hfar := placesFrom_far 1024 p hp
      rw [decide_eq_true_eq]
      omega
    unfold DeviceCapabilities.matches
    rw [hbitmap, decide_eq_true_eq]
    exact List.map_eq_nil_iff.mp hcodes
  · rw [hbitmap]
    intro h
    have hfits : FitsCodes (farBitmap 1024) := @BitPositions.fits _ [] h
    exact absurd (hfits.high 1024 1 (bitmapWords_far 1024) (Nat.le_refl _)) (by decide)

end AgentSeat.Broker
