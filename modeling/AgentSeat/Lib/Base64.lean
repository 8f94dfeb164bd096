/-
  Base 64 with padding, over any alphabet of 64 symbols.

  `encode` spells three bytes with four symbols and a rest of one or two bytes with a padded group.
  `decode` reads a text back and looks at no bit that a padded group leaves over, so several texts
  may decode to one list of bytes; `encode` gives the one whose left-over bits are zero. `Spelled`
  says which texts these are without decoding them: symbols and then at most two pads, a whole number
  of groups, and no bit left over in the last symbol (`spelled_iff`).
-/
import Mathlib.Data.List.Infix
import Mathlib.Tactic.Ring

namespace AgentSeat.Lib.Base64

/-- The symbols and the value of each; the pad is none of them. -/
structure Alphabet where
  symbol : Fin 64 → UInt8
  value : UInt8 → Option (Fin 64)
  pad : UInt8
  value_symbol : ∀ n, value (symbol n) = some n
  symbol_value : ∀ {b n}, value b = some n → symbol n = b
  value_pad : value pad = none

/-- The low six bits. -/
def sextet (n : Nat) : Fin 64 := ⟨n % 64, Nat.mod_lt n (Nat.succ_pos 63)⟩

/-- The symbol of the low six bits. -/
def Alphabet.spell (A : Alphabet) (n : Nat) : UInt8 := A.symbol (sextet n)

/-- The byte of the low eight bits. -/
def byte (n : Nat) : UInt8 := UInt8.ofNat n

def join (a b c : UInt8) : Nat := a.toNat * 65536 + b.toNat * 256 + c.toNat

def Alphabet.encode (A : Alphabet) : List UInt8 → List UInt8
  | [] => []
  | [a] =>
    let n := join a 0 0
    [A.spell (n / 262144), A.spell (n / 4096), A.pad, A.pad]
  | [a, b] =>
    let n := join a b 0
    [A.spell (n / 262144), A.spell (n / 4096), A.spell (n / 64), A.pad]
  | a :: b :: c :: rest =>
    let n := join a b c
    A.spell (n / 262144) :: A.spell (n / 4096) :: A.spell (n / 64) :: A.spell n ::
      A.encode rest

/-- The number that symbols spell, the first one highest. -/
def Alphabet.number (A : Alphabet) : List UInt8 → Nat → Option Nat
  | [], n => some n
  | b :: rest, n => (A.value b).bind fun v => A.number rest (n * 64 + v.val)

def Alphabet.decode (A : Alphabet) : List UInt8 → Option (List UInt8)
  | [] => some []
  | w :: x :: y :: z :: rest =>
    if rest = [] ∧ z = A.pad then
      if y = A.pad then (A.number [w, x] 0).map fun n => [byte (n / 16)]
      else (A.number [w, x, y] 0).map fun n => [byte (n / 1024), byte (n / 4)]
    else (A.number [w, x, y, z] 0).bind fun n =>
      (A.decode rest).map fun more => byte (n / 65536) :: byte (n / 256) :: byte n :: more
  | _ => none

theorem ofNat_val (v : Fin 64) (k : Nat) : sextet (k * 64 + v.val) = v := by
  apply Fin.ext
  show (k * 64 + v.val) % 64 = v.val
  have := v.isLt
  omega

theorem toNat_byte (n : Nat) : (byte n).toNat = n % 256 := rfl

theorem byte_eq {n : Nat} {b : UInt8} (h : n % 256 = b.toNat) : byte n = b :=
  UInt8.toNat_inj.1 h

variable {A : Alphabet}

theorem spell_ne_pad (n : Nat) : A.spell n ≠ A.pad := by
  intro h
  have hvalue := A.value_symbol (sextet n)
  rw [show A.symbol (sextet n) = A.pad from h, A.value_pad] at hvalue
  exact absurd hvalue (by simp)

theorem value_spell (n : Nat) : A.value (A.spell n) = some (sextet n) := A.value_symbol _

theorem number_cons_spell (n k : Nat) (rest : List UInt8) :
    A.number (A.spell n :: rest) k = A.number rest (k * 64 + n % 64) := by
  show (A.value (A.spell n)).bind _ = _
  rw [value_spell]
  rfl

/-! ## Reading back -/

theorem number_two (n : Nat) :
    A.number [A.spell (n / 262144), A.spell (n / 4096)] 0 = some (n / 4096 % 4096) := by
  rw [number_cons_spell, number_cons_spell]
  show some _ = _
  congr 1
  omega

theorem number_three (n : Nat) :
    A.number [A.spell (n / 262144), A.spell (n / 4096), A.spell (n / 64)] 0 =
      some (n / 64 % 262144) := by
  rw [number_cons_spell, number_cons_spell, number_cons_spell]
  show some _ = _
  congr 1
  omega

theorem number_four (n : Nat) :
    A.number [A.spell (n / 262144), A.spell (n / 4096), A.spell (n / 64), A.spell n] 0 =
      some (n % 16777216) := by
  rw [number_cons_spell, number_cons_spell, number_cons_spell, number_cons_spell]
  show some _ = _
  congr 1
  omega

theorem join_bytes (a b c : UInt8) : byte (join a b c % 16777216 / 65536) = a ∧
    byte (join a b c % 16777216 / 256) = b ∧ byte (join a b c % 16777216) = c := by
  have ha := a.toNat_lt
  have hb := b.toNat_lt
  have hc := c.toNat_lt
  refine ⟨byte_eq ?_, byte_eq ?_, byte_eq ?_⟩ <;> unfold join <;> omega

theorem decode_encode : ∀ bytes : List UInt8, A.decode (A.encode bytes) = some bytes
  | [] => by rw [Alphabet.encode, Alphabet.decode]
  | [a] => by
    have hbyte : byte (join a 0 0 / 4096 % 4096 / 16) = a := by
      apply byte_eq
      have ha := a.toNat_lt
      have h0 : (0 : UInt8).toNat = 0 := rfl
      unfold join
      omega
    rw [Alphabet.encode, Alphabet.decode, if_pos ⟨rfl, rfl⟩, if_pos rfl, number_two, Option.map_some,
      hbyte]
  | [a, b] => by
    have hbytes : byte (join a b 0 / 64 % 262144 / 1024) = a ∧
        byte (join a b 0 / 64 % 262144 / 4) = b := by
      have ha := a.toNat_lt
      have hb := b.toNat_lt
      have h0 : (0 : UInt8).toNat = 0 := rfl
      refine ⟨byte_eq ?_, byte_eq ?_⟩ <;> unfold join <;> omega
    rw [Alphabet.encode, Alphabet.decode, if_pos ⟨rfl, rfl⟩, if_neg (spell_ne_pad _), number_three,
      Option.map_some, hbytes.1, hbytes.2]
  | a :: b :: c :: rest => by
    obtain ⟨ha, hb, hc⟩ := join_bytes a b c
    rw [Alphabet.encode, Alphabet.decode, if_neg (fun h => spell_ne_pad _ h.2), number_four,
      Option.bind_some, decode_encode rest, Option.map_some, ha, hb, hc]

theorem encode_injective : Function.Injective A.encode := by
  intro x y h
  have hdecode := congrArg A.decode h
  rw [decode_encode, decode_encode] at hdecode
  exact Option.some.inj hdecode

/-! ## Which texts are spelled -/

/-- The bits that one pad, or two, leave over in the last symbol. -/
def unused : Nat → Nat
  | 0 => 1
  | 1 => 4
  | _ => 16

/-- Symbols and then pads, whole groups of four, and no bit left over. -/
structure Alphabet.Spelled (A : Alphabet) (body : List UInt8) (pads : Nat) : Prop where
  symbols : ∀ b ∈ body, (A.value b).isSome
  few : pads ≤ 2
  whole : (body.length + pads) % 4 = 0
  clear : pads ≠ 0 → ∃ b v, body.getLast? = some b ∧ A.value b = some v ∧ v.val % unused pads = 0

theorem spell_value {b : UInt8} {v : Fin 64} (h : A.value b = some v) (k : Nat) :
    A.spell (k * 64 + v.val) = b := by
  unfold Alphabet.spell
  rw [ofNat_val]
  exact A.symbol_value h

/-- What `encode` gives is spelled. -/
theorem encode_spelled : ∀ bytes : List UInt8, ∃ body pads, A.Spelled body pads ∧
    A.encode bytes = body ++ List.replicate pads A.pad
  | [] => ⟨[], 0, ⟨by simp, by omega, rfl, fun h => absurd rfl h⟩, by rw [Alphabet.encode]; rfl⟩
  | [a] => by
    refine ⟨[A.spell (join a 0 0 / 262144), A.spell (join a 0 0 / 4096)], 2,
      ⟨?_, by omega, by simp, fun _ => ⟨_, _, rfl, value_spell _, ?_⟩⟩, by rw [Alphabet.encode]; rfl⟩
    · simp [value_spell]
    · show join a 0 0 / 4096 % 64 % 16 = 0
      have h0 : (0 : UInt8).toNat = 0 := rfl
      unfold join
      omega
  | [a, b] => by
    refine ⟨[A.spell (join a b 0 / 262144), A.spell (join a b 0 / 4096), A.spell (join a b 0 / 64)], 1,
      ⟨?_, by omega, by simp, fun _ => ⟨_, _, rfl, value_spell _, ?_⟩⟩, by rw [Alphabet.encode]; rfl⟩
    · simp [value_spell]
    · show join a b 0 / 64 % 64 % 4 = 0
      have h0 : (0 : UInt8).toNat = 0 := rfl
      unfold join
      omega
  | a :: b :: c :: rest => by
    obtain ⟨body, pads, h, htext⟩ := encode_spelled rest
    have hwhole := h.whole
    refine ⟨A.spell (join a b c / 262144) :: A.spell (join a b c / 4096) ::
      A.spell (join a b c / 64) :: A.spell (join a b c) :: body, pads, ⟨?_, h.few, ?_, ?_⟩, ?_⟩
    · simpa [value_spell] using h.symbols
    · simp only [List.length_cons]
      omega
    · intro hpads
      obtain ⟨last, v, hlast, hv⟩ := h.clear hpads
      refine ⟨last, v, ?_, hv⟩
      simp only [List.getLast?_cons, hlast, Option.getD_some]
    · rw [Alphabet.encode, htext]
      rfl

theorem join_byte (n : Nat) (h : n < 16777216) :
    join (byte (n / 65536)) (byte (n / 256)) (byte n) = n := by
  unfold join
  rw [toNat_byte, toNat_byte, toNat_byte]
  omega

/-- Every spelled text is what `encode` gives for some bytes. -/
theorem spelled_encode : ∀ {body : List UInt8} {pads : Nat}, A.Spelled body pads →
    ∃ bytes, A.encode bytes = body ++ List.replicate pads A.pad
  | [], pads, h => by
    have hwhole := h.whole
    have hfew := h.few
    have hpads : pads = 0 := by
      simp only [List.length_nil] at hwhole
      omega
    exact ⟨[], by rw [Alphabet.encode, hpads]; rfl⟩
  | [_], pads, h => by
    have hwhole := h.whole
    have hfew := h.few
    simp only [List.length_cons, List.length_nil] at hwhole
    omega
  | [w, x], pads, h => by
    have hwhole := h.whole
    have hfew := h.few
    have hpads : pads = 2 := by
      simp only [List.length_cons, List.length_nil] at hwhole
      omega
    subst hpads
    obtain ⟨v, hv⟩ := Option.isSome_iff_exists.1 (h.symbols w (by simp))
    obtain ⟨last, u, hlast, hu, hclear⟩ := h.clear (by omega)
    obtain rfl : x = last := Option.some.inj hlast
    have hv64 := v.isLt
    have hu64 := u.isLt
    have hzero : u.val % 16 = 0 := hclear
    have hjoin : join (byte (v.val * 4 + u.val / 16)) 0 0 = (v.val * 64 + u.val) * 4096 := by
      have h0 : (0 : UInt8).toNat = 0 := rfl
      unfold join
      rw [toNat_byte]
      omega
    refine ⟨[byte (v.val * 4 + u.val / 16)], ?_⟩
    rw [Alphabet.encode, hjoin,
      show (v.val * 64 + u.val) * 4096 / 262144 = 0 * 64 + v.val by omega,
      show (v.val * 64 + u.val) * 4096 / 4096 = v.val * 64 + u.val by omega, spell_value hv,
      spell_value hu]
    rfl
  | [w, x, y], pads, h => by
    have hwhole := h.whole
    have hfew := h.few
    have hpads : pads = 1 := by
      simp only [List.length_cons, List.length_nil] at hwhole
      omega
    subst hpads
    obtain ⟨v, hv⟩ := Option.isSome_iff_exists.1 (h.symbols w (by simp))
    obtain ⟨u, hu⟩ := Option.isSome_iff_exists.1 (h.symbols x (by simp))
    obtain ⟨last, t, hlast, ht, hclear⟩ := h.clear (by omega)
    obtain rfl : y = last := Option.some.inj hlast
    have hv64 := v.isLt
    have hu64 := u.isLt
    have ht64 := t.isLt
    have hzero : t.val % 4 = 0 := hclear
    -- the two bytes are the first sixteen of the eighteen bits
    have hjoin : join (byte (v.val * 4 + u.val / 16)) (byte (u.val % 16 * 16 + t.val / 4)) 0 =
        ((v.val * 64 + u.val) * 64 + t.val) * 64 := by
      have h0 : (0 : UInt8).toNat = 0 := rfl
      unfold join
      rw [toNat_byte, toNat_byte]
      omega
    refine ⟨[byte (v.val * 4 + u.val / 16), byte (u.val % 16 * 16 + t.val / 4)], ?_⟩
    rw [Alphabet.encode, hjoin,
      show ((v.val * 64 + u.val) * 64 + t.val) * 64 / 262144 = 0 * 64 + v.val by omega,
      show ((v.val * 64 + u.val) * 64 + t.val) * 64 / 4096 = v.val * 64 + u.val by omega,
      show ((v.val * 64 + u.val) * 64 + t.val) * 64 / 64 = (v.val * 64 + u.val) * 64 + t.val by omega,
      spell_value hv, spell_value hu, spell_value ht]
    rfl
  | w :: x :: y :: z :: rest, pads, h => by
    have hrest : A.Spelled rest pads := by
      refine ⟨fun b hb => h.symbols b (by simp [hb]), h.few, ?_, ?_⟩
      · have hwhole := h.whole
        simp only [List.length_cons] at hwhole
        omega
      · intro hpads
        obtain ⟨last, v, hlast, hv⟩ := h.clear hpads
        refine ⟨last, v, ?_, hv⟩
        -- a pad stands in a group with two symbols at least, so the rest is not empty
        match rest, hlast with
        | [], _ =>
          have hwhole := h.whole
          have hfew := h.few
          simp only [List.length_cons, List.length_nil] at hwhole
          omega
        | b :: more, hlast => simpa [List.getLast?_cons] using hlast
    obtain ⟨bytes, hbytes⟩ := spelled_encode hrest
    obtain ⟨v, hv⟩ := Option.isSome_iff_exists.1 (h.symbols w (by simp))
    obtain ⟨u, hu⟩ := Option.isSome_iff_exists.1 (h.symbols x (by simp))
    obtain ⟨t, ht⟩ := Option.isSome_iff_exists.1 (h.symbols y (by simp))
    obtain ⟨r, hr⟩ := Option.isSome_iff_exists.1 (h.symbols z (by simp))
    have hv64 := v.isLt
    have hu64 := u.isLt
    have ht64 := t.isLt
    have hr64 := r.isLt
    obtain ⟨n, hn⟩ : ∃ n, n = ((v.val * 64 + u.val) * 64 + t.val) * 64 + r.val := ⟨_, rfl⟩
    refine ⟨byte (n / 65536) :: byte (n / 256) :: byte n :: bytes, ?_⟩
    rw [Alphabet.encode, join_byte n (by omega), hbytes,
      show n / 262144 = 0 * 64 + v.val by omega, show n / 4096 = v.val * 64 + u.val by omega,
      show n / 64 = (v.val * 64 + u.val) * 64 + t.val by omega, hn, spell_value hv, spell_value hu,
      spell_value ht, spell_value hr]
    rfl

theorem spelled_iff (text : List UInt8) : (∃ bytes, text = A.encode bytes) ↔
    ∃ body pads, A.Spelled body pads ∧ text = body ++ List.replicate pads A.pad := by
  constructor
  · rintro ⟨bytes, rfl⟩
    exact encode_spelled bytes
  · rintro ⟨body, pads, h, rfl⟩
    obtain ⟨bytes, hbytes⟩ := spelled_encode h
    exact ⟨bytes, hbytes.symm⟩

end AgentSeat.Lib.Base64
