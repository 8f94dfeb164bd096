/-
  The images of a reply: what the check of their text says about the bytes it spells.

  The check decodes nothing. It compares the first eleven symbols, counts the pads and looks at one
  symbol in front of them; `valid_png_base64_exact` says that this accepts the canonical spellings of
  the byte strings that open as a PNG file does, and no other text.
-/
import AgentSeat.Lib.Base64
import AgentSeat.Proto.Validate

namespace AgentSeat.Proto

open Lib.Base64

def symbolsFrom (first : Char) (count : Nat) : List UInt8 :=
  (List.range count).map fun k => UInt8.ofNat (first.toNat + k)

/-- The symbols of RFC 4648, each at the place of its value. -/
def standardSymbols : List UInt8 :=
  symbolsFrom 'A' 26 ++ symbolsFrom 'a' 26 ++ symbolsFrom '0' 10 ++ symbolsFrom '+' 1 ++
    symbolsFrom '/' 1

theorem forall_byte {P : UInt8 → Prop} (h : ∀ n < 256, P (UInt8.ofNat n)) (b : UInt8) : P b := by
  have hb := h b.toNat b.toNat_lt
  rwa [UInt8.ofNat_toNat] at hb

theorem base64Value_symbol : ∀ n < 64, base64Value (standardSymbols.getD n 0) = some n := by
  decide +kernel

/-- A byte with a value is the symbol of it. -/
theorem symbol_base64Value (b : UInt8) (n : Nat) (h : base64Value b = some n) :
    n < 64 ∧ standardSymbols.getD n 0 = b := by
  have hall := forall_byte (P := fun b => (base64Value b).all fun n =>
    decide (n < 64) && standardSymbols.getD n 0 == b) (by decide +kernel) b
  rw [h] at hall
  simpa using hall

def standardSymbol (n : Fin 64) : UInt8 := standardSymbols.getD n.val 0

def standardValue (b : UInt8) : Option (Fin 64) := (base64Value b).map sextet

theorem standardValue_symbol (n : Fin 64) : standardValue (standardSymbol n) = some n := by
  rw [standardValue, standardSymbol, base64Value_symbol n.val n.isLt, Option.map_some]
  exact congrArg some (Fin.ext (Nat.mod_eq_of_lt n.isLt))

theorem standardSymbol_value {b : UInt8} {n : Fin 64} (h : standardValue b = some n) :
    standardSymbol n = b := by
  obtain ⟨v, hv, rfl⟩ := Option.map_eq_some_iff.1 h
  obtain ⟨hlt, hsymbol⟩ := symbol_base64Value b v hv
  show standardSymbols.getD (v % 64) 0 = b
  rw [Nat.mod_eq_of_lt hlt, hsymbol]

theorem standardValue_pad : standardValue 61 = none := rfl

def standard : Alphabet where
  symbol := standardSymbol
  value := standardValue
  pad := 61
  value_symbol := standardValue_symbol
  symbol_value := standardSymbol_value
  value_pad := standardValue_pad

/-- The eight bytes that open a PNG file. -/
def pngSignature : List UInt8 := [0x89, 0x50, 0x4e, 0x47, 0x0d, 0x0a, 0x1a, 0x0a]

theorem base64Value_eq (b : UInt8) : base64Value b = (standard.value b).map Fin.val := by
  show _ = ((base64Value b).map sextet).map Fin.val
  cases h : base64Value b with
  | none => rfl
  | some n =>
    have hlt := (symbol_base64Value b n h).1
    show some n = some (n % 64)
    rw [Nat.mod_eq_of_lt hlt]

theorem symbol_iff (b : UInt8) :
    (isAsciiAlphanumeric b || b == 43 || b == 47) = (standard.value b).isSome :=
  forall_byte (P := fun b => (isAsciiAlphanumeric b || b == 43 || b == 47) =
    (standard.value b).isSome) (by decide +kernel) b

theorem lastSymbol_iff (body : List UInt8) (n : Nat) : lastSymbol body n = true ↔
    ∃ b v, body.getLast? = some b ∧ standard.value b = some v ∧ v.val % n = 0 := by
  unfold lastSymbol
  cases hlast : body.getLast? with
  | none => simp
  | some b =>
    rw [Option.bind_some, base64Value_eq]
    cases hvalue : standard.value b with
    | none => simp [hvalue]
    | some v => simp [hvalue]

/-! ## Padding -/

/-- What is counted from the end is what stands there. -/
theorem pads_at_end (pad : UInt8) (data : List UInt8) : ∃ body,
    data = body ++ List.replicate (data.reverse.takeWhile (· = pad)).length pad := by
  have hpads : data.reverse.takeWhile (· = pad) =
      List.replicate (data.reverse.takeWhile (· = pad)).length pad := by
    refine List.eq_replicate_iff.2 ⟨rfl, fun b hb => ?_⟩
    have hall := List.all_takeWhile (p := fun b : UInt8 => decide (b = pad)) (l := data.reverse)
    simpa using List.all_eq_true.1 hall b hb
  refine ⟨(data.reverse.dropWhile (· = pad)).reverse, ?_⟩
  have hparts := List.takeWhile_append_dropWhile (p := fun b : UInt8 => decide (b = pad))
    (l := data.reverse)
  calc data = data.reverse.reverse := (List.reverse_reverse data).symm
    _ = (data.reverse.dropWhile (· = pad)).reverse ++
        (data.reverse.takeWhile (· = pad)).reverse := by
      rw [← List.reverse_append, hparts]
    _ = _ := by
      rw [hpads, List.reverse_replicate, List.length_replicate]

theorem count_pads {pad : UInt8} {body : List UInt8} (h : pad ∉ body) (pads : Nat) :
    ((body ++ List.replicate pads pad).reverse.takeWhile (· = pad)).length = pads := by
  have hbody : body.reverse.takeWhile (· = pad) = [] := by
    cases hrev : body.reverse with
    | nil => rfl
    | cons b rest =>
      have hb : b ∈ body := List.mem_reverse.1 (hrev ▸ List.mem_cons_self)
      have hne : ¬ b = pad := fun heq => h (heq ▸ hb)
      rw [List.takeWhile_cons_of_neg (by simpa using hne)]
  rw [List.reverse_append, List.reverse_replicate,
    List.takeWhile_append_of_pos (by simp), hbody, List.append_nil, List.length_replicate]

theorem take_body (body : List UInt8) (pads : Nat) (pad : UInt8) :
    (body ++ List.replicate pads pad).take ((body ++ List.replicate pads pad).length - pads) = body :=
  List.take_left' (by rw [List.length_append, List.length_replicate]; omega)

theorem drop_body (body : List UInt8) (pads : Nat) (pad : UInt8) :
    (body ++ List.replicate pads pad).drop ((body ++ List.replicate pads pad).length - pads) =
      List.replicate pads pad :=
  List.drop_left' (by rw [List.length_append, List.length_replicate]; omega)

theorem clear_iff (body : List UInt8) : ∀ {pads : Nat}, pads ≤ 2 →
    ((if pads = 0 then true else if pads = 1 then lastSymbol body 4 else lastSymbol body 16) = true ↔
      (pads ≠ 0 → ∃ b v, body.getLast? = some b ∧ standard.value b = some v ∧
        v.val % unused pads = 0))
  | 0, _ => by simp
  | 1, _ => by
    rw [if_neg (by omega), if_pos rfl, lastSymbol_iff]
    exact ⟨fun h _ => h, fun h => h (by omega)⟩
  | 2, _ => by
    rw [if_neg (by omega), if_neg (by omega), lastSymbol_iff]
    exact ⟨fun h _ => h, fun h => h (by omega)⟩

/-- The check of a text whose pads are counted. -/
theorem valid_iff {data body : List UInt8} {pads : Nat}
    (hcount : (data.reverse.takeWhile (· = 61)).length = pads)
    (hdata : data = body ++ List.replicate pads 61) : validPngBase64 data = true ↔
      (12 ≤ data.length ∧ asBytes "iVBORw0KGgo" <+: data) ∧ standard.Spelled body pads := by
  have hlength : data.length = body.length + pads := by
    rw [hdata, List.length_append, List.length_replicate]
  have hsymbols : (body.all fun byte => isAsciiAlphanumeric byte || byte == 43 || byte == 47) = true ↔
      ∀ b ∈ body, (standard.value b).isSome := by
    simp only [List.all_eq_true, symbol_iff]
  have hpads : (List.replicate pads (61 : UInt8)).all (fun byte => byte == 61) = true := by
    simp
  unfold validPngBase64
  simp only [hcount]
  rw [hdata, take_body, drop_body, ← hdata, hpads, Bool.not_true, Bool.or_false]
  -- the checks in the order of the code
  by_cases hhead : data.length < 12 ∨ data.length % 4 ≠ 0 ∨
      ¬ (asBytes "iVBORw0KGgo").isPrefixOf data = true
  · rw [if_pos hhead]
    refine iff_of_false (by simp) ?_
    rintro ⟨⟨hlong, hstart⟩, hspelled⟩
    have hwhole := hspelled.whole
    obtain h | h | h := hhead
    · omega
    · omega
    · exact h (List.isPrefixOf_iff_prefix.2 hstart)
  rw [if_neg hhead]
  simp only [not_or, Nat.not_lt, not_not, ne_eq] at hhead
  obtain ⟨hlong, hfour, hstart⟩ := hhead
  by_cases hfew : pads ≤ 2
  swap
  · rw [if_pos (by omega)]
    exact iff_of_false (by simp) fun h => hfew h.2.few
  rw [if_neg (by omega)]
  by_cases hall : ∀ b ∈ body, (standard.value b).isSome
  swap
  · rw [if_pos (by rw [Bool.not_eq_true', ← Bool.not_eq_true, hsymbols]; exact hall)]
    exact iff_of_false (by simp) fun h => hall h.2.symbols
  rw [if_neg (by rw [Bool.not_eq_true', ← Bool.not_eq_true, hsymbols]; exact not_not.2 hall),
    clear_iff body hfew]
  constructor
  · intro hclear
    exact ⟨⟨hlong, List.isPrefixOf_iff_prefix.1 hstart⟩, hall, hfew, by omega, hclear⟩
  · exact fun h => h.2.clear

/-- The check, with its count of pads replaced by the text it counts in. -/
theorem valid_iff_spelled (data : List UInt8) : validPngBase64 data = true ↔
    (12 ≤ data.length ∧ asBytes "iVBORw0KGgo" <+: data) ∧ ∃ bytes, data = standard.encode bytes := by
  rw [spelled_iff]
  constructor
  · intro h
    obtain ⟨body, hdata⟩ := pads_at_end 61 data
    obtain ⟨hhead, hspelled⟩ := (valid_iff rfl hdata).1 h
    exact ⟨hhead, body, _, hspelled, hdata⟩
  · rintro ⟨hhead, body, pads, hspelled, hdata⟩
    have hbody : 61 ∉ body := by
      intro hmem
      have hsome := hspelled.symbols 61 hmem
      rw [show standard.value 61 = none from standard.value_pad] at hsome
      exact absurd hsome (by simp)
    have hcount : (data.reverse.takeWhile (· = 61)).length = pads := by
      rw [show data = body ++ List.replicate pads 61 from hdata, count_pads hbody]
    exact (valid_iff hcount hdata).2 ⟨hhead, hspelled⟩

/-! ## The first bytes -/

theorem spell_eq {b : UInt8} {v : Fin 64} (h : standard.value b = some v) (n : Nat) :
    b = standard.spell n ↔ n % 64 = v.val := by
  constructor
  · rintro rfl
    rw [value_spell] at h
    exact congrArg Fin.val (Option.some.inj h)
  · intro hn
    rw [← Nat.div_add_mod n 64, hn, Nat.mul_comm]
    exact (spell_value h (n / 64)).symm

theorem spell_group {p q r : UInt8} {u v w : Fin 64} (hp : standard.value p = some u)
    (hq : standard.value q = some v) (hr : standard.value r = some w) (n : Nat) :
    (p = standard.spell (n / 262144) ∧ q = standard.spell (n / 4096) ∧ r = standard.spell (n / 64)) ↔
      n / 64 % 262144 = (u.val * 64 + v.val) * 64 + w.val := by
  rw [spell_eq hp, spell_eq hq, spell_eq hr]
  have hu := u.isLt
  have hv := v.isLt
  have hw := w.isLt
  omega

theorem first_group (a b c : UInt8) :
    ((105 = standard.spell (join a b c / 262144) ∧ 86 = standard.spell (join a b c / 4096) ∧
      66 = standard.spell (join a b c / 64)) ∧ 79 = standard.spell (join a b c)) ↔
      0x89 = a ∧ 0x50 = b ∧ 0x4e = c := by
  have hi : standard.value 105 = some 34 := by decide
  have hV : standard.value 86 = some 21 := by decide
  have hB : standard.value 66 = some 1 := by decide
  have hO : standard.value 79 = some 14 := by decide
  rw [spell_group hi hV hB, spell_eq hO, ← UInt8.toNat_inj, ← UInt8.toNat_inj,
    ← UInt8.toNat_inj]
  have ha := a.toNat_lt
  have hb := b.toNat_lt
  have hc := c.toNat_lt
  show _ / 64 % 262144 = (34 * 64 + 21) * 64 + 1 ∧ _ % 64 = 14 ↔
    0x89 = a.toNat ∧ 0x50 = b.toNat ∧ 0x4e = c.toNat
  unfold join
  omega

theorem second_group (a b c : UInt8) :
    ((82 = standard.spell (join a b c / 262144) ∧ 119 = standard.spell (join a b c / 4096) ∧
      48 = standard.spell (join a b c / 64)) ∧ 75 = standard.spell (join a b c)) ↔
      0x47 = a ∧ 0x0d = b ∧ 0x0a = c := by
  have hR : standard.value 82 = some 17 := by decide
  have hw : standard.value 119 = some 48 := by decide
  have h0 : standard.value 48 = some 52 := by decide
  have hK : standard.value 75 = some 10 := by decide
  rw [spell_group hR hw h0, spell_eq hK, ← UInt8.toNat_inj, ← UInt8.toNat_inj,
    ← UInt8.toNat_inj]
  have ha := a.toNat_lt
  have hb := b.toNat_lt
  have hc := c.toNat_lt
  show _ / 64 % 262144 = (17 * 64 + 48) * 64 + 52 ∧ _ % 64 = 10 ↔
    0x47 = a.toNat ∧ 0x0d = b.toNat ∧ 0x0a = c.toNat
  unfold join
  omega

theorem third_group (a b c : UInt8) :
    (71 = standard.spell (join a b c / 262144) ∧ 103 = standard.spell (join a b c / 4096) ∧
      111 = standard.spell (join a b c / 64)) ↔ (0x1a = a ∧ 0x0a = b) ∧ c < 0x40 := by
  have hG : standard.value 71 = some 6 := by decide
  have hg : standard.value 103 = some 32 := by decide
  have ho : standard.value 111 = some 40 := by decide
  rw [spell_group hG hg ho, ← UInt8.toNat_inj, ← UInt8.toNat_inj, UInt8.lt_iff_toNat_lt]
  have ha := a.toNat_lt
  have hb := b.toNat_lt
  have hc := c.toNat_lt
  show _ / 64 % 262144 = (6 * 64 + 32) * 64 + 40 ↔
    (0x1a = a.toNat ∧ 0x0a = b.toNat) ∧ c.toNat < 0x40
  unfold join
  omega

/-- The symbols the check compares with. -/
theorem pngStart_bytes : asBytes "iVBORw0KGgo" = [105, 86, 66, 79, 82, 119, 48, 75, 71, 103, 111] := by
  decide +kernel

theorem start_groups {p0 p1 p2 p3 p4 p5 p6 p7 p8 p9 p10 : UInt8} {rest : List UInt8} :
    asBytes "iVBORw0KGgo" <+: p0 :: p1 :: p2 :: p3 :: p4 :: p5 :: p6 :: p7 :: p8 :: p9 :: p10 :: rest ↔
      ((105 = p0 ∧ 86 = p1 ∧ 66 = p2) ∧ 79 = p3) ∧ ((82 = p4 ∧ 119 = p5 ∧ 48 = p6) ∧ 75 = p7) ∧
        71 = p8 ∧ 103 = p9 ∧ 111 = p10 := by
  rw [pngStart_bytes]
  simp only [List.cons_prefix_cons, List.nil_prefix, and_true, and_assoc]

theorem signature_groups {a0 a1 a2 a3 a4 a5 a6 a7 : UInt8} {rest : List UInt8} :
    pngSignature <+: a0 :: a1 :: a2 :: a3 :: a4 :: a5 :: a6 :: a7 :: rest ↔
      (0x89 = a0 ∧ 0x50 = a1 ∧ 0x4e = a2) ∧ (0x47 = a3 ∧ 0x0d = a4 ∧ 0x0a = a5) ∧
        0x1a = a6 ∧ 0x0a = a7 := by
  simp only [pngSignature, List.cons_prefix_cons, List.nil_prefix, and_true, and_assoc]

/-- Eleven symbols spell the signature and two bits of the byte after it. -/
theorem starts_iff : ∀ bytes : List UInt8,
    (12 ≤ (standard.encode bytes).length ∧ asBytes "iVBORw0KGgo" <+: standard.encode bytes) ↔
      pngSignature <+: bytes ∧ (bytes.length = 8 ∨ ∃ b, bytes[8]? = some b ∧ b < 0x40)
  | a0 :: a1 :: a2 :: a3 :: a4 :: a5 :: a6 :: a7 :: a8 :: rest => by
    rw [Alphabet.encode, Alphabet.encode, Alphabet.encode, start_groups, first_group, second_group,
      third_group, signature_groups]
    have hlong : 12 ≤ (standard.encode rest).length + 12 := Nat.le_add_left _ _
    have hmore : ¬ (a0 :: a1 :: a2 :: a3 :: a4 :: a5 :: a6 :: a7 :: a8 :: rest).length = 8 := by
      simp only [List.length_cons]
      omega
    constructor
    · rintro ⟨-, hfirst, hsecond, hthird, ha8⟩
      exact ⟨⟨hfirst, hsecond, hthird⟩, .inr ⟨a8, rfl, ha8⟩⟩
    · rintro ⟨⟨hfirst, hsecond, hthird⟩, hlength | ⟨b, hb, ha8⟩⟩
      · exact absurd hlength hmore
      · exact ⟨hlong, hfirst, hsecond, hthird, (Option.some.inj hb : a8 = b) ▸ ha8⟩
  | [a0, a1, a2, a3, a4, a5, a6, a7] => by
    rw [Alphabet.encode, Alphabet.encode, Alphabet.encode, start_groups, first_group, second_group,
      third_group, signature_groups]
    constructor
    · rintro ⟨-, hfirst, hsecond, hthird, -⟩
      exact ⟨⟨hfirst, hsecond, hthird⟩, .inl rfl⟩
    · rintro ⟨⟨hfirst, hsecond, hthird⟩, -⟩
      exact ⟨Nat.le_refl 12, hfirst, hsecond, hthird, by decide⟩
  | [a0, a1, a2, a3, a4, a5, a6] => by
    rw [pngStart_bytes]
    have hpad : ¬ (111 : UInt8) = standard.pad := by decide
    simp [Alphabet.encode, pngSignature, hpad]
  | [a0, a1, a2, a3, a4, a5] => by simp [Alphabet.encode, pngSignature]
  | [a0, a1, a2, a3, a4] => by simp [Alphabet.encode, pngSignature]
  | [a0, a1, a2, a3] => by simp [Alphabet.encode, pngSignature]
  | [a0, a1, a2] => by simp [Alphabet.encode, pngSignature]
  | [a0, a1] => by simp [Alphabet.encode, pngSignature]
  | [a0] => by simp [Alphabet.encode, pngSignature]
  | [] => by simp [Alphabet.encode, pngSignature]

/-- The length of the first chunk, which follows the signature. -/
def firstChunkLength (png : List UInt8) : Nat :=
  ((png.drop pngSignature.length).take 4).foldl (fun n b => n * 256 + b.toNat) 0

/-- A text passes the check just when it is the canonical spelling of bytes that open with the
signature and then end or go on with a byte below 0x40. So a text is known by what it decodes to, and
every PNG file whose first chunk is shorter than 2^30 bytes has a spelling that passes. -/
theorem valid_png_base64_exact :
    (∀ data, validPngBase64 data = true ↔ ∃ bytes, data = standard.encode bytes ∧
      pngSignature <+: bytes ∧ (bytes.length = 8 ∨ ∃ b, bytes[8]? = some b ∧ b < 0x40)) ∧
    (∀ data other, validPngBase64 data = true → validPngBase64 other = true →
      standard.decode data = standard.decode other → data = other) ∧
    (∀ png, pngSignature <+: png → pngSignature.length + 4 ≤ png.length →
      firstChunkLength png < 2 ^ 30 → validPngBase64 (standard.encode png) = true) := by
  have hexact : ∀ data, validPngBase64 data = true ↔ ∃ bytes, data = standard.encode bytes ∧
      pngSignature <+: bytes ∧ (bytes.length = 8 ∨ ∃ b, bytes[8]? = some b ∧ b < 0x40) := by
    intro data
    rw [valid_iff_spelled]
    constructor
    · rintro ⟨hstart, bytes, rfl⟩
      exact ⟨bytes, rfl, (starts_iff bytes).1 hstart⟩
    · rintro ⟨bytes, rfl, hbytes⟩
      exact ⟨(starts_iff bytes).2 hbytes, bytes, rfl⟩
  refine ⟨hexact, ?_, ?_⟩
  · intro data other hdata hother heq
    obtain ⟨bytes, rfl, -⟩ := (hexact data).1 hdata
    obtain ⟨more, rfl, -⟩ := (hexact other).1 hother
    rw [decode_encode, decode_encode] at heq
    rw [Option.some.inj heq]
  · intro png hstart hlength hchunk
    refine (hexact _).2 ⟨png, rfl, hstart, .inr ?_⟩
    obtain ⟨rest, rfl⟩ := hstart
    match rest, hlength, hchunk with
    | b :: c :: d :: e :: rest, _, hchunk =>
      refine ⟨b, rfl, ?_⟩
      have hvalue : (((0 * 256 + b.toNat) * 256 + c.toNat) * 256 + d.toNat) * 256 + e.toNat <
          2 ^ 30 := hchunk
      rw [UInt8.lt_iff_toNat_lt]
      show b.toNat < 64
      omega
    | [], hlength, _ => simp at hlength
    | [_], hlength, _ => simp at hlength
    | [_, _], hlength, _ => simp at hlength
    | [_, _, _], hlength, _ => simp at hlength

end AgentSeat.Proto
