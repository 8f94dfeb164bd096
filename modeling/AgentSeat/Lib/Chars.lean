/-
  Texts as lists of characters: the bytes they take, their lines and the blanks around them.
-/
import Mathlib.Data.List.Basic
import Mathlib.Data.List.Infix

namespace AgentSeat.Lib.Chars

/-! ## Places in bytes -/

def utf8Len : List Char → Nat
  | [] => 0
  | c :: text => c.utf8Size + utf8Len text

@[simp] theorem utf8Len_nil : utf8Len [] = 0 := rfl

@[simp] theorem utf8Len_cons (c : Char) (text : List Char) :
    utf8Len (c :: text) = c.utf8Size + utf8Len text := rfl

theorem utf8Len_append (text more : List Char) :
    utf8Len (text ++ more) = utf8Len text + utf8Len more := by
  induction text with
  | nil => rw [List.nil_append, utf8Len_nil, Nat.zero_add]
  | cons c text ih => rw [List.cons_append, utf8Len_cons, utf8Len_cons, ih, Nat.add_assoc]

/-- The text in front of a byte and the text from it on; nothing inside a character. -/
def splitAtByte : Nat → List Char → Option (List Char × List Char)
  | 0, text => some ([], text)
  | _ + 1, [] => none
  | n + 1, c :: text =>
    if c.utf8Size ≤ n + 1 then
      (splitAtByte (n + 1 - c.utf8Size) text).map fun parts => (c :: parts.1, parts.2)
    else none

/-- The text between two bytes, which must both be bounds of characters. -/
def slice (low high : Nat) (text : List Char) : Option (List Char) :=
  if low ≤ high then
    (splitAtByte high text).bind fun parts => (splitAtByte low parts.1).map Prod.snd
  else none

theorem splitAtByte_append (after : List Char) : ∀ before : List Char,
    splitAtByte (utf8Len before) (before ++ after) = some (before, after)
  | [] => by rw [utf8Len_nil, splitAtByte, List.nil_append]
  | c :: before => by
    obtain ⟨n, hn⟩ : ∃ n, utf8Len (c :: before) = n + 1 := by
      have := c.utf8Size_pos
      rw [utf8Len_cons]
      exact ⟨c.utf8Size + utf8Len before - 1, by omega⟩
    have hrest : n + 1 - c.utf8Size = utf8Len before := by
      rw [utf8Len_cons] at hn
      omega
    have hle : c.utf8Size ≤ n + 1 := by
      rw [utf8Len_cons] at hn
      omega
    rw [hn, List.cons_append, splitAtByte, if_pos hle, hrest, splitAtByte_append after before,
      Option.map_some]

theorem slice_append (before inside after : List Char) :
    slice (utf8Len before) (utf8Len before + utf8Len inside) (before ++ inside ++ after) =
      some inside := by
  rw [slice, if_pos (Nat.le_add_right _ _), ← utf8Len_append, splitAtByte_append, Option.bind_some,
    splitAtByte_append, Option.map_some]

/-! ## Characters -/

/-- The control characters of Unicode. -/
def isControl (c : Char) : Bool := c.toNat < 0x20 || (0x7f ≤ c.toNat && c.toNat < 0xa0)

/-- The characters with the property `White_Space`. -/
def isWhitespace (c : Char) : Bool :=
  (0x09 ≤ c.toNat && c.toNat ≤ 0x0d) || c.toNat == 0x20 || c.toNat == 0x85 || c.toNat == 0xa0 ||
    c.toNat == 0x1680 || (0x2000 ≤ c.toNat && c.toNat ≤ 0x200a) || c.toNat == 0x2028 ||
    c.toNat == 0x2029 || c.toNat == 0x202f || c.toNat == 0x205f || c.toNat == 0x3000

def isAsciiAlphanumeric (c : Char) : Bool :=
  (0x41 ≤ c.toNat && c.toNat ≤ 0x5a) || (0x61 ≤ c.toNat && c.toNat ≤ 0x7a) ||
    (0x30 ≤ c.toNat && c.toNat ≤ 0x39)

def trim (text : List Char) : List Char :=
  ((text.dropWhile isWhitespace).reverse.dropWhile isWhitespace).reverse

/-! ## Lines -/

/-- The text without one such character at its end. -/
def stripSuffix (c : Char) (text : List Char) : List Char :=
  if text.getLast? = some c then text.dropLast else text

/-- The lines of a text with the newlines that end them. -/
def splitInclusive : List Char → List (List Char)
  | [] => []
  | c :: text =>
    if c = '\n' then [c] :: splitInclusive text
    else match splitInclusive text with
      | [] => [[c]]
      | line :: rest => (c :: line) :: rest

/-- A line ends with a newline, which may have a carriage return in front. -/
def lines (text : List Char) : List (List Char) :=
  (splitInclusive text).map fun line =>
    if line.getLast? = some '\n' then stripSuffix '\r' line.dropLast else line

end AgentSeat.Lib.Chars
