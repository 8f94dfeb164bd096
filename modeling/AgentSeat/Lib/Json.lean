/-
  JSON values and their compact text.

  A value keeps what a strict reader can tell apart: the order of an object's members, members that
  occur twice, and numbers that are not integers (kept as their token, since no integer reader
  accepts them). `render` is the compact encoder: no blank anywhere, quote, backslash and the five
  short controls as two bytes, every other control below 0x20 as six, all else as its UTF-8 bytes.

  Proved: the length of a rendered value from the lengths of its parts, and three bounds on a
  rendered text, by how much is known of its characters (`length_renderText_le`,
  `length_renderText_le_scalars`, `length_renderText_plain`).
-/
import Mathlib.Algebra.Group.Int.Defs
import Mathlib.Algebra.Group.Nat.Defs
import Mathlib.Data.List.Basic

namespace AgentSeat.Lib

inductive Json where
  | null
  | bool (value : Bool)
  | num (value : Int)
  | float (token : String)
  | str (value : String)
  | arr (items : List Json)
  | obj (members : List (String × Json))

namespace Json

def isObj : Json → Bool
  | .obj _ => true
  | _ => false

/-! ## Compact text -/

def ascii (s : String) : List UInt8 := s.toList.flatMap String.utf8EncodeChar

/-- One lowercase hexadecimal digit. -/
def hexDigit (n : Nat) : UInt8 := if n < 10 then UInt8.ofNat (48 + n) else UInt8.ofNat (87 + n)

/-- The bytes of one character inside a JSON string. -/
def escapeChar (c : Char) : List UInt8 :=
  if c = '"' then [0x5c, 0x22]
  else if c = '\\' then [0x5c, 0x5c]
  else if c = '\n' then [0x5c, 0x6e]
  else if c = '\t' then [0x5c, 0x74]
  else if c = '\r' then [0x5c, 0x72]
  else if c.toNat = 8 then [0x5c, 0x62]
  else if c.toNat = 12 then [0x5c, 0x66]
  else if c.toNat < 32 then
    [0x5c, 0x75, 0x30, 0x30, hexDigit (c.toNat / 16), hexDigit (c.toNat % 16)]
  else String.utf8EncodeChar c

def renderText (s : String) : List UInt8 := 0x22 :: (s.toList.flatMap escapeChar ++ [0x22])

def digits (n : Nat) : List UInt8 := (Nat.toDigits 10 n).map fun c => UInt8.ofNat c.toNat

def renderInt : Int → List UInt8
  | .ofNat n => digits n
  | .negSucc n => 0x2d :: digits (n + 1)

/-- The parts with a comma between each two. -/
def joined : List (List UInt8) → List UInt8
  | [] => []
  | [x] => x
  | x :: y :: xs => x ++ 0x2c :: joined (y :: xs)

mutual

def render : Json → List UInt8
  | .null => ascii "null"
  | .bool true => ascii "true"
  | .bool false => ascii "false"
  | .num n => renderInt n
  | .float token => ascii token
  | .str s => renderText s
  | .arr items => 0x5b :: (joined (renderItems items) ++ [0x5d])
  | .obj members => 0x7b :: (joined (renderMembers members) ++ [0x7d])

def renderItems : List Json → List (List UInt8)
  | [] => []
  | j :: js => render j :: renderItems js

def renderMembers : List (String × Json) → List (List UInt8)
  | [] => []
  | (k, j) :: ms => (renderText k ++ 0x3a :: render j) :: renderMembers ms

end

/-! ## Lengths -/

def total {α : Type} (cost : α → Nat) : List α → Nat
  | [] => 0
  | x :: xs => cost x + total cost xs

theorem total_append {α : Type} (cost : α → Nat) (xs ys : List α) :
    total cost (xs ++ ys) = total cost xs + total cost ys := by
  induction xs with
  | nil => simp [total]
  | cons x xs ih =>
    rw [List.cons_append, total, total, ih]
    omega

theorem total_map {α β : Type} (f : α → β) (cost : β → Nat) (xs : List α) :
    total cost (xs.map f) = total (fun x => cost (f x)) xs := by
  induction xs with
  | nil => rfl
  | cons x xs ih => rw [List.map_cons, total, total, ih]

theorem total_le {α : Type} {cost : α → Nat} {cap : Nat} {xs : List α}
    (h : ∀ x ∈ xs, cost x ≤ cap) : total cost xs ≤ xs.length * cap := by
  induction xs with
  | nil => exact Nat.zero_le _
  | cons x xs ih =>
    have hx := h x List.mem_cons_self
    have hxs := ih fun y hy => h y (List.mem_cons_of_mem _ hy)
    rw [total, List.length_cons, Nat.succ_mul]
    omega

/-- The bytes of a text, summed over its characters. -/
theorem total_utf8Size (s : String) : total Char.utf8Size s.toList = s.utf8ByteSize := by
  have hbytes : s.utf8ByteSize = s.toList.utf8Encode.size := by
    rw [String.utf8Encode_toList, String.size_toByteArray]
  rw [hbytes, List.utf8Encode, List.size_toByteArray]
  generalize s.toList = cs
  induction cs with
  | nil => rfl
  | cons c cs ih =>
    rw [total, ih, List.flatMap_cons, List.length_append, String.length_utf8EncodeChar]

/-- A bound on every character is a bound on the text between its quotes. -/
theorem length_escaped_le {cost : Char → Nat} {cs : List Char}
    (h : ∀ c ∈ cs, (escapeChar c).length ≤ cost c) :
    (cs.flatMap escapeChar).length ≤ total cost cs := by
  induction cs with
  | nil => exact Nat.le_refl _
  | cons c cs ih =>
    have hc := h c List.mem_cons_self
    have hcs := ih fun d hd => h d (List.mem_cons_of_mem _ hd)
    rw [List.flatMap_cons, List.length_append, total]
    omega

theorem length_renderText (s : String) :
    (renderText s).length = (s.toList.flatMap escapeChar).length + 2 := by
  simp [renderText]

theorem length_escapeChar_le (c : Char) : (escapeChar c).length ≤ 6 * c.utf8Size := by
  have hpos := c.utf8Size_pos
  unfold escapeChar
  repeat' split
  all_goals simp only [List.length_cons, List.length_nil, String.length_utf8EncodeChar]
  all_goals omega

/-- A cost that is affine in the bytes of a character, summed over a text. -/
theorem total_affine (s : String) (k d : Nat) :
    total (fun c => k * c.utf8Size + d) s.toList = k * s.utf8ByteSize + d * s.toList.length := by
  rw [← total_utf8Size]
  generalize s.toList = cs
  induction cs with
  | nil => rfl
  | cons c cs ih =>
    rw [total, ih, total, List.length_cons, Nat.mul_add, Nat.mul_succ]
    omega

/-- Any text costs at most six bytes for each of its own. -/
theorem length_renderText_le (s : String) : (renderText s).length ≤ 6 * s.utf8ByteSize + 2 := by
  have h := length_escaped_le fun c (_ : c ∈ s.toList) => length_escapeChar_le c
  have hsum := total_affine s 6 0
  simp only [Nat.add_zero] at hsum
  rw [length_renderText]
  omega

/-- The controls a multiline text may hold. -/
def Multiline (c : Char) : Prop := 32 ≤ c.toNat ∨ c = '\n' ∨ c = '\t'

theorem length_escapeChar_multiline {c : Char} (h : Multiline c) :
    (escapeChar c).length ≤ c.utf8Size + 1 := by
  have hpos := c.utf8Size_pos
  have hlow : c.toNat < 32 → c = '\n' ∨ c = '\t' := fun hlt => h.resolve_left (by omega)
  unfold escapeChar
  repeat' split
  all_goals simp only [List.length_cons, List.length_nil, String.length_utf8EncodeChar]
  all_goals first | omega | skip
  · next hn ht _ _ _ hlt => exact absurd (hlow hlt) (by simp [hn, ht])

/-- A multiline text costs at most one byte more for each of its scalars. -/
theorem length_renderText_le_scalars {s : String} (h : ∀ c ∈ s.toList, Multiline c) :
    (renderText s).length ≤ s.utf8ByteSize + s.toList.length + 2 := by
  have hle := length_escaped_le fun c hc => length_escapeChar_multiline (h c hc)
  have hsum := total_affine s 1 1
  simp only [Nat.one_mul] at hsum
  rw [length_renderText]
  omega

/-- A character that needs no escape. -/
def Unescaped (c : Char) : Prop := 32 ≤ c.toNat ∧ c ≠ '"' ∧ c ≠ '\\'

theorem length_escapeChar_unescaped {c : Char} (h : Unescaped c) :
    (escapeChar c).length ≤ c.utf8Size := by
  obtain ⟨hlow, hquote, hslash⟩ := h
  have hn : c ≠ '\n' := by rintro rfl; exact absurd hlow (by decide)
  have ht : c ≠ '\t' := by rintro rfl; exact absurd hlow (by decide)
  have hr : c ≠ '\r' := by rintro rfl; exact absurd hlow (by decide)
  rw [escapeChar, if_neg hquote, if_neg hslash, if_neg hn, if_neg ht, if_neg hr,
    if_neg (by omega), if_neg (by omega), if_neg (by omega)]
  exact Nat.le_of_eq (String.length_utf8EncodeChar c)

/-- A text without escapes costs its own bytes and two quotes. -/
theorem length_renderText_plain {s : String} (h : ∀ c ∈ s.toList, Unescaped c) :
    (renderText s).length ≤ s.utf8ByteSize + 2 := by
  have hle := length_escaped_le fun c hc => length_escapeChar_unescaped (h c hc)
  rw [total_utf8Size] at hle
  rw [length_renderText]
  omega

theorem length_digits_le {n k : Nat} (hk : 0 < k) (h : n < 10 ^ k) : (digits n).length ≤ k := by
  rw [digits, List.length_map]
  exact (Nat.length_toDigits_le_iff (by decide) hk).2 h

theorem renderItems_eq_map (js : List Json) : renderItems js = js.map render := by
  induction js with
  | nil => rfl
  | cons j js ih => rw [renderItems, ih, List.map_cons]

/-- What a list of members costs, a comma after each. -/
def cost (ms : List (String × Json)) : Nat :=
  total (fun m => (renderText m.1).length + (render m.2).length + 2) ms

theorem cost_append (ms ns : List (String × Json)) : cost (ms ++ ns) = cost ms + cost ns :=
  total_append _ ms ns

theorem length_joined_le (xs : List (List UInt8)) :
    (joined xs).length ≤ total (fun x => x.length + 1) xs := by
  induction xs using joined.induct with
  | case1 => exact Nat.le_refl _
  | case2 x => exact Nat.le_succ _
  | case3 x y xs ih =>
    have hrest := ih
    rw [joined, total, List.length_append, List.length_cons]
    omega

theorem total_renderMembers (ms : List (String × Json)) :
    total (fun x => x.length + 1) (renderMembers ms) = cost ms := by
  induction ms with
  | nil => rfl
  | cons m ms ih =>
    obtain ⟨k, j⟩ := m
    rw [cost] at ih ⊢
    rw [renderMembers, total, total, ih, List.length_append, List.length_cons]
    dsimp only
    omega

theorem length_render_obj_le (ms : List (String × Json)) :
    (render (.obj ms)).length ≤ cost ms + 2 := by
  have h := length_joined_le (renderMembers ms)
  rw [total_renderMembers] at h
  simp only [render, List.length_cons, List.length_append, List.length_nil]
  omega

/-- Items of at most `cap` bytes each. -/
theorem length_render_arr_le {js : List Json} {cap : Nat}
    (h : ∀ j ∈ js, (render j).length ≤ cap) :
    (render (.arr js)).length ≤ js.length * (cap + 1) + 2 := by
  have hjoin := length_joined_le (renderItems js)
  have hitems : total (fun j => (render j).length + 1) js ≤ js.length * (cap + 1) :=
    total_le fun j hj => Nat.succ_le_succ (h j hj)
  rw [renderItems_eq_map, total_map] at hjoin
  simp only [render, renderItems_eq_map, List.length_cons, List.length_append, List.length_nil]
  omega

/-- No value renders to nothing. -/
theorem render_ne_nil (j : Json) (h : ∀ token, j ≠ .float token) : render j ≠ [] := by
  cases j with
  | null => decide
  | bool b => cases b <;> decide
  | num n =>
    cases n with
    | ofNat n =>
      simp only [render, renderInt, digits, ne_eq, List.map_eq_nil_iff]
      exact List.ne_nil_of_length_pos Nat.length_toDigits_pos
    | negSucc n => exact List.cons_ne_nil _ _
  | float token => exact absurd rfl (h token)
  | str s => exact List.cons_ne_nil _ _
  | arr items =>
    rw [render]
    exact List.cons_ne_nil _ _
  | obj members =>
    rw [render]
    exact List.cons_ne_nil _ _

end Json

end AgentSeat.Lib
