/-
  Codecs between typed values and JSON, with their laws.

  A codec is what a derived pair of writer and reader does at one type. It carries, beside the two
  functions, four descriptions of JSON at that type:
  * `Plain`: no record or tagged union is spelled as an array, no enumeration name as an object;
  * `Strict`: every record or tagged union is an object with declared keys only, none twice;
  * `Same`: two values differ in the order of keys and in omitted defaulted members only;
  * `Fits` and `Light`: the typed value lies in its machine type; its text meets the bound `cap`.

  Laws, each a field that every combinator proves once: an encoded value reads back
  (`decode_encode`); a value read from plain JSON was strict and is written back the same
  (`strict_same`); strict JSON that is written back the same was plain (`plain_of_strict`); the
  text of a light value is at most `cap` bytes (`length_le`); a value read fits its machine type
  (`fits_decode`).

  Readers differ by their source. A `stream` reader sees the text itself; a `buffer` reader sees a
  value collected earlier, because its tag came later or because its record is flattened into
  another. The one difference is what an enumeration name may look like (`enumName`).
-/
import AgentSeat.Lib.Json
import Mathlib.Data.List.Forall2

namespace AgentSeat.Lib

inductive Source where
  | stream | buffer
  deriving DecidableEq

/-- The name an enumeration is read from. Besides a string, a reader takes an object of that one
    name with a unit value; a collected unit may also be an empty object. -/
def enumName (s : Source) : Json → Option String
  | .str n => some n
  | .obj [(n, .null)] => some n
  | .obj [(n, .obj [])] => if s = .buffer then some n else none
  | _ => none

theorem eq_str_of_enumName {s : Source} {j : Json} {n : String} (h : enumName s j = some n)
    (hobj : j.isObj = false) : j = .str n := by
  unfold enumName at h
  split at h
  · rw [Option.some.inj h]
  · simp [Json.isObj] at hobj
  · simp [Json.isObj] at hobj
  · simp at h

/-- A member found by name. -/
theorem find?_eq_of_nodup {α : Type*} {name : α → String} {xs : List α}
    (hnodup : (xs.map name).Nodup) {x : α} (hx : x ∈ xs) :
    xs.find? (fun y => name y == name x) = some x := by
  induction xs with
  | nil => simp at hx
  | cons y ys ih =>
    rw [List.map_cons, List.nodup_cons] at hnodup
    by_cases heq : name y = name x
    · have hyx : y = x := by
        rcases List.mem_cons.1 hx with rfl | hmem
        · rfl
        · exact absurd (heq ▸ List.mem_map_of_mem hmem) hnodup.1
      rw [List.find?_cons_of_pos (by simp [heq]), hyx]
    · have hmem : x ∈ ys := (List.mem_cons.1 hx).resolve_left fun h => heq (by rw [h])
      rw [List.find?_cons_of_neg (by simp [heq])]
      exact ih hnodup.2 hmem

/-- The largest of a list of bounds. -/
def most (ns : List Nat) : Nat := ns.foldr max 0

theorem le_most {ns : List Nat} {n : Nat} (h : n ∈ ns) : n ≤ most ns := by
  induction ns with
  | nil => simp at h
  | cons m ms ih =>
    rw [most, List.foldr_cons]
    rcases List.mem_cons.1 h with rfl | hmem
    · exact Nat.le_max_left _ _
    · exact Nat.le_trans (ih hmem) (Nat.le_max_right _ _)

structure Codec (α : Type) where
  encode : α → Json
  decode : Source → Json → Option α
  Fits : α → Prop
  Light : α → Prop
  Plain : Json → Prop
  Strict : Json → Prop
  Same : Json → Json → Prop
  cap : Nat
  decode_encode : ∀ {a} (s), Fits a → decode s (encode a) = some a
  plain_encode : ∀ a, Plain (encode a)
  plain_null : Plain .null
  strict_same : ∀ {s j a}, decode s j = some a → Plain j → Strict j ∧ Same j (encode a)
  plain_of_strict : ∀ {j a}, Strict j → Same j (encode a) → Plain j
  length_le : ∀ {a}, Fits a → Light a → (encode a).render.length ≤ cap
  fits_decode : ∀ {s j a}, decode s j = some a → Fits a

namespace Codec

variable {α β : Type}

/-! ## Scalars -/

/-- A value with exactly one spelling. -/
def scalar (encode : α → Json) (read : Json → Option α) (Fits Light : α → Prop) (cap : Nat)
    (hread : ∀ {a}, Fits a → read (encode a) = some a)
    (hexact : ∀ {j a}, read j = some a → j = encode a ∧ Fits a)
    (hlength : ∀ {a}, Fits a → Light a → (encode a).render.length ≤ cap) : Codec α where
  encode := encode
  decode _ := read
  Fits := Fits
  Light := Light
  Plain _ := True
  Strict _ := True
  Same j j' := j = j'
  cap := cap
  decode_encode _ h := hread h
  plain_encode _ := trivial
  plain_null := trivial
  strict_same h _ := ⟨trivial, (hexact h).1⟩
  plain_of_strict _ _ := trivial
  length_le := hlength
  fits_decode h := (hexact h).2

def readNat (max : Nat) : Json → Option Nat
  | .num n => if 0 ≤ n ∧ n ≤ max then some n.toNat else none
  | _ => none

/-- An unsigned word of at most `max`, of at most `k` digits. -/
def nat (max k : Nat) (hk : 0 < k) (hmax : max < 10 ^ k) : Codec Nat :=
  scalar (fun n => .num n) (readNat max) (· ≤ max) (fun _ => True) k
    (by
      intro n hn
      have hle : (n : Int) ≤ max := Int.ofNat_le.2 hn
      simp [readNat, hle])
    (by
      intro j n h
      unfold readNat at h
      split at h
      · split at h
        · next m hm =>
          have hn := Option.some.inj h
          have hm0 := hm.1
          have hmm := hm.2
          constructor
          · congr 1
            omega
          · show n ≤ max
            omega
        · simp at h
      · simp at h)
    (by
      intro n hn _
      exact Json.length_digits_le hk (Nat.lt_of_le_of_lt hn hmax))

def readInt (lo hi : Int) : Json → Option Int
  | .num n => if lo ≤ n ∧ n ≤ hi then some n else none
  | _ => none

/-- A signed word between `lo` and `hi`, of at most `k` digits. -/
def int (lo hi : Int) (k : Nat) (hk : 0 < k) (hlo : -10 ^ k < lo) (hhi : hi < 10 ^ k) : Codec Int :=
  scalar .num (readInt lo hi) (fun n => lo ≤ n ∧ n ≤ hi) (fun _ => True) (k + 1)
    (by
      intro n hn
      simp [readInt, hn.1, hn.2])
    (by
      intro j n h
      unfold readInt at h
      split at h
      · split at h
        · next hm => exact ⟨congrArg Json.num (Option.some.inj h), Option.some.inj h ▸ hm⟩
        · simp at h
      · simp at h)
    (by
      intro n hn _
      cases n with
      | ofNat n =>
        have hlt : n < 10 ^ k := by
          have h : (n : Int) < ((10 ^ k : Nat) : Int) := by
            rw [Int.natCast_pow]
            exact Int.lt_of_le_of_lt hn.2 hhi
          exact Int.ofNat_lt.1 h
        exact Nat.le_succ_of_le (Json.length_digits_le hk hlt)
      | negSucc n =>
        have hlt : n + 1 < 10 ^ k := by
          have h : ((n + 1 : Nat) : Int) < ((10 ^ k : Nat) : Int) := by
            rw [Int.natCast_pow]
            have h₁ := Int.lt_of_lt_of_le hlo hn.1
            rw [Int.negSucc_eq] at h₁
            have h₂ := Int.neg_lt_neg_iff.1 h₁
            exact_mod_cast h₂
          exact Int.ofNat_lt.1 h
        exact Nat.succ_le_succ (Json.length_digits_le hk hlt))

def readBool : Json → Option Bool
  | .bool b => some b
  | _ => none

def bool : Codec Bool :=
  scalar .bool readBool (fun _ => True) (fun _ => True) 5
    (by intro b _; rfl)
    (by
      intro j b h
      unfold readBool at h
      split at h
      · exact ⟨congrArg Json.bool (Option.some.inj h), trivial⟩
      · simp at h)
    (by intro b _ _; cases b <;> decide)

def readText (max : Nat) : Json → Option String
  | .str s => if s.utf8ByteSize ≤ max then some s else none
  | _ => none

/-- A text of at most `max` bytes whose spelling, when `Light`, has at most `cap`. -/
def textWithin (max cap : Nat) (Light : String → Prop)
    (hcap : ∀ s, s.utf8ByteSize ≤ max → Light s → (Json.renderText s).length ≤ cap) :
    Codec String :=
  scalar .str (readText max) (·.utf8ByteSize ≤ max) Light cap
    (by
      intro s hs
      simp [readText, hs])
    (by
      intro j s h
      unfold readText at h
      split at h
      · split at h
        · next hs => exact ⟨congrArg Json.str (Option.some.inj h), Option.some.inj h ▸ hs⟩
        · simp at h
      · simp at h)
    (by
      intro s hs hlight
      exact hcap s hs hlight)

/-- A text of at most `max` bytes, of any characters. -/
def text (max : Nat) : Codec String :=
  textWithin max (6 * max + 2) (fun _ => True)
    (by
      intro s hs _
      have h := Json.length_renderText_le s
      omega)

/-! ## Enumerations -/

/-- A value spelled by its name. -/
def names (name : α → String) (all : List α)
    (hall : ∀ a, a ∈ all := by intro x; cases x <;> decide)
    (hnodup : (all.map name).Nodup := by decide) : Codec α where
  encode a := .str (name a)
  decode s j := (enumName s j).bind fun n => all.find? fun a => name a == n
  Fits _ := True
  Light _ := True
  Plain j := j.isObj = false
  Strict _ := True
  Same j j' := j = j'
  cap := most (all.map fun a => 6 * (name a).utf8ByteSize + 2)
  decode_encode := by
    intro a s _
    exact find?_eq_of_nodup hnodup (hall a)
  plain_encode _ := rfl
  plain_null := rfl
  strict_same := by
    intro s j a h hplain
    obtain ⟨n, hn, ha⟩ := Option.bind_eq_some_iff.1 h
    have hname : name a = n := by simpa using List.find?_some ha
    refine ⟨trivial, ?_⟩
    rw [eq_str_of_enumName hn hplain, hname]
  plain_of_strict := by
    intro j a _ hsame
    rw [hsame]
    rfl
  length_le := by
    intro a _ _
    have h := Json.length_renderText_le (name a)
    have hmost := le_most (List.mem_map_of_mem (f := fun a => 6 * (name a).utf8ByteSize + 2) (hall a))
    exact Nat.le_trans h hmost
  fits_decode _ := trivial

/-! ## Refinement -/

/-- The values of `β` are some of those of `α`, read through a check. -/
def refine (c : Codec α) (check : α → Option β) (of : β → α)
    (h : ∀ a b, check a = some b ↔ of b = a) : Codec β where
  encode b := c.encode (of b)
  decode s j := (c.decode s j).bind check
  Fits b := c.Fits (of b)
  Light b := c.Light (of b)
  Plain := c.Plain
  Strict := c.Strict
  Same := c.Same
  cap := c.cap
  decode_encode := by
    intro b s hb
    rw [c.decode_encode s hb, Option.bind_some]
    exact (h _ _).2 rfl
  plain_encode b := c.plain_encode (of b)
  plain_null := c.plain_null
  strict_same := by
    intro s j b hb hplain
    obtain ⟨a, ha, hab⟩ := Option.bind_eq_some_iff.1 hb
    rw [(h a b).1 hab]
    exact c.strict_same ha hplain
  plain_of_strict := c.plain_of_strict
  length_le := c.length_le
  fits_decode := by
    intro s j b hb
    obtain ⟨a, ha, hab⟩ := Option.bind_eq_some_iff.1 hb
    rw [(h a b).1 hab]
    exact c.fits_decode ha

/-- The same values under a type of one's own. -/
def packed (c : Codec α) (pack : α → β) (unpack : β → α)
    (hpack : ∀ b, pack (unpack b) = b := by intro; rfl)
    (hunpack : ∀ a, unpack (pack a) = a := by intro; rfl) : Codec β :=
  c.refine (fun a => some (pack a)) unpack
    (by
      intro a b
      rw [Option.some.injEq]
      constructor
      · rintro rfl
        exact hunpack a
      · rintro rfl
        exact hpack b)

/-! ## Optional values -/

/-- A member or content that is there and not null. -/
def present : Json → Option Json
  | .null => none
  | j => some j

theorem present_eq_some {j j' : Json} : present j = some j' ↔ j = j' ∧ j ≠ .null := by
  cases j <;> simp [present]

theorem present_eq_none {j : Json} : present j = none ↔ j = .null := by
  cases j <;> simp [present]

theorem present_of_ne {j : Json} (h : j ≠ .null) : present j = some j := present_eq_some.2 ⟨rfl, h⟩

/-- How two optional readings agree. -/
def OptSame (Same : Json → Json → Prop) : Option Json → Option Json → Prop
  | none, none => True
  | some j, some j' => Same j j'
  | _, _ => False

/-- A value that may be null, and is null when it is missing. -/
def nullable (c : Codec α) (hnull : ∀ a, c.encode a ≠ .null) : Codec (Option α) where
  encode
    | none => .null
    | some a => c.encode a
  decode s j :=
    match present j with
    | none => some none
    | some j => (c.decode s j).map some
  Fits a := ∀ x, a = some x → c.Fits x
  Light a := ∀ x, a = some x → c.Light x
  Plain := c.Plain
  Strict j := ∀ j', present j = some j' → c.Strict j'
  Same j j' := OptSame c.Same (present j) (present j')
  cap := max 4 c.cap
  decode_encode := by
    intro a s ha
    cases a with
    | none => rfl
    | some a =>
      simp only [present_of_ne (hnull a), c.decode_encode s (ha a rfl), Option.map_some]
  plain_encode := by
    intro a
    cases a with
    | none => exact c.plain_null
    | some a => exact c.plain_encode a
  plain_null := c.plain_null
  strict_same := by
    intro s j a h hplain
    by_cases hj : j = .null
    · subst hj
      have ha : none = a := Option.some.inj h
      subst ha
      exact ⟨by simp [present], trivial⟩
    · rw [present_of_ne hj] at h
      obtain ⟨b, hb, rfl⟩ := Option.map_eq_some_iff.1 h
      obtain ⟨hstrict, hsame⟩ := c.strict_same hb hplain
      refine ⟨?_, ?_⟩
      · intro j' hj'
        rw [← (present_eq_some.1 hj').1]
        exact hstrict
      · show OptSame c.Same (present j) (present (c.encode b))
        rw [present_of_ne hj, present_of_ne (hnull b)]
        exact hsame
  plain_of_strict := by
    intro j a hstrict hsame
    by_cases hj : j = .null
    · subst hj
      exact c.plain_null
    · rw [present_of_ne hj] at hsame
      cases a with
      | none => exact absurd hsame (by simp [present, OptSame])
      | some a =>
        simp only [present_of_ne (hnull a)] at hsame
        exact c.plain_of_strict (hstrict j (present_of_ne hj)) hsame
  length_le := by
    intro a hfits hlight
    cases a with
    | none => exact Nat.le_max_left _ _
    | some a => exact Nat.le_trans (c.length_le (hfits a rfl) (hlight a rfl)) (Nat.le_max_right _ _)
  fits_decode := by
    intro s j a h x hx
    subst hx
    revert h
    cases present j with
    | none => simp
    | some j' =>
      intro h
      obtain ⟨b, hb, hbx⟩ := Option.map_eq_some_iff.1 h
      rw [← Option.some.inj hbx]
      exact c.fits_decode hb

/-! ## Lists -/

/-- Reads every item, or nothing. -/
def readAll (read : Json → Option α) : List Json → Option (List α)
  | [] => some []
  | j :: js => (read j).bind fun a => (readAll read js).map (a :: ·)

theorem readAll_map {read : Json → Option α} {encode : α → Json} {as : List α}
    (h : ∀ a ∈ as, read (encode a) = some a) : readAll read (as.map encode) = some as := by
  induction as with
  | nil => rfl
  | cons a as ih =>
    have hrest := ih fun b hb => h b (List.mem_cons_of_mem _ hb)
    simp only [List.map_cons, readAll, h a List.mem_cons_self, hrest, Option.bind_some,
      Option.map_some]

theorem forall₂_of_readAll {read : Json → Option α} {js : List Json} {as : List α}
    (h : readAll read js = some as) : List.Forall₂ (fun j a => read j = some a) js as := by
  induction js generalizing as with
  | nil => rw [← Option.some.inj h]; exact .nil
  | cons j js ih =>
    obtain ⟨a, ha, hrest⟩ := Option.bind_eq_some_iff.1 h
    obtain ⟨bs, hbs, rfl⟩ := Option.map_eq_some_iff.1 hrest
    exact .cons ha (ih hbs)

/-- A list of at most `max` items. -/
def list (c : Codec α) (max : Nat) : Codec (List α) where
  encode as := .arr (as.map c.encode)
  decode s
    | .arr js => if js.length ≤ max then readAll (c.decode s) js else none
    | _ => none
  Fits as := as.length ≤ max ∧ ∀ a ∈ as, c.Fits a
  Light as := ∀ a ∈ as, c.Light a
  Plain
    | .arr js => ∀ j ∈ js, c.Plain j
    | _ => True
  Strict
    | .arr js => ∀ j ∈ js, c.Strict j
    | _ => True
  Same
    | .arr js, .arr js' => List.Forall₂ c.Same js js'
    | _, _ => False
  cap := max * (c.cap + 1) + 2
  decode_encode := by
    intro as s has
    show (if (as.map c.encode).length ≤ max then _ else none) = some as
    rw [List.length_map, if_pos has.1]
    exact readAll_map fun a ha => c.decode_encode s (has.2 a ha)
  plain_encode := by
    intro as j hj
    obtain ⟨a, _, rfl⟩ := List.mem_map.1 hj
    exact c.plain_encode a
  plain_null := trivial
  strict_same := by
    intro s j as h hplain
    cases j with
    | arr js =>
      simp only [Option.ite_none_right_eq_some] at h
      have hall := forall₂_of_readAll h.2
      clear h
      induction hall with
      | nil => exact ⟨by simp, by simp⟩
      | cons ha _ ih =>
        obtain ⟨hs, hsame⟩ := c.strict_same ha (hplain _ List.mem_cons_self)
        obtain ⟨hss, hsames⟩ := ih fun j hj => hplain j (List.mem_cons_of_mem _ hj)
        refine ⟨?_, .cons hsame hsames⟩
        intro j hj
        rcases List.mem_cons.1 hj with rfl | hj
        · exact hs
        · exact hss j hj
    | _ => simp at h
  plain_of_strict := by
    intro j as hstrict hsame
    cases j with
    | arr js =>
      have hsame' : List.Forall₂ c.Same js (as.map c.encode) := hsame
      clear hsame
      induction js generalizing as with
      | nil => simp
      | cons j js ih =>
        cases as with
        | nil => cases hsame'
        | cons a as =>
          cases hsame' with
          | cons hj hjs =>
            intro i hi
            rcases List.mem_cons.1 hi with rfl | hi
            · exact c.plain_of_strict (hstrict _ List.mem_cons_self) hj
            · exact ih (fun i hi => hstrict i (List.mem_cons_of_mem _ hi)) hjs i hi
    | _ => trivial
  length_le := by
    intro as hfits hlight
    have hitems : ∀ j ∈ as.map c.encode, j.render.length ≤ c.cap := by
      intro j hj
      obtain ⟨a, ha, rfl⟩ := List.mem_map.1 hj
      exact c.length_le (hfits.2 a ha) (hlight a ha)
    have h := Json.length_render_arr_le hitems
    have hmul : (as.map c.encode).length * (c.cap + 1) ≤ max * (c.cap + 1) := by
      rw [List.length_map]
      exact Nat.mul_le_mul_right _ hfits.1
    omega
  fits_decode := by
    intro s j as h
    cases j with
    | arr js =>
      simp only [Option.ite_none_right_eq_some] at h
      have hall := forall₂_of_readAll h.2
      refine ⟨hall.length_eq ▸ h.1, ?_⟩
      clear h
      induction hall with
      | nil => simp
      | cons ha _ ih =>
        intro b hb
        rcases List.mem_cons.1 hb with rfl | hb
        · exact c.fits_decode ha
        · exact ih b hb
    | _ => simp at h

end Codec

end AgentSeat.Lib
