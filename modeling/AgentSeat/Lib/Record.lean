/-
  Records and tagged unions over codecs.

  `Members` is a group of named members: what a record writes in declared order and reads back by
  name (or, from an array, by position). Groups are built from single members (`field`, `optional`,
  `defaulted`), put side by side (`pair`) and made a record (`struct`, or `flattened` when some of
  its members are another record's). `tagged` is the union that names its variant in one member and
  carries the variant's value in another.

  A group never looks at the list of members but through `find`, so its laws are stated for any
  two lookups that agree on the declared keys (`Agree`); a record then only has to check that no
  key is foreign and none occurs twice.
-/
import AgentSeat.Lib.Codec
import Mathlib.Data.List.Nodup

namespace AgentSeat.Lib

abbrev Look := String → Option Json

/-- The member of a name. -/
def find (ms : List (String × Json)) : Look := fun k => ms.lookup k

/-- Two lookups that give the same on these keys. -/
def Agree (keys : List String) (f g : Look) : Prop := ∀ k ∈ keys, f k = g k

theorem find_eq_none {ms : List (String × Json)} {k : String} (h : k ∉ ms.map Prod.fst) :
    find ms k = none := by
  induction ms with
  | nil => rfl
  | cons m ms ih =>
    obtain ⟨l, j⟩ := m
    rw [List.map_cons, List.mem_cons, not_or] at h
    simp only [find, List.lookup_cons]
    rw [beq_eq_false_iff_ne.2 h.1]
    exact ih h.2

theorem find_append_of_mem {ms ns : List (String × Json)} {k : String}
    (h : k ∉ ns.map Prod.fst) : find (ms ++ ns) k = find ms k := by
  induction ms with
  | nil => exact find_eq_none h
  | cons m ms ih =>
    obtain ⟨l, j⟩ := m
    simp only [find, List.cons_append, List.lookup_cons] at ih ⊢
    rw [ih]

theorem find_append_of_not_mem {ms ns : List (String × Json)} {k : String}
    (h : k ∉ ms.map Prod.fst) : find (ms ++ ns) k = find ns k := by
  induction ms with
  | nil => rfl
  | cons m ms ih =>
    obtain ⟨l, j⟩ := m
    rw [List.map_cons, List.mem_cons, not_or] at h
    simp only [find, List.cons_append, List.lookup_cons] at ih ⊢
    rw [beq_eq_false_iff_ne.2 h.1]
    exact ih h.2

theorem find_single_self (k : String) (j : Json) : find [(k, j)] k = some j := by
  simp [find]

structure Members (α : Type) where
  keys : List String
  encode : α → List (String × Json)
  decode : Source → Look → Option α
  /-- Reads the members off the front of an array. -/
  positional : Source → List Json → Option (α × List Json)
  Fits : α → Prop
  Light : α → Prop
  Plain : Look → Prop
  Strict : Look → Prop
  Same : Look → Look → Prop
  cap : Nat
  nodup : keys.Nodup
  keys_encode : ∀ a, ((encode a).map Prod.fst).Sublist keys
  decode_encode : ∀ {a look} (s), Fits a → Agree keys look (find (encode a)) →
    decode s look = some a
  plain_encode : ∀ {a look}, Agree keys look (find (encode a)) → Plain look
  strict_same : ∀ {s look look' a}, decode s look = some a → Plain look →
    Agree keys look' (find (encode a)) → Strict look ∧ Same look look'
  plain_of_strict : ∀ {look look' a}, Agree keys look' (find (encode a)) → Strict look →
    Same look look' → Plain look
  cost_le : ∀ {a}, Fits a → Light a → Json.cost (encode a) ≤ cap
  fits_decode : ∀ {s look a}, decode s look = some a → Fits a
  fits_positional : ∀ {s js a js'}, positional s js = some (a, js') → Fits a

namespace Members

variable {α β : Type}

/-- What the key of a member costs, with its colon and comma. -/
def keyCap (key : String) : Nat := 6 * key.utf8ByteSize + 4

theorem cost_single_le {key : String} {j : Json} {cap : Nat} (h : j.render.length ≤ cap) :
    Json.cost [(key, j)] ≤ keyCap key + cap := by
  have hkey := Json.length_renderText_le key
  simp only [Json.cost, Json.total, keyCap]
  omega

/-! ## Single members -/

/-- A required member. -/
def field (key : String) (c : Codec α) : Members α where
  keys := [key]
  encode a := [(key, c.encode a)]
  decode s look := (look key).bind (c.decode s)
  positional s
    | [] => none
    | j :: js => (c.decode s j).map (·, js)
  Fits := c.Fits
  Light := c.Light
  Plain look := ∀ j, look key = some j → c.Plain j
  Strict look := ∀ j, look key = some j → c.Strict j
  Same look look' := ∃ j j', look key = some j ∧ look' key = some j' ∧ c.Same j j'
  cap := keyCap key + c.cap
  nodup := List.nodup_singleton key
  keys_encode _ := List.Sublist.refl _
  decode_encode := by
    intro a look s ha h
    rw [h key (List.mem_singleton_self key), find_single_self]
    exact c.decode_encode s ha
  plain_encode := by
    intro a look h j hj
    rw [h key (List.mem_singleton_self key), find_single_self] at hj
    rw [← Option.some.inj hj]
    exact c.plain_encode a
  strict_same := by
    intro s look look' a h hplain hagree
    obtain ⟨j, hj, ha⟩ := Option.bind_eq_some_iff.1 h
    obtain ⟨hstrict, hsame⟩ := c.strict_same ha (hplain j hj)
    refine ⟨?_, j, c.encode a, hj, ?_, hsame⟩
    · intro i hi
      rw [hj] at hi
      rw [← Option.some.inj hi]
      exact hstrict
    · rw [hagree key (List.mem_singleton_self key), find_single_self]
  plain_of_strict := by
    rintro look look' a hagree hstrict ⟨j, j', hj, hj', hsame⟩ i hi
    rw [hagree key (List.mem_singleton_self key), find_single_self] at hj'
    rw [hj] at hi
    rw [← Option.some.inj hi]
    rw [← Option.some.inj hj'] at hsame
    exact c.plain_of_strict (hstrict j hj) hsame
  cost_le hfits hlight := cost_single_le (c.length_le hfits hlight)
  fits_decode := by
    intro s look a h
    obtain ⟨j, _, ha⟩ := Option.bind_eq_some_iff.1 h
    exact c.fits_decode ha
  fits_positional := by
    intro s js a js' h
    cases js with
    | nil => simp at h
    | cons j js =>
      obtain ⟨b, hb, heq⟩ := Option.map_eq_some_iff.1 h
      rw [← (Prod.mk.inj heq).1]
      exact c.fits_decode hb

/-- A member left out when there is no value; null reads as no value. -/
def optional (key : String) (c : Codec α) (hnull : ∀ a, c.encode a ≠ .null) :
    Members (Option α) where
  keys := [key]
  encode
    | none => []
    | some a => [(key, c.encode a)]
  decode s look :=
    match (look key).bind Codec.present with
    | none => some none
    | some j => (c.decode s j).map some
  positional s
    | [] => some (none, [])
    | j :: js => ((c.nullable hnull).decode s j).map (·, js)
  Fits a := ∀ x, a = some x → c.Fits x
  Light a := ∀ x, a = some x → c.Light x
  Plain look := ∀ j, look key = some j → c.Plain j
  Strict look := ∀ j, (look key).bind Codec.present = some j → c.Strict j
  Same look look' :=
    Codec.OptSame c.Same ((look key).bind Codec.present) ((look' key).bind Codec.present)
  cap := keyCap key + c.cap
  nodup := List.nodup_singleton key
  keys_encode := by
    intro a
    cases a with
    | none => exact List.nil_sublist _
    | some a => exact List.Sublist.refl _
  decode_encode := by
    intro a look s ha h
    rw [h key (List.mem_singleton_self key)]
    cases a with
    | none => rfl
    | some a =>
      simp only [find_single_self, Option.bind_some, Codec.present_of_ne (hnull a),
        c.decode_encode s (ha a rfl), Option.map_some]
  plain_encode := by
    intro a look h j hj
    rw [h key (List.mem_singleton_self key)] at hj
    cases a with
    | none => simp [find] at hj
    | some a =>
      rw [find_single_self] at hj
      rw [← Option.some.inj hj]
      exact c.plain_encode a
  strict_same := by
    intro s look look' a h hplain hagree
    rw [hagree key (List.mem_singleton_self key)]
    cases hpresent : (look key).bind Codec.present with
    | none =>
      rw [hpresent] at h
      have ha : none = a := Option.some.inj h
      subst ha
      exact ⟨by simp, trivial⟩
    | some j =>
      rw [hpresent] at h
      obtain ⟨b, hb, rfl⟩ := Option.map_eq_some_iff.1 h
      obtain ⟨i, hi, hij⟩ := Option.bind_eq_some_iff.1 hpresent
      have hplainj : c.Plain j := (Codec.present_eq_some.1 hij).1 ▸ hplain i hi
      obtain ⟨hstrict, hsame⟩ := c.strict_same hb hplainj
      refine ⟨?_, ?_⟩
      · intro k hk
        rw [← Option.some.inj hk]
        exact hstrict
      · simp only [find_single_self, Option.bind_some, Codec.present_of_ne (hnull b)]
        exact hsame
  plain_of_strict := by
    intro look look' a hagree hstrict hsame j hj
    rw [hagree key (List.mem_singleton_self key)] at hsame
    by_cases hnil : j = .null
    · subst hnil
      exact c.plain_null
    · have hpresent : (look key).bind Codec.present = some j := by
        rw [hj, Option.bind_some, Codec.present_of_ne hnil]
      rw [hpresent] at hsame
      cases a with
      | none => exact absurd hsame (by simp [find, Codec.OptSame])
      | some a =>
        simp only [find_single_self, Option.bind_some, Codec.present_of_ne (hnull a)] at hsame
        exact c.plain_of_strict (hstrict j hpresent) hsame
  cost_le := by
    intro a hfits hlight
    cases a with
    | none => exact Nat.zero_le _
    | some a => exact cost_single_le (c.length_le (hfits a rfl) (hlight a rfl))
  fits_decode := by
    intro s look a h x hx
    subst hx
    cases hpresent : (look key).bind Codec.present with
    | none =>
      rw [hpresent] at h
      simp at h
    | some j =>
      rw [hpresent] at h
      obtain ⟨b, hb, hbx⟩ := Option.map_eq_some_iff.1 h
      rw [← Option.some.inj hbx]
      exact c.fits_decode hb
  fits_positional := by
    intro s js a js' h
    cases js with
    | nil =>
      rw [← (Prod.mk.inj (Option.some.inj h)).1]
      simp
    | cons j js =>
      obtain ⟨b, hb, heq⟩ := Option.map_eq_some_iff.1 h
      rw [← (Prod.mk.inj heq).1]
      exact (c.nullable hnull).fits_decode hb

/-- A member that is always written and has a value when it is left out. -/
def defaulted (key : String) (c : Codec α) (default : α) (hdefault : c.Fits default) :
    Members α where
  keys := [key]
  encode a := [(key, c.encode a)]
  decode s look :=
    match look key with
    | none => some default
    | some j => c.decode s j
  positional s
    | [] => some (default, [])
    | j :: js => (c.decode s j).map (·, js)
  Fits := c.Fits
  Light := c.Light
  Plain look := ∀ j, look key = some j → c.Plain j
  Strict look := ∀ j, look key = some j → c.Strict j
  Same look look' :=
    c.Same ((look key).getD (c.encode default)) ((look' key).getD (c.encode default))
  cap := keyCap key + c.cap
  nodup := List.nodup_singleton key
  keys_encode _ := List.Sublist.refl _
  decode_encode := by
    intro a look s ha h
    rw [h key (List.mem_singleton_self key), find_single_self]
    exact c.decode_encode s ha
  plain_encode := by
    intro a look h j hj
    rw [h key (List.mem_singleton_self key), find_single_self] at hj
    rw [← Option.some.inj hj]
    exact c.plain_encode a
  strict_same := by
    intro s look look' a h hplain hagree
    rw [hagree key (List.mem_singleton_self key), find_single_self, Option.getD_some]
    cases hlook : look key with
    | none =>
      rw [hlook] at h
      have ha : default = a := Option.some.inj h
      subst ha
      have hself := c.strict_same (c.decode_encode s hdefault) (c.plain_encode default)
      exact ⟨by simp, hself.2⟩
    | some j =>
      rw [hlook] at h
      obtain ⟨hstrict, hsame⟩ := c.strict_same h (hplain j hlook)
      refine ⟨?_, hsame⟩
      intro i hi
      rw [← Option.some.inj hi]
      exact hstrict
  plain_of_strict := by
    intro look look' a hagree hstrict hsame j hj
    rw [hagree key (List.mem_singleton_self key), find_single_self, hj] at hsame
    exact c.plain_of_strict (hstrict j hj) hsame
  cost_le hfits hlight := cost_single_le (c.length_le hfits hlight)
  fits_decode := by
    intro s look a h
    cases hlook : look key with
    | none =>
      rw [hlook] at h
      rw [← Option.some.inj h]
      exact hdefault
    | some j =>
      rw [hlook] at h
      exact c.fits_decode h
  fits_positional := by
    intro s js a js' h
    cases js with
    | nil =>
      rw [← (Prod.mk.inj (Option.some.inj h)).1]
      exact hdefault
    | cons j js =>
      obtain ⟨b, hb, heq⟩ := Option.map_eq_some_iff.1 h
      rw [← (Prod.mk.inj heq).1]
      exact c.fits_decode hb

/-! ## Groups -/

/-- No member at all. -/
def nothing : Members Unit where
  keys := []
  encode _ := []
  decode _ _ := some ()
  positional _ js := some ((), js)
  Fits _ := True
  Light _ := True
  Plain _ := True
  Strict _ := True
  Same _ _ := True
  cap := 0
  nodup := List.nodup_nil
  keys_encode _ := List.Sublist.refl _
  decode_encode _ _ _ := rfl
  plain_encode _ := trivial
  strict_same _ _ _ := ⟨trivial, trivial⟩
  plain_of_strict _ _ _ := trivial
  cost_le _ _ := Nat.le_refl 0
  fits_decode _ := trivial
  fits_positional _ := trivial

section Pair

variable (m : Members α) (n : Members β)

theorem agree_left (hdisjoint : ∀ k ∈ n.keys, k ∉ m.keys) {a : α} {b : β} {look : Look}
    (h : Agree (m.keys ++ n.keys) look (find (m.encode a ++ n.encode b))) :
    Agree m.keys look (find (m.encode a)) := by
  intro k hk
  have hforeign : k ∉ (n.encode b).map Prod.fst := fun hmem =>
    hdisjoint k ((n.keys_encode b).subset hmem) hk
  rw [h k (List.mem_append_left _ hk), find_append_of_mem hforeign]

theorem agree_right (hdisjoint : ∀ k ∈ n.keys, k ∉ m.keys) {a : α} {b : β} {look : Look}
    (h : Agree (m.keys ++ n.keys) look (find (m.encode a ++ n.encode b))) :
    Agree n.keys look (find (n.encode b)) := by
  intro k hk
  have hforeign : k ∉ (m.encode a).map Prod.fst := fun hmem =>
    hdisjoint k hk ((m.keys_encode a).subset hmem)
  rw [h k (List.mem_append_right _ hk), find_append_of_not_mem hforeign]

/-- Two groups with different keys, the first one's members first. -/
def pair (hdisjoint : ∀ k ∈ n.keys, k ∉ m.keys := by decide) : Members (α × β) where
  keys := m.keys ++ n.keys
  encode x := m.encode x.1 ++ n.encode x.2
  decode s look := (m.decode s look).bind fun a => (n.decode s look).map (a, ·)
  positional s js :=
    (m.positional s js).bind fun (a, js) => (n.positional s js).map fun (b, js) => ((a, b), js)
  Fits x := m.Fits x.1 ∧ n.Fits x.2
  Light x := m.Light x.1 ∧ n.Light x.2
  Plain look := m.Plain look ∧ n.Plain look
  Strict look := m.Strict look ∧ n.Strict look
  Same look look' := m.Same look look' ∧ n.Same look look'
  cap := m.cap + n.cap
  nodup := by
    refine List.nodup_append.2 ⟨m.nodup, n.nodup, ?_⟩
    intro k hk l hl heq
    subst heq
    exact hdisjoint k hl hk
  keys_encode := by
    intro x
    rw [List.map_append]
    exact (m.keys_encode x.1).append (n.keys_encode x.2)
  decode_encode := by
    intro x look s hx h
    rw [m.decode_encode s hx.1 (agree_left m n hdisjoint h),
      n.decode_encode s hx.2 (agree_right m n hdisjoint h)]
    rfl
  plain_encode h := ⟨m.plain_encode (agree_left m n hdisjoint h),
    n.plain_encode (agree_right m n hdisjoint h)⟩
  strict_same := by
    intro s look look' x h hplain hagree
    obtain ⟨a, ha, hrest⟩ := Option.bind_eq_some_iff.1 h
    obtain ⟨b, hb, rfl⟩ := Option.map_eq_some_iff.1 hrest
    have hleft := m.strict_same ha hplain.1 (agree_left m n hdisjoint hagree)
    have hright := n.strict_same hb hplain.2 (agree_right m n hdisjoint hagree)
    exact ⟨⟨hleft.1, hright.1⟩, hleft.2, hright.2⟩
  plain_of_strict := by
    intro look look' x hagree hstrict hsame
    exact ⟨m.plain_of_strict (agree_left m n hdisjoint hagree) hstrict.1 hsame.1,
      n.plain_of_strict (agree_right m n hdisjoint hagree) hstrict.2 hsame.2⟩
  cost_le := by
    intro x hfits hlight
    have hleft := m.cost_le hfits.1 hlight.1
    have hright := n.cost_le hfits.2 hlight.2
    rw [Json.cost_append]
    omega
  fits_decode := by
    intro s look x h
    obtain ⟨a, ha, hrest⟩ := Option.bind_eq_some_iff.1 h
    obtain ⟨b, hb, rfl⟩ := Option.map_eq_some_iff.1 hrest
    exact ⟨m.fits_decode ha, n.fits_decode hb⟩
  fits_positional := by
    intro s js x js' h
    obtain ⟨⟨a, js₁⟩, ha, hrest⟩ := Option.bind_eq_some_iff.1 h
    obtain ⟨⟨b, js₂⟩, hb, heq⟩ := Option.map_eq_some_iff.1 hrest
    rw [← (Prod.mk.inj heq).1]
    exact ⟨m.fits_positional ha, n.fits_positional hb⟩

end Pair

/-- The same members under a type of one's own. -/
def packed (m : Members α) (pack : α → β) (unpack : β → α)
    (hpack : ∀ b, pack (unpack b) = b := by intro; rfl)
    (hunpack : ∀ a, unpack (pack a) = a := by intro; rfl) : Members β where
  keys := m.keys
  encode b := m.encode (unpack b)
  decode s look := (m.decode s look).map pack
  positional s js := (m.positional s js).map fun (a, js) => (pack a, js)
  Fits b := m.Fits (unpack b)
  Light b := m.Light (unpack b)
  Plain := m.Plain
  Strict := m.Strict
  Same := m.Same
  cap := m.cap
  nodup := m.nodup
  keys_encode b := m.keys_encode (unpack b)
  decode_encode := by
    intro b look s hb h
    rw [m.decode_encode s hb h, Option.map_some, hpack]
  plain_encode := m.plain_encode
  strict_same := by
    intro s look look' b h hplain hagree
    obtain ⟨a, ha, rfl⟩ := Option.map_eq_some_iff.1 h
    rw [hunpack] at hagree
    exact m.strict_same ha hplain hagree
  plain_of_strict := m.plain_of_strict
  cost_le := m.cost_le
  fits_decode := by
    intro s look b h
    obtain ⟨a, ha, rfl⟩ := Option.map_eq_some_iff.1 h
    rw [hunpack]
    exact m.fits_decode ha
  fits_positional := by
    intro s js b js' h
    obtain ⟨⟨a, js₁⟩, ha, heq⟩ := Option.map_eq_some_iff.1 h
    rw [← (Prod.mk.inj heq).1, hunpack]
    exact m.fits_positional ha

/-- The members of a record that is flattened into another: they are collected before they are
    read. -/
def collected (m : Members α) : Members α where
  __ := m
  decode _ := m.decode .buffer
  decode_encode _ := m.decode_encode .buffer
  strict_same := m.strict_same
  fits_decode := m.fits_decode

end Members

namespace Codec

variable {α : Type}

/-! ## Records -/

/-- Only declared keys, and none twice. -/
def Declared (keys : List String) (ms : List (String × Json)) : Prop :=
  (ms.map Prod.fst).Nodup ∧ ∀ k ∈ ms.map Prod.fst, k ∈ keys

instance (keys : List String) (ms : List (String × Json)) : Decidable (Declared keys ms) :=
  inferInstanceAs (Decidable (_ ∧ _))

theorem declared_encode (m : Members α) (a : α) : Declared m.keys (m.encode a) :=
  ⟨(m.keys_encode a).nodup m.nodup, fun _ hk => (m.keys_encode a).subset hk⟩

/-- Reads the members by name. -/
def byName (m : Members α) (s : Source) (ms : List (String × Json)) : Option α :=
  if Declared m.keys ms then m.decode s (find ms) else none

/-- A record read from an object by name, or from an array by what `other` reads. -/
def recordWith (m : Members α) (other : Source → List Json → Option α)
    (hother : ∀ {s js a}, other s js = some a → m.Fits a) : Codec α where
  encode a := .obj (m.encode a)
  decode s
    | .obj ms => byName m s ms
    | .arr js => other s js
    | _ => none
  Fits := m.Fits
  Light := m.Light
  Plain
    | .obj ms => m.Plain (find ms)
    | .arr _ => False
    | _ => True
  Strict
    | .obj ms => Declared m.keys ms ∧ m.Strict (find ms)
    | _ => False
  Same
    | .obj ms, .obj ms' => m.Same (find ms) (find ms')
    | _, _ => False
  cap := m.cap + 2
  decode_encode := by
    intro a s ha
    show byName m s (m.encode a) = some a
    rw [byName, if_pos (declared_encode m a)]
    exact m.decode_encode s ha fun _ _ => rfl
  plain_encode _ := m.plain_encode fun _ _ => rfl
  plain_null := trivial
  strict_same := by
    intro s j a h hplain
    cases j with
    | obj ms =>
      simp only [byName, Option.ite_none_right_eq_some] at h
      obtain ⟨hstrict, hsame⟩ := m.strict_same h.2 hplain fun _ _ => rfl
      exact ⟨⟨h.1, hstrict⟩, hsame⟩
    | arr js => exact absurd hplain (by simp)
    | _ => simp at h
  plain_of_strict := by
    intro j a hstrict hsame
    cases j with
    | obj ms => exact m.plain_of_strict (fun _ _ => rfl) hstrict.2 hsame
    | _ => exact absurd hstrict (by simp)
  length_le := by
    intro a hfits hlight
    exact Nat.le_trans (Json.length_render_obj_le _)
      (Nat.add_le_add_right (m.cost_le hfits hlight) 2)
  fits_decode := by
    intro s j a h
    cases j with
    | obj ms =>
      simp only [byName, Option.ite_none_right_eq_some] at h
      exact m.fits_decode h.2
    | arr js => exact hother h
    | _ => simp at h

/-- Reads every member by its position, and nothing beyond. -/
def byPosition (m : Members α) (s : Source) (js : List Json) : Option α :=
  match m.positional s js with
  | some (a, []) => some a
  | _ => none

/-- A record on its own: an array of its members in declared order is read too. -/
def struct (m : Members α) : Codec α :=
  recordWith m (byPosition m)
    (by
      intro s js a h
      unfold byPosition at h
      split at h
      · next hpos =>
        rw [← Option.some.inj h]
        exact m.fits_positional hpos
      · simp at h)

/-- A record with members of another record among its own: it is read from an object only. -/
def flattened (m : Members α) : Codec α := recordWith m (fun _ _ => none) (by simp)

theorem struct_ne_null (m : Members α) (a : α) : (struct m).encode a ≠ .null := by
  simp [struct, recordWith]

end Codec

end AgentSeat.Lib
