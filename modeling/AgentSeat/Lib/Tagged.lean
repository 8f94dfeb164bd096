/-
  Tagged unions over codecs.

  A value of a union is written as an object of two members, the name of its variant under the tag
  and the variant's own value under the content. A reader takes the two in either order; when the
  content comes first it is collected and read once the tag is known. Content that is missing reads
  as null does, which only an optional value accepts. An array of tag and content is read too.
-/
import AgentSeat.Lib.Record

namespace AgentSeat.Lib

/-- One variant of a union: its name, the codec of its value, and which values are its own. -/
structure Variant (α : Type) where
  name : String
  {β : Type}
  codec : Codec β
  inject : β → α
  project : α → Option β
  project_eq : ∀ a b, project a = some b ↔ inject b = a := by grind

/-- A variant together with the value it carries. -/
structure Share (α : Type) where
  variant : Variant α
  value : variant.β

variable {α : Type}

namespace Variant

def read (v : Variant α) (s : Source) (j : Json) : Option α := (v.codec.decode s j).map v.inject

/-- The variant of a value, with what it carries. -/
def chosen (vs : List (Variant α)) (a : α) : Option (Share α) :=
  vs.findSome? fun v => (v.project a).map fun b => ⟨v, b⟩

/-- The variant of a name. -/
def named (vs : List (Variant α)) (n : String) : Option (Variant α) :=
  vs.find? fun v => v.name == n

/-- The variant a plain tag names. -/
def tagOf (vs : List (Variant α)) : Option Json → Option (Variant α)
  | some (.str n) => named vs n
  | _ => none

/-- Every value belongs to exactly one variant. -/
def Partition (vs : List (Variant α)) : Prop :=
  ∀ a, (vs.filter fun v => (v.project a).isSome).length = 1

theorem chosen_eq_some {vs : List (Variant α)} {a : α} {v : Variant α} {b : v.β}
    (h : chosen vs a = some ⟨v, b⟩) : v ∈ vs ∧ v.project a = some b := by
  obtain ⟨w, hw, hwb⟩ := List.exists_of_findSome?_eq_some h
  obtain ⟨c, hc, heq⟩ := Option.map_eq_some_iff.1 hwb
  cases heq
  exact ⟨hw, hc⟩

theorem exists_chosen {vs : List (Variant α)} (hone : Partition vs) (a : α) :
    ∃ v b, chosen vs a = some ⟨v, b⟩ ∧ v ∈ vs ∧ v.inject b = a := by
  cases hchosen : chosen vs a with
  | some share =>
    obtain ⟨v, b⟩ := share
    obtain ⟨hv, hb⟩ := chosen_eq_some hchosen
    exact ⟨v, b, rfl, hv, (v.project_eq a b).1 hb⟩
  | none =>
    -- a value no variant claims would leave the filter empty
    have hnone : (vs.filter fun v => (v.project a).isSome) = [] := by
      refine List.filter_eq_nil_iff.2 fun v hv => ?_
      have hmap := List.findSome?_eq_none_iff.1 hchosen v hv
      rw [Option.map_eq_none_iff.1 hmap]
      simp
    have hlen := hone a
    rw [hnone, List.length_nil] at hlen
    exact absurd hlen Nat.zero_ne_one

theorem chosen_inject {vs : List (Variant α)} (hone : Partition vs) {v : Variant α} (hv : v ∈ vs)
    (b : v.β) : chosen vs (v.inject b) = some ⟨v, b⟩ := by
  obtain ⟨w, c, hchosen, hw, hinj⟩ := exists_chosen hone (v.inject b)
  have hproject : v.project (v.inject b) = some b := (v.project_eq _ b).2 rfl
  have hclaim : w.project (v.inject b) = some c := (w.project_eq _ c).2 hinj
  obtain ⟨u, hu⟩ := List.length_eq_one_iff.1 (hone (v.inject b))
  have hvu : v = u := List.mem_singleton.1 (hu ▸ List.mem_filter.2 ⟨hv, by simp [hproject]⟩)
  have hwu : w = u := List.mem_singleton.1 (hu ▸ List.mem_filter.2 ⟨hw, by simp [hclaim]⟩)
  obtain rfl : v = w := hvu.trans hwu.symm
  rw [hproject] at hclaim
  rw [hchosen, Option.some.inj hclaim]

theorem named_eq {vs : List (Variant α)} (hnames : (vs.map (·.name)).Nodup) {v : Variant α}
    (hv : v ∈ vs) : named vs v.name = some v := find?_eq_of_nodup hnames hv

end Variant

namespace Codec

open Variant

/-- The tag, the content and the source the content is read from. -/
def sides (tag content : String) (s : Source) : Json → Option (Json × Source × Json)
  | .obj [(k, t)] => if k = tag then some (t, s, .null) else none
  | .obj [(k, x), (l, y)] =>
    if k = tag ∧ l = content then some (x, s, y)
    else if k = content ∧ l = tag then some (y, .buffer, x)
    else none
  | .arr [t, c] => some (t, s, c)
  | _ => none

theorem sides_obj {tag content : String} (htag : tag ≠ content) {s s' : Source}
    {ms : List (String × Json)} {t c : Json} (h : sides tag content s (.obj ms) = some (t, s', c)) :
    Declared [tag, content] ms ∧ find ms tag = some t ∧ (find ms content).getD .null = c := by
  have hbeq : (tag == content) = false := beq_eq_false_iff_ne.2 htag
  have hbeq' : (content == tag) = false := beq_eq_false_iff_ne.2 htag.symm
  match ms, h with
  | [], hs => simp [sides] at hs
  | [(k, x)], hs =>
    simp only [sides, Option.ite_none_right_eq_some, Option.some.injEq, Prod.mk.injEq] at hs
    obtain ⟨rfl, rfl, -, rfl⟩ := hs
    simp [Declared, find, List.lookup_cons, hbeq']
  | [(k, x), (l, y)], hs =>
    simp only [sides] at hs
    by_cases hkl : k = tag ∧ l = content
    · rw [if_pos hkl, Option.some.injEq, Prod.mk.injEq, Prod.mk.injEq] at hs
      obtain ⟨rfl, rfl⟩ := hkl
      obtain ⟨rfl, -, rfl⟩ := hs
      simp [Declared, find, List.lookup_cons, hbeq', htag]
    · rw [if_neg hkl] at hs
      simp only [Option.ite_none_right_eq_some, Option.some.injEq, Prod.mk.injEq] at hs
      obtain ⟨⟨rfl, rfl⟩, rfl, -, rfl⟩ := hs
      simp [Declared, find, List.lookup_cons, hbeq, htag.symm]
  | _ :: _ :: _ :: _, hs => simp [sides] at hs

section Tagged

variable (tag content : String) (vs : List (Variant α))

def writeShare : Option (Share α) → Json
  | some ⟨v, b⟩ => .obj [(tag, .str v.name), (content, v.codec.encode b)]
  | none => .null

def ShareFits : Option (Share α) → Prop
  | some ⟨v, b⟩ => v.codec.Fits b
  | none => False

def ShareLight : Option (Share α) → Prop
  | some ⟨v, b⟩ => v.codec.Light b
  | none => False

def readTagged (s : Source) (j : Json) : Option α :=
  (sides tag content s j).bind fun side =>
    (enumName s side.1).bind fun n => (named vs n).bind fun v => v.read side.2.1 side.2.2

variable {tag content vs}

theorem find_tag (htag : tag ≠ content) (t c : Json) :
    find [(tag, t), (content, c)] tag = some t ∧ find [(tag, t), (content, c)] content = some c := by
  have hbeq : (content == tag) = false := beq_eq_false_iff_ne.2 htag.symm
  simp [find, List.lookup_cons, hbeq]

/-- What a read from a plain object has seen. -/
theorem readTagged_obj (htag : tag ≠ content) {s : Source} {ms : List (String × Json)} {a : α}
    (h : readTagged tag content vs s (.obj ms) = some a)
    (hplain : ∀ t, find ms tag = some t → t.isObj = false) :
    Declared [tag, content] ms ∧ ∃ v b s', v ∈ vs ∧ find ms tag = some (.str v.name) ∧
      v.codec.decode s' ((find ms content).getD .null) = some b ∧ v.inject b = a := by
  obtain ⟨⟨t, s', c⟩, hsides, h⟩ := Option.bind_eq_some_iff.1 h
  obtain ⟨n, hn, h⟩ := Option.bind_eq_some_iff.1 h
  obtain ⟨v, hv, h⟩ := Option.bind_eq_some_iff.1 h
  obtain ⟨b, hb, hba⟩ := Option.map_eq_some_iff.1 h
  obtain ⟨hdeclared, ht, hc⟩ := sides_obj htag hsides
  have hname : v.name = n := by simpa using List.find?_some hv
  subst hname
  have hstr : t = .str v.name := eq_str_of_enumName hn (hplain t ht)
  subst hstr
  refine ⟨hdeclared, v, b, s', List.mem_of_find?_eq_some hv, ht, ?_, hba⟩
  rw [hc]
  exact hb

variable (tag content vs)

/-- The union of variants with different names that share out all values. -/
def tagged (htag : tag ≠ content) (hnames : (vs.map (·.name)).Nodup) (hone : Partition vs) :
    Codec α where
  encode a := writeShare tag content (chosen vs a)
  decode := readTagged tag content vs
  Fits a := ShareFits (chosen vs a)
  Light a := ShareLight (chosen vs a)
  Plain
    | .obj ms => (∀ t, find ms tag = some t → t.isObj = false) ∧
        ∀ v, tagOf vs (find ms tag) = some v → v.codec.Plain ((find ms content).getD .null)
    | .arr _ => False
    | _ => True
  Strict
    | .obj ms => Declared [tag, content] ms ∧
        ∀ v, tagOf vs (find ms tag) = some v → v.codec.Strict ((find ms content).getD .null)
    | _ => False
  Same
    | .obj ms, .obj ms' => find ms tag = find ms' tag ∧
        ∀ v, tagOf vs (find ms tag) = some v →
          v.codec.Same ((find ms content).getD .null) ((find ms' content).getD .null)
    | _, _ => False
  cap := Members.keyCap tag + Members.keyCap content +
    most (vs.map fun v => 6 * v.name.utf8ByteSize + 2 + v.codec.cap) + 2
  decode_encode := by
    intro a s ha
    obtain ⟨v, b, hchosen, hv, rfl⟩ := exists_chosen hone a
    rw [hchosen] at ha ⊢
    have hread : v.read s (v.codec.encode b) = some (v.inject b) := by
      rw [Variant.read, v.codec.decode_encode s ha, Option.map_some]
    simp only [readTagged, writeShare, sides, and_self, if_true, Option.bind_some, enumName,
      named_eq hnames hv, hread]
  plain_encode := by
    intro a
    obtain ⟨v, b, hchosen, hv, rfl⟩ := exists_chosen hone a
    rw [hchosen]
    obtain ⟨ht, hc⟩ := find_tag htag (.str v.name) (v.codec.encode b)
    simp only [writeShare]
    rw [ht, hc]
    refine ⟨?_, ?_⟩
    · intro t h
      rw [← Option.some.inj h]
      rfl
    · intro w hw
      rw [tagOf, named_eq hnames hv] at hw
      rw [← Option.some.inj hw]
      exact v.codec.plain_encode b
  plain_null := trivial
  strict_same := by
    intro s j a h hplain
    cases j with
    | obj ms =>
      obtain ⟨hdeclared, v, b, s', hv, ht, hb, rfl⟩ := readTagged_obj htag h hplain.1
      have hplainv := hplain.2 v
      rw [chosen_inject hone hv]
      obtain ⟨ht', hc'⟩ := find_tag htag (.str v.name) (v.codec.encode b)
      simp only [writeShare]
      rw [ht, ht', hc', tagOf, named_eq hnames hv]
      rw [ht, tagOf, named_eq hnames hv] at hplainv
      obtain ⟨hstrict, hsame⟩ := v.codec.strict_same hb (hplainv rfl)
      refine ⟨⟨hdeclared, ?_⟩, rfl, ?_⟩
      · rintro w ⟨⟩
        exact hstrict
      · rintro w ⟨⟩
        exact hsame
    | arr js => exact absurd hplain (by simp)
    | _ => simp [readTagged, sides] at h
  plain_of_strict := by
    intro j a hstrict hsame
    obtain ⟨v, b, hchosen, hv, rfl⟩ := exists_chosen hone a
    rw [hchosen] at hsame
    obtain ⟨ht', hc'⟩ := find_tag htag (.str v.name) (v.codec.encode b)
    cases j with
    | obj ms =>
      simp only [writeShare] at hsame
      rw [ht', hc'] at hsame
      obtain ⟨ht, hsame⟩ := hsame
      have hstrictv := hstrict.2 v
      rw [ht, tagOf, named_eq hnames hv] at hsame hstrictv
      refine ⟨?_, ?_⟩
      · intro t h
        rw [ht] at h
        rw [← Option.some.inj h]
        rfl
      · intro w hw
        rw [ht, tagOf, named_eq hnames hv] at hw
        rw [← Option.some.inj hw]
        exact v.codec.plain_of_strict (hstrictv rfl) (hsame v rfl)
    | _ => exact absurd hstrict (by simp)
  length_le := by
    intro a hfits hlight
    obtain ⟨v, b, hchosen, hv, rfl⟩ := exists_chosen hone a
    rw [hchosen] at hfits hlight ⊢
    have hvalue : (v.codec.encode b).render.length ≤ v.codec.cap := v.codec.length_le hfits hlight
    have hname : (Json.str v.name).render.length ≤ 6 * v.name.utf8ByteSize + 2 :=
      Json.length_renderText_le v.name
    have htagCost := @Members.cost_single_le tag _ _ hname
    have hcontentCost := @Members.cost_single_le content _ _ hvalue
    have hmost := le_most (List.mem_map_of_mem
      (f := fun v => 6 * v.name.utf8ByteSize + 2 + v.codec.cap) hv)
    have hobj := Json.length_render_obj_le
      ([(tag, .str v.name)] ++ [(content, v.codec.encode b)])
    rw [Json.cost_append] at hobj
    exact Nat.le_trans hobj (by omega)
  fits_decode := by
    intro s j a h
    obtain ⟨⟨t, s', c⟩, _, h⟩ := Option.bind_eq_some_iff.1 h
    obtain ⟨n, _, h⟩ := Option.bind_eq_some_iff.1 h
    obtain ⟨v, hv, h⟩ := Option.bind_eq_some_iff.1 h
    obtain ⟨b, hb, rfl⟩ := Option.map_eq_some_iff.1 h
    rw [chosen_inject hone (List.mem_of_find?_eq_some hv)]
    exact v.codec.fits_decode hb

end Tagged

end Codec

end AgentSeat.Lib
