/-
  What the published schemas say of a value, and readers that agree with them.

  `InputSchema.Valid` is the meaning of a schema, and `InputSchema.Spelled` says that the records of a
  value are objects and its names strings. A reader with its checks agrees with a schema if everything
  it takes is valid exactly when it is spelled so (`Agrees`). For a record this follows from its members
  (`Covers`), for a member from its reader and its property (`Reads`).
-/
import AgentSeat.Companion.Tools

namespace AgentSeat.Companion

open AgentSeat.Lib AgentSeat.Proto

/-! ## What a schema says -/

def Range.Valid (r : Range) : Json → Prop
  | .num n => (∀ low, r.minimum = some low → low ≤ n) ∧ ∀ high, r.maximum = some high → n ≤ high
  | _ => False

def Pattern.Matches : Pattern → String → Prop
  | .desktopId, text => ∃ name, name ≠ [] ∧ (∀ c ∈ name, c ≠ '/' ∧ c ≠ '\x00') ∧
      text.toList = name ++ ".desktop".toList
  | .slotName, text => text.toList ≠ [] ∧
      ∀ c ∈ text.toList, (c.isAlphanum || c == '.' || c == '_' || c == '-') = true

/-- An object with no members but the properties, and with all that are required. -/
def ValidObject {π : Type} (valid : π → Json → Prop) (properties : List (String × π))
    (required : List String) : Json → Prop
  | .obj members =>
    (∀ key value, members.lookup key = some value →
      ∃ property, properties.lookup key = some property ∧ valid property value) ∧
    ∀ key ∈ required, (members.lookup key).isSome = true
  | _ => False

def Property.Valid : Property → Json → Prop
  | .integer range, value => range.Valid value
  | .string minLength maxLength pattern, .str text =>
    minLength ≤ text.toList.length ∧ text.toList.length ≤ maxLength ∧
      ∀ p, pattern = some p → p.Matches text
  | .enumeration names, .str text => text ∈ names
  | .array maxItems items _ _, .arr values =>
    values.length ≤ maxItems ∧ values.Nodup ∧ ∀ value ∈ values, ∃ text ∈ items, value = .str text
  | .integers members required, value => ValidObject Range.Valid members required value
  | _, _ => False

def InputSchema.Valid (s : InputSchema) (value : Json) : Prop :=
  ValidObject Property.Valid (s.properties.getD []) (s.required.getD []) value

/-- Names are strings and records are objects. -/
def Property.Spelled : Property → Json → Prop
  | .enumeration _, value => value.isObj = false
  | .array .., .arr values => ∀ value ∈ values, value.isObj = false
  | .integers .., value => value.isObj = true
  | _, _ => True

/-- The arguments are an object with members that are spelled so. -/
def InputSchema.Spelled (s : InputSchema) (value : Json) : Prop :=
  ∃ members, value = .obj members ∧ ∀ key value property, members.lookup key = some value →
    (s.properties.getD []).lookup key = some property → property.Spelled value

/-- What is no object is neither valid nor spelled so. -/
theorem no_object {s : InputSchema} {value : Json} (h : value.isObj = false) :
    s.Valid value ↔ s.Spelled value := by
  constructor
  · intro hvalid
    match value, h, hvalid with
    | .obj _, h, _ => exact absurd h (by simp [Json.isObj])
  · rintro ⟨members, rfl, -⟩
    exact absurd h (by simp [Json.isObj])

/-! ## Readers and properties -/

/-- What is read from a value and passes its checks is valid, if it is spelled so. -/
def Reads {α : Type} (c : Codec α) (V : α → Prop) (p : Property) : Prop :=
  ∀ source value a, c.decode source value = some a → V a → (p.Valid value ↔ p.Spelled value)

theorem reads_integer {α : Type} {c : Codec α} {V : α → Prop} {range : Range}
    (h : ∀ source value a, c.decode source value = some a → V a → range.Valid value) :
    Reads c V (.integer range) :=
  fun source value a hdecode hV => ⟨fun _ => trivial, fun _ => h source value a hdecode hV⟩

theorem reads_nat {max k : Nat} {hk : 0 < k} {hmax : max < 10 ^ k} {V : Nat → Prop} {range : Range}
    (h : ∀ n, n ≤ max → V n → range.Valid (.num n)) : Reads (Codec.nat max k hk hmax) V (.integer range) := by
  refine reads_integer fun source value a hdecode hV => ?_
  have hvalue : value = .num a := ((Codec.nat max k hk hmax).strict_same hdecode trivial).2
  have hfits : a ≤ max := (Codec.nat max k hk hmax).fits_decode hdecode
  rw [hvalue]
  exact h a hfits hV

theorem reads_i32 {V : Int → Prop} : Reads Schema.i32 V (.integer ⟨none, none, none⟩) := by
  refine reads_integer fun source value a hdecode hV => ?_
  have hvalue : value = .num a := (Schema.i32.strict_same hdecode trivial).2
  rw [hvalue]
  exact ⟨by simp, by simp⟩

theorem reads_clientId {V : ClientId → Prop} : Reads Schema.clientId V (atLeast 1) := by
  refine reads_integer fun source value a hdecode hV => ?_
  have hvalue : value = .num a.get := (Schema.clientId.strict_same hdecode trivial).2
  have hpos := a.ne_zero
  rw [hvalue]
  refine ⟨fun low hlow => ?_, by simp⟩
  have hone : low = 1 := (Option.some.inj hlow).symm
  omega

theorem reads_text {max : Nat} {c : Codec String} (hplain : ∀ value, c.Plain value)
    (hsame : ∀ {value text}, c.Same value (c.encode text) → value = .str text)
    {V : BoundedText max → Prop} {minLength maxLength : Nat} {pattern : Option Pattern}
    (h : ∀ text : BoundedText max, V text → minLength ≤ text.asStr.toList.length ∧
      text.asStr.toList.length ≤ maxLength ∧ ∀ p, pattern = some p → p.Matches text.asStr) :
    Reads (Schema.ofText c) V (.string minLength maxLength pattern) := by
  intro source value text hdecode hV
  have hvalue : value = .str text.asStr := hsame ((Schema.ofText c).strict_same hdecode (hplain value)).2
  rw [hvalue]
  exact ⟨fun _ => trivial, fun _ => h text hV⟩

section Names

variable {α : Type} {name : α → String} {all : List α} {hall : ∀ a, a ∈ all}
  {hnodup : (all.map name).Nodup}

/-- A name that is read was written as a string, or it was an object. -/
theorem names_str {source : Source} {value : Json} {a : α}
    (h : (Codec.names name all hall hnodup).decode source value = some a) (hplain : value.isObj = false) :
    value = .str (name a) :=
  ((Codec.names name all hall hnodup).strict_same h hplain).2

theorem names_strs {source : Source} {items : List Json} {list : List α}
    (h : List.Forall₂ (fun item a => (Codec.names name all hall hnodup).decode source item = some a)
      items list) (hplain : ∀ item ∈ items, item.isObj = false) :
    items = list.map fun a => .str (name a) := by
  induction h with
  | nil => rfl
  | cons hread _ ih =>
    rw [List.map_cons, names_str hread (hplain _ List.mem_cons_self)]
    rw [← ih fun item hitem => hplain item (List.mem_cons_of_mem _ hitem)]

theorem reads_names {V : α → Prop} {texts : List String} (h : ∀ a, name a ∈ texts) :
    Reads (Codec.names name all hall hnodup) V (.enumeration texts) := by
  intro source value a hdecode hV
  constructor
  · intro hvalid
    match value, hvalid with
    | .str _, _ => rfl
  · intro hspelled
    rw [names_str hdecode hspelled]
    exact h a

theorem neighbours_nodup {β : Type} {rank : β → Nat} {values : List β}
    (h : strictlyOrdered rank values = true) : values.Nodup := by
  have hpairs : values.Pairwise fun a b => rank a < rank b := by
    induction values with
    | nil => exact .nil
    | cons a rest ih =>
      cases rest with
      | nil => exact List.pairwise_singleton _ _
      | cons b rest =>
        rw [strictlyOrdered, neighbours, Bool.and_eq_true, decide_eq_true_eq] at h
        have hrest := ih h.2
        refine List.pairwise_cons.mpr ⟨fun c hc => ?_, hrest⟩
        rcases List.mem_cons.mp hc with rfl | hc
        · exact h.1
        · exact Nat.lt_trans h.1 ((List.pairwise_cons.mp hrest).1 c hc)
  refine hpairs.imp fun hlt heq => ?_
  rw [heq] at hlt
  exact Nat.lt_irrefl _ hlt

/-- A list of names in order. -/
theorem reads_list {max : Nat} {rank : α → Nat} {texts : List String} {default : Option (List String)}
    {description : Option String} (h : ∀ a, name a ∈ texts) :
    Reads (Schema.boundedList (Codec.names name all hall hnodup) max)
      (fun values => strictlyOrdered rank values.asSlice = true)
      (.array max texts default description) := by
  intro source value values hdecode hordered
  obtain ⟨list, hlist, hbounded⟩ := Option.bind_eq_some_iff.1 hdecode
  have hvalues : values.asSlice = list := by
    unfold BoundedList.new at hbounded
    split at hbounded
    · rw [← Option.some.inj hbounded]
    · exact absurd hbounded (by simp [Except.toOption])
  cases value with
  | arr items =>
    have hitems : items.length ≤ max ∧
        Codec.readAll ((Codec.names name all hall hnodup).decode source) items = some list := by
      simpa [Codec.list] using hlist
    have hall₂ := Codec.forall₂_of_readAll hitems.2
    constructor
    · rintro ⟨-, -, hnames⟩ item hitem
      obtain ⟨text, -, rfl⟩ := hnames item hitem
      rfl
    · intro hspelled
      have heq := names_strs hall₂ hspelled
      have hinjective : Function.Injective fun a : α => Json.str (name a) := by
        intro a b hab
        have hdecoded (a : α) := (Codec.names name all hall hnodup).decode_encode (a := a) .stream trivial
        have hsame : (Codec.names name all hall hnodup).encode a =
            (Codec.names name all hall hnodup).encode b := hab
        have hab' := (hdecoded a).symm.trans ((congrArg _ hsame).trans (hdecoded b))
        exact Option.some.inj hab'
      refine ⟨hitems.1, ?_, fun item hitem => ?_⟩
      · rw [heq]
        exact (hvalues ▸ neighbours_nodup hordered).map hinjective
      · rw [heq] at hitem
        obtain ⟨a, -, rfl⟩ := List.mem_map.mp hitem
        exact ⟨name a, h a, rfl⟩
  | _ => exact absurd hlist (by simp [Codec.list])

end Names

/-! ## Records and schemas -/

/-- What a reader takes and the checks let pass is valid, if it is spelled so. -/
def Agrees {α : Type} (c : Codec α) (validate : α → Check) (s : InputSchema) : Prop :=
  ∀ source value a, c.decode source value = some a → validate a = .ok () →
    (s.Valid value ↔ s.Spelled value)

/-- The members of a record that is read and passes its checks are valid, if they are spelled so, and
    the required ones are there. -/
structure Covers {α : Type} (m : Members α) (V : α → Prop) (properties : List (String × Property))
    (required : List String) : Prop where
  keys : properties.map Prod.fst = m.keys
  member : ∀ {source look a}, m.decode source look = some a → V a →
    ∀ key p, properties.lookup key = some p → ∀ value, look key = some value →
      (p.Valid value ↔ p.Spelled value)
  present : ∀ {source look a}, m.decode source look = some a → ∀ key ∈ required,
    (look key).isSome = true

namespace Covers

variable {α β : Type} {V : α → Prop} {W : β → Prop} {m : Members α} {n : Members β}
  {properties more : List (String × Property)} {required others : List String}

theorem field (key : String) {c : Codec α} {p : Property} (h : Reads c V p) :
    Covers (Members.field key c) V [(key, p)] [key] := by
  refine ⟨rfl, fun {source look a} hdecode hV key' p' hp value hvalue => ?_,
    fun {source look a} hdecode key' hkey => ?_⟩
  · obtain ⟨value', hvalue', ha⟩ := Option.bind_eq_some_iff.1 hdecode
    rw [Assoc.lookup_cons] at hp
    split at hp
    · rename_i hkey
      subst hkey
      obtain rfl := Option.some.inj hp
      obtain rfl := Option.some.inj (hvalue'.symm.trans hvalue)
      exact h source value' a ha hV
    · exact absurd hp (by simp)
  · obtain ⟨value', hvalue', -⟩ := Option.bind_eq_some_iff.1 hdecode
    rw [List.mem_singleton.mp hkey, hvalue']
    rfl

theorem defaulted (key : String) {c : Codec α} {default : α} {hdefault : c.Fits default} {p : Property}
    (h : Reads c V p) : Covers (Members.defaulted key c default hdefault) V [(key, p)] [] := by
  refine ⟨rfl, fun {source look a} hdecode hV key' p' hp value hvalue => ?_,
    fun {source look a} hdecode key' hkey => absurd hkey (by simp)⟩
  rw [Assoc.lookup_cons] at hp
  split at hp
  · rename_i hkey
    subst hkey
    obtain rfl := Option.some.inj hp
    have hread : c.decode source value = some a := by
      simpa [Members.defaulted, hvalue] using hdecode
    exact h source value a hread hV
  · exact absurd hp (by simp)

theorem pair {hdisjoint : ∀ k ∈ n.keys, k ∉ m.keys} (hm : Covers m V properties required)
    (hn : Covers n W more others) :
    Covers (m.pair n hdisjoint) (fun x => V x.1 ∧ W x.2) (properties ++ more) (required ++ others) := by
  refine ⟨?_, fun {source look x} hdecode hV key p hp value hvalue => ?_,
    fun {source look x} hdecode key hkey => ?_⟩
  · rw [List.map_append, hm.keys, hn.keys]
    rfl
  all_goals
    obtain ⟨a, ha, hrest⟩ := Option.bind_eq_some_iff.1 hdecode
    obtain ⟨b, hb, rfl⟩ := Option.map_eq_some_iff.1 hrest
  · rw [Assoc.lookup_append] at hp
    cases hleft : properties.lookup key with
    | some p' =>
      rw [hleft] at hp
      obtain rfl := Option.some.inj hp
      exact hm.member ha hV.1 key _ hleft value hvalue
    | none =>
      rw [hleft] at hp
      exact hn.member hb hV.2 key p hp value hvalue
  · rcases List.mem_append.mp hkey with hkey | hkey
    · exact hm.present ha key hkey
    · exact hn.present hb key hkey

theorem packed {pack : α → β} {unpack : β → α} {hpack : ∀ b, pack (unpack b) = b}
    {hunpack : ∀ a, unpack (pack a) = a} (h : Covers m V properties required) :
    Covers (m.packed pack unpack hpack hunpack) (fun b => V (unpack b)) properties required := by
  refine ⟨h.keys, fun {source look b} hdecode hV => ?_, fun {source look b} hdecode => ?_⟩
  all_goals
    obtain ⟨a, ha, rfl⟩ := Option.map_eq_some_iff.1 hdecode
  · rw [hunpack] at hV
    exact h.member ha hV
  · exact h.present ha

theorem mono {V' : α → Prop} (h : Covers m V properties required) (hV : ∀ a, V' a → V a) :
    Covers m V' properties required :=
  ⟨h.keys, fun hdecode hV' => h.member hdecode (hV _ hV'), h.present⟩

theorem nothing {V : Unit → Prop} : Covers Members.nothing V [] [] :=
  ⟨rfl, fun _ _ _ _ hp => absurd hp (by simp), fun _ _ hkey => absurd hkey (by simp)⟩

theorem collected (h : Covers m V properties required) : Covers m.collected V properties required :=
  ⟨h.keys, fun hdecode => h.member hdecode, fun hdecode => h.present hdecode⟩

/-- A key that is declared has a property. -/
theorem property (h : Covers m V properties required) {key : String} (hkey : key ∈ m.keys) :
    ∃ p, properties.lookup key = some p := by
  rw [← h.keys] at hkey
  obtain ⟨⟨key', p⟩, hmem, rfl⟩ := List.mem_map.mp hkey
  cases hlookup : properties.lookup key' with
  | some p' => exact ⟨p', rfl⟩
  | none =>
    rw [List.lookup_eq_none_iff] at hlookup
    exact absurd (hlookup _ hmem) (by simp)

/-- An object whose members are read, and its schema. -/
theorem valid_iff {s : InputSchema} (h : Covers m V properties required)
    (hproperties : s.properties.getD [] = properties) (hrequired : s.required.getD [] = required)
    {members : List (String × Json)} (hdeclared : ∀ key ∈ members.map Prod.fst, key ∈ m.keys)
    {source : Source} {a : α} (hread : m.decode source (find members) = some a) (hV : V a) :
    s.Valid (.obj members) ↔ s.Spelled (.obj members) := by
  unfold InputSchema.Valid InputSchema.Spelled
  rw [hproperties, hrequired]
  have hmember {key : String} {value : Json} (hvalue : members.lookup key = some value) :
      ∃ p, properties.lookup key = some p ∧ (p.Valid value ↔ p.Spelled value) := by
    have hkey : key ∈ members.map Prod.fst := by
      by_contra hnone
      exact absurd ((find_eq_none hnone).symm.trans hvalue) (by simp)
    obtain ⟨p, hp⟩ := h.property (hdeclared key hkey)
    exact ⟨p, hp, h.member hread hV key p hp value hvalue⟩
  constructor
  · rintro ⟨hvalid, -⟩
    refine ⟨members, rfl, fun key value property hvalue hproperty => ?_⟩
    obtain ⟨p, hp, hiff⟩ := hmember hvalue
    obtain ⟨p', hp', hvalid'⟩ := hvalid key value hvalue
    obtain rfl := Option.some.inj (hp.symm.trans hproperty)
    obtain rfl := Option.some.inj (hp.symm.trans hp')
    exact hiff.mp hvalid'
  · rintro ⟨members', heq, hspelled⟩
    obtain rfl := Json.obj.inj heq
    refine ⟨fun key value hvalue => ?_, fun key hkey => h.present hread key hkey⟩
    obtain ⟨p, hp, hiff⟩ := hmember hvalue
    exact ⟨p, hp, hiff.mpr (hspelled key value p hvalue hp)⟩

/-- A record that is read by name and its schema. -/
theorem agrees {c : Codec α} {validate : α → Check} {s : InputSchema}
    (h : Covers m V properties required)
    (hc : ∀ source members, c.decode source (.obj members) = Codec.byName m source members)
    (hproperties : s.properties.getD [] = properties) (hrequired : s.required.getD [] = required)
    (hvalidate : ∀ a, validate a = .ok () → V a) : Agrees c validate s := by
  intro source value a hdecode hvalid
  cases value with
  | obj members =>
    rw [hc] at hdecode
    have hread : Codec.Declared m.keys members ∧ m.decode source (find members) = some a := by
      simpa [Codec.byName, Option.ite_none_right_eq_some] using hdecode
    exact h.valid_iff hproperties hrequired hread.1.2 hread.2 (hvalidate a hvalid)
  | _ => exact no_object rfl

end Covers

end AgentSeat.Companion
