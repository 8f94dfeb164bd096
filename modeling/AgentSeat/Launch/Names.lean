/-
  The name of an entry in the user's language (`localized_name` and `locale_candidates` of
  `launch.rs`).

  The locale of the environment gives the keys to try. `locale_candidates` cuts it at its first dot,
  at its first at sign and at its first underscore, in that order, so a modifier behind an encoding is
  cut off with it; for every other locale the keys are those of the Desktop Entry Specification.
-/
import AgentSeat.Launch.Entry
import Mathlib.Data.List.TakeWhile

namespace AgentSeat.Launch

open Lib.Chars Lib.Text

/-! ## Escapes -/

def unescape : Char → Option Char
  | 's' => some ' '
  | 'n' => some '\n'
  | 't' => some '\t'
  | 'r' => some '\r'
  | '\\' => some '\\'
  | _ => none

def decodeString : Str → Option Str
  | [] => some []
  | c :: rest =>
    if c ≠ '\\' then (decodeString rest).map (c :: ·)
    else match rest with
      | [] => none
      | escaped :: rest => do
        let decoded ← unescape escaped
        let more ← decodeString rest
        return decoded :: more

/-! ## Locales -/

/-- The env a locale is taken from; a value that is not text is as good as none. -/
structure LocaleEnv where
  lcAll : Option Str
  lcMessages : Option Str
  lang : Option Str

def LocaleEnv.locale (env : LocaleEnv) : Str :=
  ([env.lcAll, env.lcMessages, env.lang].findSome? fun value =>
    value.filter fun value => !value.isEmpty).getD []

/-- The list without repetitions next to each other. -/
def dedup : List Str → List Str
  | first :: second :: rest =>
    if first = second then dedup (second :: rest) else first :: dedup (second :: rest)
  | short => short

def candidatesOf (locale : Str) : List Str :=
  let locale := locale.takeWhile (· ≠ '.')
  if locale = [] ∨ locale = "C".toList ∨ locale = "POSIX".toList then []
  else
    let exact := [locale]
    let withoutModifier := match splitOnce '@' locale with
      | some (withoutModifier, _) => [withoutModifier]
      | none => []
    let languages := match splitOnce '_' locale with
      | some (language, _) =>
        (match splitOnce '@' locale with
          | some (_, modifier) => [language ++ '@' :: modifier]
          | none => []) ++ [language]
      | none => []
    dedup (exact ++ withoutModifier ++ languages)

def localeCandidates (env : LocaleEnv) : List Str := candidatesOf env.locale

/-! ## Names -/

def nameKey (locale : Str) : Str := "Name[".toList ++ locale ++ "]".toList

def plainName (values : Values) : Option Str := do
  let value ← values.lookup "Name".toList
  (decodeString value).filter fun name => !name.isEmpty

def localizedFrom (values : Values) : List Str → Option Str
  | [] => plainName values
  | locale :: rest =>
    match values.lookup (nameKey locale) with
    | some value =>
      match decodeString value with
      | none => none
      | some value => if !value.isEmpty then some value else localizedFrom values rest
    | none => localizedFrom values rest

def localizedName (values : Values) (env : LocaleEnv) : Option Str :=
  localizedFrom values (localeCandidates env)

/-! ## The keys of a locale -/

/-- A part of a locale. -/
def Part (text : Str) : Prop := '_' ∉ text ∧ '.' ∉ text ∧ '@' ∉ text

instance (text : Str) : Decidable (Part text) := inferInstanceAs (Decidable (_ ∧ _ ∧ _))

/-- A part behind the character that announces it, or nothing. -/
def announced (mark : Char) : Option Str → Str
  | some part => mark :: part
  | none => []

/-- `lang[_COUNTRY][.ENCODING][@MODIFIER]`. -/
def posixLocale (lang : Str) (country encoding modifier : Option Str) : Str :=
  lang ++ announced '_' country ++ announced '.' encoding ++ announced '@' modifier

/-- The keys that the Desktop Entry Specification gives for a locale, in its order. -/
def prescribed (lang : Str) : Option Str → Option Str → List Str
  | some country, some modifier =>
    [lang ++ '_' :: country ++ '@' :: modifier, lang ++ '_' :: country, lang ++ '@' :: modifier, lang]
  | some country, none => [lang ++ '_' :: country, lang]
  | none, some modifier => [lang ++ '@' :: modifier, lang]
  | none, none => [lang]

theorem takeWhile_of_not_mem {c : Char} {text : Str} (h : c ∉ text) :
    text.takeWhile (· ≠ c) = text :=
  List.takeWhile_eq_self_iff.2 fun d hd => by
    simpa using fun hdc : d = c => h (hdc ▸ hd)

theorem takeWhile_stop {c : Char} {text : Str} (h : c ∉ text) (rest : Str) :
    (text ++ c :: rest).takeWhile (· ≠ c) = text := by
  rw [List.takeWhile_append_of_pos fun d hd => by simpa using fun hdc : d = c => h (hdc ▸ hd),
    List.takeWhile_cons_of_neg (by simp), List.append_nil]

theorem splitOnce_of_not_mem {c : Char} {text : Str} (h : c ∉ text) : splitOnce c text = none := by
  cases hsplit : splitOnce c text with
  | none => rfl
  | some parts =>
    have hparts := (splitOnce_some hsplit).1
    rw [hparts] at h
    exact absurd (List.mem_append_right parts.1 List.mem_cons_self) h

theorem not_mem_announced {c mark : Char} (hmark : c ≠ mark) {part : Option Str}
    (h : ∀ p, part = some p → c ∉ p) : c ∉ announced mark part := by
  cases part with
  | none => exact List.not_mem_nil
  | some p =>
    rw [announced, List.mem_cons, not_or]
    exact ⟨hmark, h p rfl⟩

/-- Up to its first dot a locale is all but its encoding, if no modifier stands behind one. -/
theorem before_encoding {lang : Str} {country encoding modifier : Option Str} (hlang : Part lang)
    (hcountry : ∀ c, country = some c → Part c) (hmodifier : ∀ m, modifier = some m → Part m)
    (hlast : encoding = none ∨ modifier = none) :
    (posixLocale lang country encoding modifier).takeWhile (· ≠ '.') =
      lang ++ announced '_' country ++ announced '@' modifier := by
  have hfront : '.' ∉ lang ++ announced '_' country := by
    rw [List.mem_append, not_or]
    exact ⟨hlang.2.1, not_mem_announced (by decide) fun c hc => (hcountry c hc).2.1⟩
  cases encoding with
  | some e =>
    obtain rfl : modifier = none := hlast.resolve_left (by simp)
    rw [posixLocale, show announced '@' none = [] from rfl, List.append_nil, List.append_nil]
    exact takeWhile_stop hfront e
  | none =>
    have hback : '.' ∉ announced '@' modifier :=
      not_mem_announced (by decide) fun m hm => (hmodifier m hm).2.1
    rw [posixLocale, show announced '.' none = [] from rfl, List.append_nil]
    exact takeWhile_of_not_mem fun hmem => (List.mem_append.1 hmem).elim hfront hback

theorem dedup_cons {first second : Str} (h : first ≠ second) (rest : List Str) :
    dedup (first :: second :: rest) = first :: dedup (second :: rest) := by
  rw [dedup, if_neg h]

theorem dedup_one (only : Str) : dedup [only] = [only] := by
  rw [dedup]
  exact fun first second rest h => absurd h (by simp)

/-- A locale with a mark in it is none of those without keys. -/
theorem marked_named {mark : Char} (hmark : mark = '_' ∨ mark = '@') {text : Str} (h : mark ∈ text) :
    ¬ (text = [] ∨ text = "C".toList ∨ text = "POSIX".toList) := by
  rintro (rfl | rfl | rfl)
  · exact absurd h List.not_mem_nil
  · obtain rfl | rfl := hmark <;> exact absurd h (by decide)
  · obtain rfl | rfl := hmark <;> exact absurd h (by decide)

theorem append_ne_self (text : Str) (c : Char) (more : Str) : text ++ c :: more ≠ text := by
  intro h
  have := congrArg List.length h
  rw [List.length_append, List.length_cons] at this
  omega

/-- Without an encoding in front of a modifier, the keys are the prescribed ones. -/
theorem candidatesOf_posix {lang : Str} {country encoding modifier : Option Str} (hlang : Part lang)
    (hnamed : lang ≠ [] ∧ lang ≠ "C".toList ∧ lang ≠ "POSIX".toList)
    (hcountry : ∀ c, country = some c → Part c) (hmodifier : ∀ m, modifier = some m → Part m)
    (hlast : encoding = none ∨ modifier = none) :
    candidatesOf (posixLocale lang country encoding modifier) = prescribed lang country modifier := by
  unfold candidatesOf
  rw [before_encoding hlang hcountry hmodifier hlast]
  cases country with
  | none =>
    cases modifier with
    | none =>
      simp only [announced, List.append_nil]
      rw [if_neg (not_or.2 ⟨hnamed.1, not_or.2 hnamed.2⟩), splitOnce_of_not_mem hlang.2.2,
        splitOnce_of_not_mem hlang.1]
      exact dedup_one lang
    | some m =>
      have hat : '@' ∈ lang ++ '@' :: m := List.mem_append_right lang List.mem_cons_self
      have hunder : '_' ∉ lang ++ '@' :: m := by
        rw [List.mem_append, List.mem_cons, not_or, not_or]
        exact ⟨hlang.1, by decide, (hmodifier m rfl).1⟩
      simp only [announced, List.append_nil]
      rw [if_neg (marked_named (.inr rfl) hat), splitOnce_append m hlang.2.2,
        splitOnce_of_not_mem hunder]
      show dedup [lang ++ '@' :: m, lang] = _
      rw [dedup_cons (append_ne_self lang '@' m), dedup_one]
      rfl
  | some c =>
    have hunder : '_' ∈ lang ++ '_' :: c := List.mem_append_right lang List.mem_cons_self
    have hnoat : '@' ∉ lang ++ '_' :: c := by
      rw [List.mem_append, List.mem_cons, not_or, not_or]
      exact ⟨hlang.2.2, by decide, (hcountry c rfl).2.2⟩
    cases modifier with
    | none =>
      simp only [announced, List.append_nil]
      rw [if_neg (marked_named (.inl rfl) hunder), splitOnce_of_not_mem hnoat,
        splitOnce_append c hlang.1]
      show dedup [lang ++ '_' :: c, lang] = _
      rw [dedup_cons (append_ne_self lang '_' c), dedup_one]
      rfl
    | some m =>
      have hmiddle : lang ++ '_' :: c ≠ lang ++ '@' :: m := fun h =>
        absurd (List.cons.inj (List.append_cancel_left h)).1 (by decide)
      have hlanguage : splitOnce '_' (lang ++ '_' :: c ++ '@' :: m) =
          some (lang, c ++ '@' :: m) := by
        rw [List.append_assoc]
        exact splitOnce_append _ hlang.1
      simp only [announced]
      refine (if_neg (marked_named (.inl rfl) (List.mem_append_left ('@' :: m) hunder))).trans ?_
      rw [splitOnce_append m hnoat, hlanguage]
      show dedup [lang ++ '_' :: c ++ '@' :: m, lang ++ '_' :: c, lang ++ '@' :: m, lang] = _
      rw [dedup_cons (append_ne_self _ '@' m), dedup_cons hmiddle,
        dedup_cons (append_ne_self lang '@' m), dedup_one]
      rfl

/-! ## The name -/

/-- The values that stand under the keys of a list of locales, in its order. -/
def present (values : Values) (locales : List Str) : List Str :=
  locales.filterMap fun locale => values.lookup (nameKey locale)

/-- One of the values names the entry, and those before it are empty. -/
def Named (values : List Str) (name : Str) : Prop :=
  ∃ before value after, values = before ++ value :: after ∧
    (∀ other ∈ before, decodeString other = some []) ∧ decodeString value = some name ∧ name ≠ []

theorem named_cons {value : Str} {rest : List Str} {name : Str} : Named (value :: rest) name ↔
    (decodeString value = some name ∧ name ≠ []) ∨ (decodeString value = some [] ∧ Named rest name) := by
  constructor
  · rintro ⟨before, chosen, after, hlist, hempty, hchosen, hname⟩
    cases before with
    | nil =>
      obtain ⟨rfl, -⟩ := List.cons.inj hlist
      exact .inl ⟨hchosen, hname⟩
    | cons first before =>
      obtain ⟨rfl, rfl⟩ := List.cons.inj hlist
      exact .inr ⟨hempty value List.mem_cons_self, before, chosen, after, rfl,
        fun other hother => hempty other (List.mem_cons_of_mem _ hother), hchosen, hname⟩
  · rintro (⟨hvalue, hname⟩ | ⟨hvalue, before, chosen, after, rfl, hempty, hchosen, hname⟩)
    · exact ⟨[], value, rest, rfl, by simp, hvalue, hname⟩
    · refine ⟨value :: before, chosen, after, rfl, ?_, hchosen, hname⟩
      exact List.forall_mem_cons.2 ⟨hvalue, hempty⟩

/-- The first value that is not empty decides, and one that cannot be decoded decides for none. -/
theorem localizedFrom_some (values : Values) (name : Str) : ∀ locales : List Str,
    localizedFrom values locales = some name ↔
      Named (present values locales) name ∨
      ((∀ value ∈ present values locales, decodeString value = some []) ∧
        ∃ value, values.lookup "Name".toList = some value ∧ decodeString value = some name ∧
          name ≠ [])
  | [] => by
    unfold localizedFrom plainName
    constructor
    · intro h
      obtain ⟨value, hvalue, hname⟩ := Option.bind_eq_some_iff.1 h
      rw [Option.filter_eq_some_iff] at hname
      exact .inr ⟨by simp [present], value, hvalue, hname.1, by simpa using hname.2⟩
    · rintro (⟨before, value, after, hpresent, -⟩ | ⟨-, value, hvalue, hdecoded, hname⟩)
      · exact absurd (congrArg List.length hpresent) (by simp [present])
      · rw [hvalue]
        show (decodeString value).filter _ = some name
        rw [hdecoded, Option.filter_eq_some_iff]
        exact ⟨rfl, by simpa using hname⟩
  | locale :: rest => by
    have ih := localizedFrom_some values name rest
    unfold localizedFrom
    cases hlookup : values.lookup (nameKey locale) with
    | none =>
      have hpresent : present values (locale :: rest) = present values rest :=
        List.filterMap_cons_none hlookup
      rw [hpresent]
      exact ih
    | some value =>
      have hpresent : present values (locale :: rest) = value :: present values rest :=
        List.filterMap_cons_some hlookup
      rw [hpresent, named_cons, List.forall_mem_cons]
      dsimp only
      cases hdecoded : decodeString value with
      | none => exact iff_of_false (by simp) (by simp)
      | some text =>
        dsimp only
        by_cases htext : text = []
        · rw [if_neg (by simp [htext]), ih]
          simp [htext]
        · rw [if_pos (by simpa using htext)]
          simp only [Option.some.injEq, htext, false_and, or_false]
          exact ⟨fun h => ⟨h, h ▸ htext⟩, And.left⟩

/-- Which name an entry gets in a locale of the standard form that does not have both an encoding and
a modifier: the keys to try are the prescribed ones, the first value under them that is not empty
decides, and the plain name is used if there is none. -/
theorem localized_name_order (env : LocaleEnv) (lang : Str) (country encoding modifier : Option Str)
    (henv : env.locale = posixLocale lang country encoding modifier) (hlang : Part lang)
    (hnamed : lang ≠ [] ∧ lang ≠ "C".toList ∧ lang ≠ "POSIX".toList)
    (hcountry : ∀ c, country = some c → Part c) (hmodifier : ∀ m, modifier = some m → Part m)
    (hlast : encoding = none ∨ modifier = none) :
    localeCandidates env = prescribed lang country modifier ∧
    ∀ values name, localizedName values env = some name ↔
      Named (present values (prescribed lang country modifier)) name ∨
      ((∀ value ∈ present values (prescribed lang country modifier), decodeString value = some []) ∧
        ∃ value, values.lookup "Name".toList = some value ∧ decodeString value = some name ∧
          name ≠ []) := by
  have hcandidates : localeCandidates env = prescribed lang country modifier := by
    rw [localeCandidates, henv]
    exact candidatesOf_posix hlang hnamed hcountry hmodifier hlast
  refine ⟨hcandidates, fun values name => ?_⟩
  rw [localizedName, hcandidates]
  exact localizedFrom_some values name _

theorem localized_name_order_serbian :
    localeCandidates ⟨none, none, some "sr_RS@latin".toList⟩ =
      ["sr_RS@latin".toList, "sr_RS".toList, "sr@latin".toList, "sr".toList] :=
  have hpart : Part "RS".toList ∧ Part "latin".toList := by decide
  (localized_name_order ⟨none, none, some "sr_RS@latin".toList⟩ "sr".toList (some "RS".toList) none
    (some "latin".toList) (by decide) (by decide) (by decide)
    (fun _ hc => Option.some.inj hc ▸ hpart.1) (fun _ hm => Option.some.inj hm ▸ hpart.2)
    (.inl rfl)).1

/-- A name that cannot be decoded hides the plain one, and a modifier behind an encoding is lost. -/
theorem localized_name_differs :
    localizedName [("Name[de]".toList, "\\q".toList), ("Name".toList, "Editor".toList)]
        ⟨none, none, some "de".toList⟩ = none ∧
      localeCandidates ⟨none, none, some "sr_RS.UTF-8@latin".toList⟩ =
        ["sr_RS".toList, "sr".toList] := by
  decide +kernel

end AgentSeat.Launch
