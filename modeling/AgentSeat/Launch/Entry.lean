/-
  Desktop entries (`parse_desktop`, `localized_name` and `decode_string` of `launch.rs`).

  The parser reads a file line by line with two flags and a map. `DesktopEntry` states the files it
  is meant to accept without either: headers, then the one group of the entry, then whatever belongs
  to other groups. `parse_desktop_exact` says that the two agree on every text, and that the one slice
  of bytes the parser takes never falls inside a character.
-/
import AgentSeat.Lib.Assoc
import AgentSeat.Lib.Chars
import AgentSeat.Lib.Text
import Mathlib.Data.List.Forall2

namespace AgentSeat.Launch

open Lib.Chars Lib.Text

abbrev Str := List Char

/-- The members of a file's entry, in the order of their lines. -/
abbrev Values := List (Str × Str)

def maxEntryKeys : Nat := 256

/-! ## The parser -/

/-- How a parse ends without an entry. -/
inductive Stop where
  | panic
  | refused
  deriving DecidableEq

def desktopEntry : Str := "[Desktop Entry]".toList

def baseByte (c : Char) : Bool := isAsciiAlphanumeric c || c == '-'

def validKey (key : Str) : Bool :=
  let base := match splitOnce '[' key with
    | some (base, _) => base
    | none => key
  !base.isEmpty && base.all baseByte && (key == base ||
    match base.isPrefixOf? key with
    | some rest => rest.head? == some '[' && rest.getLast? == some ']'
    | none => false)

structure ParseState where
  values : Values
  inDesktopEntry : Bool
  foundDesktopEntry : Bool

def parseHeader (state : ParseState) (line : Str) : Except Stop ParseState :=
  if line.getLast? ≠ some ']' then .error .refused
  else match slice 1 (utf8Len line - 1) line with
    | none => .error .panic
    | some name =>
      if '[' ∈ name ∨ ']' ∈ name then .error .refused
      else if line = desktopEntry then
        if state.foundDesktopEntry then .error .refused
        else .ok { state with inDesktopEntry := true, foundDesktopEntry := true }
      else .ok { state with inDesktopEntry := false }

def parseMember (state : ParseState) (line : Str) : Except Stop ParseState :=
  match splitOnce '=' line with
  | none => .error .refused
  | some (key, value) =>
    let key := trim key
    if validKey key = false ∨ state.values.length = maxEntryKeys ∨
        key ∈ state.values.map Prod.fst then .error .refused
    else .ok { state with values := state.values ++ [(key, trim value)] }

def parseLine (state : ParseState) (line : Str) : Except Stop ParseState :=
  if line.head? = some '[' then parseHeader state line
  else if state.foundDesktopEntry = false then .error .refused
  else if state.inDesktopEntry = false then .ok state
  else parseMember state line

/-- Blank lines and comments are passed over. -/
def skipped (line : Str) : Bool := line.isEmpty || line.head? == some '#'

def parseLines (state : ParseState) : List Str → Except Stop ParseState
  | [] => .ok state
  | rawLine :: rest => do
    let line := stripSuffix '\r' rawLine
    let state ← if skipped line then .ok state else parseLine state line
    parseLines state rest

def parseDesktop (source : Str) : Except Stop Values :=
  if source.any fun c => isControl c && !(c == '\n' || c == '\r') then .error .refused
  else do
    let state ← parseLines ⟨[], false, false⟩ (lines source)
    if state.foundDesktopEntry then .ok state.values else .error .refused

/-! ## The grammar -/

/-- The lines of a file that say something. -/
def content (source : Str) : List Str :=
  ((lines source).map (stripSuffix '\r')).filter fun line => !skipped line

/-- A line that opens a group. -/
def Header (line : Str) : Prop :=
  ∃ name : Str, line = '[' :: (name ++ [']']) ∧ '[' ∉ name ∧ ']' ∉ name

/-- Letters, digits and dashes, and behind them perhaps a locale in brackets. -/
def ValidKey (key : Str) : Prop :=
  ∃ base : Str, base ≠ [] ∧ (∀ c ∈ base, baseByte c = true) ∧
    (key = base ∨ ∃ locale : Str, key = base ++ '[' :: (locale ++ [']']))

/-- The member that a line states. -/
def Member (line : Str) (member : Str × Str) : Prop :=
  ∃ key value : Str, line = key ++ '=' :: value ∧ '=' ∉ key ∧ member = (trim key, trim value) ∧
    ValidKey (trim key)

/-- Lines of other groups. -/
def Other (lines : List Str) : Prop :=
  desktopEntry ∉ lines ∧ ∀ line ∈ lines, line.head? = some '[' → Header line

/-- A group ends at the first header. -/
def Ended (group rest : List Str) : Prop :=
  (∀ line ∈ group, line.head? ≠ some '[') ∧ ∀ line, rest.head? = some line → line.head? = some '['

/-- A file that has an entry with these members. -/
structure DesktopEntry (source : Str) (values : Values) : Prop where
  plain : ∀ c ∈ source, isControl c = true → c = '\n' ∨ c = '\r'
  groups : ∃ before group after, content source = before ++ desktopEntry :: (group ++ after) ∧
    (∀ line ∈ before, Header line ∧ line ≠ desktopEntry) ∧ Ended group after ∧ Other after ∧
    List.Forall₂ Member group values
  unrepeated : (values.map Prod.fst).Nodup
  few : values.length ≤ maxEntryKeys

/-! ## Keys -/

theorem splitOnce_none {α : Type} [BEq α] [LawfulBEq α] {sep : α} : ∀ {text : List α},
    splitOnce sep text = none → sep ∉ text
  | [], _ => List.not_mem_nil
  | c :: text, h => by
    unfold splitOnce at h
    split_ifs at h with hc
    have hrest : splitOnce sep text = none := Option.map_eq_none_iff.1 h
    refine fun hmem => ?_
    obtain rfl | hmem := List.mem_cons.1 hmem
    · exact hc (BEq.refl _)
    · exact splitOnce_none hrest hmem

theorem baseByte_bracket : baseByte '[' = false := by decide

theorem not_mem_base {base : Str} (h : ∀ c ∈ base, baseByte c = true) : '[' ∉ base := by
  intro hmem
  have := h '[' hmem
  rw [baseByte_bracket] at this
  exact absurd this (by decide)

/-- A text that ends with a character. -/
theorem getLast?_eq_some {text : Str} {c : Char} :
    text.getLast? = some c ↔ ∃ rest : Str, text = rest ++ [c] := by
  constructor
  · intro h
    exact ⟨text.dropLast, (List.dropLast_append_getLast? c h).symm⟩
  · rintro ⟨rest, rfl⟩
    exact List.getLast?_concat

theorem validKey_iff (key : Str) : validKey key = true ↔ ValidKey key := by
  unfold validKey
  cases hsplit : splitOnce '[' key with
  | none =>
    have hkey : '[' ∉ key := splitOnce_none hsplit
    simp only [beq_self_eq_true, Bool.true_or, Bool.and_true, Bool.and_eq_true, Bool.not_eq_true',
      List.isEmpty_eq_false_iff, List.all_eq_true]
    constructor
    · rintro ⟨hne, hall⟩
      exact ⟨key, hne, hall, .inl rfl⟩
    · rintro ⟨base, hne, hall, rfl | ⟨locale, rfl⟩⟩
      · exact ⟨hne, hall⟩
      · exact absurd (List.mem_append_right base List.mem_cons_self) hkey
  | some parts =>
    obtain ⟨base, after⟩ := parts
    obtain ⟨rfl, hbase⟩ := splitOnce_some hsplit
    have hlonger : (base ++ '[' :: after == base) = false := by
      rw [beq_eq_false_iff_ne]
      intro heq
      have := congrArg List.length heq
      rw [List.length_append, List.length_cons] at this
      omega
    simp only [hlonger, isPrefixOf?_append, Bool.false_or, List.head?_cons, beq_self_eq_true,
      Bool.true_and, Bool.and_eq_true, Bool.not_eq_true', List.isEmpty_eq_false_iff, List.all_eq_true,
      beq_iff_eq]
    constructor
    · rintro ⟨⟨hne, hall⟩, hlast⟩
      refine ⟨base, hne, hall, .inr ?_⟩
      cases after with
      | nil => exact absurd hlast (by decide)
      | cons c after =>
        rw [List.getLast?_cons_cons] at hlast
        obtain ⟨locale, hlocale⟩ := getLast?_eq_some.1 hlast
        exact ⟨locale, by rw [hlocale]⟩
    · rintro ⟨base', hne, hall, heq | ⟨locale, heq⟩⟩
      · have := not_mem_base hall
        rw [← heq] at this
        exact absurd (List.mem_append_right base List.mem_cons_self) this
      · have hsame := splitOnce_append after hbase
        rw [heq, splitOnce_append _ (not_mem_base hall)] at hsame
        obtain ⟨rfl, rfl⟩ := Prod.mk.inj (Option.some.inj hsame)
        refine ⟨⟨hne, hall⟩, getLast?_eq_some.2 ⟨'[' :: locale, rfl⟩⟩

/-! ## Lines -/

theorem slice_header (name : Str) :
    slice 1 (utf8Len ('[' :: (name ++ [']'])) - 1) ('[' :: (name ++ [']'])) = some name := by
  have hclose : utf8Len (name ++ [']']) = utf8Len name + 1 := utf8Len_append name [']']
  have hbytes : utf8Len ('[' :: (name ++ [']'])) - 1 = 1 + utf8Len name := by
    rw [utf8Len_cons, hclose]
    show 1 + (utf8Len name + 1) - 1 = 1 + utf8Len name
    omega
  rw [hbytes]
  exact slice_append ['['] name [']']

/-- A line between brackets is a header unless there are brackets inside. -/
theorem parseHeader_bracketed (state : ParseState) (name : Str) :
    parseHeader state ('[' :: (name ++ [']'])) =
      if '[' ∈ name ∨ ']' ∈ name then .error .refused
      else if '[' :: (name ++ [']']) = desktopEntry then
        if state.foundDesktopEntry then .error .refused
        else .ok { state with inDesktopEntry := true, foundDesktopEntry := true }
      else .ok { state with inDesktopEntry := false } := by
  have hlast : ('[' :: (name ++ [']'])).getLast? = some ']' := getLast?_eq_some.2 ⟨'[' :: name, rfl⟩
  unfold parseHeader
  rw [if_neg (not_not.2 hlast), slice_header]

theorem parseHeader_header (state : ParseState) {line : Str} (h : Header line) :
    parseHeader state line =
      if line = desktopEntry then
        if state.foundDesktopEntry then .error .refused
        else .ok { state with inDesktopEntry := true, foundDesktopEntry := true }
      else .ok { state with inDesktopEntry := false } := by
  obtain ⟨name, rfl, hopen, hclose⟩ := h
  rw [parseHeader_bracketed, if_neg (not_or.2 ⟨hopen, hclose⟩)]

theorem parseHeader_other (state : ParseState) {line : Str} (hhead : line.head? = some '[')
    (h : ¬ Header line) : parseHeader state line = .error .refused := by
  by_cases hlast : line.getLast? = some ']'
  swap
  · rw [parseHeader, if_pos hlast]
  obtain ⟨name, rfl⟩ : ∃ name : Str, line = '[' :: (name ++ [']']) := by
    obtain ⟨start, rfl⟩ := getLast?_eq_some.1 hlast
    cases start with
    | nil => exact absurd hhead (by decide)
    | cons c name =>
      obtain rfl : c = '[' := Option.some.inj hhead
      exact ⟨name, rfl⟩
  rw [parseHeader_bracketed, if_pos]
  by_contra hnone
  rw [not_or] at hnone
  exact h ⟨name, rfl, hnone⟩

/-- A line of the entry adds the member it states, if that is a new one and there is room. -/
theorem parseMember_ok (state : ParseState) (line : Str) (next : ParseState) :
    parseMember state line = .ok next ↔ ∃ member, Member line member ∧
      state.values.length ≠ maxEntryKeys ∧ member.1 ∉ state.values.map Prod.fst ∧
      next = { state with values := state.values ++ [member] } := by
  unfold parseMember
  cases hsplit : splitOnce '=' line with
  | none =>
    refine iff_of_false (by simp) ?_
    rintro ⟨member, ⟨key, value, rfl, -⟩, -⟩
    exact splitOnce_none hsplit (List.mem_append_right key List.mem_cons_self)
  | some parts =>
    obtain ⟨key, value⟩ := parts
    obtain ⟨rfl, hkey⟩ := splitOnce_some hsplit
    dsimp only
    split_ifs with hbad
    · refine iff_of_false (by simp) ?_
      rintro ⟨member, ⟨key', value', hline, hkey', rfl, hvalid⟩, hroom, hnew, -⟩
      have hsame := splitOnce_append value hkey
      rw [hline, splitOnce_append value' hkey'] at hsame
      obtain ⟨rfl, rfl⟩ := Prod.mk.inj (Option.some.inj hsame)
      obtain hbad | hbad | hbad := hbad
      · rw [(validKey_iff _).2 hvalid] at hbad
        exact absurd hbad (by decide)
      · exact hroom hbad
      · exact hnew hbad
    · simp only [not_or, Bool.not_eq_false] at hbad
      obtain ⟨hvalid, hroom, hnew⟩ := hbad
      constructor
      · intro h
        exact ⟨(trim key, trim value), ⟨key, value, rfl, hkey, rfl, (validKey_iff _).1 hvalid⟩, hroom,
          hnew, (Except.ok.inj h).symm⟩
      · rintro ⟨member, ⟨key', value', hline, hkey', rfl, -⟩, -, -, rfl⟩
        have hsame := splitOnce_append value hkey
        rw [hline, splitOnce_append value' hkey'] at hsame
        obtain ⟨rfl, rfl⟩ := Prod.mk.inj (Option.some.inj hsame)
        rfl

theorem parseMember_no_panic (state : ParseState) (line : Str) :
    parseMember state line ≠ .error .panic := by
  unfold parseMember
  split
  · simp
  · dsimp only
    split_ifs <;> simp

theorem parseLine_no_panic (state : ParseState) (line : Str) :
    parseLine state line ≠ .error .panic := by
  unfold parseLine
  split_ifs with hhead hfound hinside
  · by_cases h : Header line
    · rw [parseHeader_header state h]
      split_ifs <;> simp
    · rw [parseHeader_other state hhead h]
      simp
  · simp
  · simp
  · exact parseMember_no_panic state line

/-! ## Runs -/

/-- The lines that are passed over change nothing. -/
theorem parseLines_content (rawLines : List Str) : ∀ state : ParseState, parseLines state rawLines =
    ((rawLines.map (stripSuffix '\r')).filter fun line => !skipped line).foldlM parseLine state := by
  induction rawLines with
  | nil => exact fun state => rfl
  | cons rawLine rest ih =>
    intro state
    unfold parseLines
    rw [List.map_cons]
    by_cases hskip : skipped (stripSuffix '\r' rawLine) = true
    · rw [if_pos hskip, List.filter_cons_of_neg (by simp [hskip])]
      exact ih state
    · rw [if_neg hskip, List.filter_cons_of_pos (by simp [hskip]), List.foldlM_cons]
      exact bind_congr ih

theorem foldlM_no_panic (lines : List Str) : ∀ state : ParseState,
    lines.foldlM parseLine state ≠ .error .panic := by
  induction lines with
  | nil => exact fun state => by simp [pure, Except.pure]
  | cons line rest ih =>
    intro state h
    rw [List.foldlM_cons] at h
    cases hline : parseLine state line with
    | error stop =>
      rw [hline] at h
      exact parseLine_no_panic state line (hline.trans (congrArg Except.error (Except.error.inj h)))
    | ok next =>
      rw [hline] at h
      exact ih next h

theorem head_of_header {line : Str} (h : Header line) : line.head? = some '[' := by
  obtain ⟨name, rfl, -⟩ := h
  rfl

theorem parseLine_header (state : ParseState) {line : Str} (h : Header line) :
    parseLine state line =
      if line = desktopEntry then
        if state.foundDesktopEntry then .error .refused
        else .ok { state with inDesktopEntry := true, foundDesktopEntry := true }
      else .ok { state with inDesktopEntry := false } := by
  rw [parseLine, if_pos (head_of_header h), parseHeader_header state h]

/-- A line that is read opens with a bracket only if it is a header. -/
theorem header_of_ok {state next : ParseState} {line : Str} (hhead : line.head? = some '[')
    (h : parseLine state line = .ok next) : Header line := by
  by_contra hnot
  rw [parseLine, if_pos hhead, parseHeader_other state hhead hnot] at h
  exact absurd h (by simp)

theorem foldlM_cons_ok {line : Str} {rest : List Str} {state next : ParseState} :
    (line :: rest).foldlM parseLine state = .ok next ↔
      ∃ middle, parseLine state line = .ok middle ∧ rest.foldlM parseLine middle = .ok next := by
  rw [List.foldlM_cons]
  cases hline : parseLine state line with
  | error stop =>
    refine iff_of_false (by simp [bind, Except.bind]) ?_
    rintro ⟨middle, hmiddle, -⟩
    exact absurd hmiddle (by simp)
  | ok middle =>
    constructor
    · exact fun h => ⟨middle, rfl, h⟩
    · rintro ⟨middle', hmiddle, h⟩
      rw [Except.ok.inj hmiddle]
      exact h

theorem desktopEntry_header : Header desktopEntry :=
  ⟨"Desktop Entry".toList, by decide, by decide, by decide⟩

theorem other_cons {line : Str} {rest : List Str} : Other (line :: rest) ↔
    line ≠ desktopEntry ∧ (line.head? = some '[' → Header line) ∧ Other rest := by
  unfold Other
  rw [List.mem_cons, not_or, List.forall_mem_cons, ne_comm]
  tauto

/-- After the entry, other groups are read over. -/
theorem run_other (values : Values) (next : ParseState) : ∀ lines : List Str,
    lines.foldlM parseLine ⟨values, false, true⟩ = .ok next ↔
      Other lines ∧ next = ⟨values, false, true⟩
  | [] => by
    constructor
    · intro h
      exact ⟨⟨List.not_mem_nil, by simp⟩, (Except.ok.inj h).symm⟩
    · rintro ⟨-, rfl⟩
      rfl
  | line :: rest => by
    rw [foldlM_cons_ok, other_cons]
    constructor
    · rintro ⟨middle, hline, hrest⟩
      by_cases hhead : line.head? = some '['
      · have hheader := header_of_ok hhead hline
        have hentry : line ≠ desktopEntry := by
          intro hentry
          rw [parseLine_header _ hheader, if_pos hentry, if_pos rfl] at hline
          exact absurd hline (by simp)
        rw [parseLine_header _ hheader, if_neg hentry] at hline
        obtain rfl := Except.ok.inj hline
        obtain ⟨hother, hnext⟩ := (run_other values next rest).1 hrest
        exact ⟨⟨hentry, fun _ => hheader, hother⟩, hnext⟩
      · rw [parseLine, if_neg hhead, if_neg (by simp), if_pos rfl] at hline
        obtain rfl := Except.ok.inj hline
        obtain ⟨hother, hnext⟩ := (run_other values next rest).1 hrest
        refine ⟨⟨?_, fun h => absurd h hhead, hother⟩, hnext⟩
        rintro rfl
        exact hhead (head_of_header desktopEntry_header)
    · rintro ⟨⟨hentry, hheader, hother⟩, hnext⟩
      refine ⟨⟨values, false, true⟩, ?_, (run_other values next rest).2 ⟨hother, hnext⟩⟩
      by_cases hhead : line.head? = some '['
      · rw [parseLine_header _ (hheader hhead), if_neg hentry]
      · rw [parseLine, if_neg hhead, if_neg (by simp), if_pos rfl]

/-- What is left of a file once its entry is open. -/
def Closing (values : Values) (lines : List Str) (next : ParseState) : Prop :=
  ∃ group after members, lines = group ++ after ∧ Ended group after ∧ Other after ∧
    List.Forall₂ Member group members ∧ ((values ++ members).map Prod.fst).Nodup ∧
    (values ++ members).length ≤ maxEntryKeys ∧ next = ⟨values ++ members, after.isEmpty, true⟩

theorem closing_header {values : Values} {line : Str} {rest : List Str} {next : ParseState}
    (hvalues : (values.map Prod.fst).Nodup) (hroom : values.length ≤ maxEntryKeys)
    (hhead : line.head? = some '[') :
    Closing values (line :: rest) next ↔ Other (line :: rest) ∧ next = ⟨values, false, true⟩ := by
  constructor
  · rintro ⟨group, after, members, hlines, hended, hother, hmembers, -, -, rfl⟩
    cases group with
    | cons first group =>
      obtain ⟨rfl, -⟩ := List.cons.inj hlines
      exact absurd hhead (hended.1 line List.mem_cons_self)
    | nil =>
      rw [List.nil_append] at hlines
      obtain rfl := List.forall₂_nil_left_iff.1 hmembers
      rw [hlines, List.append_nil]
      refine ⟨hother, ?_⟩
      rw [← hlines]
      rfl
  · rintro ⟨hother, rfl⟩
    refine ⟨[], line :: rest, [], rfl, ⟨by simp, ?_⟩, hother, .nil, by rwa [List.append_nil],
      by rwa [List.append_nil], by rw [List.append_nil]; rfl⟩
    intro first hfirst
    obtain rfl := Option.some.inj hfirst
    exact hhead

theorem closing_member {values : Values} {line : Str} {rest : List Str} {next : ParseState}
    (hhead : line.head? ≠ some '[') :
    Closing values (line :: rest) next ↔
      ∃ member, Member line member ∧ Closing (values ++ [member]) rest next := by
  constructor
  · rintro ⟨group, after, members, hlines, hended, hother, hmembers, hnodup, hfew, rfl⟩
    cases group with
    | nil =>
      rw [List.nil_append] at hlines
      exact absurd (hended.2 line (by rw [← hlines]; rfl)) hhead
    | cons first group =>
      obtain ⟨rfl, rfl⟩ := List.cons.inj hlines
      obtain ⟨member, more, hmember, hmore, rfl⟩ := List.forall₂_cons_left_iff.1 hmembers
      refine ⟨member, hmember, group, after, more, rfl,
        ⟨fun l hl => hended.1 l (List.mem_cons_of_mem _ hl), hended.2⟩, hother, hmore, ?_, ?_, ?_⟩
      · rwa [List.append_assoc]
      · rwa [List.append_assoc]
      · rw [List.append_assoc]
        rfl
  · rintro ⟨member, hmember, group, after, more, rfl, hended, hother, hmore, hnodup, hfew, rfl⟩
    rw [List.append_assoc] at hnodup hfew
    refine ⟨line :: group, after, member :: more, rfl, ⟨?_, hended.2⟩, hother, .cons hmember hmore,
      hnodup, hfew, ?_⟩
    · intro l hl
      obtain rfl | hl := List.mem_cons.1 hl
      · exact hhead
      · exact hended.1 l hl
    · rw [List.append_assoc]
      rfl

theorem added_member {values : Values} {member : Str × Str} (hvalues : (values.map Prod.fst).Nodup)
    (hroom : values.length ≤ maxEntryKeys) (hfull : values.length ≠ maxEntryKeys)
    (hnew : member.1 ∉ values.map Prod.fst) :
    ((values ++ [member]).map Prod.fst).Nodup ∧ (values ++ [member]).length ≤ maxEntryKeys := by
  constructor
  · rw [List.map_append, List.nodup_append]
    refine ⟨hvalues, List.pairwise_singleton _ _, fun key hkey other hother => ?_⟩
    rw [List.map_singleton, List.mem_singleton] at hother
    rintro rfl
    exact hnew (hother ▸ hkey)
  · rw [List.length_append, List.length_singleton]
    omega

theorem closing_room {values : Values} {lines : List Str} {next : ParseState}
    (h : Closing values lines next) :
    (values.map Prod.fst).Nodup ∧ values.length ≤ maxEntryKeys := by
  obtain ⟨group, after, members, -, -, -, -, hnodup, hfew, -⟩ := h
  rw [List.map_append, List.nodup_append] at hnodup
  rw [List.length_append] at hfew
  exact ⟨hnodup.1, by omega⟩

/-- Inside the entry, every line up to the next header adds a member. -/
theorem run_entry (next : ParseState) : ∀ (lines : List Str) (values : Values),
    (values.map Prod.fst).Nodup → values.length ≤ maxEntryKeys →
    (lines.foldlM parseLine ⟨values, true, true⟩ = .ok next ↔ Closing values lines next)
  | [], values, hvalues, hroom => by
    constructor
    · intro h
      obtain rfl := Except.ok.inj h
      exact ⟨[], [], [], rfl, ⟨by simp, by simp⟩, ⟨List.not_mem_nil, by simp⟩, .nil,
        by rwa [List.append_nil], by rwa [List.append_nil], by rw [List.append_nil]; rfl⟩
    · rintro ⟨group, after, members, hlines, -, -, hmembers, -, -, rfl⟩
      obtain ⟨rfl, rfl⟩ := List.append_eq_nil_iff.1 hlines.symm
      obtain rfl := List.forall₂_nil_left_iff.1 hmembers
      rw [List.append_nil]
      rfl
  | line :: rest, values, hvalues, hroom => by
    rw [foldlM_cons_ok]
    by_cases hhead : line.head? = some '['
    · rw [closing_header hvalues hroom hhead, ← run_other, foldlM_cons_ok]
      refine exists_congr fun middle => and_congr_left fun _ => ?_
      -- a header closes the entry as it closes any other group
      unfold parseLine
      rw [if_pos hhead, if_pos hhead]
      rfl
    · rw [closing_member hhead]
      have hline : parseLine ⟨values, true, true⟩ line = parseMember ⟨values, true, true⟩ line := by
        rw [parseLine, if_neg hhead, if_neg (by simp), if_neg (by simp)]
      constructor
      · rintro ⟨middle, hmiddle, hrest⟩
        rw [hline, parseMember_ok] at hmiddle
        obtain ⟨member, hmember, hfull, hnew, rfl⟩ := hmiddle
        have hvalid := added_member hvalues hroom hfull hnew
        exact ⟨member, hmember, (run_entry next rest _ hvalid.1 hvalid.2).1 hrest⟩
      · rintro ⟨member, hmember, hclosing⟩
        obtain ⟨hnodup, hfew⟩ := closing_room hclosing
        refine ⟨⟨values ++ [member], true, true⟩, ?_, (run_entry next rest _ hnodup hfew).2 hclosing⟩
        rw [hline, parseMember_ok]
        refine ⟨member, hmember, ?_, ?_, rfl⟩
        · show values.length ≠ maxEntryKeys
          rw [List.length_append, List.length_singleton] at hfew
          omega
        · rw [List.map_append, List.nodup_append] at hnodup
          exact fun hmem => hnodup.2.2 _ hmem _ (List.mem_map_of_mem (List.mem_singleton_self member)) rfl

/-- In front of the entry there are only headers. -/
theorem run_before (next : ParseState) : ∀ lines : List Str,
    (lines.foldlM parseLine ⟨[], false, false⟩ = .ok next ∧ next.foundDesktopEntry = true) ↔
      ∃ before rest, lines = before ++ desktopEntry :: rest ∧
        (∀ line ∈ before, Header line ∧ line ≠ desktopEntry) ∧ Closing [] rest next
  | [] => by
    refine iff_of_false ?_ ?_
    · rintro ⟨h, hfound⟩
      rw [← Except.ok.inj h] at hfound
      exact absurd hfound (by decide)
    · rintro ⟨before, rest, hlines, -⟩
      exact absurd (congrArg List.length hlines) (by simp)
  | line :: rest => by
    rw [foldlM_cons_ok]
    constructor
    · rintro ⟨⟨middle, hline, hrest⟩, hfound⟩
      by_cases hhead : line.head? = some '['
      swap
      · rw [parseLine, if_neg hhead, if_pos rfl] at hline
        exact absurd hline (by simp)
      have hheader := header_of_ok hhead hline
      rw [parseLine_header _ hheader] at hline
      by_cases hentry : line = desktopEntry
      · rw [if_pos hentry, if_neg (by simp)] at hline
        obtain rfl := Except.ok.inj hline
        exact ⟨[], rest, by rw [hentry]; rfl, by simp,
          (run_entry next rest [] List.nodup_nil (by decide)).1 hrest⟩
      · rw [if_neg hentry] at hline
        obtain rfl := Except.ok.inj hline
        obtain ⟨before, more, hmore, hbefore, hclosing⟩ := (run_before next rest).1 ⟨hrest, hfound⟩
        refine ⟨line :: before, more, by rw [hmore]; rfl, ?_, hclosing⟩
        intro l hl
        obtain rfl | hl := List.mem_cons.1 hl
        · exact ⟨hheader, hentry⟩
        · exact hbefore l hl
    · rintro ⟨before, more, hlines, hbefore, hclosing⟩
      have hfound : next.foundDesktopEntry = true := by
        obtain ⟨-, -, -, -, -, -, -, -, -, rfl⟩ := hclosing
        rfl
      refine ⟨?_, hfound⟩
      cases before with
      | nil =>
        obtain ⟨rfl, rfl⟩ := List.cons.inj hlines
        refine ⟨⟨[], true, true⟩, ?_, (run_entry next rest [] List.nodup_nil (by decide)).2 hclosing⟩
        rw [parseLine_header _ desktopEntry_header, if_pos rfl, if_neg (by simp)]
      | cons first before =>
        obtain ⟨rfl, rfl⟩ := List.cons.inj hlines
        obtain ⟨hheader, hentry⟩ := hbefore line List.mem_cons_self
        refine ⟨⟨[], false, false⟩, ?_, ?_⟩
        · rw [parseLine_header _ hheader, if_neg hentry]
        · exact ((run_before next _).2 ⟨before, more, rfl,
            fun l hl => hbefore l (List.mem_cons_of_mem _ hl), hclosing⟩).1

/-- The grammar, as a run of the parser over the lines that say something. -/
theorem desktopEntry_iff {source : Str} {values : Values}
    (hplain : ∀ c ∈ source, isControl c = true → c = '\n' ∨ c = '\r') :
    DesktopEntry source values ↔ ∃ next,
      (content source).foldlM parseLine ⟨[], false, false⟩ = .ok next ∧
        next.foundDesktopEntry = true ∧ next.values = values := by
  constructor
  · rintro ⟨-, ⟨before, group, after, hlines, hbefore, hended, hother, hmembers⟩, hnodup, hfew⟩
    obtain ⟨hrun, hfound⟩ := (run_before ⟨values, after.isEmpty, true⟩ (content source)).2
      ⟨before, group ++ after, hlines, hbefore, group, after, values, rfl, hended, hother, hmembers,
        hnodup, hfew, rfl⟩
    exact ⟨_, hrun, hfound, rfl⟩
  · rintro ⟨next, hrun, hfound, rfl⟩
    obtain ⟨before, rest, hlines, hbefore, hclosing⟩ :=
      (run_before next (content source)).1 ⟨hrun, hfound⟩
    obtain ⟨group, after, members, rfl, hended, hother, hmembers, hnodup, hfew, rfl⟩ := hclosing
    exact ⟨hplain, ⟨before, group, after, hlines, hbefore, hended, hother, hmembers⟩, hnodup, hfew⟩

/-- The parser stops on no text, and it accepts just the files that have an entry, with the members
that the lines of its group state. -/
theorem parse_desktop_exact (source : Str) : parseDesktop source ≠ .error .panic ∧
    ∀ values, parseDesktop source = .ok values ↔ DesktopEntry source values := by
  have hcontent : parseLines ⟨[], false, false⟩ (lines source) =
      (content source).foldlM parseLine ⟨[], false, false⟩ := parseLines_content (lines source) _
  have hplain : (source.any fun c => isControl c && !(c == '\n' || c == '\r')) = true ↔
      ¬ ∀ c ∈ source, isControl c = true → c = '\n' ∨ c = '\r' := by
    simp only [List.any_eq_true, Bool.and_eq_true, Bool.not_eq_true', Bool.or_eq_false_iff,
      beq_eq_false_iff_ne, ne_eq, not_forall, not_or]
    tauto
  unfold parseDesktop
  by_cases hcontrol : ∀ c ∈ source, isControl c = true → c = '\n' ∨ c = '\r'
  swap
  · rw [if_pos (hplain.2 hcontrol)]
    exact ⟨by simp, fun values => iff_of_false (by simp) fun h => hcontrol h.plain⟩
  rw [if_neg (fun h => hplain.1 h hcontrol), hcontent]
  refine ⟨?_, fun values => ?_⟩
  · have hrun := foldlM_no_panic (content source) ⟨[], false, false⟩
    cases hstate : (content source).foldlM parseLine ⟨[], false, false⟩ with
    | error stop =>
      rw [hstate] at hrun
      exact fun h => hrun (congrArg Except.error (Except.error.inj h))
    | ok state =>
      show (if state.foundDesktopEntry then Except.ok state.values else .error Stop.refused) ≠ _
      split_ifs <;> simp
  · rw [desktopEntry_iff hcontrol]
    cases hstate : (content source).foldlM parseLine ⟨[], false, false⟩ with
    | error stop =>
      refine iff_of_false (by simp [bind, Except.bind]) ?_
      rintro ⟨next, hnext, -⟩
      exact absurd hnext (by simp)
    | ok state =>
      show (if state.foundDesktopEntry then Except.ok state.values else .error Stop.refused) = _ ↔ _
      constructor
      · intro h
        split_ifs at h with hfound
        exact ⟨state, rfl, hfound, Except.ok.inj h⟩
      · rintro ⟨next, hnext, hfound, rfl⟩
        rw [Except.ok.inj hnext, if_pos hfound]

example : parseDesktop "[Desktop Entry]\nName=A\n[Desktop Action New]\nName=Ignored\n".toList =
    .ok [("Name".toList, "A".toList)] := by decide +kernel

end AgentSeat.Launch
