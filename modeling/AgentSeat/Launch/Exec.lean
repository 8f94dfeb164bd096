/-
  Command lines of desktop entries (`parse_exec`, `exec_words` and `expand_word` of `launch.rs`).

  `scanWords` is the character loop with its flags. `Line` states the lines it is meant to accept:
  words between blanks, each of them bare or complete in double quotes; `execWords_iff` says that it
  accepts these and finds the words they spell. A line that quotes every argument spells just these
  arguments (`exec_words_exact`), and what an entry's name, icon and path put into the arguments stays
  where the field stands (`expand_fields`).
-/
import AgentSeat.Launch.Names
import AgentSeat.Lib.Paths

namespace AgentSeat.Launch

open Lib.Chars Lib.Paths Lib.Text

/-! ## Words -/

structure ExecWord where
  text : Str
  quoted : Bool
  deriving DecidableEq

def quote : Char := Char.ofNat 34

def escapable : Str := "\"`$\\".toList

def execReserved : Str := "'><~|&;$*?#()`".toList

def isExecReserved (c : Char) : Bool := c ∈ execReserved

def isAsciiWhitespace (c : Char) : Bool :=
  c = ' ' ∨ c = '\t' ∨ c = '\n' ∨ c = '\x0c' ∨ c = '\r'

/-- The variables of the loop. -/
structure Scan where
  words : List ExecWord
  text : Str
  quoted : Bool
  wordQuoted : Bool
  present : Bool
  closedQuote : Bool

def scanWords (scan : Scan) : Str → Option Scan
  | [] => some scan
  | c :: rest =>
    if scan.closedQuote = true ∧ isAsciiWhitespace c = false then none
    else if c = quote then
      if scan.quoted then scanWords { scan with quoted := false, closedQuote := true } rest
      else if scan.present then none
      else scanWords { scan with quoted := true, wordQuoted := true, present := true } rest
    else if c = '\\' then
      if scan.quoted = false then none
      else match rest with
        | [] => none
        | escaped :: rest =>
          if escaped ∈ escapable then
            scanWords { scan with text := scan.text ++ [escaped], present := true } rest
          else none
    else if isAsciiWhitespace c = true ∧ scan.quoted = false then
      if scan.present then
        scanWords { scan with
          words := scan.words ++ [⟨scan.text, scan.wordQuoted⟩], text := [], wordQuoted := false,
          present := false, closedQuote := false } rest
      else scanWords scan rest
    else if scan.quoted = false ∧ isExecReserved c = true then none
    else scanWords { scan with text := scan.text ++ [c], present := true } rest

/-- The words of a scan that has come to the end of its line. -/
def Scan.finish (scan : Scan) : Option (List ExecWord) :=
  if scan.quoted then none
  else some (if scan.present then scan.words ++ [⟨scan.text, scan.wordQuoted⟩] else scan.words)

def execWords (value : Str) : Option (List ExecWord) := do
  let scan ← scanWords ⟨[], [], false, false, false, false⟩ value
  let words ← scan.finish
  if words.isEmpty then none else some words

/-! ## Lines -/

/-- A character of a bare word. -/
def bareChar (c : Char) : Bool :=
  c ≠ quote ∧ c ≠ '\\' ∧ isAsciiWhitespace c = false ∧ isExecReserved c = false

/-- What a text between double quotes stands for. -/
inductive Body : Str → Str → Prop where
  | nil : Body [] []
  | plain {c : Char} {text spelling : Str} : c ≠ quote → c ≠ '\\' → Body text spelling →
      Body (c :: text) (c :: spelling)
  | escaped {c : Char} {text spelling : Str} : c ∈ escapable → Body text spelling →
      Body (c :: text) ('\\' :: c :: spelling)

/-- How a word is written. -/
inductive Spelled : ExecWord → Str → Prop where
  | bare {text : Str} : text ≠ [] → (∀ c ∈ text, bareChar c = true) → Spelled ⟨text, false⟩ text
  | quoted {text spelling : Str} : Body text spelling →
      Spelled ⟨text, true⟩ (quote :: (spelling ++ [quote]))

/-- The line ends here, or a blank follows. -/
def Bounded (rest : Str) : Prop := ∀ c, rest.head? = some c → isAsciiWhitespace c = true

/-- Words with blanks between them. -/
inductive Line : List ExecWord → Str → Prop where
  | done : Line [] []
  | blank {c : Char} {words : List ExecWord} {rest : Str} : isAsciiWhitespace c = true →
      Line words rest → Line words (c :: rest)
  | word {w : ExecWord} {spelling : Str} {words : List ExecWord} {rest : Str} : Spelled w spelling →
      Bounded rest → Line words rest → Line (w :: words) (spelling ++ rest)

/-! ## Field codes -/

def ignoredFields : List Str :=
  ["%f", "%F", "%u", "%U", "%d", "%D", "%n", "%N", "%v", "%m"].map String.toList

/-- A literal word with its double percent signs made single. -/
def expandLiteral : Str → Option Str
  | [] => some []
  | c :: rest =>
    if c ≠ '%' then (expandLiteral rest).map (c :: ·)
    else match rest with
      | [] => none
      | next :: rest => if next = '%' then (expandLiteral rest).map ('%' :: ·) else none

/-- What fields stand for: the name, the path of the entry if it is text, the icon as written. -/
structure Fields where
  name : Str
  path : Option Str
  icon : Option Str

/-- What `%i` stands for, unless the icon cannot be decoded. -/
def Fields.iconArguments (fields : Fields) : Option (List Str) :=
  match fields.icon with
  | none => some []
  | some icon => (decodeString icon).map fun icon =>
    if icon.isEmpty then [] else ["--icon".toList, icon]

def expandWord (word : ExecWord) (fields : Fields) : Option (List Str) :=
  if word.quoted = true ∧ '%' ∈ word.text then none
  else if ignoredFields.contains word.text then some []
  else if word.text = "%i".toList then fields.iconArguments
  else if word.text = "%c".toList then some [fields.name]
  else if word.text = "%k".toList then fields.path.map fun path => [path]
  else (expandLiteral word.text).map fun literal => [literal]

def maxExecArguments : Nat := 128

def expandWords (fields : Fields) : List ExecWord → List Str → Option (List Str)
  | [], expanded => some expanded
  | word :: rest, expanded => do
    let added ← expandWord word fields
    if (expanded ++ added).length > maxExecArguments then none
    else expandWords fields rest (expanded ++ added)

/-! ## Programs -/

/-- What a program is looked up in: the search path and the files that may be run. -/
structure Programs where
  path : Option Bytes
  executableFile : Bytes → Bool

def strBytes (text : Str) : Bytes := text.flatMap String.utf8EncodeChar

def resolveProgram (programs : Programs) (value : Str) : Option Bytes :=
  let candidate := strBytes value
  if isAbsolute candidate then
    if programs.executableFile candidate then some candidate else none
  else if (components candidate).length ≠ 1 then none
  else programs.path.bind fun path =>
    ((((path.splitOn 58).take 64).filter isAbsolute).map fun directory =>
      join directory candidate).find? programs.executableFile

def parseExec (programs : Programs) (value : Str) (fields : Fields) : Option (Bytes × List Str) :=
  if value = [] ∨ ¬ value.all (fun c => c.toNat < 128) then none
  else do
    let value ← decodeString value
    let words ← execWords value
    let expanded ← expandWords fields words []
    let program ← expanded.head?
    if program = [] ∨ '=' ∈ program then none
    else do
      let program ← resolveProgram programs program
      return (program, expanded.tail)

/-! ## Words of a line -/

/-- The words found by a scan that goes on from a state of the loop. -/
def collect (scan : Scan) (input : Str) : Option (List ExecWord) :=
  (scanWords scan input).bind Scan.finish

section Modes

variable (words : List ExecWord) (text : Str)

def Scan.between : Scan := ⟨words, [], false, false, false, false⟩
def Scan.bare : Scan := ⟨words, text, false, false, true, false⟩
def Scan.inside : Scan := ⟨words, text, true, true, true, false⟩
def Scan.closed : Scan := ⟨words, text, false, true, true, true⟩

end Modes

theorem not_blank_quote : isAsciiWhitespace quote = false := by decide

theorem not_blank_backslash : isAsciiWhitespace '\\' = false := by decide

theorem bareChar_iff {c : Char} : bareChar c = true ↔
    c ≠ quote ∧ c ≠ '\\' ∧ isAsciiWhitespace c = false ∧ isExecReserved c = false := by
  rw [bareChar, decide_eq_true_eq]

theorem scanWords_cons (scan : Scan) (c : Char) (rest : Str) : scanWords scan (c :: rest) =
    if scan.closedQuote = true ∧ isAsciiWhitespace c = false then none
    else if c = quote then
      if scan.quoted then scanWords { scan with quoted := false, closedQuote := true } rest
      else if scan.present then none
      else scanWords { scan with quoted := true, wordQuoted := true, present := true } rest
    else if c = '\\' then
      if scan.quoted = false then none
      else match rest with
        | [] => none
        | escaped :: rest =>
          if escaped ∈ escapable then
            scanWords { scan with text := scan.text ++ [escaped], present := true } rest
          else none
    else if isAsciiWhitespace c = true ∧ scan.quoted = false then
      if scan.present then
        scanWords { scan with
          words := scan.words ++ [⟨scan.text, scan.wordQuoted⟩], text := [], wordQuoted := false,
          present := false, closedQuote := false } rest
      else scanWords scan rest
    else if scan.quoted = false ∧ isExecReserved c = true then none
    else scanWords { scan with text := scan.text ++ [c], present := true } rest := by
  cases rest with
  | nil => rfl
  | cons e rest => rfl

section Steps

variable {words : List ExecWord} {text : Str} {c : Char} {rest : Str}

theorem collect_between_nil : collect (.between words) [] = some words := rfl

theorem collect_bare_nil : collect (.bare words text) [] = some (words ++ [⟨text, false⟩]) := rfl

theorem collect_inside_nil : collect (.inside words text) [] = none := rfl

theorem collect_closed_nil : collect (.closed words text) [] = some (words ++ [⟨text, true⟩]) := rfl

theorem collect_between_cons : collect (.between words) (c :: rest) =
    if isAsciiWhitespace c = true then collect (.between words) rest
    else if c = quote then collect (.inside words []) rest
    else if bareChar c = true then collect (.bare words [c]) rest
    else none := by
  simp only [collect, Scan.between, Scan.inside, Scan.bare, scanWords_cons, bareChar_iff]
  by_cases hquote : c = quote
  · subst hquote
    simp [not_blank_quote]
  · by_cases hescape : c = '\\'
    · subst hescape
      simp [not_blank_backslash, hquote]
    · by_cases hblank : isAsciiWhitespace c = true
      · simp [hquote, hescape, hblank]
      · by_cases hreserved : isExecReserved c = true
        · simp [hquote, hescape, hblank, hreserved]
        · simp [hquote, hescape, hblank, hreserved]

theorem collect_bare_cons : collect (.bare words text) (c :: rest) =
    if isAsciiWhitespace c = true then collect (.between (words ++ [⟨text, false⟩])) rest
    else if bareChar c = true then collect (.bare words (text ++ [c])) rest
    else none := by
  simp only [collect, Scan.between, Scan.bare, scanWords_cons, bareChar_iff]
  by_cases hquote : c = quote
  · subst hquote
    simp [not_blank_quote]
  · by_cases hescape : c = '\\'
    · subst hescape
      simp [not_blank_backslash, hquote]
    · by_cases hblank : isAsciiWhitespace c = true
      · simp [hquote, hescape, hblank]
      · by_cases hreserved : isExecReserved c = true
        · simp [hquote, hescape, hblank, hreserved]
        · simp [hquote, hescape, hblank, hreserved]

theorem collect_inside_cons : collect (.inside words text) (c :: rest) =
    if c = quote then collect (.closed words text) rest
    else if c = '\\' then
      match rest with
      | [] => none
      | escaped :: rest =>
        if escaped ∈ escapable then collect (.inside words (text ++ [escaped])) rest else none
    else collect (.inside words (text ++ [c])) rest := by
  simp only [collect, Scan.inside, Scan.closed, scanWords_cons]
  by_cases hquote : c = quote
  · simp [hquote]
  · by_cases hescape : c = '\\'
    · subst hescape
      cases rest with
      | nil => simp [hquote]
      | cons e rest =>
        by_cases he : e ∈ escapable
        · simp [hquote, he]
        · simp [hquote, he]
    · simp [hquote, hescape]

theorem collect_closed_cons : collect (.closed words text) (c :: rest) =
    if isAsciiWhitespace c = true then collect (.between (words ++ [⟨text, true⟩])) rest
    else none := by
  simp only [collect, Scan.between, Scan.closed, scanWords_cons]
  by_cases hblank : isAsciiWhitespace c = true
  · have hquote : c ≠ quote := by
      rintro rfl
      rw [not_blank_quote] at hblank
      exact absurd hblank (by decide)
    have hescape : c ≠ '\\' := by
      rintro rfl
      rw [not_blank_backslash] at hblank
      exact absurd hblank (by decide)
    simp [hblank, hquote, hescape]
  · simp [hblank]

end Steps

/-! ### Every line is read -/

theorem bounded_cons {c : Char} {rest : Str} (h : Bounded (c :: rest)) : isAsciiWhitespace c = true :=
  h c rfl

theorem collect_bounded {rest : Str} (h : Bounded rest) (words : List ExecWord) (text : Str) :
    collect (.bare words text) rest = collect (.between (words ++ [⟨text, false⟩])) rest ∧
      collect (.closed words text) rest = collect (.between (words ++ [⟨text, true⟩])) rest := by
  cases rest with
  | nil => exact ⟨rfl, rfl⟩
  | cons c rest =>
    have hblank := bounded_cons h
    rw [collect_bare_cons, collect_closed_cons, collect_between_cons, collect_between_cons]
    simp only [if_pos hblank, and_self]

theorem collect_bare_run {rest : Str} (hrest : Bounded rest) (words : List ExecWord) :
    ∀ (tail text : Str), (∀ c ∈ tail, bareChar c = true) →
      collect (.bare words text) (tail ++ rest) =
        collect (.between (words ++ [⟨text ++ tail, false⟩])) rest
  | [], text, _ => by
    rw [List.nil_append, List.append_nil]
    exact (collect_bounded hrest words text).1
  | c :: tail, text, h => by
    have hbare : bareChar c = true := h c List.mem_cons_self
    have hblank : ¬ isAsciiWhitespace c = true := by
      rw [(bareChar_iff.1 hbare).2.2.1]
      decide
    rw [List.cons_append, collect_bare_cons, if_neg hblank, if_pos hbare,
      collect_bare_run hrest words tail _ fun d hd => h d (List.mem_cons_of_mem c hd),
      List.append_assoc]
    rfl

theorem collect_body (words : List ExecWord) (rest : Str) {text spelling : Str}
    (h : Body text spelling) : ∀ start : Str,
      collect (.inside words start) (spelling ++ quote :: rest) =
        collect (.closed words (start ++ text)) rest := by
  induction h with
  | nil =>
    intro start
    rw [List.nil_append, List.append_nil, collect_inside_cons, if_pos rfl]
  | @plain c text spelling hquote hescape _ ih =>
    intro start
    rw [List.cons_append, collect_inside_cons, if_neg hquote, if_neg hescape, ih, List.append_assoc]
    rfl
  | @escaped c text spelling hc _ ih =>
    intro start
    have hquote : ¬ '\\' = quote := by decide
    rw [List.cons_append, List.cons_append, collect_inside_cons, if_neg hquote, if_pos rfl]
    dsimp only
    rw [if_pos hc, ih, List.append_assoc]
    rfl

theorem collect_line {more : List ExecWord} {input : Str} (h : Line more input) :
    ∀ words : List ExecWord, collect (.between words) input = some (words ++ more) := by
  induction h with
  | done =>
    intro words
    rw [collect_between_nil, List.append_nil]
  | blank hblank _ ih =>
    intro words
    rw [collect_between_cons, if_pos hblank, ih]
  | @word w spelling more rest hspelled hrest _ ih =>
    intro words
    cases hspelled with
    | @bare text hne hbare =>
      cases spelling with
      | nil => exact absurd rfl hne
      | cons c tail =>
        have hc := bareChar_iff.1 (hbare c List.mem_cons_self)
        rw [List.cons_append, collect_between_cons, if_neg (by rw [hc.2.2.1]; decide), if_neg hc.1,
          if_pos (hbare c List.mem_cons_self),
          collect_bare_run hrest words tail [c] fun d hd => hbare d (List.mem_cons_of_mem c hd), ih,
          List.append_assoc]
        rfl
    | @quoted text body hbody =>
      rw [List.cons_append, List.append_assoc, List.singleton_append, collect_between_cons,
        if_neg (by rw [not_blank_quote]; decide), if_pos rfl, collect_body words rest hbody,
        (collect_bounded hrest words _).2, ih, List.append_assoc]
      rfl

/-! ### Only lines are read -/

theorem bounded_nil : Bounded [] := fun _ h => absurd h (by simp)

theorem bounded_blank {c : Char} {rest : Str} (h : isAsciiWhitespace c = true) :
    Bounded (c :: rest) := fun _ hd => Option.some.inj hd ▸ h

/-- What is found from each state of the loop. -/
structure Found (input : Str) (words found : List ExecWord) (text : Str) : Prop where
  between : collect (.between words) input = some found →
    ∃ more, found = words ++ more ∧ Line more input
  bare : collect (.bare words text) input = some found →
    ∃ tail rest more, input = tail ++ rest ∧ (∀ c ∈ tail, bareChar c = true) ∧ Bounded rest ∧
      Line more rest ∧ found = words ++ ⟨text ++ tail, false⟩ :: more
  inside : collect (.inside words text) input = some found →
    ∃ body spelling rest more, input = spelling ++ quote :: rest ∧ Body body spelling ∧
      Bounded rest ∧ Line more rest ∧ found = words ++ ⟨text ++ body, true⟩ :: more
  closed : collect (.closed words text) input = some found →
    Bounded input ∧ ∃ more, Line more input ∧ found = words ++ ⟨text, true⟩ :: more

theorem found_nil (words found : List ExecWord) (text : Str) : Found [] words found text where
  between h := ⟨[], by rw [List.append_nil]; exact (Option.some.inj h).symm, .done⟩
  bare h := ⟨[], [], [], rfl, by simp, bounded_nil, .done, by
    rw [List.append_nil]
    exact (Option.some.inj h).symm⟩
  inside h := absurd h (by simp [collect_inside_nil])
  closed h := ⟨bounded_nil, [], .done, (Option.some.inj h).symm⟩

theorem found_cons {c : Char} {rest : Str}
    (ih : ∀ words found text, Found rest words found text)
    (ih' : ∀ e rest', rest = e :: rest' → ∀ words found text, Found rest' words found text)
    (words found : List ExecWord) (text : Str) : Found (c :: rest) words found text where
  between h := by
    rw [collect_between_cons] at h
    split_ifs at h with hblank hquote hbare
    · obtain ⟨more, rfl, hline⟩ := (ih words found text).between h
      exact ⟨more, rfl, .blank hblank hline⟩
    · obtain ⟨body, spelling, after, more, rfl, hbody, hafter, hline, rfl⟩ := (ih words found []).inside h
      refine ⟨⟨body, true⟩ :: more, rfl, ?_⟩
      have hword := Line.word (.quoted hbody) hafter hline
      rw [hquote]
      rwa [List.cons_append, List.append_assoc, List.singleton_append] at hword
    · obtain ⟨tail, after, more, rfl, htail, hafter, hline, rfl⟩ := (ih words found [c]).bare h
      refine ⟨⟨c :: tail, false⟩ :: more, rfl, ?_⟩
      exact .word (.bare (by simp) (List.forall_mem_cons.2 ⟨hbare, htail⟩)) hafter hline
  bare h := by
    rw [collect_bare_cons] at h
    split_ifs at h with hblank hbare
    · obtain ⟨more, rfl, hline⟩ := (ih _ found text).between h
      refine ⟨[], c :: rest, more, rfl, by simp, bounded_blank hblank, .blank hblank hline, ?_⟩
      rw [List.append_nil, List.append_assoc]
      rfl
    · obtain ⟨tail, after, more, rfl, htail, hafter, hline, rfl⟩ := (ih words found _).bare h
      refine ⟨c :: tail, after, more, rfl, List.forall_mem_cons.2 ⟨hbare, htail⟩, hafter, hline, ?_⟩
      rw [List.append_assoc]
      rfl
  inside h := by
    rw [collect_inside_cons] at h
    split_ifs at h with hquote hescape
    · obtain ⟨hrest, more, hline, rfl⟩ := (ih words found text).closed h
      refine ⟨[], [], rest, more, by rw [hquote]; rfl, .nil, hrest, hline, ?_⟩
      rw [List.append_nil]
    · cases rest with
      | nil => exact absurd h (by simp)
      | cons e rest =>
        dsimp only at h
        split_ifs at h with he
        obtain ⟨body, spelling, after, more, rfl, hbody, hafter, hline, rfl⟩ :=
          (ih' e rest rfl words found _).inside h
        refine ⟨e :: body, '\\' :: e :: spelling, after, more, by rw [hescape]; rfl,
          .escaped he hbody, hafter, hline, ?_⟩
        rw [List.append_assoc]
        rfl
    · obtain ⟨body, spelling, after, more, rfl, hbody, hafter, hline, rfl⟩ :=
        (ih words found _).inside h
      refine ⟨c :: body, c :: spelling, after, more, rfl, .plain hquote hescape hbody, hafter, hline, ?_⟩
      rw [List.append_assoc]
      rfl
  closed h := by
    rw [collect_closed_cons] at h
    split_ifs at h with hblank
    obtain ⟨more, rfl, hline⟩ := (ih _ found text).between h
    refine ⟨bounded_blank hblank, more, .blank hblank hline, ?_⟩
    rw [List.append_assoc]
    rfl

/-- An escape takes two characters, so the rest of a line is looked at from both places. -/
theorem collect_found : ∀ (input : Str) (words found : List ExecWord) (text : Str),
    Found input words found text
  | [] => found_nil
  | [_] => found_cons found_nil (by simp)
  | c :: e :: rest =>
    found_cons (collect_found (e :: rest)) fun e' rest' heq =>
      (List.cons.inj heq).2 ▸ collect_found rest

/-- The loop accepts the lines that have a word, and finds the words they spell. -/
theorem execWords_iff (value : Str) (words : List ExecWord) :
    execWords value = some words ↔ words ≠ [] ∧ Line words value := by
  have hcollect : execWords value = (collect (.between []) value).bind fun words =>
      if words.isEmpty then none else some words := by
    unfold execWords collect
    rw [Option.bind_assoc]
    rfl
  rw [hcollect]
  constructor
  · intro h
    obtain ⟨found, hfound, hsome⟩ := Option.bind_eq_some_iff.1 h
    split_ifs at hsome with hempty
    obtain rfl := Option.some.inj hsome
    obtain ⟨more, rfl, hline⟩ := (collect_found value [] found []).between hfound
    exact ⟨by simpa using hempty, hline⟩
  · rintro ⟨hne, hline⟩
    rw [collect_line hline, List.nil_append, Option.bind_some, if_neg (by simpa using hne)]

/-! ### Quoting -/

def quoteWord (text : Str) : Str :=
  quote :: (text.flatMap (fun c => if c ∈ escapable then ['\\', c] else [c]) ++ [quote])

/-- Every argument in double quotes, with blanks between them. -/
def quoteLine (arguments : List Str) : Str := [' '].intercalate (arguments.map quoteWord)

/-- A text as a value of a desktop entry. -/
def escapeString (text : Str) : Str :=
  text.flatMap fun c =>
    if c = '\\' then ['\\', '\\'] else if c = '\n' then ['\\', 'n']
    else if c = '\t' then ['\\', 't'] else if c = '\r' then ['\\', 'r'] else [c]

theorem decodeString_escape (c d : Char) (rest : Str) (h : unescape c = some d) :
    decodeString ('\\' :: c :: rest) = (decodeString rest).map (d :: ·) := by
  rw [decodeString, if_neg (by simp), h]
  cases decodeString rest <;> rfl

theorem decodeString_plain {c : Char} (h : c ≠ '\\') (rest : Str) :
    decodeString (c :: rest) = (decodeString rest).map (c :: ·) := by
  cases rest with
  | nil => simp [decodeString, h]
  | cons d rest => simp [decodeString, h]

theorem decode_escapeString : ∀ text : Str, decodeString (escapeString text) = some text
  | [] => rfl
  | c :: text => by
    have ih := decode_escapeString text
    unfold escapeString at ih ⊢
    rw [List.flatMap_cons]
    split_ifs with hback hnewline htab hreturn
    · rw [List.cons_append, List.cons_append, List.nil_append, decodeString_escape _ _ _ rfl, ih, hback]
      rfl
    · rw [List.cons_append, List.cons_append, List.nil_append, decodeString_escape _ _ _ rfl, ih,
        hnewline]
      rfl
    · rw [List.cons_append, List.cons_append, List.nil_append, decodeString_escape _ _ _ rfl, ih, htab]
      rfl
    · rw [List.cons_append, List.cons_append, List.nil_append, decodeString_escape _ _ _ rfl, ih,
        hreturn]
      rfl
    · rw [List.singleton_append, decodeString_plain hback, ih]
      rfl

theorem mem_escapable : quote ∈ escapable ∧ '\\' ∈ escapable := by decide

theorem quoteWord_body : ∀ text : Str,
    Body text (text.flatMap fun c => if c ∈ escapable then ['\\', c] else [c])
  | [] => .nil
  | c :: text => by
    rw [List.flatMap_cons]
    split_ifs with hc
    · exact .escaped hc (quoteWord_body text)
    · refine .plain ?_ ?_ (quoteWord_body text)
      · rintro rfl
        exact hc mem_escapable.1
      · rintro rfl
        exact hc mem_escapable.2

theorem quoteLine_line : ∀ arguments : List Str,
    Line (arguments.map fun text => ⟨text, true⟩) (quoteLine arguments)
  | [] => .done
  | [text] => by
    have hword := Line.word (.quoted (quoteWord_body text)) bounded_nil .done
    rw [List.append_nil] at hword
    simpa [quoteLine, quoteWord, List.intercalate] using hword
  | text :: next :: rest => by
    have hblank : isAsciiWhitespace ' ' = true := by decide
    have hword := Line.word (.quoted (quoteWord_body text)) (bounded_blank hblank)
      (Line.blank hblank (quoteLine_line (next :: rest)))
    have hline : quoteLine (text :: next :: rest) =
        quoteWord text ++ ' ' :: quoteLine (next :: rest) := by
      simp [quoteLine, List.intercalate]
    rw [hline]
    exact hword

/-! ## Arguments -/

/-- What a word of the line may contribute. -/
inductive Contributes (fields : Fields) (word : ExecWord) : List Str → Prop where
  | literal {text : Str} :
      word.text = text.flatMap (fun c => if c = '%' then ['%', '%'] else [c]) →
      Contributes fields word [text]
  | nothing : word.text ∈ ignoredFields → Contributes fields word []
  | name : word.text = "%c".toList → Contributes fields word [fields.name]
  | path {path : Str} : word.text = "%k".toList → fields.path = some path →
      Contributes fields word [path]
  | icon {icon decoded : Str} : word.text = "%i".toList → fields.icon = some icon →
      decodeString icon = some decoded → decoded ≠ [] →
      Contributes fields word ["--icon".toList, decoded]
  | noIcon : word.text = "%i".toList →
      (fields.icon = none ∨ ∃ icon, fields.icon = some icon ∧ decodeString icon = some []) →
      Contributes fields word []

theorem expandLiteral_some : ∀ {word text : Str}, expandLiteral word = some text →
    word = text.flatMap fun c => if c = '%' then ['%', '%'] else [c]
  | [], text, h => by
    obtain rfl := Option.some.inj h
    rfl
  | [c], text, h => by
    unfold expandLiteral at h
    split_ifs at h with hc
    obtain ⟨rest, hrest, rfl⟩ := Option.map_eq_some_iff.1 h
    rw [List.flatMap_cons, if_neg hc, ← expandLiteral_some hrest]
    rfl
  | c :: next :: word, text, h => by
    unfold expandLiteral at h
    by_cases hc : c ≠ '%'
    · rw [if_pos hc] at h
      obtain ⟨rest, hrest, rfl⟩ := Option.map_eq_some_iff.1 h
      rw [List.flatMap_cons, if_neg hc, ← expandLiteral_some hrest]
      rfl
    · rw [if_neg hc] at h
      dsimp only at h
      split_ifs at h with hnext
      obtain ⟨rest, hrest, rfl⟩ := Option.map_eq_some_iff.1 h
      rw [List.flatMap_cons, if_pos rfl, ← expandLiteral_some hrest, hnext, not_not.1 hc]
      rfl

theorem expandWord_contributes {fields : Fields} {word : ExecWord} {added : List Str}
    (h : expandWord word fields = some added) : Contributes fields word added := by
  unfold expandWord at h
  split_ifs at h with hquoted hignored hicon hname hpath
  · obtain rfl := Option.some.inj h
    exact .nothing (List.contains_iff_mem.1 hignored)
  · unfold Fields.iconArguments at h
    cases hfield : fields.icon with
    | none =>
      rw [hfield] at h
      obtain rfl := Option.some.inj h
      exact .noIcon hicon (.inl hfield)
    | some icon =>
      rw [hfield] at h
      obtain ⟨decoded, hdecoded, rfl⟩ := Option.map_eq_some_iff.1 h
      by_cases hempty : decoded = []
      · rw [hempty] at hdecoded ⊢
        exact .noIcon hicon (.inr ⟨icon, hfield, hdecoded⟩)
      · rw [if_neg (by simpa using hempty)]
        exact .icon hicon hfield hdecoded hempty
  · obtain rfl := Option.some.inj h
    exact .name hname
  · obtain ⟨path, hfield, rfl⟩ := Option.map_eq_some_iff.1 h
    exact .path hpath hfield
  · obtain ⟨text, htext, rfl⟩ := Option.map_eq_some_iff.1 h
    exact .literal (expandLiteral_some htext)

/-- The vector is what the words contribute, one after the other. -/
theorem expandWords_some {fields : Fields} : ∀ {words : List ExecWord} {start expanded : List Str},
    expandWords fields words start = some expanded → ∃ parts,
      List.Forall₂ (Contributes fields) words parts ∧ expanded = start ++ parts.flatten ∧
      (words ≠ [] → expanded.length ≤ maxExecArguments)
  | [], start, expanded, h => by
    obtain rfl := Option.some.inj h
    exact ⟨[], .nil, by simp, fun h => absurd rfl h⟩
  | word :: rest, start, expanded, h => by
    obtain ⟨added, hadded, hrest⟩ := Option.bind_eq_some_iff.1 h
    split_ifs at hrest with hlong
    obtain ⟨parts, hparts, rfl, hbound⟩ := expandWords_some hrest
    refine ⟨added :: parts, .cons (expandWord_contributes hadded) hparts, ?_, fun _ => ?_⟩
    · rw [List.flatten_cons, List.append_assoc]
    · cases rest with
      | nil =>
        obtain rfl := List.forall₂_nil_left_iff.1 hparts
        rw [List.flatten_nil, List.append_nil]
        omega
      | cons next rest => exact hbound (by simp)

/-! ### Two runs -/

/-- The words whose arguments are taken from the entry. -/
def takesField (word : ExecWord) : Bool :=
  word.text = "%c".toList ∨ word.text = "%i".toList ∨ word.text = "%k".toList

/-- The same fields are there to be taken. -/
structure Fields.Alike (fields other : Fields) : Prop where
  icon : fields.iconArguments.map List.length = other.iconArguments.map List.length
  path : fields.path.isSome = other.path.isSome

theorem expandWord_plain {word : ExecWord} (h : takesField word = false) (fields other : Fields) :
    expandWord word fields = expandWord word other := by
  simp only [takesField, decide_eq_false_iff_not, not_or] at h
  unfold expandWord
  rw [if_neg h.2.1, if_neg h.1, if_neg h.2.2, if_neg h.2.1, if_neg h.1, if_neg h.2.2]

theorem expandWord_alike {fields other : Fields} (h : fields.Alike other) (word : ExecWord) :
    (expandWord word fields).map List.length = (expandWord word other).map List.length := by
  unfold expandWord
  split_ifs
  · rfl
  · rfl
  · exact h.icon
  · rfl
  · cases hpath : fields.path with
    | none =>
      have := h.path
      rw [hpath] at this
      have hother : other.path = none := by simpa using this.symm
      rw [hother]
    | some path =>
      have := h.path
      rw [hpath] at this
      obtain ⟨path', hpath'⟩ := Option.isSome_iff_exists.1 this.symm
      rw [hpath']
      rfl
  · rfl

/-- The word that each argument comes from. -/
def origins (fields : Fields) (words : List ExecWord) : List ExecWord :=
  words.flatMap fun word => List.replicate ((expandWord word fields).getD []).length word

theorem origins_alike {fields other : Fields} (h : fields.Alike other) (words : List ExecWord) :
    origins fields words = origins other words := by
  refine List.flatMap_congr fun word _ => ?_
  have hlength := expandWord_alike h word
  cases hword : expandWord word fields with
  | none =>
    rw [hword] at hlength
    rw [Option.map_eq_none_iff.1 hlength.symm]
  | some added =>
    rw [hword] at hlength
    obtain ⟨added', hword', hsame⟩ := Option.map_eq_some_iff.1 hlength.symm
    rw [hword']
    show List.replicate added.length word = List.replicate added'.length word
    rw [hsame]

/-- The vectors of two runs are as long, and apart only where a field is taken. -/
structure Parallel (words : List ExecWord) (vector vector' : List Str) : Prop where
  length : vector.length = words.length
  length' : vector'.length = words.length
  apart : ∀ (i : Nat) (word : ExecWord), words[i]? = some word → takesField word = false →
    vector[i]? = vector'[i]?

theorem Parallel.append {words more : List ExecWord} {a a' b b' : List Str}
    (h : Parallel words a a') (hmore : Parallel more b b') :
    Parallel (words ++ more) (a ++ b) (a' ++ b') where
  length := by rw [List.length_append, List.length_append, h.length, hmore.length]
  length' := by rw [List.length_append, List.length_append, h.length', hmore.length']
  apart i word hword hplain := by
    by_cases hi : i < words.length
    · rw [List.getElem?_append_left hi] at hword
      rw [List.getElem?_append_left (by rw [h.length]; exact hi),
        List.getElem?_append_left (by rw [h.length']; exact hi)]
      exact h.apart i word hword hplain
    · rw [List.getElem?_append_right (by omega)] at hword
      rw [List.getElem?_append_right (by rw [h.length]; omega),
        List.getElem?_append_right (by rw [h.length']; omega), h.length, h.length']
      exact hmore.apart _ word hword hplain

theorem parallel_word {word : ExecWord} {added added' : List Str} (hlength : added.length = added'.length)
    (hplain : takesField word = false → added = added') :
    Parallel (List.replicate added.length word) added added' where
  length := by rw [List.length_replicate]
  length' := by rw [List.length_replicate, hlength]
  apart i other hother htakes := by
    rw [List.getElem?_replicate] at hother
    split_ifs at hother
    rw [hplain (Option.some.inj hother ▸ htakes)]

theorem expandWords_cons {fields : Fields} {word : ExecWord} {rest : List ExecWord}
    {start vector : List Str} : expandWords fields (word :: rest) start = some vector ↔
      ∃ added, expandWord word fields = some added ∧ (start ++ added).length ≤ maxExecArguments ∧
        expandWords fields rest (start ++ added) = some vector := by
  constructor
  · intro h
    obtain ⟨added, hadded, hrest⟩ := Option.bind_eq_some_iff.1 h
    split_ifs at hrest with hlong
    exact ⟨added, hadded, by omega, hrest⟩
  · rintro ⟨added, hadded, hroom, hrest⟩
    refine Option.bind_eq_some_iff.2 ⟨added, hadded, ?_⟩
    rw [if_neg (by omega), hrest]

/-- A run over the same words with fields that are alike. -/
theorem expandWords_alike {fields other : Fields} (h : fields.Alike other) :
    ∀ (words : List ExecWord) (start start' vector : List Str), start.length = start'.length →
      expandWords fields words start = some vector →
        ∃ tail tail', vector = start ++ tail ∧
          expandWords other words start' = some (start' ++ tail') ∧
          Parallel (origins fields words) tail tail'
  | [], start, start', vector, hstart, hrun => by
    obtain rfl := Option.some.inj hrun
    refine ⟨[], [], by rw [List.append_nil], by rw [List.append_nil]; rfl, rfl, rfl, ?_⟩
    exact fun _ _ hword => absurd hword (by simp [origins])
  | word :: rest, start, start', vector, hstart, hrun => by
    obtain ⟨added, hadded, hroom, hrest⟩ := expandWords_cons.1 hrun
    have hsame := expandWord_alike h word
    rw [hadded] at hsame
    obtain ⟨added', hadded', hlength⟩ := Option.map_eq_some_iff.1 hsame.symm
    have hboth : (start ++ added).length = (start' ++ added').length := by
      rw [List.length_append, List.length_append, hstart, hlength]
    obtain ⟨tail, tail', rfl, hrun', htails⟩ := expandWords_alike h rest _ _ vector hboth hrest
    refine ⟨added ++ tail, added' ++ tail', by rw [List.append_assoc], ?_, ?_⟩
    · refine expandWords_cons.2 ⟨added', hadded', by rw [← hboth]; exact hroom, ?_⟩
      rw [hrun', List.append_assoc]
    · have horigins : origins fields (word :: rest) =
          List.replicate added.length word ++ origins fields rest := by
        rw [origins, List.flatMap_cons, hadded]
        rfl
      rw [horigins]
      refine (parallel_word hlength.symm fun htakes => ?_).append htails
      rw [expandWord_plain htakes fields other] at hadded
      exact Option.some.inj (hadded.symm.trans hadded')

/-! ## The arguments of an entry -/

/-- What an accepted value says: a line of words, whose contributions in their order are the program
and its arguments. -/
theorem parseExec_some {programs : Programs} {value : Str} {fields : Fields} {program : Bytes}
    {arguments : List Str} (h : parseExec programs value fields = some (program, arguments)) :
    ∃ line words parts first, decodeString value = some line ∧ words ≠ [] ∧ Line words line ∧
      List.Forall₂ (Contributes fields) words parts ∧ first :: arguments = parts.flatten ∧
      (first :: arguments).length ≤ maxExecArguments ∧ resolveProgram programs first = some program := by
  unfold parseExec at h
  split_ifs at h
  obtain ⟨line, hline, h⟩ := Option.bind_eq_some_iff.1 h
  obtain ⟨words, hwords, h⟩ := Option.bind_eq_some_iff.1 h
  obtain ⟨expanded, hexpanded, h⟩ := Option.bind_eq_some_iff.1 h
  obtain ⟨first, hfirst, h⟩ := Option.bind_eq_some_iff.1 h
  split_ifs at h
  obtain ⟨resolved, hresolved, h⟩ := Option.bind_eq_some_iff.1 h
  obtain ⟨rfl, rfl⟩ := Prod.mk.inj (Option.some.inj h)
  obtain ⟨hne, hspelled⟩ := (execWords_iff line words).1 hwords
  obtain ⟨parts, hparts, hflat, hlength⟩ := expandWords_some hexpanded
  have hvector : first :: expanded.tail = expanded := List.cons_head?_tail hfirst
  rw [List.nil_append] at hflat
  exact ⟨line, words, parts, first, hline, hne, hspelled, hparts, hvector.trans hflat,
    hvector ▸ hlength hne, hresolved⟩

/-- Quoting is undone exactly, and the lines that are read are those made of bare and quoted words.
Every word of an accepted value contributes its literal text, or nothing, or the name, the path or the
pair of the icon; and entries whose fields are alike get vectors that are equally long and differ only
where a field is taken. -/
theorem exec_exact :
    (∀ arguments : List Str, arguments ≠ [] →
      (decodeString (escapeString (quoteLine arguments))).bind execWords =
        some (arguments.map fun text => ⟨text, true⟩)) ∧
    (∀ value words, execWords value = some words ↔ words ≠ [] ∧ Line words value) ∧
    (∀ programs value fields program arguments,
      parseExec programs value fields = some (program, arguments) →
      ∃ line words parts first, decodeString value = some line ∧ execWords line = some words ∧
        List.Forall₂ (Contributes fields) words parts ∧ first :: arguments = parts.flatten ∧
        (first :: arguments).length ≤ maxExecArguments ∧
        resolveProgram programs first = some program) ∧
    (∀ fields other : Fields, fields.Alike other → ∀ words,
      ((expandWords fields words []).isSome = (expandWords other words []).isSome) ∧
      ∀ vector vector', expandWords fields words [] = some vector →
        expandWords other words [] = some vector' →
        Parallel (origins fields words) vector vector') := by
  refine ⟨?_, execWords_iff, ?_, ?_⟩
  · intro arguments hne
    rw [decode_escapeString, Option.bind_some]
    exact (execWords_iff _ _).2 ⟨by simpa using hne, quoteLine_line arguments⟩
  · intro programs value fields program arguments h
    obtain ⟨line, words, parts, first, hline, hne, hspelled, hrest⟩ := parseExec_some h
    exact ⟨line, words, parts, first, hline, (execWords_iff line words).2 ⟨hne, hspelled⟩, hrest⟩
  · intro fields other halike words
    have hrun {fields other : Fields} (halike : fields.Alike other) {vector : List Str}
        (h : expandWords fields words [] = some vector) : ∃ vector',
          expandWords other words [] = some vector' ∧ Parallel (origins fields words) vector vector' := by
      obtain ⟨tail, tail', rfl, hother, hparallel⟩ := expandWords_alike halike words [] [] vector rfl h
      exact ⟨tail', hother, hparallel⟩
    refine ⟨?_, fun vector vector' h h' => ?_⟩
    · rw [Bool.eq_iff_iff, Option.isSome_iff_exists, Option.isSome_iff_exists]
      constructor
      · rintro ⟨vector, h⟩
        obtain ⟨vector', h', -⟩ := hrun halike h
        exact ⟨vector', h'⟩
      · rintro ⟨vector, h⟩
        obtain ⟨vector', h', -⟩ := hrun ⟨halike.icon.symm, halike.path.symm⟩ h
        exact ⟨vector', h'⟩
    · obtain ⟨found, hfound, hparallel⟩ := hrun halike h
      rwa [Option.some.inj (h'.symm.trans hfound)]

example : parseExec ⟨none, fun path => path = strBytes "/bin/true".toList⟩
    "/bin/true \"two words\" %% %c %i %k %U".toList
    ⟨"Name".toList, some "/e.desktop".toList, some "icon".toList⟩ =
      some (strBytes "/bin/true".toList,
        ["two words", "%", "Name", "--icon", "icon", "/e.desktop"].map String.toList) := by
  decide +kernel

/-- An icon that cannot be decoded is no icon, and yet it refuses a line that would do without. -/
theorem exec_undecodable_icon :
    expandWords ⟨[], none, none⟩ [⟨"app".toList, false⟩, ⟨"%i".toList, false⟩] [] =
        some ["app".toList] ∧
      expandWords ⟨[], none, some "\\q".toList⟩ [⟨"app".toList, false⟩, ⟨"%i".toList, false⟩] [] =
        none := by
  decide +kernel

end AgentSeat.Launch
