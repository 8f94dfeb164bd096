/-
  Texts with named places in them.

  A place is a name between two separators. `replace` puts a value wherever one mark stands, as a
  library would: from the left, and never within a value it has just put there. Replacing mark after
  mark could go wrong where a value, or two neighbours, happen to spell another mark. In a text whose
  lone separators are followed by something that starts no name (`Tidy`) and with values that contain
  no separator it does not: each replacement fills exactly its own places (`replace_fill`), so the
  order does not matter.
-/
import Mathlib.Tactic.Common

namespace AgentSeat.Lib.Template

variable {α : Type} [DecidableEq α]

/-- Replace every occurrence of a pattern that is not empty, from the left; `skip` is what is left of
    an occurrence. -/
def replaceFrom (pattern value : List α) : Nat → List α → List α
  | _, [] => []
  | skip + 1, _ :: rest => replaceFrom pattern value skip rest
  | 0, c :: rest =>
    if pattern.isPrefixOf (c :: rest) then
      value ++ replaceFrom pattern value (pattern.length - 1) rest
    else c :: replaceFrom pattern value 0 rest

def replace (pattern value text : List α) : List α := replaceFrom pattern value 0 text

theorem replaceFrom_append (pattern value rest : List α) :
    ∀ passed : List α, replaceFrom pattern value passed.length (passed ++ rest) =
      replace pattern value rest
  | [] => rfl
  | _ :: passed => replaceFrom_append pattern value rest passed

theorem replace_self {pattern : List α} (hne : pattern ≠ []) (value rest : List α) :
    replace pattern value (pattern ++ rest) = value ++ replace pattern value rest := by
  obtain ⟨c, tail, rfl⟩ := List.exists_cons_of_ne_nil hne
  unfold replace
  rw [List.cons_append, replaceFrom, if_pos]
  · exact congrArg (value ++ ·) (replaceFrom_append _ value rest tail)
  · exact List.isPrefixOf_iff_prefix.mpr (List.prefix_append (c :: tail) rest)

theorem replace_cons {pattern : List α} {c : α} {rest : List α} (h : ¬ pattern <+: c :: rest)
    (value : List α) : replace pattern value (c :: rest) = c :: replace pattern value rest := by
  unfold replace
  rw [replaceFrom, if_neg]
  exact fun hprefixed => h (List.isPrefixOf_iff_prefix.mp hprefixed)

/-! ## Marks -/

variable (sep : α) (letter : α → Bool)

inductive Token (α : Type) where
  | text (content : List α)
  | mark (name : List α)
  deriving DecidableEq

/-- How a place is written. -/
def marked (name : List α) : List α := sep :: (name ++ [sep])

/-- A name: letters, at least one. -/
def isName (name : List α) : Bool := name ≠ [] && name.all letter

/-- Put values in the places that have one. -/
def fill (values : List α → Option (List α)) : List (Token α) → List α
  | [] => []
  | .text content :: rest => content ++ fill values rest
  | .mark name :: rest => (values name).getD (marked sep name) ++ fill values rest

/-- Tokens of a text that was cut at its separators. -/
def tokens : List (List α) → List (Token α)
  | [] => []
  | [piece] => [.text piece]
  | piece :: name :: rest =>
    if isName letter name ∧ rest ≠ [] then .text piece :: .mark name :: tokens rest
    else .text (piece ++ [sep]) :: tokens (name :: rest)

def tokenise (text : List α) : List (Token α) := tokens sep letter (text.splitOn sep)

/-- The text with the values in their places. -/
def fillText (values : List α → Option (List α)) (text : List α) : List α :=
  fill sep values (tokenise sep letter text)

/-- Every separator of a text is followed in it by something that starts no name. -/
def quiet : List α → Bool
  | [] => true
  | [c] => c ≠ sep
  | c :: d :: rest => (c ≠ sep || !letter d) && quiet (d :: rest)

/-- What follows a place, or a separator, does not go on with a name. -/
def opensQuiet : List (Token α) → Bool
  | [] => true
  | .text (c :: _) :: _ => !letter c
  | _ => false

def tidy : List (Token α) → Bool
  | [] => true
  | .text content :: rest => (quiet sep letter content ||
      content.getLast? = some sep && quiet sep letter content.dropLast && opensQuiet letter rest) &&
      tidy rest
  | .mark name :: rest => isName letter name && opensQuiet letter rest && tidy rest

/-- One more value. -/
def assign (values : List α → Option (List α)) (name value : List α) : List α → Option (List α) :=
  fun name' => if name' = name then some value else values name'

section Replace

variable {sep letter} {values : List α → Option (List α)} {name value : List α}

omit [DecidableEq α] in
theorem isName_iff : isName letter name = true ↔ name ≠ [] ∧ ∀ c ∈ name, letter c = true := by
  simp [isName]

omit [DecidableEq α] in
/-- A mark starts neither with another character nor with one that starts no name. -/
theorem not_marked_start {c : α} {rest : List α} (hname : isName letter name = true)
    (h : c ≠ sep ∨ ∀ d tail, rest = d :: tail → letter d = false) :
    ¬ marked sep name <+: c :: rest := by
  intro hmark
  obtain ⟨hne, hletters⟩ := isName_iff.mp hname
  obtain ⟨d, tail, rfl⟩ := List.exists_cons_of_ne_nil hne
  obtain ⟨rfl, hrest⟩ := List.cons_prefix_cons.mp hmark
  obtain hc | hrest' := h
  · exact hc rfl
  · obtain ⟨more, hmore⟩ := hrest
    have hd := hrest' d (tail ++ [sep] ++ more) (by rw [← hmore]; simp)
    rw [hletters d List.mem_cons_self] at hd
    cases hd

theorem replace_quiet (hname : isName letter name = true) (rest : List α) :
    ∀ {content : List α}, quiet sep letter content = true →
      replace (marked sep name) value (content ++ rest) =
        content ++ replace (marked sep name) value rest
  | [], _ => rfl
  | [c], h => by
    have hc : c ≠ sep := by simpa [quiet] using h
    exact replace_cons (not_marked_start hname (.inl hc)) value
  | c :: d :: content, h => by
    simp only [quiet, Bool.and_eq_true, Bool.or_eq_true, decide_eq_true_eq, Bool.not_eq_true'] at h
    have hstep : replace (marked sep name) value (c :: (d :: content ++ rest)) =
        c :: replace (marked sep name) value (d :: content ++ rest) := by
      refine replace_cons (not_marked_start hname (h.1.imp_right fun hd => ?_)) value
      intro d' tail heq
      obtain ⟨rfl, -⟩ := List.cons.inj heq
      exact hd
    show replace (marked sep name) value (c :: (d :: content ++ rest)) = _
    rw [hstep, replace_quiet hname rest h.2]
    rfl

theorem quiet_of_not_mem : ∀ {content : List α}, sep ∉ content → quiet sep letter content = true
  | [], _ => rfl
  | [c], h => by
    have hc : c ≠ sep := fun hc => h (hc ▸ List.mem_cons_self)
    simpa [quiet] using hc
  | c :: d :: content, h => by
    have hc : c ≠ sep := fun hc => h (hc ▸ List.mem_cons_self)
    have hrest : quiet sep letter (d :: content) = true :=
      quiet_of_not_mem fun hd => h (List.mem_cons_of_mem c hd)
    simp [quiet, hc, hrest]

omit [DecidableEq α] in
/-- What is filled in after a place does not go on with a name. -/
theorem opens_fill {ts : List (Token α)} (h : opensQuiet letter ts = true) :
    ∀ d tail, fill sep values ts = d :: tail → letter d = false := by
  intro d tail heq
  match ts, h with
  | [], _ => cases heq
  | .text (c :: content) :: rest, h =>
    obtain ⟨rfl, -⟩ := List.cons.inj heq
    simpa [opensQuiet] using h

/-- Another place stays as it is. -/
theorem replace_other {other : List α} {rest : List α} (hsep : letter sep = false)
    (hname : isName letter name = true) (hother : isName letter other = true) (hne : other ≠ name)
    (hrest : ∀ d tail, rest = d :: tail → letter d = false) :
    replace (marked sep name) value (marked sep other ++ rest) =
      marked sep other ++ replace (marked sep name) value rest := by
  have hfree : ∀ {n : List α}, isName letter n = true → sep ∉ n := by
    intro n hn hmem
    have := (isName_iff.mp hn).2 sep hmem
    rw [hsep] at this
    cases this
  have hopen : ¬ marked sep name <+: sep :: (other ++ [sep] ++ rest) := by
    intro hmark
    -- both names run up to the next separator
    obtain ⟨-, more, hmore⟩ := List.cons_prefix_cons.mp hmark
    have hsame : name ++ sep :: more = other ++ sep :: rest := by simpa using hmore
    have hcut := congrArg (List.splitOn sep) hsame
    rw [List.splitOn_append_cons_self_of_not_mem (hfree hname),
      List.splitOn_append_cons_self_of_not_mem (hfree hother)] at hcut
    exact hne (List.cons.inj hcut).1.symm
  show replace (marked sep name) value (sep :: (other ++ [sep] ++ rest)) = _
  rw [replace_cons hopen, List.append_assoc,
    replace_quiet hname _ (quiet_of_not_mem (hfree hother))]
  show sep :: (other ++ replace (marked sep name) value (sep :: rest)) = _
  rw [replace_cons (not_marked_start hname (.inr hrest))]
  simp [marked]

/-- Replacing one mark fills its places, and nothing else. -/
theorem replace_fill (hsep : letter sep = false) (hname : isName letter name = true)
    (hnew : values name = none) (hvalues : ∀ n v, values n = some v → sep ∉ v) :
    ∀ {ts : List (Token α)}, tidy sep letter ts = true →
      replace (marked sep name) value (fill sep values ts) = fill sep (assign values name value) ts
  | [], _ => rfl
  | .text content :: ts, h => by
    simp only [tidy, Bool.and_eq_true, Bool.or_eq_true, decide_eq_true_eq] at h
    obtain ⟨hcontent, hrest⟩ := h
    have ih := replace_fill hsep hname hnew hvalues hrest
    show replace _ value (content ++ fill sep values ts) = content ++ _
    obtain hquiet | ⟨⟨hlast, hquiet⟩, hopens⟩ := hcontent
    · rw [replace_quiet hname _ hquiet, ih]
    · -- a separator at the end, and no name after it
      obtain ⟨init, rfl⟩ := List.getLast?_eq_some_iff.mp hlast
      rw [List.dropLast_concat] at hquiet
      rw [List.append_assoc, replace_quiet hname _ hquiet, List.singleton_append,
        replace_cons (not_marked_start hname (.inr (opens_fill hopens))), ih]
      simp
  | .mark other :: ts, h => by
    simp only [tidy, Bool.and_eq_true] at h
    obtain ⟨⟨hother, hopens⟩, hrest⟩ := h
    have ih := replace_fill hsep hname hnew hvalues hrest
    show replace _ value ((values other).getD (marked sep other) ++ fill sep values ts) =
      (assign values name value other).getD (marked sep other) ++ _
    by_cases heq : other = name
    · subst heq
      rw [hnew, assign, if_pos rfl]
      show replace _ value (marked sep other ++ _) = _
      rw [replace_self (show marked sep other ≠ [] from List.cons_ne_nil _ _), ih]
      rfl
    · rw [assign, if_neg heq]
      cases hv : values other with
      | none =>
        show replace _ value (marked sep other ++ _) = marked sep other ++ _
        rw [replace_other hsep hname hother heq (opens_fill hopens), ih]
      | some w =>
        show replace _ value (w ++ _) = w ++ _
        rw [replace_quiet hname _ (quiet_of_not_mem (hvalues other w hv)), ih]

end Replace

/-! ## Filling a text -/

section Fill

variable {sep letter} {values : List α → Option (List α)}

omit [DecidableEq α] in
theorem tokens_mark {piece name : List α} {rest : List (List α)} (hname : isName letter name = true)
    (hrest : rest ≠ []) :
    tokens sep letter (piece :: name :: rest) = .text piece :: .mark name :: tokens sep letter rest :=
  if_pos ⟨hname, hrest⟩

omit [DecidableEq α] in
theorem tokens_lone {piece name : List α} {rest : List (List α)}
    (h : ¬ (isName letter name = true ∧ rest ≠ [])) :
    tokens sep letter (piece :: name :: rest) =
      .text (piece ++ [sep]) :: tokens sep letter (name :: rest) :=
  if_neg h

omit [DecidableEq α] in
/-- Without values, the tokens spell the text they were cut from. -/
theorem fill_none : ∀ pieces : List (List α), fill sep (fun _ => none) (tokens sep letter pieces) =
    [sep].intercalate pieces
  | [] => rfl
  | [piece] => by simp [tokens, fill]
  | piece :: name :: rest => by
    by_cases hname : isName letter name = true ∧ rest ≠ []
    · rw [tokens_mark hname.1 hname.2]
      obtain ⟨next, rest, rfl⟩ := List.exists_cons_of_ne_nil hname.2
      show piece ++ (marked sep name ++ _) = _
      rw [fill_none (next :: rest)]
      simp [marked, List.intercalate_cons_cons]
    · rw [tokens_lone hname]
      show piece ++ [sep] ++ _ = _
      rw [fill_none (name :: rest)]
      simp [List.intercalate_cons_cons]

theorem fillText_none (text : List α) : fillText sep letter (fun _ => none) text = text := by
  unfold fillText tokenise
  rw [fill_none, List.intercalate_splitOn]

omit [DecidableEq α] in
/-- The first piece of a text is not looked at. -/
theorem fill_tokens_cons (start piece : List α) (rest : List (List α)) :
    fill sep values (tokens sep letter ((start ++ piece) :: rest)) =
      start ++ fill sep values (tokens sep letter (piece :: rest)) := by
  cases rest with
  | nil => simp [tokens, fill]
  | cons name rest =>
    by_cases hname : isName letter name = true ∧ rest ≠ []
    · rw [tokens_mark hname.1 hname.2, tokens_mark hname.1 hname.2]
      simp [fill]
    · rw [tokens_lone hname, tokens_lone hname]
      simp [fill]

/-- A text goes on after a start without separators as it does alone. -/
theorem fillText_append {start : List α} (h : sep ∉ start) (text : List α) :
    fillText sep letter values (start ++ text) = start ++ fillText sep letter values text := by
  have hcut : (start ++ text).splitOn sep = (text.splitOn sep).modifyHead (start ++ ·) := by
    induction start with
    | nil => cases htext : text.splitOn sep <;> simp [htext]
    | cons c start ih =>
      have hc : (c == sep) = false := by
        rw [beq_eq_false_iff_ne]
        exact fun hc => h (hc ▸ List.mem_cons_self)
      rw [List.cons_append, List.splitOn_cons_eq_if_modifyHead, hc,
        ih fun hmem => h (List.mem_cons_of_mem c hmem)]
      cases text.splitOn sep <;> simp
  unfold fillText tokenise
  rw [hcut]
  cases htext : text.splitOn sep with
  | nil => exact absurd htext (List.splitOn_ne_nil sep text)
  | cons piece rest => exact fill_tokens_cons start piece rest

theorem fillText_of_not_mem {text : List α} (h : sep ∉ text) : fillText sep letter values text = text := by
  have happend : fillText sep letter values (text ++ []) = text ++ fillText sep letter values [] :=
    fillText_append h []
  simpa [fillText, tokenise, tokens, fill] using happend

omit [DecidableEq α] in
/-- No place reaches over a character that is in no name, such as the end of a line. -/
theorem fill_tokens_break {stop : α} (hstop : letter stop = false) (piece : List α)
    (rest : List (List α)) : ∀ pieces : List (List α), ∀ last : List α,
      fill sep values (tokens sep letter (pieces ++ (last ++ stop :: piece) :: rest)) =
        fill sep values (tokens sep letter (pieces ++ [last])) ++
          stop :: fill sep values (tokens sep letter (piece :: rest))
  | [], last => by
    have hsplit : last ++ stop :: piece = (last ++ [stop]) ++ piece := by simp
    rw [List.nil_append, hsplit, fill_tokens_cons]
    simp [tokens, fill]
  | [first], last => by
    have hname : ¬ (isName letter (last ++ stop :: piece) = true ∧ rest ≠ []) := by
      rintro ⟨hname, -⟩
      have := (isName_iff.mp hname).2 stop (by simp)
      rw [hstop] at this
      cases this
    have ih := fill_tokens_break hstop piece rest [] last
    rw [List.nil_append, List.nil_append] at ih
    show fill sep values (tokens sep letter (first :: (last ++ stop :: piece) :: rest)) =
      fill sep values (tokens sep letter [first, last]) ++ _
    rw [tokens_lone hname, tokens_lone (fun h => h.2 rfl)]
    simp [fill, ih]
  | first :: name :: pieces, last => by
    show fill sep values (tokens sep letter
      (first :: name :: (pieces ++ (last ++ stop :: piece) :: rest))) =
        fill sep values (tokens sep letter (first :: name :: (pieces ++ [last]))) ++ _
    by_cases hname : isName letter name = true
    · have ih := fill_tokens_break hstop piece rest pieces last
      rw [tokens_mark hname (by simp), tokens_mark hname (by simp)]
      simp [fill, ih]
    · have ih := fill_tokens_break hstop piece rest (name :: pieces) last
      rw [List.cons_append, List.cons_append] at ih
      rw [tokens_lone (fun h => hname h.1), tokens_lone (fun h => hname h.1)]
      simp [fill, ih]

/-- The pieces of two texts side by side: the last of one and the first of the other are one. -/
theorem splitOn_break {stop : α} (hsep : stop ≠ sep) {text piece : List α} {rest : List (List α)}
    (htext : text.splitOn sep = piece :: rest) (line : List α) :
    ∃ pieces last, line.splitOn sep = pieces ++ [last] ∧
      (line ++ stop :: text).splitOn sep = pieces ++ (last ++ stop :: piece) :: rest := by
  induction line with
  | nil =>
    refine ⟨[], [], by simp, ?_⟩
    have hstop : (stop == sep) = false := beq_eq_false_iff_ne.mpr hsep
    rw [List.nil_append, List.splitOn_cons_eq_if_modifyHead, hstop, htext]
    simp
  | cons c line ih =>
    obtain ⟨pieces, last, hline, hboth⟩ := ih
    rw [List.cons_append, List.splitOn_cons_eq_if_modifyHead, List.splitOn_cons_eq_if_modifyHead,
      hline, hboth]
    by_cases hc : (c == sep) = true
    · exact ⟨[] :: pieces, last, by simp [hc], by simp [hc]⟩
    · cases pieces with
      | nil => exact ⟨[], c :: last, by simp [hc], by simp [hc]⟩
      | cons first pieces => exact ⟨(c :: first) :: pieces, last, by simp [hc], by simp [hc]⟩

/-- A text is filled line by line. -/
theorem fillText_break {stop : α} (hstop : letter stop = false) (hsep : stop ≠ sep)
    (line text : List α) : fillText sep letter values (line ++ stop :: text) =
      fillText sep letter values line ++ stop :: fillText sep letter values text := by
  obtain ⟨piece, rest, htext⟩ := List.exists_cons_of_ne_nil (List.splitOn_ne_nil sep text)
  obtain ⟨pieces, last, hline, hboth⟩ := splitOn_break hsep htext line
  unfold fillText tokenise
  rw [hboth, hline, htext]
  exact fill_tokens_break hstop piece rest pieces last

omit [DecidableEq α] in
theorem mem_fill {c : α} : ∀ {ts : List (Token α)}, c ∈ fill sep values ts →
    c ∈ fill sep (fun _ => none) ts ∨
      ∃ name value, .mark name ∈ ts ∧ values name = some value ∧ c ∈ value
  | [], h => by cases h
  | t :: ts, h => by
    have hlater : c ∈ fill sep values ts → c ∈ fill sep (fun _ => none) (t :: ts) ∨
        ∃ name value, .mark name ∈ t :: ts ∧ values name = some value ∧ c ∈ value := by
      intro hmem
      obtain hplain | ⟨name, value, hname, hvalue, hc⟩ := mem_fill hmem
      · cases t with
        | text content => exact .inl (List.mem_append_right content hplain)
        | mark name => exact .inl (List.mem_append_right _ hplain)
      · exact .inr ⟨name, value, List.mem_cons_of_mem t hname, hvalue, hc⟩
    cases t with
    | text content =>
      obtain hc | hc := List.mem_append.mp h
      · exact .inl (List.mem_append_left _ hc)
      · exact hlater hc
    | mark name =>
      obtain hc | hc := List.mem_append.mp h
      · cases hvalue : values name with
        | none =>
          rw [hvalue] at hc
          exact .inl (List.mem_append_left _ hc)
        | some value =>
          rw [hvalue] at hc
          exact .inr ⟨name, value, List.mem_cons_self, hvalue, hc⟩
      · exact hlater hc

/-- Whatever is in a filled text was in the text or in one of the values. -/
theorem mem_fillText {c : α} {text : List α} (h : c ∈ fillText sep letter values text) :
    c ∈ text ∨ ∃ name value, .mark name ∈ tokenise sep letter text ∧ values name = some value ∧
      c ∈ value := by
  obtain hplain | hvalue := mem_fill h
  · have htext : fill sep (fun _ => none) (tokenise sep letter text) = text := fillText_none text
    rw [htext] at hplain
    exact .inl hplain
  · exact .inr hvalue

/-- A place has one of the names. -/
def Token.named (names : List (List α)) : Token α → Bool
  | .text _ => true
  | .mark name => names.contains name

/-- How many separators stand outside the places. -/
def lone (sep : α) : List (Token α) → Nat
  | [] => 0
  | .text content :: rest => content.count sep + lone sep rest
  | .mark _ :: rest => lone sep rest

/-- Once every place has a value, only the separators outside them are left. -/
theorem count_fill : ∀ {ts : List (Token α)},
    (∀ name, .mark name ∈ ts → ∃ value, values name = some value ∧ sep ∉ value) →
    (fill sep values ts).count sep = lone sep ts
  | [], _ => rfl
  | .text content :: ts, h => by
    have hrest := count_fill fun name hname => h name (List.mem_cons_of_mem _ hname)
    show (content ++ fill sep values ts).count sep = content.count sep + lone sep ts
    rw [List.count_append, hrest]
  | .mark name :: ts, h => by
    have hrest := count_fill fun other hother => h other (List.mem_cons_of_mem _ hother)
    obtain ⟨value, hvalue, hfree⟩ := h name List.mem_cons_self
    show ((values name).getD (marked sep name) ++ fill sep values ts).count sep = lone sep ts
    rw [hvalue, Option.getD_some, List.count_append, hrest, List.count_eq_zero.mpr hfree, Nat.zero_add]

end Fill

/-! ## One replacement after the other -/

section ReplaceAll

/-- Replace the mark of each name by its value, in turn. -/
def replaceAll (values : List (List α × List α)) (text : List α) : List α :=
  values.foldl (fun text value => replace (marked sep value.1) value.2 text) text

variable {sep letter}

theorem replaceAll_fill (hsep : letter sep = false) {ts : List (Token α)}
    (htidy : tidy sep letter ts = true) : ∀ {values : List (List α × List α)}
    {filled : List α → Option (List α)}, (∀ value ∈ values, isName letter value.1 = true) →
    (values.map Prod.fst).Nodup → (∀ value ∈ values, sep ∉ value.2) →
    (∀ value ∈ values, filled value.1 = none) → (∀ n v, filled n = some v → sep ∉ v) →
    replaceAll sep values (fill sep filled ts) =
      fill sep (fun name => (filled name).or (values.lookup name)) ts
  | [], filled, _, _, _, _, _ => by
    have hsame : (fun name => (filled name).or (([] : List (List α × List α)).lookup name)) = filled := by
      funext name
      simp
    rw [hsame]
    rfl
  | (name, value) :: values, filled, hnames, hnodup, hfree, hnew, hfilled => by
    obtain ⟨hfresh, hnodup⟩ := List.nodup_cons.mp hnodup
    have hstep : replace (marked sep name) value (fill sep filled ts) =
        fill sep (assign filled name value) ts :=
      replace_fill hsep (hnames _ List.mem_cons_self) (hnew _ List.mem_cons_self) hfilled htidy
    show replaceAll sep values (replace (marked sep name) value (fill sep filled ts)) = _
    rw [hstep, replaceAll_fill hsep htidy (fun v hv => hnames v (List.mem_cons_of_mem _ hv)) hnodup
      (fun v hv => hfree v (List.mem_cons_of_mem _ hv))]
    · congr 1
      funext other
      unfold assign
      by_cases hother : other = name
      · subst hother
        rw [if_pos rfl, hnew _ List.mem_cons_self]
        simp
      · have hne : (other == name) = false := beq_eq_false_iff_ne.mpr hother
        rw [if_neg hother, List.lookup_cons, hne]
    · intro v hv
      have hmem : v.1 ∈ values.map Prod.fst := List.mem_map_of_mem hv
      have hne : v.1 ≠ name := fun heq => hfresh (heq ▸ hmem)
      exact (if_neg hne).trans (hnew v (List.mem_cons_of_mem _ hv))
    · intro n v hv
      unfold assign at hv
      split_ifs at hv with heq
      · obtain rfl := Option.some.inj hv
        exact hfree _ List.mem_cons_self
      · exact hfilled n v hv

/-- Replacing mark after mark in a tidy text fills each place with its own value. -/
theorem replaceAll_text (hsep : letter sep = false) {text : List α}
    (htidy : tidy sep letter (tokenise sep letter text) = true) {values : List (List α × List α)}
    (hnames : ∀ value ∈ values, isName letter value.1 = true) (hnodup : (values.map Prod.fst).Nodup)
    (hfree : ∀ value ∈ values, sep ∉ value.2) :
    replaceAll sep values text = fillText sep letter (fun name => values.lookup name) text := by
  have hfill : replaceAll sep values (fill sep (fun _ => none) (tokenise sep letter text)) =
      fill sep (fun name => Option.none.or (values.lookup name)) (tokenise sep letter text) :=
    replaceAll_fill hsep htidy hnames hnodup hfree (fun _ _ => rfl) (fun _ _ h => by cases h)
  have htext : fill sep (fun _ => none) (tokenise sep letter text) = text := fillText_none text
  rw [htext] at hfill
  exact hfill

end ReplaceAll

end AgentSeat.Lib.Template
