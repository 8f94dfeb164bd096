/-
  Texts as bytes: which bytes are a text, the lines of one, and decimal numbers.
-/
import AgentSeat.Lib.Json

namespace AgentSeat.Lib.Text

open Json (ascii digits)

/-! ## Well-formed UTF-8 -/

def within (low high byte : UInt8) : Bool := low ≤ byte && byte ≤ high

def continues (byte : UInt8) : Bool := within 0x80 0xbf byte

def twoBytes (a b : UInt8) : Bool := within 0xc2 0xdf a && continues b

def threeBytes (a b c : UInt8) : Bool :=
  (a = 0xe0 && within 0xa0 0xbf b || within 0xe1 0xec a && continues b ||
    a = 0xed && within 0x80 0x9f b || within 0xee 0xef a && continues b) && continues c

def fourBytes (a b c d : UInt8) : Bool :=
  (a = 0xf0 && within 0x90 0xbf b || within 0xf1 0xf3 a && continues b ||
    a = 0xf4 && within 0x80 0x8f b) && continues c && continues d

/-- The bytes are characters one after the other, each in its shortest form and none a surrogate. -/
def validUtf8 : List UInt8 → Bool
  | [] => true
  | a :: rest => (a < 0x80 && validUtf8 rest) ||
    match rest with
    | [] => false
    | b :: rest => (twoBytes a b && validUtf8 rest) ||
      match rest with
      | [] => false
      | c :: rest => (threeBytes a b c && validUtf8 rest) ||
        match rest with
        | [] => false
        | d :: rest => fourBytes a b c d && validUtf8 rest

theorem validUtf8_append {s t : List UInt8} (hs : validUtf8 s = true) (ht : validUtf8 t = true) :
    validUtf8 (s ++ t) = true := by
  -- one case for each number of bytes the first character may have
  match s, hs with
  | [], _ => exact ht
  | a :: rest, hs =>
    rw [List.cons_append]
    unfold validUtf8 at hs ⊢
    simp only [Bool.or_eq_true, Bool.and_eq_true] at hs ⊢
    obtain ⟨ha, hrest⟩ | hs := hs
    · exact .inl ⟨ha, validUtf8_append hrest ht⟩
    · match rest, hs with
      | b :: rest, hs =>
        rw [List.cons_append]
        dsimp only at hs ⊢
        simp only [Bool.or_eq_true, Bool.and_eq_true] at hs ⊢
        obtain ⟨hb, hrest⟩ | hs := hs
        · exact .inr (.inl ⟨hb, validUtf8_append hrest ht⟩)
        · match rest, hs with
          | c :: rest, hs =>
            rw [List.cons_append]
            dsimp only at hs ⊢
            simp only [Bool.or_eq_true, Bool.and_eq_true] at hs ⊢
            obtain ⟨hc, hrest⟩ | hs := hs
            · exact .inr (.inr (.inl ⟨hc, validUtf8_append hrest ht⟩))
            · match rest, hs with
              | d :: rest, hs =>
                rw [List.cons_append]
                dsimp only at hs ⊢
                simp only [Bool.and_eq_true] at hs ⊢
                exact .inr (.inr (.inr ⟨hs.1, validUtf8_append hs.2 ht⟩))

theorem validUtf8_of_ascii : ∀ {s : List UInt8}, (∀ b ∈ s, b < 0x80) → validUtf8 s = true
  | [], _ => rfl
  | a :: rest, h => by
    have ha : a < 0x80 := h a List.mem_cons_self
    have hrest : validUtf8 rest = true := validUtf8_of_ascii fun b hb => h b (List.mem_cons_of_mem a hb)
    unfold validUtf8
    simp [ha, hrest]

/-! ### Character by character -/

/-- The bytes of one character. -/
def isChar : List UInt8 → Bool
  | [a] => a < 0x80
  | [a, b] => twoBytes a b
  | [a, b, c] => threeBytes a b c
  | [a, b, c, d] => fourBytes a b c d
  | _ => false

theorem exists_char {text : List UInt8} (h : validUtf8 text = true) (hne : text ≠ []) :
    ∃ c rest, text = c ++ rest ∧ isChar c = true ∧ validUtf8 rest = true := by
  match text, h, hne with
  | a :: rest, h, _ =>
    unfold validUtf8 at h
    simp only [Bool.or_eq_true, Bool.and_eq_true] at h
    obtain ⟨ha, hrest⟩ | h := h
    · exact ⟨[a], rest, rfl, ha, hrest⟩
    · match rest, h with
      | b :: rest, h =>
        dsimp only at h
        simp only [Bool.or_eq_true, Bool.and_eq_true] at h
        obtain ⟨hb, hrest⟩ | h := h
        · exact ⟨[a, b], rest, rfl, hb, hrest⟩
        · match rest, h with
          | c :: rest, h =>
            dsimp only at h
            simp only [Bool.or_eq_true, Bool.and_eq_true] at h
            obtain ⟨hc, hrest⟩ | h := h
            · exact ⟨[a, b, c], rest, rfl, hc, hrest⟩
            · match rest, h with
              | d :: rest, h =>
                simp only [Bool.and_eq_true] at h
                exact ⟨[a, b, c, d], rest, rfl, h.1, h.2⟩

theorem validUtf8_of_isChar {c : List UInt8} (h : isChar c = true) : validUtf8 c = true := by
  match c, h with
  | [a], h => simpa [isChar, validUtf8] using h
  | [a, b], h => simp [validUtf8, show twoBytes a b = true from h]
  | [a, b, c], h => simp [validUtf8, show threeBytes a b c = true from h]
  | [a, b, c, d], h => simp [validUtf8, show fourBytes a b c d = true from h]

/-- A text is its characters. -/
theorem validUtf8_iff {text : List UInt8} : validUtf8 text = true ↔
    ∃ chars : List (List UInt8), (∀ c ∈ chars, isChar c = true) ∧ chars.flatten = text := by
  constructor
  · intro h
    induction hn : text.length using Nat.strongRecOn generalizing text with
    | _ n ih =>
      by_cases hne : text = []
      · exact ⟨[], by simp, hne.symm⟩
      · obtain ⟨c, rest, htext, hc, hrest⟩ := exists_char h hne
        have hpos : 0 < c.length := by
          cases c with
          | nil => simp [isChar] at hc
          | cons _ _ => simp
        have hlength : rest.length < n := by
          rw [← hn, htext, List.length_append]
          omega
        obtain ⟨chars, hchars, hflat⟩ := ih _ hlength hrest rfl
        refine ⟨c :: chars, fun other hother => ?_, by rw [List.flatten_cons, hflat, htext]⟩
        rcases List.mem_cons.mp hother with rfl | hother
        · exact hc
        · exact hchars other hother
  · intro h
    obtain ⟨chars, hchars, rfl⟩ := h
    induction chars with
    | nil => rfl
    | cons c chars ih =>
      exact validUtf8_append (validUtf8_of_isChar (hchars c List.mem_cons_self))
        (ih fun other hother => hchars other (List.mem_cons_of_mem _ hother))

theorem within_le {low high byte : UInt8} (h : within low high byte = true) : low ≤ byte := by
  simp only [within, Bool.and_eq_true, decide_eq_true_eq] at h
  exact h.1

theorem continues_le {byte : UInt8} (h : continues byte = true) : 0x80 ≤ byte := within_le h

theorem threeBytes_le {a b c : UInt8} (h : threeBytes a b c = true) :
    0x80 ≤ a ∧ 0x80 ≤ b ∧ 0x80 ≤ c := by
  simp only [threeBytes, continues, within, Bool.and_eq_true, Bool.or_eq_true, decide_eq_true_eq,
    UInt8.le_iff_toNat_le, ← UInt8.toNat_inj] at h ⊢
  simp only [UInt8.toNat_ofNat] at h ⊢
  omega

theorem fourBytes_le {a b c d : UInt8} (h : fourBytes a b c d = true) :
    0x80 ≤ a ∧ 0x80 ≤ b ∧ 0x80 ≤ c ∧ 0x80 ≤ d := by
  simp only [fourBytes, continues, within, Bool.and_eq_true, Bool.or_eq_true, decide_eq_true_eq,
    UInt8.le_iff_toNat_le, ← UInt8.toNat_inj] at h ⊢
  simp only [UInt8.toNat_ofNat] at h ⊢
  omega

/-- A byte below 0x80 is a character, and part of no other. -/
theorem isChar_of_mem {c : List UInt8} (h : isChar c = true) {b : UInt8} (hb : b ∈ c)
    (hlow : b < 0x80) : c = [b] := by
  have hnot {x : UInt8} (hle : 0x80 ≤ x) : b ≠ x := fun heq => Nat.not_le_of_lt hlow (heq ▸ hle)
  match c, h with
  | [a], _ => rw [List.mem_singleton.mp hb]
  | [x, y], h =>
    simp only [isChar, twoBytes, Bool.and_eq_true] at h
    have hx : 0x80 ≤ x := UInt8.le_trans (by decide) (within_le h.1)
    simp [hnot hx, hnot (continues_le h.2)] at hb
  | [x, y, z], h =>
    obtain ⟨hx, hy, hz⟩ := threeBytes_le h
    simp [hnot hx, hnot hy, hnot hz] at hb
  | [x, y, z, w], h =>
    obtain ⟨hx, hy, hz, hw⟩ := fourBytes_le h
    simp [hnot hx, hnot hy, hnot hz, hnot hw] at hb

/-- A separator that is a character of its own stands between characters. -/
theorem split_chars {sep : UInt8} (hsep : sep < 0x80) {chars : List (List UInt8)} {s t : List UInt8}
    (hchars : ∀ c ∈ chars, isChar c = true) (h : chars.flatten = s ++ sep :: t) :
    ∃ before after, chars = before ++ [sep] :: after ∧ before.flatten = s ∧ after.flatten = t := by
  induction chars generalizing s with
  | nil => simp at h
  | cons c chars ih =>
    have hrest : ∀ other ∈ chars, isChar other = true :=
      fun other hother => hchars other (List.mem_cons_of_mem _ hother)
    rw [List.flatten_cons] at h
    rcases List.append_eq_append_iff.mp h with ⟨s', hs, hflat⟩ | ⟨more, hc, hflat⟩
    · obtain ⟨before, after, rfl, hbefore, hafter⟩ := ih hrest hflat
      exact ⟨c :: before, after, rfl, by rw [List.flatten_cons, hbefore, hs], hafter⟩
    · cases more with
      | nil =>
        obtain ⟨before, after, rfl, hbefore, hafter⟩ := ih hrest (s := []) hflat.symm
        refine ⟨c :: before, after, rfl, ?_, hafter⟩
        rw [List.flatten_cons, hbefore, hc, List.append_nil, List.append_nil]
      | cons b more =>
        obtain ⟨rfl, hmore⟩ := List.cons.inj hflat
        have hone := isChar_of_mem (hchars c List.mem_cons_self) (b := sep) (by simp [hc]) hsep
        rw [hone] at hc
        cases s with
        | nil =>
          obtain rfl : more = [] := (List.cons.inj hc).2.symm
          exact ⟨[], chars, by rw [hone]; rfl, rfl, hmore.symm⟩
        | cons x s => simp at hc

/-- A separator that is a character of its own cuts a text into texts. -/
theorem validUtf8_cut {sep : UInt8} (hsep : sep < 0x80) {s t : List UInt8}
    (h : validUtf8 (s ++ sep :: t) = true) : validUtf8 s = true ∧ validUtf8 t = true := by
  obtain ⟨chars, hchars, hflat⟩ := validUtf8_iff.mp h
  obtain ⟨before, after, rfl, rfl, rfl⟩ := split_chars hsep hchars hflat
  exact ⟨validUtf8_iff.mpr ⟨before, fun c hc => hchars c (List.mem_append_left _ hc), rfl⟩,
    validUtf8_iff.mpr ⟨after, fun c hc => hchars c (List.mem_append_right _
      (List.mem_cons_of_mem _ hc)), rfl⟩⟩

theorem validUtf8_pieces {sep : UInt8} (hsep : sep < 0x80) {pieces : List (List UInt8)}
    (h : validUtf8 ([sep].intercalate pieces) = true) : ∀ piece ∈ pieces, validUtf8 piece = true := by
  induction pieces with
  | nil => simp
  | cons first rest ih =>
    intro piece hpiece
    cases rest with
    | nil =>
      rw [List.mem_singleton.mp hpiece]
      simpa using h
    | cons next rest =>
      rw [List.intercalate_cons_cons, List.append_assoc, List.singleton_append] at h
      obtain ⟨hfirst, hrest⟩ := validUtf8_cut hsep h
      rcases List.mem_cons.mp hpiece with rfl | hpiece
      · exact hfirst
      · exact ih hrest piece hpiece

theorem validUtf8_splitOn {sep : UInt8} (hsep : sep < 0x80) {text : List UInt8}
    (h : validUtf8 text = true) : ∀ piece ∈ text.splitOn sep, validUtf8 piece = true := by
  refine validUtf8_pieces hsep ?_
  rw [List.intercalate_splitOn]
  exact h

/-! ### Bytes that are not a text -/

/-- U+FFFD. -/
def replacement : List UInt8 := [0xef, 0xbf, 0xbd]

/-- The first two of three bytes. -/
def startsThree (a b : UInt8) : Bool :=
  a = 0xe0 && within 0xa0 0xbf b || within 0xe1 0xec a && continues b ||
    a = 0xed && within 0x80 0x9f b || within 0xee 0xef a && continues b

/-- The first two of four bytes. -/
def startsFour (a b : UInt8) : Bool :=
  a = 0xf0 && within 0x90 0xbf b || within 0xf1 0xf3 a && continues b ||
    a = 0xf4 && within 0x80 0x8f b

/-- `String::from_utf8_lossy`: what starts like a character and is none becomes one replacement, as
    far as it is like one. -/
def lossy : List UInt8 → List UInt8
  | [] => []
  | a :: rest =>
    if a < 0x80 then a :: lossy rest
    else match rest with
    | [] => replacement
    | b :: more =>
      if twoBytes a b then a :: b :: lossy more
      else if startsThree a b then
        match more with
        | [] => replacement
        | c :: tail => if continues c then a :: b :: c :: lossy tail else replacement ++ lossy (c :: tail)
      else if startsFour a b then
        match more with
        | [] => replacement
        | c :: tail =>
          if continues c then
            match tail with
            | [] => replacement
            | d :: tail =>
              if continues d then a :: b :: c :: d :: lossy tail else replacement ++ lossy (d :: tail)
          else replacement ++ lossy (c :: tail)
      else replacement ++ lossy (b :: more)

theorem lossy_char {c : List UInt8} (h : isChar c = true) (rest : List UInt8) :
    lossy (c ++ rest) = c ++ lossy rest := by
  have hnot {x : UInt8} (hle : 0x80 ≤ x) : ¬ x < 0x80 := fun hlt => Nat.not_le_of_lt hlt hle
  match c, h with
  | [a], h =>
    have ha : a < 0x80 := of_decide_eq_true h
    show lossy (a :: rest) = a :: lossy rest
    rw [lossy.eq_def]
    dsimp only
    rw [if_pos ha]
  | [a, b], h =>
    have htwo : twoBytes a b = true := h
    have ha : 0x80 ≤ a := by
      simp only [twoBytes, Bool.and_eq_true] at htwo
      exact UInt8.le_trans (by decide) (within_le htwo.1)
    show lossy (a :: b :: rest) = a :: b :: lossy rest
    rw [lossy.eq_def]
    dsimp only
    rw [if_neg (hnot ha)]
    rw [if_pos htwo]
  | [a, b, c], h =>
    obtain ⟨hstart, hc⟩ := Bool.and_eq_true_iff.mp h
    have hthree : startsThree a b = true := hstart
    have htwo : ¬ twoBytes a b = true := by
      simp only [startsThree, twoBytes, continues, within, Bool.and_eq_true, Bool.or_eq_true,
        decide_eq_true_eq, UInt8.le_iff_toNat_le, ← UInt8.toNat_inj] at hthree ⊢
      simp only [UInt8.toNat_ofNat] at hthree ⊢
      omega
    show lossy (a :: b :: c :: rest) = a :: b :: c :: lossy rest
    rw [lossy.eq_def]
    dsimp only
    rw [if_neg (hnot (threeBytes_le h).1), if_neg htwo, if_pos hthree, if_pos hc]
  | [a, b, c, d], h =>
    obtain ⟨hstart, hd⟩ := Bool.and_eq_true_iff.mp h
    obtain ⟨hstart, hc⟩ := Bool.and_eq_true_iff.mp hstart
    have hfour : startsFour a b = true := hstart
    have hother : ¬ twoBytes a b = true ∧ ¬ startsThree a b = true := by
      simp only [startsFour, startsThree, twoBytes, continues, within, Bool.and_eq_true,
        Bool.or_eq_true, decide_eq_true_eq, UInt8.le_iff_toNat_le, ← UInt8.toNat_inj] at hfour ⊢
      simp only [UInt8.toNat_ofNat] at hfour ⊢
      omega
    show lossy (a :: b :: c :: d :: rest) = a :: b :: c :: d :: lossy rest
    rw [lossy.eq_def]
    dsimp only
    rw [if_neg (hnot (fourBytes_le h).1), if_neg hother.1, if_neg hother.2, if_pos hfour, if_pos hc, if_pos hd]

/-- A text stays as it is. -/
theorem lossy_of_validUtf8 {text : List UInt8} (h : validUtf8 text = true) : lossy text = text := by
  obtain ⟨chars, hchars, rfl⟩ := validUtf8_iff.mp h
  clear h
  induction chars with
  | nil => rfl
  | cons c chars ih =>
    rw [List.flatten_cons, lossy_char (hchars c List.mem_cons_self),
      ih fun other hother => hchars other (List.mem_cons_of_mem _ hother)]

/-! ## Bytes of literals

A literal is its list of characters by definition, while taking the characters out of a string decodes
it byte by byte. Checks of long literals go through these lemmas. -/

theorem ascii_nil : ([] : List String).map ascii = [] := rfl

theorem ascii_cons {text : List Char} {rest : List String} {bytes : List (List UInt8)}
    (h : rest.map ascii = bytes) :
    (String.ofList text :: rest).map ascii = text.flatMap String.utf8EncodeChar :: bytes := by
  rw [List.map_cons, h, ascii, String.toList_ofList]

/-! ## Lines -/

section Lines

variable {α : Type} [BEq α] [LawfulBEq α] {stop : α}

/-- Each line with its end. -/
def unlines (stop : α) (lines : List (List α)) : List α := lines.flatMap (· ++ [stop])

/-- The pieces between separators; nothing after the last one is not a piece. -/
def splitTerminator (stop : α) (text : List α) : List (List α) :=
  let pieces := text.splitOn stop
  if pieces.getLast?.all List.isEmpty then pieces.dropLast else pieces

theorem splitOn_unlines : ∀ {lines : List (List α)}, (∀ line ∈ lines, stop ∉ line) →
    (unlines stop lines).splitOn stop = lines ++ [[]]
  | [], _ => by simp [unlines]
  | line :: lines, h => by
    have hline : stop ∉ line := h line List.mem_cons_self
    have ih := splitOn_unlines fun l hl => h l (List.mem_cons_of_mem line hl)
    show (line ++ [stop] ++ unlines stop lines).splitOn stop = _
    rw [List.append_assoc, List.singleton_append, List.splitOn_append_cons_self_of_not_mem hline, ih]
    rfl

theorem splitTerminator_unlines {lines : List (List α)} (h : ∀ line ∈ lines, stop ∉ line) :
    splitTerminator stop (unlines stop lines) = lines := by
  unfold splitTerminator
  rw [splitOn_unlines h]
  simp

omit [BEq α] [LawfulBEq α] in
theorem getLast?_unlines {lines : List (List α)} (h : lines ≠ []) :
    (unlines stop lines).getLast? = some stop := by
  obtain ⟨init, last, rfl⟩ : ∃ init last, lines = init ++ [last] :=
    ⟨lines.dropLast, lines.getLast h, (List.dropLast_append_getLast h).symm⟩
  simp [unlines]

omit [BEq α] [LawfulBEq α] in
theorem unlines_eq_intercalate : ∀ {pieces : List (List α)}, pieces ≠ [] →
    unlines stop pieces = [stop].intercalate pieces ++ [stop]
  | [piece], _ => by simp [unlines]
  | piece :: next :: rest, _ => by
    have ih := unlines_eq_intercalate (List.cons_ne_nil next rest)
    rw [List.intercalate_cons_cons, List.append_assoc, ← ih]
    rfl

/-- A text that ends with a separator is its pieces, each with its end. -/
theorem splitOn_of_getLast? {text : List α} (h : text.getLast? = some stop) :
    ∃ pieces, text.splitOn stop = pieces ++ [[]] ∧ pieces ≠ [] ∧ text = unlines stop pieces := by
  obtain ⟨init, rfl⟩ := List.getLast?_eq_some_iff.mp h
  refine ⟨init.splitOn stop, ?_, List.splitOn_ne_nil stop init, ?_⟩
  · rw [List.splitOn_append_cons_self]
    simp
  · rw [unlines_eq_intercalate (List.splitOn_ne_nil stop init), List.intercalate_splitOn]

theorem splitTerminator_of_getLast? {text : List α} (h : text.getLast? = some stop) :
    unlines stop (splitTerminator stop text) = text := by
  obtain ⟨pieces, hpieces, -, htext⟩ := splitOn_of_getLast? h
  unfold splitTerminator
  rw [hpieces]
  simpa using htext.symm

theorem not_mem_of_mem_splitOn {text piece : List α} (h : piece ∈ text.splitOn stop) :
    stop ∉ piece := by
  induction text generalizing piece with
  | nil =>
    rw [List.splitOn_nil, List.mem_singleton] at h
    simp [h]
  | cons c text ih =>
    rw [List.splitOn_cons_eq_if_modifyHead] at h
    split_ifs at h with hc
    · rcases List.mem_cons.mp h with rfl | h
      · exact List.not_mem_nil
      · exact ih h
    · obtain ⟨first, rest, hpieces⟩ := List.exists_cons_of_ne_nil (List.splitOn_ne_nil stop text)
      rw [hpieces] at h ih
      rcases List.mem_cons.mp h with rfl | h
      · intro hmem
        rcases List.mem_cons.mp hmem with rfl | hmem
        · exact hc (BEq.refl _)
        · exact ih List.mem_cons_self hmem
      · exact ih (List.mem_cons_of_mem _ h)

theorem mem_of_mem_splitOn {c : α} {text piece : List α} (hpiece : piece ∈ text.splitOn stop)
    (hc : c ∈ piece) : c ∈ text := by
  have hmem : ∀ pieces : List (List α), piece ∈ pieces → c ∈ [stop].intercalate pieces := by
    intro pieces
    induction pieces with
    | nil => intro h; cases h
    | cons first rest ih =>
      intro h
      cases rest with
      | nil =>
        obtain rfl := List.mem_singleton.mp h
        simpa using hc
      | cons next rest =>
        rw [List.intercalate_cons_cons]
        obtain rfl | h := List.mem_cons.mp h
        · exact List.mem_append_left _ (List.mem_append_left _ hc)
        · exact List.mem_append_right _ (ih h)
  have htext := hmem _ hpiece
  rw [List.intercalate_splitOn] at htext
  exact htext

theorem splitOn_unlines_flatMap : ∀ lines : List (List α),
    (unlines stop lines).splitOn stop = lines.flatMap (·.splitOn stop) ++ [[]]
  | [] => by simp [unlines]
  | line :: lines => by
    show (line ++ [stop] ++ unlines stop lines).splitOn stop = _
    rw [List.append_assoc, List.singleton_append, List.splitOn_append_cons_self,
      splitOn_unlines_flatMap lines]
    simp

/-- What stands before and after the first separator. -/
def splitOnce (sep : α) : List α → Option (List α × List α)
  | [] => none
  | c :: rest =>
    if c == sep then some ([], rest)
    else (splitOnce sep rest).map fun parts => (c :: parts.1, parts.2)

theorem splitOnce_some {sep : α} : ∀ {text before after : List α},
    splitOnce sep text = some (before, after) → text = before ++ sep :: after ∧ sep ∉ before
  | [], _, _, h => by cases h
  | c :: text, before, after, h => by
    unfold splitOnce at h
    split_ifs at h with hc
    · obtain ⟨rfl, rfl⟩ := Prod.mk.inj (Option.some.inj h)
      exact ⟨by rw [eq_of_beq hc]; rfl, List.not_mem_nil⟩
    · obtain ⟨parts, hparts, hboth⟩ := Option.map_eq_some_iff.mp h
      obtain ⟨rfl, rfl⟩ := Prod.mk.inj hboth
      obtain ⟨htext, hbefore⟩ := splitOnce_some hparts
      refine ⟨by rw [htext]; rfl, fun hmem => ?_⟩
      obtain rfl | hmem := List.mem_cons.mp hmem
      · exact hc (BEq.refl _)
      · exact hbefore hmem

theorem splitOnce_append {sep : α} (after : List α) : ∀ {before : List α}, sep ∉ before →
    splitOnce sep (before ++ sep :: after) = some (before, after)
  | [], _ => by simp [splitOnce]
  | c :: before, h => by
    have hc : (c == sep) = false := beq_eq_false_iff_ne.mpr fun hc => h (hc ▸ List.mem_cons_self)
    have ih := splitOnce_append after fun hmem => h (List.mem_cons_of_mem c hmem)
    simp [splitOnce, hc, ih]

theorem isPrefixOf?_append (start rest : List α) : start.isPrefixOf? (start ++ rest) = some rest := by
  induction start with
  | nil => rfl
  | cons c start ih => simp [List.isPrefixOf?, ih]

theorem eq_of_isPrefixOf? : ∀ {start text rest : List α}, start.isPrefixOf? text = some rest →
    text = start ++ rest
  | [], _, _, h => by simpa [List.isPrefixOf?] using h
  | c :: start, [], _, h => by simp [List.isPrefixOf?] at h
  | c :: start, d :: text, rest, h => by
    unfold List.isPrefixOf? at h
    split_ifs at h with hcd
    rw [eq_of_beq hcd, eq_of_isPrefixOf? h]
    rfl

end Lines

theorem validUtf8_unlines : ∀ {lines : List (List UInt8)}, (∀ line ∈ lines, validUtf8 line = true) →
    validUtf8 (unlines 10 lines) = true
  | [], _ => rfl
  | line :: lines, h => by
    have hend : validUtf8 [10] = true := rfl
    have ih := validUtf8_unlines fun l hl => h l (List.mem_cons_of_mem line hl)
    exact validUtf8_append (validUtf8_append (h line List.mem_cons_self) hend) ih

/-! ## Decimal numbers -/

def isDigit (byte : UInt8) : Bool := within 0x30 0x39 byte

/-- The number that decimal digits spell. -/
def number (text : List UInt8) : Nat := text.foldl (fun n byte => 10 * n + (byte.toNat - 48)) 0

/-- `str::parse::<u32>`. -/
def parseU32 (text : List UInt8) : Option Nat :=
  let text := if text.head? = some 0x2b then text.tail else text
  if text ≠ [] ∧ text.all isDigit ∧ number text < 2 ^ 32 then some (number text) else none

theorem digits_ne_nil (n : Nat) : digits n ≠ [] := by
  simp only [digits, ne_eq, List.map_eq_nil_iff]
  exact List.ne_nil_of_length_pos Nat.length_toDigits_pos

theorem digit_range {n : Nat} {c : Char} (hc : c ∈ Nat.toDigits 10 n) :
    48 ≤ c.toNat ∧ c.toNat ≤ 57 := by
  have hdigit := Nat.isDigit_of_mem_toDigits (by decide) (by decide) hc
  simp only [Char.isDigit, Bool.and_eq_true, decide_eq_true_eq, UInt32.le_iff_toNat_le] at hdigit
  exact hdigit

theorem digits_isDigit {n : Nat} {b : UInt8} (hb : b ∈ digits n) : isDigit b = true := by
  obtain ⟨c, hc, rfl⟩ := List.mem_map.mp hb
  obtain ⟨hlow, hhigh⟩ := digit_range hc
  have hbyte : (UInt8.ofNat c.toNat).toNat = c.toNat := by
    rw [UInt8.toNat_ofNat']
    omega
  simp only [isDigit, within, Bool.and_eq_true, decide_eq_true_eq, UInt8.le_iff_toNat_le, hbyte]
  exact ⟨hlow, hhigh⟩

theorem number_digits (n : Nat) : number (digits n) = n := by
  have hfold : ∀ (cs : List Char) (init : Nat), (∀ c ∈ cs, c.toNat ≤ 57) →
      (cs.map fun c => UInt8.ofNat c.toNat).foldl (fun n byte => 10 * n + (byte.toNat - 48)) init =
        Nat.ofDigitChars 10 cs init := by
    intro cs
    induction cs with
    | nil => intro init _; simp
    | cons c cs ih =>
      intro init h
      have hc : (UInt8.ofNat c.toNat).toNat = c.toNat := by
        have := h c List.mem_cons_self
        rw [UInt8.toNat_ofNat']
        omega
      rw [List.map_cons, List.foldl_cons, hc, ih _ fun d hd => h d (List.mem_cons_of_mem c hd),
        Nat.ofDigitChars_cons]
      rfl
  unfold number digits
  rw [hfold _ _ fun c hc => (digit_range hc).2, Nat.ofDigitChars_ten_toDigits]

theorem parseU32_digits {n : Nat} (hn : n < 2 ^ 32) : parseU32 (digits n) = some n := by
  have hhead : (digits n).head? ≠ some 0x2b := by
    intro hplus
    have := digits_isDigit (List.mem_of_mem_head? (Option.mem_def.mpr hplus))
    simp [isDigit, within] at this
  have hdigits : (digits n).all isDigit = true := List.all_eq_true.mpr fun b hb => digits_isDigit hb
  have hbound : number (digits n) < 2 ^ 32 := (number_digits n).symm ▸ hn
  unfold parseU32
  rw [if_neg hhead, if_pos ⟨digits_ne_nil n, hdigits, hbound⟩, number_digits]

end AgentSeat.Lib.Text
