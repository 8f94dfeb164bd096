/-
  Which characters can be typed.

  X11 spells a character by several keysyms: its Latin-1 value, the Unicode keysym
  `0x01000000 + code point`, and the keysym of a legacy set (`0x06c1` for U+0430, `0x20ac` for
  U+20AC). A key carries one of them. `keysymForCharacter` names a single one, and the search
  compares exactly, so a character that the layout carries by another spelling is refused. A
  character is typed exactly if the layout carries it by the spelling the code names, within reach of
  keys that set one modifier each, on a key that minds every active modifier beside the locks.
-/
import AgentSeat.X11.Resolution

namespace AgentSeat.X11

open AgentSeat.Proto AgentSeat.Lib

/-- The keysyms of a character; `legacy` is the table of the legacy sets. -/
def assigned (legacy : Char → List Nat) (character : Char) : List Nat :=
  if character = '\t' then [xkTab]
  else if character = '\n' then [xkReturn]
  else if character.toNat ≤ 0xff then
    character.toNat :: (0x01000000 + character.toNat) :: legacy character
  else (0x01000000 + character.toNat) :: legacy character

namespace KeyboardMap

variable (map : KeyboardMap)

/-- A map and a state as they come off the wire, where every modifier mask is one byte. -/
structure Sent : Prop extends map.Complete where
  mods : map.state.mods < 256
  locked : map.state.lockedMods < 256
  entries : ∀ entry ∈ map.modifierMap, entry.mods < 256

/-- A key carries the symbol in the effective group, at a level that the active modifiers and some
    Shift, Level3 or Level5 keys select. -/
def Carries (symbol : Nat) : Prop :=
  ∃ row keyType, ∃ held : List KeyModMap, held.Sublist map.modifierMap ∧
    (∀ entry ∈ held, map.keyHasMomentaryModifierSymbol entry.keycode = true) ∧
    map.Selects row (map.downBits (held.map KeyModMap.keycode)) symbol keyType

/-- The same with held keys that set one modifier each, on a key whose type looks at every active
    modifier that is not a Caps, Shift or Num lock, while no group is depressed or latched. -/
def CarriesPlainly (symbol : Nat) : Prop :=
  map.state.baseGroup = 0 ∧ map.state.latchedGroup = 0 ∧
  ∃ row keyType, ∃ held : List KeyModMap, held.Sublist map.modifierMap ∧
    (∀ entry ∈ held, map.keyHasMomentaryModifierSymbol entry.keycode = true ∧
      countOnes (UInt8.ofNat entry.mods) = 1) ∧
    map.Selects row (map.downBits (held.map KeyModMap.keycode)) symbol keyType ∧
    ∀ i, map.state.mods.testBit i = true → keyType.modsMask.testBit i = true ∨ map.LockBit i

variable {map}

/-! ## The momentary keys stand for all -/

/-- An entry of the modifier map that a momentary key can stand for. -/
def Momentary (map : KeyboardMap) (entry : KeyModMap) : Prop :=
  map.keyHasMomentaryModifierSymbol entry.keycode = true ∧
    countOnes (UInt8.ofNat entry.mods) = 1

def oneBit : List UInt8 := [1, 2, 4, 8, 16, 32, 64, 128]

theorem mem_oneBit (bits : UInt8) (h : countOnes bits = 1) : bits ∈ oneBit := by
  have hall : ∀ n < 256, countOnes (UInt8.ofNat n) = 1 → UInt8.ofNat n ∈ oneBit := by
    decide +kernel
  have hbits := hall bits.toNat bits.toNat_lt
  rw [UInt8.ofNat_toNat] at hbits
  exact hbits h

/-- Keys with distinct single bits. -/
def Single (keys : List ModifierKey) : Prop :=
  (keys.map ModifierKey.modifiers).Nodup ∧ ∀ key ∈ keys, countOnes key.modifiers = 1

theorem Single.append {keys : List ModifierKey} (single : Single keys) (key : ModifierKey)
    (hone : countOnes key.modifiers = 1)
    (hnew : ¬ keys.any (fun candidate => candidate.modifiers == key.modifiers) = true) :
    Single (keys ++ [key]) := by
  have hfresh : key.modifiers ∉ keys.map ModifierKey.modifiers := by
    intro hmem
    obtain ⟨candidate, hcandidate, hsame⟩ := List.mem_map.mp hmem
    exact hnew (List.any_eq_true.mpr ⟨candidate, hcandidate, beq_iff_eq.mpr hsame⟩)
  constructor
  · rw [List.map_append]
    exact List.nodup_append'.mpr
      ⟨single.1, List.nodup_singleton _, List.disjoint_singleton.mpr hfresh⟩
  · intro k hk
    rcases List.mem_append.mp hk with hk | hk
    · exact single.2 k hk
    · rw [List.mem_singleton.mp hk]
      exact hone

/-- Eight keys with distinct single bits have every bit. -/
theorem Single.full {keys : List ModifierKey} (single : Single keys)
    (hfull : keys.length = maxMomentaryModifiers) {bits : UInt8} (hone : countOnes bits = 1) :
    bits ∈ keys.map ModifierKey.modifiers := by
  have hsub : keys.map ModifierKey.modifiers ⊆ oneBit := by
    intro b hb
    obtain ⟨key, hkey, rfl⟩ := List.mem_map.mp hb
    exact mem_oneBit _ (single.2 key hkey)
  have hperm : (keys.map ModifierKey.modifiers).Perm oneBit := by
    refine (single.1.subperm hsub).perm_of_length_le ?_
    rw [List.length_map, hfull]
    exact Nat.le_refl _
  exact hperm.mem_iff.mpr (mem_oneBit bits hone)

/-- The collected keys keep those there were, stand for momentary entries, and have the bit of every
    momentary entry that was looked at. -/
theorem collectMomentary_spec (entries : List KeyModMap) (keys : List ModifierKey)
    (single : Single keys) (hbytes : ∀ entry ∈ entries, entry.mods < 256) :
    (∀ key ∈ keys, key ∈ map.collectMomentary entries keys) ∧
    (∀ key ∈ map.collectMomentary entries keys, key ∈ keys ∨ ∃ entry ∈ entries,
      map.Momentary entry ∧ key = ⟨entry.keycode, UInt8.ofNat entry.mods⟩) ∧
    ∀ entry ∈ entries, map.Momentary entry → UInt8.ofNat entry.mods ∈
      (map.collectMomentary entries keys).map ModifierKey.modifiers := by
  induction entries generalizing keys with
  | nil =>
    exact ⟨fun _ h => h, fun _ h => .inl h, fun _ h => absurd h List.not_mem_nil⟩
  | cons entry rest ih =>
    have hrest : ∀ e ∈ rest, e.mods < 256 := fun e he => hbytes e (List.mem_cons_of_mem _ he)
    have hbits := modifierBits_of_lt (hbytes entry (List.mem_cons_self ..))
    unfold collectMomentary
    rw [hbits]
    dsimp only
    -- an entry that adds no key: its bit is among those there already, or it has none to add
    have hskip (hold : map.Momentary entry → UInt8.ofNat entry.mods ∈
        keys.map ModifierKey.modifiers) :
        (∀ key ∈ keys, key ∈ map.collectMomentary rest keys) ∧
        (∀ key ∈ map.collectMomentary rest keys, key ∈ keys ∨ ∃ e ∈ entry :: rest,
          map.Momentary e ∧ key = ⟨e.keycode, UInt8.ofNat e.mods⟩) ∧
        ∀ e ∈ entry :: rest, map.Momentary e → UInt8.ofNat e.mods ∈
          (map.collectMomentary rest keys).map ModifierKey.modifiers := by
      obtain ⟨hkept, hfrom, hall⟩ := ih keys single hrest
      refine ⟨hkept, fun key hkey => ?_, fun e he hmomentary => ?_⟩
      · rcases hfrom key hkey with h | ⟨e, he, h⟩
        · exact .inl h
        · exact .inr ⟨e, List.mem_cons_of_mem _ he, h⟩
      · rcases List.mem_cons.mp he with rfl | he
        · obtain ⟨key, hkey, hsame⟩ := List.mem_map.mp (hold hmomentary)
          exact List.mem_map.mpr ⟨key, hkept key hkey, hsame⟩
        · exact hall e he hmomentary
    split_ifs with hunfit hdouble hfull
    · refine hskip fun hmomentary => ?_
      rcases hunfit with h | h
      · exact absurd hmomentary.2 h
      · rw [hmomentary.1] at h
        exact absurd h (by decide)
    · refine hskip fun _ => ?_
      obtain ⟨key, hkey, hsame⟩ := List.any_eq_true.mp hdouble
      exact List.mem_map.mpr ⟨key, hkey, beq_iff_eq.mp hsame⟩
    · exact ⟨fun _ h => h, fun _ h => .inl h, fun e _ hmomentary => single.full hfull hmomentary.2⟩
    · have hmomentary : map.Momentary entry := by
        obtain ⟨hone, hsymbol⟩ := not_or.mp hunfit
        exact ⟨by simpa using hsymbol, not_not.mp hone⟩
      obtain ⟨hkept, hfrom, hall⟩ := ih _
        (single.append ⟨entry.keycode, UInt8.ofNat entry.mods⟩ hmomentary.2 hdouble) hrest
      refine ⟨fun key hkey => hkept key (List.mem_append_left _ hkey), fun key hkey => ?_,
        fun e he hm => ?_⟩
      · rcases hfrom key hkey with h | ⟨e, he, h⟩
        · rcases List.mem_append.mp h with h | h
          · exact .inl h
          · exact .inr ⟨entry, List.mem_cons_self .., hmomentary, List.mem_singleton.mp h⟩
        · exact .inr ⟨e, List.mem_cons_of_mem _ he, h⟩
      · rcases List.mem_cons.mp he with rfl | he
        · exact List.mem_map.mpr ⟨_, hkept _ (List.mem_append_right _ (List.mem_singleton_self _)),
            rfl⟩
        · exact hall e he hm

section Sent

variable (sent : map.Sent)

include sent

theorem Sent.momentary_mem {key : ModifierKey} (h : key ∈ map.momentaryModifierKeys) :
    ∃ entry ∈ map.modifierMap, map.Momentary entry ∧
      key = ⟨entry.keycode, UInt8.ofNat entry.mods⟩ := by
  have hspec := @collectMomentary_spec map map.modifierMap []
    ⟨List.nodup_nil, nofun⟩ sent.entries
  rcases hspec.2.1 key h with h | h
  · exact absurd h List.not_mem_nil
  · exact h

theorem Sent.momentary_bit {entry : KeyModMap} (hentry : entry ∈ map.modifierMap)
    (h : map.Momentary entry) :
    ∃ key ∈ map.momentaryModifierKeys, key.modifiers = UInt8.ofNat entry.mods := by
  have hspec := @collectMomentary_spec map map.modifierMap []
    ⟨List.nodup_nil, nofun⟩ sent.entries
  exact List.mem_map.mp (hspec.2.2 entry hentry h)

theorem Sent.bitsOfKey {entry : KeyModMap} (h : entry ∈ map.modifierMap) :
    map.bitsOfKey entry.keycode = UInt8.ofNat entry.mods :=
  @bitsOfKey_of_mapped map sent.toComplete ⟨entry.keycode, UInt8.ofNat entry.mods⟩
    ⟨entry, h, rfl, modifierBits_of_lt (sent.entries entry h)⟩

/-- What momentary entries set, some of the keys the search tries set too. -/
theorem Sent.chosen_of_held {held : List KeyModMap} (hheld : held.Sublist map.modifierMap)
    (hmomentary : ∀ entry ∈ held, map.Momentary entry) :
    ∃ chosen : List ModifierKey, chosen.Sublist map.momentaryModifierKeys ∧
      map.downBits (chosen.map ModifierKey.keycode) =
        map.downBits (held.map KeyModMap.keycode) := by
  classical
  refine ⟨map.momentaryModifierKeys.filter fun key =>
    decide (∃ entry ∈ held, key.modifiers = UInt8.ofNat entry.mods), List.filter_sublist, ?_⟩
  have hmods := modifierBits_of_lt sent.mods
  refine byte_ext fun i => ?_
  rw [Bool.eq_iff_iff, testBit_downBits hmods, testBit_downBits hmods]
  refine or_congr_right ⟨?_, ?_⟩
  · rintro ⟨k, hk, hi⟩
    obtain ⟨key, hkey, rfl⟩ := List.mem_map.mp hk
    obtain ⟨hkey, hsame⟩ := List.mem_filter.mp hkey
    obtain ⟨entry, hentry, hsame⟩ := of_decide_eq_true hsame
    refine ⟨entry.keycode, List.mem_map.mpr ⟨entry, hentry, rfl⟩, ?_⟩
    rw [bitsOfKey_of_mapped sent.toComplete (momentary_mapped hkey), hsame] at hi
    rw [sent.bitsOfKey (hheld.subset hentry)]
    exact hi
  · rintro ⟨k, hk, hi⟩
    obtain ⟨entry, hentry, rfl⟩ := List.mem_map.mp hk
    obtain ⟨key, hkey, hsame⟩ :=
      sent.momentary_bit (hheld.subset hentry) (hmomentary entry hentry)
    refine ⟨key.keycode, List.mem_map.mpr ⟨key, List.mem_filter.mpr
      ⟨hkey, decide_eq_true ⟨entry, hentry, hsame⟩⟩, rfl⟩, ?_⟩
    rw [bitsOfKey_of_mapped sent.toComplete (momentary_mapped hkey), hsame]
    rw [sent.bitsOfKey (hheld.subset hentry)] at hi
    exact hi

theorem Sent.held_of_chosen {chosen : List ModifierKey}
    (hchosen : chosen.Sublist map.momentaryModifierKeys) :
    ∃ held : List KeyModMap, held.Sublist map.modifierMap ∧
      (∀ entry ∈ held, map.Momentary entry) ∧
      ∀ k, k ∈ held.map KeyModMap.keycode ↔ k ∈ chosen.map ModifierKey.keycode := by
  refine ⟨map.modifierMap.filter fun entry =>
    decide (entry.keycode ∈ chosen.map ModifierKey.keycode), List.filter_sublist,
    fun entry hentry => ?_, fun k => ⟨fun hk => ?_, fun hk => ?_⟩⟩
  · obtain ⟨hentry, hin⟩ := List.mem_filter.mp hentry
    obtain ⟨key, hkey, hsame⟩ := List.mem_map.mp (of_decide_eq_true hin)
    obtain ⟨e, he, hmomentary, rfl⟩ := sent.momentary_mem (hchosen.subset hkey)
    -- a keycode stands in the map once
    rw [List.inj_on_of_nodup_map sent.unique hentry he hsame.symm]
    exact hmomentary
  · obtain ⟨entry, hentry, rfl⟩ := List.mem_map.mp hk
    exact of_decide_eq_true (List.mem_filter.mp hentry).2
  · obtain ⟨key, hkey, rfl⟩ := List.mem_map.mp hk
    obtain ⟨e, he, -, rfl⟩ := sent.momentary_mem (hchosen.subset hkey)
    exact List.mem_map.mpr ⟨e, List.mem_filter.mpr ⟨he, decide_eq_true hk⟩, rfl⟩

/-! ## What is typed -/

theorem Sent.lockBits_ok (entries : List KeyModMap) (hsub : entries ⊆ map.modifierMap)
    (start : UInt8) : ∃ safe, map.lockBits entries start = .ok safe := by
  induction entries generalizing start with
  | nil => exact ⟨start, rfl⟩
  | cons entry rest ih =>
    have hrest : rest ⊆ map.modifierMap := fun e he => hsub (List.mem_cons_of_mem _ he)
    unfold lockBits
    rw [modifierBits_of_lt (sent.entries entry (hsub (List.mem_cons_self ..))), ok_bind]
    split_ifs
    · exact ih hrest _
    · exact ih hrest _

/-- With nothing depressed or latched, the search fails for want of a symbol only. -/
theorem Sent.resolve_error (hidle : map.state.baseMods = 0 ∧ map.state.latchedMods = 0 ∧
      map.state.baseGroup = 0 ∧ map.state.latchedGroup = 0) {wanted : Nat} {e : Failure}
    (h : map.resolve wanted = .error e) : e = Failure.invalid symbolUnavailable := by
  unfold resolve resolveWithModifiers at h
  obtain ⟨safe, hsafe⟩ : ∃ safe, map.safeLockedModifiers = .ok safe := by
    obtain ⟨bits, hbits⟩ := sent.lockBits_ok map.modifierMap (List.Subset.refl _) 0
    unfold safeLockedModifiers
    rw [modifierBits_of_lt sent.locked, ok_bind, hbits, ok_bind]
    exact ⟨_, rfl⟩
  have hactive : ¬ (map.state.baseMods ≠ 0 ∨ map.state.latchedMods ≠ 0 ∨
      map.state.baseGroup ≠ 0 ∨ map.state.latchedGroup ≠ 0) := by
    simpa [not_or] using hidle
  rw [refuseIf_neg hactive] at h
  unfold requestedModifiers at h
  rw [ok_bind] at h
  dsimp only at h
  rw [modifierBits_of_lt sent.mods, ok_bind, hsafe, ok_bind] at h
  split at h
  · simp at h
  · exact (Except.error.inj h).symm

/-- The search finds a stroke exactly for the symbols that are plainly carried. -/
theorem Sent.resolve_ok_iff (hidle : map.state.baseMods = 0 ∧ map.state.latchedMods = 0)
    (wanted : Nat) :
    (∃ stroke, map.resolve wanted = .ok stroke) ↔ map.CarriesPlainly wanted := by
  obtain ⟨hsound, hcomplete⟩ := resolution_sound_complete_minimal sent.toComplete wanted []
  have hmods := modifierBits_of_lt sent.mods
  have hnone (i : Nat) : ¬ map.RequestedBit [] i := by
    rintro ⟨modifier, hmem, -⟩
    exact List.not_mem_nil hmem
  constructor
  · rintro ⟨stroke, hstroke⟩
    obtain ⟨⟨row, -, produces⟩, ⟨chosen, hchosen, hkeys⟩, -⟩ := hsound stroke hstroke
    obtain ⟨keyType, hselects, hlooks⟩ := produces.selects
    obtain ⟨held, hheld, hmomentary, hsame⟩ := sent.held_of_chosen hchosen
    refine ⟨produces.idle.2.2.1, produces.idle.2.2.2, row, keyType, held, hheld, hmomentary, ?_,
      fun i hi => ?_⟩
    · have hdown : map.downBits stroke.modifiers = map.downBits (held.map KeyModMap.keycode) :=
        downBits_congr hmods fun k => (hkeys k).trans (hsame k).symm
      rw [← hdown]
      exact hselects
    · rcases hlooks i hi with h | h | h
      · exact .inl h
      · exact absurd h (hnone i)
      · exact .inr h
  · rintro ⟨hbase, hlatched, row, keyType, held, hheld, hmomentary, hselects, hlooks⟩
    obtain ⟨chosen, hchosen, hdown⟩ := sent.chosen_of_held hheld hmomentary
    have produces : map.Produces wanted [] row (chosen.map ModifierKey.keycode) := by
      refine ⟨⟨hidle.1, hidle.2, hbase, hlatched⟩, nofun, keyType, ?_, fun i hi => ?_⟩
      · rw [hdown]
        exact hselects
      · rcases hlooks i hi with h | h
        · exact .inl h
        · exact .inr (.inr h)
    cases hresolve : map.resolve wanted with
    | ok stroke => exact ⟨stroke, rfl⟩
    | error e =>
      rw [sent.resolve_error ⟨hidle.1, hidle.2, hbase, hlatched⟩ hresolve] at hresolve
      exact absurd produces (hcomplete hresolve row chosen hchosen)

theorem Sent.resolveAt_ok_iff (hidle : map.state.baseMods = 0 ∧ map.state.latchedMods = 0)
    (character : Char) (position : Nat) :
    (∃ stroke, map.resolveAt character position = .ok stroke) ↔
      map.CarriesPlainly (keysymForCharacter character) := by
  rw [← sent.resolve_ok_iff hidle]
  constructor
  · rintro ⟨stroke, h⟩
    exact ⟨stroke, KeyboardMap.resolveAt_ok h⟩
  · rintro ⟨stroke, h⟩
    unfold resolveAt
    rw [h]
    exact ⟨stroke, rfl⟩

end Sent

/-- A character that the layout carries by one of its keysyms is typed exactly if it is plainly
    carried by the keysym the code names for it. -/
theorem typeable_exact (sent : map.Sent)
    (hidle : map.state.baseMods = 0 ∧ map.state.latchedMods = 0) (legacy : Char → List Nat)
    (character : Char) (position : Nat) :
    ((∃ symbol ∈ assigned legacy character, map.Carries symbol) →
        ∃ stroke, map.resolveAt character position = .ok stroke) ↔
      ((∃ symbol ∈ assigned legacy character, map.Carries symbol) →
        map.CarriesPlainly (keysymForCharacter character)) := by
  rw [sent.resolveAt_ok_iff hidle]

theorem twoKeys_sent : twoKeys.Sent where
  toComplete := twoKeys_complete
  mods := by decide
  locked := by decide
  entries := by decide

theorem typeable_shifted :
    twoKeys.Carries 'A'.toNat ∧ ∃ stroke, twoKeys.resolveAt 'A' 1 = .ok stroke := by
  have hselects : twoKeys.Selects 0 (twoKeys.downBits [9]) 'A'.toNat ⟨1, 2, [⟨true, 1, 1⟩]⟩ :=
    ⟨_, 0, by decide, rfl, rfl, rfl, by decide, by decide, rfl⟩
  have hcarries : twoKeys.Carries 'A'.toNat :=
    ⟨0, _, [⟨9, 1⟩], List.Sublist.refl _, by decide, hselects⟩
  have hplainly : twoKeys.CarriesPlainly 'A'.toNat :=
    ⟨rfl, rfl, 0, _, [⟨9, 1⟩], List.Sublist.refl _, by decide, hselects,
      fun i hi => absurd hi (by simp [twoKeys])⟩
  have hsymbol : 'A'.toNat ∈ assigned (fun _ => []) 'A' := by decide
  exact ⟨hcarries, (typeable_exact twoKeys_sent ⟨rfl, rfl⟩ (fun _ => []) 'A' 1).mpr
    (fun _ => hplainly) ⟨_, hsymbol, hcarries⟩⟩

/-- Two of the legacy keysyms: Cyrillic a and the euro sign. -/
def legacyKeysyms (character : Char) : List Nat :=
  if character.toNat = 0x0430 then [0x06c1]
  else if character.toNat = 0x20ac then [0x20ac]
  else []

/-- A Cyrillic layout: one key, with `Cyrillic_a`. -/
def cyrillicKey : KeyboardMap where
  minimum := 8
  types := [⟨0, 1, []⟩]
  symbols := [⟨fun _ => 0, 1, 1, [0x06c1]⟩]
  modifierMap := []
  state := ⟨0, 0, 0, 0, 0, 0, 0⟩

theorem typeable_not_legacy :
    cyrillicKey.Sent ∧ cyrillicKey.state.baseMods = 0 ∧ cyrillicKey.state.latchedMods = 0 ∧
      (∃ symbol ∈ assigned legacyKeysyms (Char.ofNat 0x0430), cyrillicKey.Carries symbol) ∧
      ¬ ∃ stroke, cyrillicKey.resolveAt (Char.ofNat 0x0430) 1 = .ok stroke := by
  have hcomplete : cyrillicKey.Complete := ⟨by decide, by decide, by decide, by decide, by decide⟩
  have hcarries : cyrillicKey.Carries 0x06c1 :=
    ⟨0, ⟨0, 1, []⟩, [], List.nil_sublist _, nofun, _, 0, by decide, rfl, rfl, rfl, by decide,
      by decide, rfl⟩
  refine ⟨⟨hcomplete, by decide, by decide, nofun⟩, rfl, rfl, ⟨0x06c1, by decide, hcarries⟩, ?_⟩
  rintro ⟨stroke, h⟩
  have hresolve : ∃ e, cyrillicKey.resolve (keysymForCharacter (Char.ofNat 0x0430)) = .error e :=
    ⟨_, rfl⟩
  obtain ⟨e, he⟩ := hresolve
  rw [KeyboardMap.resolveAt_ok h] at he
  exact absurd he nofun

end KeyboardMap

end AgentSeat.X11
