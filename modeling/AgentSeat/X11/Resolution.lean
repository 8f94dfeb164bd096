/-
  The search for a stroke is sound, complete and minimal.

  `Produces map wanted requested row keys` says, in the terms of the keyboard and not of the search,
  that the key in `row` gives the wanted symbol while `keys` are held down: the level its type
  selects under the effective modifiers is one it has, and nothing else is active. The search
  returns a stroke that produces the symbol, none of the candidates it looks through (the requested
  keys and some of the momentary modifier keys) takes fewer keys, and it finds nothing only if no
  candidate produces the symbol.
-/
import AgentSeat.Lib.Bits
import AgentSeat.X11.Keyboard
import Mathlib.Data.List.Dedup
import Mathlib.Data.List.Perm.Subperm

namespace AgentSeat.X11

open AgentSeat.Proto AgentSeat.Lib

/-! ## What a keyboard does -/

/-- The level a type selects under effective modifiers: that of the first active entry whose mask is
    the modifiers the type looks at, else the first level. -/
def KeyType.selectedLevel (keyType : KeyType) (m : UInt8) : Nat :=
  match keyType.map.find? fun entry =>
      entry.active && entry.modsMask == m.toNat &&& keyType.modsMask with
  | some entry => entry.level
  | none => 0

namespace KeyboardMap

variable (map : KeyboardMap)

/-- The modifier bits a key sets while it is down. -/
def bitsOfKey (keycode : Nat) : UInt8 :=
  match map.modifierMap.find? fun entry => entry.keycode = keycode with
  | some entry => UInt8.ofNat entry.mods
  | none => 0

/-- The effective modifiers with the keys down. -/
def downBits (keys : List Nat) : UInt8 :=
  keys.foldl (fun bits keycode => bits ||| map.bitsOfKey keycode) (UInt8.ofNat map.state.mods)

/-- Under the modifiers `m` the key in `row` selects, by its type in the effective group, a level
    that the type and the key have, and the symbol there is the given one. -/
def Selects (row : Nat) (m : UInt8) (symbol : Nat) (keyType : KeyType) : Prop :=
  ∃ key group, ∃ h : group < 4, map.symbols[row]? = some key ∧
    normalizedGroup key.groupInfo map.state.group = some group ∧
    map.types[key.ktIndex ⟨group, h⟩]? = some keyType ∧
    keyType.selectedLevel m < keyType.numLevels ∧ keyType.selectedLevel m < key.width ∧
    key.syms[group * key.width + keyType.selectedLevel m]? = some symbol

def RequestedBit (requested : List KeyboardModifier) (i : Nat) : Prop :=
  ∃ modifier ∈ requested, ∃ key, map.modifierKey modifier = .ok key ∧
    key.modifiers.toNat.testBit i = true

/-- A locked bit of a Caps, Shift or Num lock key. -/
def LockBit (i : Nat) : Prop :=
  map.state.lockedMods.testBit i = true ∧ ∃ entry ∈ map.modifierMap,
    entry.mods.testBit i = true ∧
    map.keyHasAnySymbol entry.keycode [xkCapsLock, xkShiftLock, xkNumLock] = true

/-- With `keys` held down, the requested modifiers among them, the key in `row` gives the symbol;
    no modifier is depressed or latched, and those the key does not look at are requested or
    locked. -/
structure Produces (wanted : Nat) (requested : List KeyboardModifier) (row : Nat)
    (keys : List Nat) : Prop where
  idle : map.state.baseMods = 0 ∧ map.state.latchedMods = 0 ∧ map.state.baseGroup = 0 ∧
    map.state.latchedGroup = 0
  held : ∀ modifier ∈ requested, ∃ key, map.modifierKey modifier = .ok key ∧ key.keycode ∈ keys
  selects : ∃ keyType, map.Selects row (map.downBits keys) wanted keyType ∧
    ∀ i, map.state.mods.testBit i = true → keyType.modsMask.testBit i = true ∨
      map.RequestedBit requested i ∨ map.LockBit i

def requestedKeys (requested : List KeyboardModifier) : List Nat :=
  requested.filterMap fun modifier => (map.modifierKey modifier).toOption.map ModifierKey.keycode

/-- A map as a server sends it: keycodes and widths are bytes, the masks of the types too, every key
    has its symbols for each of its groups, and a keycode stands in the modifier map once. -/
structure Complete : Prop where
  keycodes : map.minimum + map.symbols.length ≤ 256
  widths : ∀ key ∈ map.symbols, key.width ≤ 255
  filled : ∀ key ∈ map.symbols, (key.groupInfo &&& 0x0f).toNat * key.width ≤ key.syms.length
  masks : ∀ keyType ∈ map.types, keyType.modsMask < 256
  unique : (map.modifierMap.map KeyModMap.keycode).Nodup

variable {map}

/-! ## Masks and levels -/

theorem modifierBits_ok {mask : ModMask} {bits : UInt8} (h : modifierBits mask = .ok bits) :
    bits.toNat = mask ∧ bits = UInt8.ofNat mask := by
  unfold modifierBits at h
  split_ifs at h with hmask
  obtain rfl := Except.ok.inj h
  exact ⟨UInt8.toNat_ofNat_of_lt' hmask, rfl⟩

theorem modifierBits_of_lt {mask : ModMask} (h : mask < 256) :
    modifierBits mask = .ok (UInt8.ofNat mask) := if_pos h

/-- The code's level is the one the keyboard selects. -/
theorem levelForModifiers_eq {keyType : KeyType} (h : keyType.modsMask < 256) (m : UInt8) :
    levelForModifiers keyType m = keyType.selectedLevel m := by
  have hrelevant : (m &&& UInt8.ofNat keyType.modsMask).toNat = m.toNat &&& keyType.modsMask := by
    rw [UInt8.toNat_and, UInt8.toNat_ofNat_of_lt' h]
  have htest : (fun entry : KtMapEntry => entry.active &&
        (modifierBits entry.modsMask).toOption == some (m &&& UInt8.ofNat keyType.modsMask)) =
      fun entry => entry.active && entry.modsMask == m.toNat &&& keyType.modsMask := by
    funext entry
    congr 1
    rw [← hrelevant, Bool.eq_iff_iff, beq_iff_eq, beq_iff_eq]
    by_cases hentry : entry.modsMask < 256
    · rw [modifierBits_of_lt hentry]
      show some (UInt8.ofNat entry.modsMask) = some _ ↔ _
      rw [Option.some.injEq, ← UInt8.toNat_inj, UInt8.toNat_ofNat_of_lt' hentry]
    · have hbyte := (m &&& UInt8.ofNat keyType.modsMask).toNat_lt
      have hnone : modifierBits entry.modsMask = .error _ := if_neg hentry
      rw [hnone]
      constructor
      · exact fun h => absurd h nofun
      · intro heq
        have hlarge : 256 ≤ entry.modsMask := Nat.le_of_not_lt hentry
        rw [heq] at hlarge
        exact absurd hlarge (Nat.not_le_of_lt hbyte)
  unfold levelForModifiers KeyType.selectedLevel
  rw [modifierBits_of_lt h]
  show (match keyType.map.find? (fun entry : KtMapEntry => entry.active &&
        (modifierBits entry.modsMask).toOption == some (m &&& UInt8.ofNat keyType.modsMask)) with
      | some entry => entry.level
      | none => 0) = _
  rw [htest]

/-! ## Modifier keys -/

/-- The key stands for an entry of the modifier map. -/
def Mapped (map : KeyboardMap) (key : ModifierKey) : Prop :=
  ∃ entry ∈ map.modifierMap, entry.keycode = key.keycode ∧ modifierBits entry.mods = .ok key.modifiers

theorem bitsOfKey_of_mapped (complete : map.Complete) {key : ModifierKey} (h : map.Mapped key) :
    map.bitsOfKey key.keycode = key.modifiers := by
  obtain ⟨entry, hentry, hkeycode, hbits⟩ := h
  have hfind : (map.modifierMap.find? fun e => e.keycode = key.keycode) = some entry := by
    cases hf : map.modifierMap.find? fun e => e.keycode = key.keycode with
    | none =>
      have hno := List.find?_eq_none.mp hf entry hentry
      exact absurd (by simpa using hkeycode) hno
    | some e =>
      have he : e.keycode = key.keycode := by simpa using List.find?_some hf
      have hmem := List.mem_of_find?_eq_some hf
      rw [List.inj_on_of_nodup_map complete.unique hmem hentry (he.trans hkeycode.symm)]
  unfold bitsOfKey
  rw [hfind]
  exact (modifierBits_ok hbits).2.symm

/-- Keys with one keycode are one key. -/
theorem mapped_inj (complete : map.Complete) {key key' : ModifierKey} (h : map.Mapped key)
    (h' : map.Mapped key') (heq : key.keycode = key'.keycode) : key.modifiers = key'.modifiers := by
  rw [← bitsOfKey_of_mapped complete h, ← bitsOfKey_of_mapped complete h', heq]

theorem modifierEntry_some {symbols : List Nat} {entry : KeyModMap} {key : ModifierKey}
    (h : map.modifierEntry symbols entry = some key) :
    entry.keycode = key.keycode ∧ modifierBits entry.mods = .ok key.modifiers ∧
      countOnes key.modifiers = 1 := by
  unfold modifierEntry at h
  cases hbits : modifierBits entry.mods with
  | error e =>
    rw [hbits] at h
    exact absurd h nofun
  | ok bits =>
    rw [hbits] at h
    dsimp only at h
    split_ifs at h with hone
    obtain rfl := Option.some.inj h
    exact ⟨rfl, rfl, hone.1⟩

theorem modifierKey_ok {modifier : KeyboardModifier} {key : ModifierKey}
    (h : map.modifierKey modifier = .ok key) : map.Mapped key ∧ countOnes key.modifiers = 1 := by
  unfold modifierKey at h
  split at h
  · next found hfound =>
    obtain rfl := Except.ok.inj h
    obtain ⟨entry, hentry, hkey⟩ := List.exists_of_findSome?_eq_some hfound
    obtain ⟨hkeycode, hbits, hone⟩ := modifierEntry_some hkey
    exact ⟨⟨entry, hentry, hkeycode, hbits⟩, hone⟩
  · exact absurd h nofun

/-- `result` is `keys` and further keys that stand for the entries, in their order. -/
def Gathered (entries : List KeyModMap) (keys result : List ModifierKey) : Prop :=
  ∃ extra, result = keys ++ extra ∧
    (extra.map ModifierKey.keycode).Sublist (entries.map KeyModMap.keycode) ∧
    (∀ key ∈ extra, ∃ entry ∈ entries, entry.keycode = key.keycode ∧
      modifierBits entry.mods = .ok key.modifiers) ∧ result.length ≤ maxMomentaryModifiers

section Gathered

variable {entry : KeyModMap} {rest : List KeyModMap} {keys result : List ModifierKey}

theorem Gathered.stop (entries : List KeyModMap) (h : keys.length ≤ maxMomentaryModifiers) :
    Gathered entries keys keys :=
  ⟨[], (List.append_nil _).symm, List.nil_sublist _, nofun, h⟩

theorem Gathered.skip (h : Gathered rest keys result) : Gathered (entry :: rest) keys result := by
  obtain ⟨extra, heq, hsub, hmapped, hlength⟩ := h
  refine ⟨extra, heq, hsub.cons _, fun key hkey => ?_, hlength⟩
  obtain ⟨e, he, hbits⟩ := hmapped key hkey
  exact ⟨e, List.mem_cons_of_mem _ he, hbits⟩

theorem Gathered.take {bits : UInt8} (hbits : modifierBits entry.mods = .ok bits)
    (h : Gathered rest (keys ++ [⟨entry.keycode, bits⟩]) result) :
    Gathered (entry :: rest) keys result := by
  obtain ⟨extra, heq, hsub, hmapped, hlength⟩ := h
  refine ⟨⟨entry.keycode, bits⟩ :: extra, ?_, hsub.cons_cons _, fun key hkey => ?_, hlength⟩
  · rw [heq, List.append_assoc, List.singleton_append]
  · rcases List.mem_cons.mp hkey with rfl | hkey
    · exact ⟨entry, List.mem_cons_self .., rfl, hbits⟩
    · obtain ⟨e, he, hrest⟩ := hmapped key hkey
      exact ⟨e, List.mem_cons_of_mem _ he, hrest⟩

end Gathered

theorem collectMomentary_gathered (entries : List KeyModMap) (keys : List ModifierKey)
    (hkeys : keys.length ≤ maxMomentaryModifiers) :
    Gathered entries keys (map.collectMomentary entries keys) := by
  induction entries generalizing keys with
  | nil => exact Gathered.stop [] hkeys
  | cons entry rest ih =>
    unfold collectMomentary
    cases hbits : modifierBits entry.mods with
    | error e => exact (ih keys hkeys).skip
    | ok bits =>
      dsimp only
      split_ifs with hunfit hdouble hfull
      · exact (ih keys hkeys).skip
      · exact (ih keys hkeys).skip
      · exact Gathered.stop _ hkeys
      · refine Gathered.take hbits (ih _ ?_)
        rw [List.length_append, List.length_singleton]
        omega

theorem momentary_mapped {key : ModifierKey} (h : key ∈ map.momentaryModifierKeys) :
    map.Mapped key := by
  obtain ⟨extra, heq, -, hmapped, -⟩ := @collectMomentary_gathered map map.modifierMap []
    (Nat.zero_le _)
  unfold momentaryModifierKeys at h
  rw [heq, List.nil_append] at h
  exact hmapped key h

theorem momentary_length : map.momentaryModifierKeys.length ≤ maxMomentaryModifiers := by
  obtain ⟨extra, -, -, -, hlength⟩ := @collectMomentary_gathered map map.modifierMap []
    (Nat.zero_le _)
  exact hlength

theorem momentary_nodup (complete : map.Complete) :
    (map.momentaryModifierKeys.map ModifierKey.keycode).Nodup := by
  obtain ⟨extra, heq, hsub, -, -⟩ := @collectMomentary_gathered map map.modifierMap []
    (Nat.zero_le _)
  unfold momentaryModifierKeys
  rw [heq, List.nil_append]
  exact complete.unique.sublist hsub

/-! ## Requested modifiers and locks -/

theorem exists_bit {bits : UInt8} (h : countOnes bits = 1) : ∃ i, bits.toNat.testBit i = true := by
  obtain ⟨i, hi⟩ := List.length_eq_one_iff.mp h
  have hmem : i ∈ (List.range 8).filter bits.toNat.testBit := by
    rw [hi]
    exact List.mem_singleton.mpr rfl
  exact ⟨i, (List.mem_filter.mp hmem).2⟩

/-- The requested keys and bits; no key is requested twice. -/
theorem requestedModifiers_ok (complete : map.Complete) {requested : List KeyboardModifier}
    {bits bits' : UInt8} {keys keys' : List Nat}
    (hkeys : ∀ k ∈ keys, ∃ key, map.Mapped key ∧ key.keycode = k ∧
      ∀ i, key.modifiers.toNat.testBit i = true → bits.toNat.testBit i = true)
    (hnodup : keys.Nodup) (h : map.requestedModifiers requested bits keys = .ok (bits', keys')) :
    keys' = keys ++ map.requestedKeys requested ∧ keys'.Nodup ∧
      (∀ modifier ∈ requested, ∃ key, map.modifierKey modifier = .ok key) ∧
      ∀ i, bits'.toNat.testBit i = true ↔ bits.toNat.testBit i = true ∨ map.RequestedBit requested i := by
  induction requested generalizing bits keys with
  | nil =>
    obtain ⟨rfl, rfl⟩ := Prod.mk.inj (Except.ok.inj h)
    refine ⟨(List.append_nil _).symm, hnodup, nofun, fun i => ⟨.inl, ?_⟩⟩
    rintro (hbit | ⟨modifier, hmem, -⟩)
    · exact hbit
    · exact absurd hmem List.not_mem_nil
  | cons modifier rest ih =>
    unfold requestedModifiers at h
    cases hkey : map.modifierKey modifier with
    | error e =>
      rw [hkey] at h
      exact absurd h nofun
    | ok key =>
      rw [hkey] at h
      have hfree : ¬ bits &&& key.modifiers ≠ 0 := by
        intro hshared
        rw [ok_bind, refuseIf_pos hshared] at h
        exact absurd h nofun
      rw [ok_bind, refuseIf_neg hfree] at h
      obtain ⟨hmapped, hone⟩ := modifierKey_ok hkey
      -- a key that was requested before would share its bit
      have hnew : key.keycode ∉ keys := by
        intro hmem
        obtain ⟨key', hmapped', hsame, hbits⟩ := hkeys key.keycode hmem
        rw [mapped_inj complete hmapped' hmapped hsame] at hbits
        obtain ⟨i, hi⟩ := exists_bit hone
        have hboth : (bits &&& key.modifiers).toNat.testBit i = true := by
          rw [testBit_and, hbits i hi, hi]
          rfl
        rw [not_not.mp hfree, testBit_zero] at hboth
        exact absurd hboth (by decide)
      have hkeys' : ∀ k ∈ keys ++ [key.keycode], ∃ key', map.Mapped key' ∧ key'.keycode = k ∧
          ∀ i, key'.modifiers.toNat.testBit i = true →
            (bits ||| key.modifiers).toNat.testBit i = true := by
        intro k hk
        rcases List.mem_append.mp hk with hk | hk
        · obtain ⟨key', hmapped', hsame, hbits⟩ := hkeys k hk
          refine ⟨key', hmapped', hsame, fun i hi => ?_⟩
          rw [testBit_or, hbits i hi]
          rfl
        · refine ⟨key, hmapped, (List.mem_singleton.mp hk).symm, fun i hi => ?_⟩
          rw [testBit_or, hi, Bool.or_true]
      have hnodup' : (keys ++ [key.keycode]).Nodup := by
        refine List.nodup_append'.mpr ⟨hnodup, List.nodup_singleton _, ?_⟩
        exact List.disjoint_singleton.mpr hnew
      obtain ⟨heq, hall, hpresent, hbits⟩ := ih hkeys' hnodup' h
      refine ⟨?_, hall, ?_, fun i => ?_⟩
      · rw [heq, List.append_assoc]
        unfold requestedKeys
        rw [List.filterMap_cons, hkey]
        rfl
      · intro m hm
        rcases List.mem_cons.mp hm with rfl | hm
        · exact ⟨key, hkey⟩
        · exact hpresent m hm
      · rw [hbits, testBit_or, Bool.or_eq_true, or_assoc]
        refine or_congr_right ⟨?_, ?_⟩
        · rintro (hi | ⟨m, hm, key', hkey', hi⟩)
          · exact ⟨modifier, List.mem_cons_self .., key, hkey, hi⟩
          · exact ⟨m, List.mem_cons_of_mem _ hm, key', hkey', hi⟩
        · rintro ⟨m, hm, key', hkey', hi⟩
          rcases List.mem_cons.mp hm with rfl | hm
          · obtain rfl := Except.ok.inj (hkey.symm.trans hkey')
            exact .inl hi
          · exact .inr ⟨m, hm, key', hkey', hi⟩

theorem lockBits_ok {entries : List KeyModMap} {start safe : UInt8}
    (h : map.lockBits entries start = .ok safe) (i : Nat) :
    safe.toNat.testBit i = true ↔ start.toNat.testBit i = true ∨ ∃ entry ∈ entries,
      entry.mods.testBit i = true ∧
      map.keyHasAnySymbol entry.keycode [xkCapsLock, xkShiftLock, xkNumLock] = true := by
  induction entries generalizing start with
  | nil =>
    obtain rfl := Except.ok.inj h
    simp
  | cons entry rest ih =>
    unfold lockBits at h
    cases hbits : modifierBits entry.mods with
    | error e =>
      rw [hbits] at h
      exact absurd h nofun
    | ok bits =>
      rw [hbits, ok_bind] at h
      have hmask := (modifierBits_ok hbits).1
      split_ifs at h with hlock
      · rw [ih h, testBit_or, Bool.or_eq_true, hmask]
        simp [hlock, or_assoc]
      · rw [ih h]
        simp [hlock]

theorem safeLockedModifiers_ok {safe : UInt8} (h : map.safeLockedModifiers = .ok safe) (i : Nat) :
    safe.toNat.testBit i = true ↔ map.LockBit i := by
  unfold safeLockedModifiers at h
  cases hlocked : modifierBits map.state.lockedMods with
  | error e =>
    rw [hlocked] at h
    exact absurd h nofun
  | ok locked =>
    rw [hlocked, ok_bind] at h
    cases hbits : map.lockBits map.modifierMap 0 with
    | error e =>
      rw [hbits] at h
      exact absurd h nofun
    | ok bits =>
      rw [hbits, ok_bind] at h
      obtain rfl := Except.ok.inj h
      rw [testBit_and, Bool.and_eq_true, lockBits_ok hbits, (modifierBits_ok hlocked).1, testBit_zero]
      unfold LockBit
      simp

/-! ## The modifiers of a level -/

/-- The modifiers with some momentary keys added. -/
def effective (current : UInt8) (keys : List ModifierKey) : UInt8 :=
  keys.foldl (fun bits key => bits ||| key.modifiers) current

/-- The choice for a level is a sublist of the keys that selects it, and no sublist that does is
    shorter. -/
theorem modifiersForLevel_some {keyType : KeyType} {level : Nat} {current : UInt8}
    {keys : List ModifierKey} {modifiers : List Nat}
    (h : modifiersForLevel keyType level current keys = some modifiers) :
    ∃ chosen, chosen.Sublist keys ∧ modifiers = chosen.map ModifierKey.keycode ∧
      levelForModifiers keyType (effective current chosen) = level ∧
      ∀ other, other.Sublist keys → levelForModifiers keyType (effective current other) = level →
        chosen.length ≤ other.length := by
  unfold modifiersForLevel at h
  split_ifs at h
  obtain ⟨choice, hchoice, rfl⟩ := Option.map_eq_some_iff.mp h
  have hmem := List.argmin_mem hchoice
  obtain ⟨hmem, hlevel⟩ := List.mem_filter.mp hmem
  obtain ⟨c, hc, rfl⟩ := List.mem_map.mp hmem
  refine ⟨pick keys c, pick_sublist keys c, rfl, of_decide_eq_true hlevel, fun other hother hsame => ?_⟩
  obtain ⟨c', hc', rfl⟩ := exists_pick hother
  have hmem' : combine current keys c' ∈ ((List.range (2 ^ keys.length)).map
      (combine current keys)).filter fun choice => levelForModifiers keyType choice.2 = level :=
    List.mem_filter.mpr ⟨List.mem_map.mpr ⟨c', List.mem_range.mpr hc', rfl⟩, decide_eq_true hsame⟩
  have hle := List.le_of_mem_argmin hmem' hchoice
  rcases (Prod.Lex.toLex_le_toLex).mp hle with hlt | ⟨heq, -⟩
  · simpa [combine, pick] using Nat.le_of_lt hlt
  · simpa [combine, pick] using Nat.le_of_eq heq

theorem modifiersForLevel_exists {keyType : KeyType} {level : Nat} {current : UInt8}
    {keys chosen : List ModifierKey} (hlength : keys.length < 16) (hchosen : chosen.Sublist keys)
    (hlevel : levelForModifiers keyType (effective current chosen) = level) :
    ∃ modifiers, modifiersForLevel keyType level current keys = some modifiers := by
  obtain ⟨c, hc, rfl⟩ := exists_pick hchosen
  have hmem : combine current keys c ∈ ((List.range (2 ^ keys.length)).map
      (combine current keys)).filter fun choice => levelForModifiers keyType choice.2 = level :=
    List.mem_filter.mpr ⟨List.mem_map.mpr ⟨c, List.mem_range.mpr hc, rfl⟩, decide_eq_true hlevel⟩
  unfold modifiersForLevel
  rw [if_pos hlength]
  dsimp only
  cases hargmin : (((List.range (2 ^ keys.length)).map (combine current keys)).filter
      fun choice => levelForModifiers keyType choice.2 = level).argmin
        fun choice => toLex (choice.1.length, countOnes choice.2) with
  | none =>
    rw [List.argmin_eq_none.mp hargmin] at hmem
    exact absurd hmem List.not_mem_nil
  | some choice => exact ⟨_, rfl⟩

/-! ## Effective modifiers -/

theorem testBit_downBits {mods : UInt8} (hmods : modifierBits map.state.mods = .ok mods)
    (keys : List Nat) (i : Nat) : (map.downBits keys).toNat.testBit i = true ↔
      mods.toNat.testBit i = true ∨ ∃ k ∈ keys, (map.bitsOfKey k).toNat.testBit i = true := by
  unfold downBits
  rw [testBit_foldl_or, ← (modifierBits_ok hmods).2]

/-- Only which keys are down matters. -/
theorem downBits_congr {keys keys' : List Nat} {mods : UInt8}
    (hmods : modifierBits map.state.mods = .ok mods) (h : ∀ k, k ∈ keys ↔ k ∈ keys') :
    map.downBits keys = map.downBits keys' := by
  refine byte_ext fun i => ?_
  rw [Bool.eq_iff_iff, testBit_downBits hmods, testBit_downBits hmods]
  simp only [h]

theorem requestedBit_iff (complete : map.Complete) (requested : List KeyboardModifier) (i : Nat) :
    (∃ k ∈ map.requestedKeys requested, (map.bitsOfKey k).toNat.testBit i = true) ↔
      map.RequestedBit requested i := by
  constructor
  · rintro ⟨k, hk, hi⟩
    obtain ⟨modifier, hmem, hkey⟩ := List.mem_filterMap.mp hk
    cases hm : map.modifierKey modifier with
    | error e =>
      rw [hm] at hkey
      exact absurd hkey nofun
    | ok key =>
      rw [hm] at hkey
      obtain rfl := Option.some.inj hkey
      rw [bitsOfKey_of_mapped complete (modifierKey_ok hm).1] at hi
      exact ⟨modifier, hmem, key, hm, hi⟩
  · rintro ⟨modifier, hmem, key, hm, hi⟩
    refine ⟨key.keycode, List.mem_filterMap.mpr ⟨modifier, hmem, ?_⟩, ?_⟩
    · rw [hm]
      rfl
    · rw [bitsOfKey_of_mapped complete (modifierKey_ok hm).1]
      exact hi

/-- What the keyboard sees with the requested and the chosen keys down is what the search computed. -/
theorem downBits_eq (complete : map.Complete) {requested : List KeyboardModifier}
    {mods requestedBits : UInt8} (hmods : modifierBits map.state.mods = .ok mods)
    (hbits : ∀ i, requestedBits.toNat.testBit i = true ↔ map.RequestedBit requested i)
    {chosen : List ModifierKey} (hchosen : ∀ key ∈ chosen, map.Mapped key) :
    map.downBits (map.requestedKeys requested ++ chosen.map ModifierKey.keycode) =
      effective (mods ||| requestedBits) chosen := by
  refine byte_ext fun i => ?_
  have hadded : (∃ k ∈ chosen.map ModifierKey.keycode, (map.bitsOfKey k).toNat.testBit i = true) ↔
      ∃ key ∈ chosen, key.modifiers.toNat.testBit i = true := by
    constructor
    · rintro ⟨k, hk, hi⟩
      obtain ⟨key, hkey, rfl⟩ := List.mem_map.mp hk
      rw [bitsOfKey_of_mapped complete (hchosen key hkey)] at hi
      exact ⟨key, hkey, hi⟩
    · rintro ⟨key, hkey, hi⟩
      refine ⟨key.keycode, List.mem_map.mpr ⟨key, hkey, rfl⟩, ?_⟩
      rw [bitsOfKey_of_mapped complete (hchosen key hkey)]
      exact hi
  unfold effective
  rw [Bool.eq_iff_iff, testBit_downBits hmods, testBit_foldl_or, testBit_or, Bool.or_eq_true,
    ← hadded, hbits, ← requestedBit_iff complete, or_assoc]
  simp only [List.mem_append, or_and_right, exists_or]

/-! ## The strokes of one key -/

theorem mem_take_zipIdx {α : Type} {values : List α} {n i : Nat} {x : α} :
    (x, i) ∈ values.zipIdx.take n ↔ i < n ∧ values[i]? = some x := by
  rw [List.mem_take_iff_getElem]
  constructor
  · rintro ⟨j, hj, heq⟩
    rw [List.length_zipIdx] at hj
    rw [List.getElem_zipIdx, Nat.zero_add] at heq
    obtain ⟨rfl, rfl⟩ := Prod.mk.inj heq
    exact ⟨by omega, List.getElem?_eq_getElem (by omega)⟩
  · rintro ⟨hi, hx⟩
    obtain ⟨hlength, rfl⟩ := List.getElem?_eq_some_iff.mp hx
    refine ⟨i, ?_, ?_⟩
    · rw [List.length_zipIdx]
      omega
    · rw [List.getElem_zipIdx, Nat.zero_add]

/-- The key passes the filters of the search: its type in the effective group is known and looks at
    every active modifier that is neither requested nor locked. -/
structure Admits (map : KeyboardMap) (w : Wanted) (key : KeySymMap) (row group : Nat)
    (keyType : KeyType) (symbols : List Nat) : Prop where
  keycode : row ≤ 255 ∧ map.minimum + row ≤ 255
  normal : normalizedGroup key.groupInfo w.group = some group
  type : ∃ h : group < 4, map.types[key.ktIndex ⟨group, h⟩]? = some keyType
  mask : keyType.modsMask < 256
  looks : w.currentModifiers &&&
    ~~~(UInt8.ofNat keyType.modsMask ||| w.safeLockedModifiers ||| w.requestedBits) = 0
  sliced : slice key.syms (group * key.width) key.width = some symbols

/-- The strokes of a key, one for each level that has the symbol and can be selected. -/
def levelStrokes (map : KeyboardMap) (w : Wanted) (row : Nat) (keyType : KeyType)
    (symbols : List Nat) : List KeyStroke :=
  ((symbols.zipIdx.take keyType.numLevels).filter fun entry => entry.1 = w.symbol).filterMap
    fun entry =>
      if entry.2 ≤ 255 then
        (modifiersForLevel keyType entry.2 w.currentModifiers w.modifierKeys).map fun modifiers =>
          ⟨map.minimum + row, withLevelModifiers w.requestedKeys modifiers⟩
      else none

section Key

variable {w : Wanted} {key : KeySymMap} {row group : Nat} {keyType : KeyType} {symbols : List Nat}

theorem strokeOfKey_eq (h : Admits map w key row group keyType symbols) :
    map.strokeOfKey w key row =
      (levelStrokes map w row keyType symbols).argmin fun stroke => stroke.modifiers.length := by
  obtain ⟨hgroup, htype⟩ := h.type
  unfold strokeOfKey
  dsimp only
  rw [if_pos h.keycode, h.normal]
  dsimp only [bind, Option.bind]
  rw [dif_pos hgroup, htype]
  dsimp only
  rw [modifierBits_of_lt h.mask]
  dsimp only [Except.toOption]
  rw [if_neg (not_not.mpr h.looks), h.sliced]
  rfl

theorem admits_of_some {stroke : KeyStroke} (h : map.strokeOfKey w key row = some stroke) :
    ∃ group keyType symbols, Admits map w key row group keyType symbols := by
  unfold strokeOfKey at h
  dsimp only at h
  by_cases hrow : row ≤ 255 ∧ map.minimum + row ≤ 255
  rotate_left
  · rw [if_neg hrow] at h
    exact absurd h nofun
  rw [if_pos hrow] at h
  obtain ⟨keycode, -, h⟩ := Option.bind_eq_some_iff.mp h
  obtain ⟨group, hgroup, h⟩ := Option.bind_eq_some_iff.mp h
  by_cases hfour : group < 4
  rotate_left
  · rw [dif_neg hfour] at h
    exact absurd h nofun
  rw [dif_pos hfour] at h
  obtain ⟨index, hindex, h⟩ := Option.bind_eq_some_iff.mp h
  obtain ⟨keyType, htype, h⟩ := Option.bind_eq_some_iff.mp h
  obtain ⟨bits, hbits, h⟩ := Option.bind_eq_some_iff.mp h
  split_ifs at h with hlooks
  obtain ⟨symbols, hsymbols, -⟩ := Option.bind_eq_some_iff.mp h
  obtain rfl := Option.some.inj hindex
  have hmask : keyType.modsMask < 256 := by
    by_contra hlarge
    have hnone : modifierBits keyType.modsMask = .error _ := if_neg hlarge
    rw [hnone] at hbits
    exact absurd hbits nofun
  rw [modifierBits_of_lt hmask] at hbits
  obtain rfl := Option.some.inj hbits
  exact ⟨group, keyType, symbols, hrow, hgroup, ⟨hfour, htype⟩, hmask, not_not.mp hlooks, hsymbols⟩

theorem mem_levelStrokes {stroke : KeyStroke} :
    stroke ∈ levelStrokes map w row keyType symbols ↔
      ∃ level modifiers, level < keyType.numLevels ∧ symbols[level]? = some w.symbol ∧ level ≤ 255 ∧
        modifiersForLevel keyType level w.currentModifiers w.modifierKeys = some modifiers ∧
        stroke = ⟨map.minimum + row, withLevelModifiers w.requestedKeys modifiers⟩ := by
  unfold levelStrokes
  rw [List.mem_filterMap]
  constructor
  · rintro ⟨⟨symbol, level⟩, hmem, hstroke⟩
    obtain ⟨hmem, hsymbol⟩ := List.mem_filter.mp hmem
    obtain ⟨hlevel, hat⟩ := mem_take_zipIdx.mp hmem
    obtain rfl : symbol = w.symbol := of_decide_eq_true hsymbol
    split_ifs at hstroke with hbyte
    obtain ⟨modifiers, hmodifiers, rfl⟩ := Option.map_eq_some_iff.mp hstroke
    exact ⟨level, modifiers, hlevel, hat, hbyte, hmodifiers, rfl⟩
  · rintro ⟨level, modifiers, hlevel, hat, hbyte, hmodifiers, rfl⟩
    refine ⟨(w.symbol, level), List.mem_filter.mpr ⟨mem_take_zipIdx.mpr ⟨hlevel, hat⟩, by simp⟩, ?_⟩
    rw [if_pos hbyte, hmodifiers]
    rfl

end Key

/-! ## Candidates -/

theorem normalizedGroup_lt {groupInfo : UInt8} {effective group : Nat}
    (h : normalizedGroup groupInfo effective = some group) : group < (groupInfo &&& 0x0f).toNat := by
  unfold normalizedGroup at h
  dsimp only at h
  split_ifs at h with hzero hin hwrap hclamp hredirect hinside
  · exact Option.some.inj h ▸ hin
  · exact Option.some.inj h ▸ Nat.mod_lt _ (by omega)
  · have := Option.some.inj h
    omega
  · exact Option.some.inj h ▸ hinside

theorem mem_withLevelModifiers {requested level : List Nat} {k : Nat} :
    k ∈ withLevelModifiers requested level ↔ k ∈ requested ∨ k ∈ level := by
  unfold withLevelModifiers
  induction level generalizing requested with
  | nil => simp
  | cons keycode level ih =>
    rw [List.foldl_cons, ih]
    split_ifs with hcontains
    · have hmem : keycode ∈ requested := by simpa using hcontains
      rw [List.mem_cons]
      constructor
      · rintro (h | h)
        · exact .inl h
        · exact .inr (.inr h)
      · rintro (h | rfl | h)
        · exact .inl h
        · exact .inl hmem
        · exact .inr h
    · rw [List.mem_append, List.mem_singleton, List.mem_cons, or_assoc]

theorem length_withLevelModifiers (requested level : List Nat) :
    (withLevelModifiers requested level).length ≤ requested.length + level.length := by
  unfold withLevelModifiers
  induction level generalizing requested with
  | nil => exact Nat.le_refl _
  | cons keycode level ih =>
    rw [List.foldl_cons]
    refine Nat.le_trans (ih _) ?_
    split_ifs
    · rw [List.length_cons]
      omega
    · rw [List.length_append, List.length_singleton, List.length_cons]
      omega

/-- What the search works with once its checks passed. -/
structure Prepared (map : KeyboardMap) (wanted : Nat) (requested : List KeyboardModifier)
    (w : Wanted) : Prop where
  idle : map.state.baseMods = 0 ∧ map.state.latchedMods = 0 ∧ map.state.baseGroup = 0 ∧
    map.state.latchedGroup = 0
  symbol : w.symbol = wanted
  group : w.group = map.state.group
  current : ∃ mods, modifierBits map.state.mods = .ok mods ∧
    w.currentModifiers = mods ||| w.requestedBits
  bits : ∀ i, w.requestedBits.toNat.testBit i = true ↔ map.RequestedBit requested i
  keys : w.requestedKeys = map.requestedKeys requested
  distinct : w.requestedKeys.Nodup
  present : ∀ modifier ∈ requested, ∃ key, map.modifierKey modifier = .ok key
  locked : ∀ i, w.safeLockedModifiers.toNat.testBit i = true ↔ map.LockBit i
  momentary : w.modifierKeys = map.momentaryModifierKeys

section Candidates

variable {w : Wanted} {wanted row : Nat} {requested : List KeyboardModifier} {key : KeySymMap}

/-- The filter of the search in the terms of the keyboard. -/
theorem Prepared.looks_iff (prepared : Prepared map wanted requested w) {keyType : KeyType}
    (hmask : keyType.modsMask < 256) :
    w.currentModifiers &&&
        ~~~(UInt8.ofNat keyType.modsMask ||| w.safeLockedModifiers ||| w.requestedBits) = 0 ↔
      ∀ i, map.state.mods.testBit i = true → keyType.modsMask.testBit i = true ∨
        map.RequestedBit requested i ∨ map.LockBit i := by
  obtain ⟨mods, hmods, hcurrent⟩ := prepared.current
  rw [and_not_eq_zero, hcurrent, ← (modifierBits_ok hmods).1]
  refine forall_congr' fun i => ?_
  rw [testBit_or, testBit_or, testBit_or, Bool.or_eq_true, Bool.or_eq_true, Bool.or_eq_true,
    UInt8.toNat_ofNat_of_lt' hmask, prepared.bits, prepared.locked]
  constructor
  · intro h hbit
    rcases h (.inl hbit) with (h | h) | h
    · exact .inl h
    · exact .inr (.inr h)
    · exact .inr (.inl h)
  · rintro h (hbit | hbit)
    · rcases h hbit with h | h | h
      · exact .inl (.inl h)
      · exact .inr h
      · exact .inl (.inr h)
    · exact .inr hbit

/-- A stroke the search finds for a key produces the symbol. -/
theorem Prepared.sound (complete : map.Complete) (prepared : Prepared map wanted requested w)
    {stroke : KeyStroke} (hkey : map.symbols[row]? = some key)
    (h : map.strokeOfKey w key row = some stroke) :
    stroke.keycode = map.minimum + row ∧ map.Produces wanted requested row stroke.modifiers ∧
      ∃ chosen : List ModifierKey, chosen.Sublist map.momentaryModifierKeys ∧
        ∀ k, k ∈ stroke.modifiers ↔
          k ∈ map.requestedKeys requested ++ chosen.map ModifierKey.keycode := by
  obtain ⟨group, keyType, symbols, admits⟩ := admits_of_some h
  rw [strokeOfKey_eq admits] at h
  obtain ⟨level, modifiers, hlevel, hat, -, hmodifiers, rfl⟩ :=
    mem_levelStrokes.mp (List.argmin_mem h)
  obtain ⟨chosen, hchosen, rfl, hselects, -⟩ := modifiersForLevel_some hmodifiers
  rw [prepared.momentary] at hchosen
  have hmem (k : Nat) : k ∈ withLevelModifiers w.requestedKeys (chosen.map ModifierKey.keycode) ↔
      k ∈ map.requestedKeys requested ++ chosen.map ModifierKey.keycode := by
    rw [mem_withLevelModifiers, prepared.keys, List.mem_append]
  obtain ⟨mods, hmods, hcurrent⟩ := prepared.current
  have hdown : map.downBits (withLevelModifiers w.requestedKeys (chosen.map ModifierKey.keycode)) =
      effective w.currentModifiers chosen := by
    rw [downBits_congr hmods hmem, hcurrent]
    exact downBits_eq complete hmods prepared.bits
      fun key hk => momentary_mapped (hchosen.subset hk)
  have hselected : keyType.selectedLevel (map.downBits
      (withLevelModifiers w.requestedKeys (chosen.map ModifierKey.keycode))) = level := by
    rw [hdown, ← levelForModifiers_eq admits.mask, hselects]
  refine ⟨rfl, ⟨prepared.idle, fun modifier hmodifier => ?_, keyType, ?_, ?_⟩, chosen, hchosen, hmem⟩
  · obtain ⟨k, hk⟩ := prepared.present modifier hmodifier
    refine ⟨k, hk, mem_withLevelModifiers.mpr (.inl ?_)⟩
    rw [prepared.keys]
    refine List.mem_filterMap.mpr ⟨modifier, hmodifier, ?_⟩
    rw [hk]
    rfl
  · obtain ⟨hfour, htype⟩ := admits.type
    have hsliced := admits.sliced
    unfold slice at hsliced
    split_ifs at hsliced with hlength
    obtain rfl := Option.some.inj hsliced
    have hwidth : level < key.width := by
      have := (List.getElem?_eq_some_iff.mp hat).1
      rw [List.length_take] at this
      omega
    refine ⟨key, group, hfour, hkey, ?_, htype, ?_, ?_, ?_⟩
    · rw [← prepared.group]
      exact admits.normal
    · rw [hselected]
      exact hlevel
    · rw [hselected]
      exact hwidth
    · rw [List.getElem?_take_of_lt hwidth, List.getElem?_drop] at hat
      rw [hselected, hat, prepared.symbol]
  · exact (prepared.looks_iff admits.mask).mp admits.looks

/-- The momentary keys that are not requested already add the same bits. -/
theorem Prepared.effective_filter (complete : map.Complete)
    (prepared : Prepared map wanted requested w) {chosen : List ModifierKey}
    (hchosen : chosen.Sublist map.momentaryModifierKeys) :
    effective w.currentModifiers (chosen.filter fun key => key.keycode ∉ w.requestedKeys) =
      effective w.currentModifiers chosen := by
  obtain ⟨mods, -, hcurrent⟩ := prepared.current
  refine byte_ext fun i => ?_
  unfold effective
  rw [Bool.eq_iff_iff, testBit_foldl_or, testBit_foldl_or]
  constructor
  · rintro (h | ⟨k, hk, hi⟩)
    · exact .inl h
    · exact .inr ⟨k, (List.mem_filter.mp hk).1, hi⟩
  · rintro (h | ⟨k, hk, hi⟩)
    · exact .inl h
    · by_cases hrequested : k.keycode ∈ w.requestedKeys
      · -- its bit is among the requested ones
        left
        have hbit : map.RequestedBit requested i := by
          refine (requestedBit_iff complete requested i).mp ⟨k.keycode, prepared.keys ▸ hrequested, ?_⟩
          rw [bitsOfKey_of_mapped complete (momentary_mapped (hchosen.subset hk))]
          exact hi
        rw [hcurrent, testBit_or, (prepared.bits i).mpr hbit, Bool.or_true]
      · exact .inr ⟨k, List.mem_filter.mpr ⟨hk, by simpa using hrequested⟩, hi⟩

/-- Requested keys and momentary ones beside them are as many as there are keys at all. -/
theorem Prepared.length_le_dedup (complete : map.Complete)
    (prepared : Prepared map wanted requested w) {chosen : List ModifierKey}
    (hchosen : chosen.Sublist map.momentaryModifierKeys) :
    w.requestedKeys.length + (chosen.filter fun key => key.keycode ∉ w.requestedKeys).length ≤
      (map.requestedKeys requested ++ chosen.map ModifierKey.keycode).dedup.length := by
  have hnodup : ((chosen.filter fun key => key.keycode ∉ w.requestedKeys).map
      ModifierKey.keycode).Nodup :=
    (momentary_nodup complete).sublist ((List.filter_sublist.trans hchosen).map _)
  have hall : (w.requestedKeys ++ (chosen.filter fun key => key.keycode ∉ w.requestedKeys).map
      ModifierKey.keycode).Nodup := by
    refine List.nodup_append'.mpr ⟨prepared.distinct, hnodup, fun k hk hk' => ?_⟩
    obtain ⟨key, hkey, rfl⟩ := List.mem_map.mp hk'
    exact absurd hk (by simpa using (List.mem_filter.mp hkey).2)
  have hsub : w.requestedKeys ++ (chosen.filter fun key => key.keycode ∉ w.requestedKeys).map
      ModifierKey.keycode ⊆ (map.requestedKeys requested ++ chosen.map ModifierKey.keycode).dedup := by
    intro k hk
    rw [List.mem_dedup, List.mem_append, ← prepared.keys]
    rcases List.mem_append.mp hk with hk | hk
    · exact .inl hk
    · obtain ⟨key, hkey, rfl⟩ := List.mem_map.mp hk
      exact .inr (List.mem_map.mpr ⟨key, (List.mem_filter.mp hkey).1, rfl⟩)
  have hlength := (hall.subperm hsub).length_le
  rwa [List.length_append, List.length_map] at hlength

/-- A candidate that produces the symbol is met or beaten by the stroke the search finds for its
    key. -/
theorem Prepared.reached (complete : map.Complete) (prepared : Prepared map wanted requested w)
    {chosen : List ModifierKey} (hchosen : chosen.Sublist map.momentaryModifierKeys)
    (h : map.Produces wanted requested row
      (map.requestedKeys requested ++ chosen.map ModifierKey.keycode)) :
    ∃ key stroke, map.symbols[row]? = some key ∧ map.strokeOfKey w key row = some stroke ∧
      stroke.modifiers.length ≤
        (map.requestedKeys requested ++ chosen.map ModifierKey.keycode).dedup.length := by
  obtain ⟨keyType, ⟨key, group, hfour, hkey, hnormal, htype, hlevel, hwidth, hsymbol⟩, hlooks⟩ :=
    h.selects
  obtain ⟨mods, hmods, hcurrent⟩ := prepared.current
  have hdown : map.downBits (map.requestedKeys requested ++ chosen.map ModifierKey.keycode) =
      effective w.currentModifiers chosen := by
    rw [hcurrent]
    exact downBits_eq complete hmods prepared.bits
      fun key hk => momentary_mapped (hchosen.subset hk)
  rw [hdown] at hlevel hwidth hsymbol
  have hmask := complete.masks keyType (List.mem_of_getElem? htype)
  have hmem := List.mem_of_getElem? hkey
  have hrow := (List.getElem?_eq_some_iff.mp hkey).1
  have hkeycodes := complete.keycodes
  have hroom : group * key.width + key.width ≤ key.syms.length := by
    have hcount : group + 1 ≤ (key.groupInfo &&& 0x0f).toNat := normalizedGroup_lt hnormal
    have hmul := Nat.mul_le_mul_right key.width hcount
    rw [Nat.add_mul, Nat.one_mul] at hmul
    exact Nat.le_trans hmul (complete.filled key hmem)
  have admits : Admits map w key row group keyType
      ((key.syms.drop (group * key.width)).take key.width) :=
    { keycode := ⟨by omega, by omega⟩
      normal := by rw [prepared.group]; exact hnormal
      type := ⟨hfour, htype⟩
      mask := hmask
      looks := (prepared.looks_iff hmask).mpr hlooks
      sliced := if_pos hroom }
  -- the requested keys among the chosen ones can be left out
  have hsub : (chosen.filter fun key => key.keycode ∉ w.requestedKeys).Sublist w.modifierKeys := by
    rw [prepared.momentary]
    exact List.filter_sublist.trans hchosen
  have hselects : levelForModifiers keyType (effective w.currentModifiers
      (chosen.filter fun key => key.keycode ∉ w.requestedKeys)) =
        keyType.selectedLevel (effective w.currentModifiers chosen) := by
    rw [prepared.effective_filter complete hchosen, levelForModifiers_eq hmask]
  have hfew : w.modifierKeys.length < 16 := by
    have := @momentary_length map
    unfold maxMomentaryModifiers at this
    rw [prepared.momentary]
    omega
  obtain ⟨modifiers, hmodifiers⟩ := modifiersForLevel_exists hfew hsub hselects
  obtain ⟨best, -, rfl, -, hbest⟩ := modifiersForLevel_some hmodifiers
  have hstroke : (⟨map.minimum + row, withLevelModifiers w.requestedKeys
      (best.map ModifierKey.keycode)⟩ : KeyStroke) ∈ levelStrokes map w row keyType
        ((key.syms.drop (group * key.width)).take key.width) := by
    refine mem_levelStrokes.mpr ⟨_, _, hlevel, ?_, ?_, hmodifiers, rfl⟩
    · rw [List.getElem?_take_of_lt hwidth, List.getElem?_drop, prepared.symbol]
      exact hsymbol
    · have := complete.widths key hmem
      omega
  have hfound : ∃ stroke, map.strokeOfKey w key row = some stroke := by
    rw [strokeOfKey_eq admits]
    cases hargmin : (levelStrokes map w row keyType
        ((key.syms.drop (group * key.width)).take key.width)).argmin
          fun stroke => stroke.modifiers.length with
    | none =>
      rw [List.argmin_eq_none.mp hargmin] at hstroke
      exact absurd hstroke List.not_mem_nil
    | some stroke => exact ⟨stroke, rfl⟩
  obtain ⟨stroke, hfound⟩ := hfound
  refine ⟨key, stroke, hkey, hfound, ?_⟩
  rw [strokeOfKey_eq admits] at hfound
  calc stroke.modifiers.length
      ≤ (withLevelModifiers w.requestedKeys (best.map ModifierKey.keycode)).length :=
        List.le_of_mem_argmin (f := fun s : KeyStroke => s.modifiers.length) hstroke hfound
    _ ≤ w.requestedKeys.length + best.length := by
        have := length_withLevelModifiers w.requestedKeys (best.map ModifierKey.keycode)
        rwa [List.length_map] at this
    _ ≤ w.requestedKeys.length +
          (chosen.filter fun key => key.keycode ∉ w.requestedKeys).length :=
        Nat.add_le_add_left (hbest _ hsub hselects) _
    _ ≤ _ := prepared.length_le_dedup complete hchosen

end Candidates

/-! ## The search -/

/-- The strokes the search chooses from. -/
def strokes (map : KeyboardMap) (w : Wanted) : List KeyStroke :=
  map.symbols.zipIdx.filterMap fun key => map.strokeOfKey w key.1 key.2

section Search

variable {w : Wanted} {wanted : Nat} {requested : List KeyboardModifier}

theorem mem_strokes {stroke : KeyStroke} : stroke ∈ map.strokes w ↔
    ∃ key row, map.symbols[row]? = some key ∧ map.strokeOfKey w key row = some stroke := by
  unfold strokes
  rw [List.mem_filterMap]
  constructor
  · rintro ⟨⟨key, row⟩, hmem, hstroke⟩
    exact ⟨key, row, List.mem_zipIdx_iff_getElem?.mp hmem, hstroke⟩
  · rintro ⟨key, row, hkey, hstroke⟩
    exact ⟨(key, row), List.mem_zipIdx_iff_getElem?.mpr hkey, hstroke⟩

theorem requestedModifiers_error {bits : UInt8} {keys : List Nat} {e : Failure}
    (h : map.requestedModifiers requested bits keys = .error e) :
    e ≠ Failure.invalid symbolUnavailable := by
  induction requested generalizing bits keys with
  | nil => exact absurd h nofun
  | cons modifier rest ih =>
    unfold requestedModifiers at h
    cases hkey : map.modifierKey modifier with
    | error e' =>
      rw [hkey] at h
      obtain rfl := Except.error.inj h
      unfold modifierKey at hkey
      split at hkey
      · exact absurd hkey nofun
      · rw [← Except.error.inj hkey]
        simp [Failure.invalid, symbolUnavailable]
    | ok key =>
      rw [hkey, ok_bind] at h
      by_cases hshared : bits &&& key.modifiers ≠ 0
      · rw [refuseIf_pos hshared] at h
        rw [← Except.error.inj h]
        simp [Failure.invalid, symbolUnavailable]
      · rw [refuseIf_neg hshared] at h
        exact ih h

theorem modifierBits_error {mask : ModMask} {e : Failure} (h : modifierBits mask = .error e) :
    e = Failure.unavailable "XKB returned an invalid modifier mask" := by
  unfold modifierBits at h
  split_ifs at h
  exact (Except.error.inj h).symm

theorem lockBits_error {entries : List KeyModMap} {start : UInt8} {e : Failure}
    (h : map.lockBits entries start = .error e) :
    e = Failure.unavailable "XKB returned an invalid modifier mask" := by
  induction entries generalizing start with
  | nil => exact absurd h nofun
  | cons entry rest ih =>
    unfold lockBits at h
    cases hbits : modifierBits entry.mods with
    | error e' =>
      rw [hbits] at h
      obtain rfl := Except.error.inj h
      exact modifierBits_error hbits
    | ok bits =>
      rw [hbits, ok_bind] at h
      split_ifs at h
      · exact ih h
      · exact ih h

theorem safeLockedModifiers_error {e : Failure} (h : map.safeLockedModifiers = .error e) :
    e = Failure.unavailable "XKB returned an invalid modifier mask" := by
  unfold safeLockedModifiers at h
  cases hlocked : modifierBits map.state.lockedMods with
  | error e' =>
    rw [hlocked] at h
    obtain rfl := Except.error.inj h
    exact modifierBits_error hlocked
  | ok locked =>
    rw [hlocked, ok_bind] at h
    cases hbits : map.lockBits map.modifierMap 0 with
    | error e' =>
      rw [hbits] at h
      obtain rfl := Except.error.inj h
      exact lockBits_error hbits
    | ok bits =>
      rw [hbits, ok_bind] at h
      exact absurd h nofun

/-- Either a check fails, with another failure, or the search is made of prepared data. -/
theorem resolveWithModifiers_cases (complete : map.Complete) :
    (∃ e, map.resolveWithModifiers wanted requested = .error e ∧
      e ≠ Failure.invalid symbolUnavailable) ∨
    ∃ w, Prepared map wanted requested w ∧ map.resolveWithModifiers wanted requested =
      match (map.strokes w).argmin fun stroke => stroke.modifiers.length with
      | some stroke => .ok stroke
      | none => .error (Failure.invalid symbolUnavailable) := by
  unfold resolveWithModifiers
  by_cases hactive : map.state.baseMods ≠ 0 ∨ map.state.latchedMods ≠ 0 ∨
      map.state.baseGroup ≠ 0 ∨ map.state.latchedGroup ≠ 0
  · rw [refuseIf_pos hactive]
    exact .inl ⟨_, rfl, by simp [Failure.invalid, Failure.unavailable]⟩
  rw [refuseIf_neg hactive]
  have hother : Failure.unavailable "XKB returned an invalid modifier mask" ≠
      Failure.invalid symbolUnavailable := by simp [Failure.invalid, Failure.unavailable]
  cases hrequested : map.requestedModifiers requested 0 [] with
  | error e => exact .inl ⟨e, rfl, requestedModifiers_error hrequested⟩
  | ok pair =>
    obtain ⟨bits, keys⟩ := pair
    obtain ⟨hkeys, hdistinct, hpresent, hbits⟩ :=
      requestedModifiers_ok complete (fun _ hk => absurd hk List.not_mem_nil) List.nodup_nil
        hrequested
    rw [ok_bind]
    dsimp only
    cases hmods : modifierBits map.state.mods with
    | error e => exact .inl ⟨e, rfl, modifierBits_error hmods ▸ hother⟩
    | ok mods =>
      rw [ok_bind]
      cases hsafe : map.safeLockedModifiers with
      | error e => exact .inl ⟨e, rfl, safeLockedModifiers_error hsafe ▸ hother⟩
      | ok safe =>
        rw [ok_bind]
        refine .inr ⟨⟨wanted, map.state.group, bits, keys, mods ||| bits, safe,
          map.momentaryModifierKeys⟩, ?_, rfl⟩
        have hidle : map.state.baseMods = 0 ∧ map.state.latchedMods = 0 ∧ map.state.baseGroup = 0 ∧
            map.state.latchedGroup = 0 := by simpa [not_or] using hactive
        refine ⟨hidle, rfl, rfl, ⟨mods, hmods, rfl⟩, fun i => ?_, hkeys, hdistinct, hpresent,
          safeLockedModifiers_ok hsafe, rfl⟩
        rw [hbits, testBit_zero]
        simp

/-- The search is sound, complete and minimal. -/
theorem resolution_sound_complete_minimal (complete : map.Complete) (wanted : Nat)
    (requested : List KeyboardModifier) :
    (∀ stroke, map.resolveWithModifiers wanted requested = .ok stroke →
      (∃ row, stroke.keycode = map.minimum + row ∧
        map.Produces wanted requested row stroke.modifiers) ∧
      (∃ chosen : List ModifierKey, chosen.Sublist map.momentaryModifierKeys ∧ ∀ k,
        k ∈ stroke.modifiers ↔ k ∈ map.requestedKeys requested ++ chosen.map ModifierKey.keycode) ∧
      ∀ row (chosen : List ModifierKey), chosen.Sublist map.momentaryModifierKeys →
        map.Produces wanted requested row
          (map.requestedKeys requested ++ chosen.map ModifierKey.keycode) →
        stroke.modifiers.length ≤
          (map.requestedKeys requested ++ chosen.map ModifierKey.keycode).dedup.length) ∧
    (map.resolveWithModifiers wanted requested = .error (Failure.invalid symbolUnavailable) →
      ∀ row (chosen : List ModifierKey), chosen.Sublist map.momentaryModifierKeys →
        ¬ map.Produces wanted requested row
          (map.requestedKeys requested ++ chosen.map ModifierKey.keycode)) := by
  rcases @resolveWithModifiers_cases map wanted requested complete with
    ⟨e, herror, hother⟩ | ⟨w, prepared, hresult⟩
  · rw [herror]
    exact ⟨fun _ h => absurd h nofun, fun h => absurd (Except.error.inj h) hother⟩
  rw [hresult]
  cases hargmin : (map.strokes w).argmin fun stroke => stroke.modifiers.length with
  | none =>
    refine ⟨fun _ h => absurd h nofun, fun _ row chosen hchosen hproduces => ?_⟩
    obtain ⟨key, stroke, hkey, hstroke, -⟩ := prepared.reached complete hchosen hproduces
    have hmem : stroke ∈ map.strokes w := mem_strokes.mpr ⟨key, row, hkey, hstroke⟩
    rw [List.argmin_eq_none.mp hargmin] at hmem
    exact List.not_mem_nil hmem
  | some best =>
    refine ⟨fun stroke h => ?_, fun h => absurd h nofun⟩
    obtain rfl := Except.ok.inj h
    obtain ⟨key, row, hkey, hstroke⟩ := mem_strokes.mp (List.argmin_mem hargmin)
    obtain ⟨hkeycode, hproduces, hmodifiers⟩ := prepared.sound complete hkey hstroke
    refine ⟨⟨row, hkeycode, hproduces⟩, hmodifiers, fun row' chosen hchosen hproduces' => ?_⟩
    obtain ⟨key', stroke', hkey', hstroke', hlength⟩ := prepared.reached complete hchosen hproduces'
    have hmem : stroke' ∈ map.strokes w := mem_strokes.mpr ⟨key', row', hkey', hstroke'⟩
    exact Nat.le_trans (List.le_of_mem_argmin (f := fun s : KeyStroke => s.modifiers.length) hmem
      hargmin) hlength

end Search

/-- Two keys: `a` with `A` on its shifted level, and Shift. -/
def twoKeys : KeyboardMap where
  minimum := 8
  types := [⟨0, 1, []⟩, ⟨1, 2, [⟨true, 1, 1⟩]⟩]
  symbols := [⟨fun _ => 1, 1, 2, ['a'.toNat, 'A'.toNat]⟩, ⟨fun _ => 0, 1, 1, [xkShiftL]⟩]
  modifierMap := [⟨9, 1⟩]
  state := ⟨0, 0, 0, 0, 0, 0, 0⟩

theorem twoKeys_complete : twoKeys.Complete where
  keycodes := by decide
  widths := by decide
  filled := by decide
  masks := by decide
  unique := by decide

theorem resolution_of_shifted :
    twoKeys.resolveWithModifiers 'A'.toNat [] = .ok ⟨8, [9]⟩ ∧
      ∃ row, 8 = twoKeys.minimum + row ∧ twoKeys.Produces 'A'.toNat [] row [9] := by
  have hresolved : twoKeys.resolveWithModifiers 'A'.toNat [] = .ok ⟨8, [9]⟩ := rfl
  exact ⟨hresolved,
    ((resolution_sound_complete_minimal twoKeys_complete 'A'.toNat []).1 _ hresolved).1⟩

end KeyboardMap

end AgentSeat.X11
