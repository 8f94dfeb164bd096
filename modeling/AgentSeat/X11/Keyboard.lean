/-
  XKB-aware resolution from Unicode scalars to physical key actions (`observer/keyboard.rs`).

  A `KeyboardMap` is what the replies of one XKB conversation hold; `resolveWithModifiers` searches
  it for the stroke with the fewest modifier keys that gives the wanted symbol. Modifier sets are
  bytes, as on the wire; keycodes, symbols and indices are numbers, with the source's checked
  conversions written out.
-/
import AgentSeat.Proto.Call
import AgentSeat.X11.Scan
import Mathlib.Data.List.MinMax
import Mathlib.Data.Prod.Lex

namespace AgentSeat.X11

open AgentSeat.Proto

/-! ## Symbols -/

def xkTab : Nat := 0xff09
def xkReturn : Nat := 0xff0d
def xkBackspace : Nat := 0xff08
def xkEscape : Nat := 0xff1b
def xkDelete : Nat := 0xffff
def xkHome : Nat := 0xff50
def xkLeft : Nat := 0xff51
def xkUp : Nat := 0xff52
def xkRight : Nat := 0xff53
def xkDown : Nat := 0xff54
def xkPrior : Nat := 0xff55
def xkNext : Nat := 0xff56
def xkEnd : Nat := 0xff57
def xkInsert : Nat := 0xff63
def xkF1 : Nat := 0xffbe
def xkShiftL : Nat := 0xffe1
def xkShiftR : Nat := 0xffe2
def xkControlL : Nat := 0xffe3
def xkControlR : Nat := 0xffe4
def xkCapsLock : Nat := 0xffe5
def xkShiftLock : Nat := 0xffe6
def xkNumLock : Nat := 0xff7f
def xkAltL : Nat := 0xffe9
def xkAltR : Nat := 0xffea
def xkSuperL : Nat := 0xffeb
def xkSuperR : Nat := 0xffec
def xkIsoLevel3Shift : Nat := 0xfe03
def xkIsoLevel5Shift : Nat := 0xfe11
def maxMomentaryModifiers : Nat := 8

def symbolUnavailable : String :=
  "keyboard symbol is unavailable in the current XKB layout and group"

def keysymForCharacter (character : Char) : Nat :=
  if character = '\t' then xkTab
  else if character = '\n' then xkReturn
  else if character.toNat ≤ 0xff then character.toNat
  else 0x01000000 ||| character.toNat

def keysymForKey : KeyboardKey → Nat
  | .backspace => xkBackspace
  | .delete => xkDelete
  | .enter => xkReturn
  | .escape => xkEscape
  | .tab => xkTab
  | .space => ' '.toNat
  | .insert => xkInsert
  | .home => xkHome
  | .end => xkEnd
  | .pageUp => xkPrior
  | .pageDown => xkNext
  | .arrowLeft => xkLeft
  | .arrowRight => xkRight
  | .arrowUp => xkUp
  | .arrowDown => xkDown
  | .a => 'a'.toNat
  | .b => 'b'.toNat
  | .c => 'c'.toNat
  | .d => 'd'.toNat
  | .e => 'e'.toNat
  | .f => 'f'.toNat
  | .g => 'g'.toNat
  | .h => 'h'.toNat
  | .i => 'i'.toNat
  | .j => 'j'.toNat
  | .k => 'k'.toNat
  | .l => 'l'.toNat
  | .m => 'm'.toNat
  | .n => 'n'.toNat
  | .o => 'o'.toNat
  | .p => 'p'.toNat
  | .q => 'q'.toNat
  | .r => 'r'.toNat
  | .s => 's'.toNat
  | .t => 't'.toNat
  | .u => 'u'.toNat
  | .v => 'v'.toNat
  | .w => 'w'.toNat
  | .x => 'x'.toNat
  | .y => 'y'.toNat
  | .z => 'z'.toNat
  | .digit0 => '0'.toNat
  | .digit1 => '1'.toNat
  | .digit2 => '2'.toNat
  | .digit3 => '3'.toNat
  | .digit4 => '4'.toNat
  | .digit5 => '5'.toNat
  | .digit6 => '6'.toNat
  | .digit7 => '7'.toNat
  | .digit8 => '8'.toNat
  | .digit9 => '9'.toNat
  | .f1 => xkF1
  | .f2 => xkF1 + 1
  | .f3 => xkF1 + 2
  | .f4 => xkF1 + 3
  | .f5 => xkF1 + 4
  | .f6 => xkF1 + 5
  | .f7 => xkF1 + 6
  | .f8 => xkF1 + 7
  | .f9 => xkF1 + 8
  | .f10 => xkF1 + 9
  | .f11 => xkF1 + 10
  | .f12 => xkF1 + 11

/-! ## Replies -/

/-- A `ModMask`, a 16-bit word on the wire. -/
abbrev ModMask := Nat

structure KtMapEntry where
  active : Bool
  modsMask : ModMask
  level : Nat

structure KeyType where
  modsMask : ModMask
  numLevels : Nat
  map : List KtMapEntry

structure KeySymMap where
  ktIndex : Fin 4 → Nat
  groupInfo : UInt8
  width : Nat
  syms : List Nat

structure KeyModMap where
  keycode : Nat
  mods : ModMask

structure XkbState where
  mods : ModMask
  baseMods : ModMask
  latchedMods : ModMask
  lockedMods : ModMask
  group : Nat
  baseGroup : Int
  latchedGroup : Int

structure XkbMapReply where
  minKeyCode : Nat
  maxKeyCode : Nat
  firstType : Nat
  nTypes : Nat
  totalTypes : Nat
  firstKeySym : Nat
  nKeySyms : Nat
  typesRtrn : Option (List KeyType)
  symsRtrn : Option (List KeySymMap)
  modmapRtrn : Option (List KeyModMap)

structure KeyStroke where
  keycode : Nat
  modifiers : List Nat
  deriving DecidableEq

structure KeyboardMap where
  minimum : Nat
  types : List KeyType
  symbols : List KeySymMap
  modifierMap : List KeyModMap
  state : XkbState

structure ModifierKey where
  keycode : Nat
  modifiers : UInt8

/-- `ok_or_else` with an `unavailable` failure. -/
def present {α : Type} (message : String) : Option α → Except Failure α
  | some a => .ok a
  | none => .error (Failure.unavailable message)

theorem present_ok {α : Type} {message : String} {o : Option α} {a : α}
    (h : present message o = .ok a) : o = some a := by
  cases o with
  | none => simp [present] at h
  | some b => rw [← Except.ok.inj h]

/-- `max - min + 1` as a byte. -/
def expectedSymbols (minKeyCode maxKeyCode : Nat) : Option Nat :=
  if minKeyCode ≤ maxKeyCode ∧ maxKeyCode - minKeyCode + 1 ≤ 255 then
    some (maxKeyCode - minKeyCode + 1)
  else none

def KeyboardMap.fromReply (reply : XkbMapReply) (state : XkbState) :
    Except Failure KeyboardMap := do
  let types ← present "XKB returned no key types" reply.typesRtrn
  let symbols ← present "XKB returned no key symbols" reply.symsRtrn
  let modifierMap ← present "XKB returned no modifier map" reply.modmapRtrn
  refuseIf (reply.firstType ≠ 0 ∨ reply.nTypes ≠ reply.totalTypes ∨ types.length ≠ reply.nTypes ∨
      reply.firstKeySym ≠ reply.minKeyCode ∨
      expectedSymbols reply.minKeyCode reply.maxKeyCode ≠ some symbols.length ∨
      symbols.length ≠ reply.nKeySyms)
    (Failure.unavailable "XKB keyboard map is incomplete")
  pure ⟨reply.firstKeySym, types, symbols, modifierMap, state⟩

/-! ## Modifiers -/

def modifierBits (mask : ModMask) : Except Failure UInt8 :=
  if mask < 256 then .ok (UInt8.ofNat mask)
  else .error (Failure.unavailable "XKB returned an invalid modifier mask")

/-- `count_ones`. -/
def countOnes (bits : UInt8) : Nat := ((List.range 8).filter bits.toNat.testBit).length

def normalizedGroup (groupInfo : UInt8) (effective : Nat) : Option Nat :=
  let count := (groupInfo &&& 0x0f).toNat
  if count = 0 then none
  else if effective < count then some effective
  else if groupInfo &&& 0xc0 = 0x00 then some (effective % count)
  else if groupInfo &&& 0xc0 = 0x40 then some (count - 1)
  else if groupInfo &&& 0xc0 = 0x80 then
    let redirected := ((groupInfo &&& 0x30) >>> 4).toNat
    if redirected < count then some redirected else none
  else none

def levelForModifiers (keyType : KeyType) (modifiers : UInt8) : Nat :=
  let relevant := modifiers &&& (modifierBits keyType.modsMask).toOption.getD 255
  match keyType.map.find? fun entry =>
      entry.active && (modifierBits entry.modsMask).toOption == some relevant with
  | some entry => entry.level
  | none => 0

namespace KeyboardMap

def keyHasAnySymbol (map : KeyboardMap) (keycode : Nat) (wanted : List Nat) : Bool :=
  if map.minimum ≤ keycode then
    match map.symbols[keycode - map.minimum]? with
    | some key => key.syms.any wanted.contains
    | none => false
  else false

def keyHasMomentaryModifierSymbol (map : KeyboardMap) (keycode : Nat) : Bool :=
  map.keyHasAnySymbol keycode [xkShiftL, xkShiftR, xkIsoLevel3Shift, xkIsoLevel5Shift]

def modifierSymbols : KeyboardModifier → List Nat
  | .control => [xkControlL, xkControlR]
  | .alt => [xkAltL, xkAltR]
  | .shift => [xkShiftL, xkShiftR]
  | .super => [xkSuperL, xkSuperR]

/-- An entry of the modifier map that stands for one bit and carries one of the symbols. -/
def modifierEntry (map : KeyboardMap) (symbols : List Nat) (entry : KeyModMap) :
    Option ModifierKey :=
  match modifierBits entry.mods with
  | .error _ => none
  | .ok bits =>
    if countOnes bits = 1 ∧ map.keyHasAnySymbol entry.keycode symbols then
      some ⟨entry.keycode, bits⟩
    else none

def modifierKey (map : KeyboardMap) (modifier : KeyboardModifier) : Except Failure ModifierKey :=
  match map.modifierMap.findSome? (map.modifierEntry (modifierSymbols modifier)) with
  | some key => .ok key
  | none =>
    .error (Failure.invalid "keyboard modifier is unavailable in the current XKB layout and group")

/-- The momentary modifier keys, one per bit and at most eight, in the order of the map. -/
def collectMomentary (map : KeyboardMap) : List KeyModMap → List ModifierKey → List ModifierKey
  | [], keys => keys
  | entry :: rest, keys =>
    match modifierBits entry.mods with
    | .error _ => collectMomentary map rest keys
    | .ok bits =>
      if countOnes bits ≠ 1 ∨ map.keyHasMomentaryModifierSymbol entry.keycode = false then
        collectMomentary map rest keys
      else if keys.any fun candidate => candidate.modifiers == bits then
        collectMomentary map rest keys
      else if keys.length = maxMomentaryModifiers then keys
      else collectMomentary map rest (keys ++ [⟨entry.keycode, bits⟩])

def momentaryModifierKeys (map : KeyboardMap) : List ModifierKey :=
  map.collectMomentary map.modifierMap []

/-- The bits of the lock keys of the map. -/
def lockBits (map : KeyboardMap) : List KeyModMap → UInt8 → Except Failure UInt8
  | [], safe => .ok safe
  | entry :: rest, safe => do
    let bits ← modifierBits entry.mods
    if map.keyHasAnySymbol entry.keycode [xkCapsLock, xkShiftLock, xkNumLock] then
      map.lockBits rest (safe ||| bits)
    else map.lockBits rest safe

def safeLockedModifiers (map : KeyboardMap) : Except Failure UInt8 := do
  let locked ← modifierBits map.state.lockedMods
  let safe ← map.lockBits map.modifierMap 0
  pure (locked &&& safe)

/-- The keys of one combination, with the modifiers they add to `current`. -/
def combine (current : UInt8) (keys : List ModifierKey) (combination : Nat) :
    List Nat × UInt8 :=
  let held := (keys.zipIdx.filter fun key => combination.testBit key.2).map Prod.fst
  (held.map ModifierKey.keycode, held.foldl (fun bits key => bits ||| key.modifiers) current)

/-- The fewest modifier keys that select a level; among those the fewest modifier bits. -/
def modifiersForLevel (keyType : KeyType) (wantedLevel : Nat) (current : UInt8)
    (keys : List ModifierKey) : Option (List Nat) :=
  if keys.length < 16 then
    let selecting := ((List.range (2 ^ keys.length)).map (combine current keys)).filter
      fun choice => levelForModifiers keyType choice.2 = wantedLevel
    (selecting.argmin fun choice => toLex (choice.1.length, countOnes choice.2)).map Prod.fst
  else none

/-- `slice.get(start..start + width)`. -/
def slice (values : List Nat) (start width : Nat) : Option (List Nat) :=
  if start + width ≤ values.length then some ((values.drop start).take width) else none

/-- The requested modifier keys, those the level needs added once each. -/
def withLevelModifiers (requested : List Nat) (level : List Nat) : List Nat :=
  level.foldl (fun all keycode => if all.contains keycode then all else all ++ [keycode]) requested

/-- What a resolution works with beside the map. -/
structure Wanted where
  symbol : Nat
  group : Nat
  requestedBits : UInt8
  requestedKeys : List Nat
  currentModifiers : UInt8
  safeLockedModifiers : UInt8
  modifierKeys : List ModifierKey

/-- The best stroke of one key, if it carries the symbol in the effective group. -/
def strokeOfKey (map : KeyboardMap) (w : Wanted) (key : KeySymMap) (row : Nat) :
    Option KeyStroke := do
  let keycode ← if row ≤ 255 ∧ map.minimum + row ≤ 255 then some (map.minimum + row) else none
  let group ← normalizedGroup key.groupInfo w.group
  let index ← if h : group < 4 then some (key.ktIndex ⟨group, h⟩) else none
  let keyType ← map.types[index]?
  let typeModifiers ← (modifierBits keyType.modsMask).toOption
  if w.currentModifiers &&& ~~~(typeModifiers ||| w.safeLockedModifiers ||| w.requestedBits) ≠ 0
  then none
  else do
    let symbols ← slice key.syms (group * key.width) key.width
    let levels := (symbols.zipIdx.take keyType.numLevels).filter fun entry => entry.1 = w.symbol
    let strokes := levels.filterMap fun entry =>
      if entry.2 ≤ 255 then
        (modifiersForLevel keyType entry.2 w.currentModifiers w.modifierKeys).map fun modifiers =>
          ⟨keycode, withLevelModifiers w.requestedKeys modifiers⟩
      else none
    strokes.argmin fun stroke => stroke.modifiers.length

/-- The keys and the bits of the requested modifiers. -/
def requestedModifiers (map : KeyboardMap) :
    List KeyboardModifier → UInt8 → List Nat → Except Failure (UInt8 × List Nat)
  | [], bits, keys => .ok (bits, keys)
  | modifier :: rest, bits, keys => do
    let key ← map.modifierKey modifier
    refuseIf (bits &&& key.modifiers ≠ 0)
      (Failure.invalid "requested keyboard modifiers share an XKB modifier bit")
    map.requestedModifiers rest (bits ||| key.modifiers) (keys ++ [key.keycode])

def resolveWithModifiers (map : KeyboardMap) (wanted : Nat) (requested : List KeyboardModifier) :
    Except Failure KeyStroke := do
  refuseIf (map.state.baseMods ≠ 0 ∨ map.state.latchedMods ≠ 0 ∨ map.state.baseGroup ≠ 0 ∨
      map.state.latchedGroup ≠ 0)
    (Failure.unavailable
      "keyboard input is unavailable while a depressed or latched modifier is active")
  let (requestedBits, requestedKeys) ← map.requestedModifiers requested 0 []
  let mods ← modifierBits map.state.mods
  let safe ← map.safeLockedModifiers
  let w : Wanted := ⟨wanted, map.state.group, requestedBits, requestedKeys, mods ||| requestedBits,
    safe, map.momentaryModifierKeys⟩
  let strokes := map.symbols.zipIdx.filterMap fun key => map.strokeOfKey w key.1 key.2
  match strokes.argmin fun stroke => stroke.modifiers.length with
  | some stroke => .ok stroke
  | none => .error (Failure.invalid symbolUnavailable)

def resolve (map : KeyboardMap) (wanted : Nat) : Except Failure KeyStroke :=
  map.resolveWithModifiers wanted []

end KeyboardMap

/-! ## Characters -/

/-- At least four upper-case hexadecimal digits. -/
def hex4 (n : Nat) : String :=
  let digits := (Nat.toDigits 16 n).map Char.toUpper
  String.ofList (List.replicate (4 - digits.length) '0' ++ digits)

def characterFailure (error : Failure) (character : Char) (position : Nat) : Failure :=
  if error.message = symbolUnavailable then
    Failure.invalid ("keyboard character " ++ toString position ++ " (U+" ++
      hex4 character.toNat ++ ") is unavailable in the current XKB layout and group; " ++
      "do not change the user's XKB layout or mapping as a workaround")
  else error

/-- One character of a text against a map. -/
def KeyboardMap.resolveAt (map : KeyboardMap) (character : Char) (position : Nat) :
    Except Failure KeyStroke :=
  match map.resolve (keysymForCharacter character) with
  | .ok stroke => .ok stroke
  | .error error => .error (characterFailure error character position)

/-- Every character of a text against one map. -/
def KeyboardMap.resolveAll (map : KeyboardMap) (text : List Char) :
    Except Failure (List KeyStroke) :=
  text.zipIdx.mapM fun entry => map.resolveAt entry.1 (entry.2 + 1)

theorem KeyboardMap.resolveAt_ok {map : KeyboardMap} {character : Char} {position : Nat}
    {stroke : KeyStroke} (h : map.resolveAt character position = .ok stroke) :
    map.resolve (keysymForCharacter character) = .ok stroke := by
  unfold KeyboardMap.resolveAt at h
  split at h
  · next stroke' hr =>
    rw [Except.ok.injEq] at h
    rw [hr, h]
  · simp at h

end AgentSeat.X11
