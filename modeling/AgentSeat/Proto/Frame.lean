/-
  Length-prefixed frames on a byte stream (`codec.rs`).

  A stream is what is still to be read and what each of its next reads does: hand out some bytes,
  be interrupted, or fail; once these turns are over a read hands out all that is asked for. A
  writer either takes everything or runs out of room, as a socket does.

  The parser of JSON text is a parameter. `read_frame` and `write_frame` are the same for both
  directions; a `Wire` is a direction's message type with its JSON mapping and its check.
-/
import AgentSeat.Proto.Schema

namespace AgentSeat.Proto

open AgentSeat.Lib

/-- A direction of the protocol. -/
structure Wire (α : Type) where
  codec : Codec α
  validate : α → Check

def clientWire : Wire ClientMessage := ⟨Schema.clientMessage, ClientMessage.validate⟩
def serverWire : Wire ServerMessage := ⟨Schema.serverMessage, ServerMessage.validate⟩

def prefixBytes : Nat := 4

def u32Limit : Nat := 2 ^ 32

/-- `u32::to_be_bytes`. -/
def toBeBytes (n : Nat) : List UInt8 :=
  [UInt8.ofNat (n / 2 ^ 24), UInt8.ofNat (n / 2 ^ 16), UInt8.ofNat (n / 2 ^ 8), UInt8.ofNat n]

/-- `u32::from_be_bytes`. -/
def fromBeBytes (bytes : List UInt8) : Nat := bytes.foldl (fun n b => n * 256 + b.toNat) 0

inductive CodecError where
  | io (error : String)
  | truncatedPrefix
  | truncatedPayload
  | empty
  | tooLarge (length limit : Nat)
  | json
  | invalid (reason : String)
  deriving DecidableEq

inductive ReadFrame (α : Type) where
  | message (value : α)
  | cleanEof

/-! ## Streams -/

/-- One `read` of a stream: at most `n + 1` bytes, an interruption, or a failure. -/
inductive Turn where
  | upTo (n : Nat)
  | interrupted
  | failed (error : String)
  deriving DecidableEq

structure Reader where
  bytes : List UInt8
  turns : List Turn

/-- A buffer after the reads that were to fill it. -/
structure Filled where
  got : List UInt8
  rest : Reader
  error : Option String := none

/-- Reads until `want` bytes are there or the stream ends: the loop over the prefix and
    `Read::read_exact` alike. -/
def fill : List Turn → List UInt8 → Nat → Filled
  | turns, bytes, 0 => { got := [], rest := ⟨bytes, turns⟩ }
  | [], bytes, want + 1 => { got := bytes.take (want + 1), rest := ⟨bytes.drop (want + 1), []⟩ }
  | .interrupted :: turns, bytes, want + 1 => fill turns bytes (want + 1)
  | .failed error :: turns, bytes, _ + 1 => { got := [], rest := ⟨bytes, turns⟩, error := error }
  | .upTo _ :: turns, [], _ + 1 => { got := [], rest := ⟨[], turns⟩ }
  | .upTo n :: turns, b :: bytes, want + 1 =>
    let now := (b :: bytes).take (min (n + 1) (want + 1))
    let later := fill turns ((b :: bytes).drop (min (n + 1) (want + 1))) (want + 1 - now.length)
    { later with got := now ++ later.got }

structure Writer where
  written : List UInt8 := []
  /-- What still fits, when that is bounded. -/
  room : Option Nat := none
  deriving DecidableEq

/-- `Write::write_all`. -/
def Writer.writeAll (w : Writer) (bytes : List UInt8) : Except CodecError Unit × Writer :=
  match w.room with
  | none => (.ok (), { w with written := w.written ++ bytes })
  | some room =>
    if bytes.length ≤ room then
      (.ok (), ⟨w.written ++ bytes, some (room - bytes.length)⟩)
    else (.error (.io "failed to write whole buffer"), ⟨w.written ++ bytes.take room, some 0⟩)

section Frames

variable {α : Type} (parse : List UInt8 → Option Json) (wire : Wire α) (limit : Nat)

/-! ## Reading -/

/-- A complete payload: strict JSON, then the checks of the message. -/
def accept (payload : List UInt8) : Except CodecError (ReadFrame α) :=
  match (parse payload).bind (wire.codec.decode .stream) with
  | none => .error .json
  | some message =>
    match wire.validate message with
    | .error reason => .error (.invalid reason)
    | .ok _ => .ok (.message message)

def readPayload (length : Nat) (r : Reader) : Except CodecError (ReadFrame α) × Reader :=
  if length = 0 then (.error .empty, r)
  else if length > limit then (.error (.tooLarge length limit), r)
  else
    let payload := fill r.turns r.bytes length
    match payload.error with
    | some error => (.error (.io error), payload.rest)
    | none =>
      if payload.got.length < length then (.error .truncatedPayload, payload.rest)
      else (accept parse wire payload.got, payload.rest)

def readFrame (r : Reader) : Except CodecError (ReadFrame α) × Reader :=
  let lead := fill r.turns r.bytes prefixBytes
  match lead.error with
  | some error => (.error (.io error), lead.rest)
  | none =>
    if lead.got = [] then (.ok .cleanEof, lead.rest)
    else if lead.got.length < prefixBytes then (.error .truncatedPrefix, lead.rest)
    else readPayload parse wire limit (fromBeBytes lead.got) lead.rest

/-- How a reader of frames came to its end; `more` when it was stopped before. -/
inductive Ending where
  | cleanEof
  | failed (error : CodecError)
  | more
  deriving DecidableEq

/-- `read_frame` again and again, at most `reads` times. -/
def readFrames : Nat → Reader → List α × Ending
  | 0, _ => ([], .more)
  | reads + 1, r =>
    match readFrame parse wire limit r with
    | (.ok (.message message), rest) =>
      let later := readFrames reads rest
      (message :: later.1, later.2)
    | (.ok .cleanEof, _) => ([], .cleanEof)
    | (.error error, _) => ([], .failed error)

/-! ## Writing -/

/-- `serde_json::to_vec`. -/
def payloadOf (message : α) : List UInt8 := (wire.codec.encode message).render

def frameOf (message : α) : List UInt8 :=
  toBeBytes (payloadOf wire message).length ++ payloadOf wire message

def writeFrame (message : α) (w : Writer) : Except CodecError Unit × Writer :=
  match wire.validate message with
  | .error reason => (.error (.invalid reason), w)
  | .ok _ =>
    let payload := payloadOf wire message
    if payload = [] then (.error .empty, w)
    else if payload.length > limit ∨ payload.length ≥ u32Limit then
      (.error (.tooLarge payload.length limit), w)
    else
      match w.writeAll (toBeBytes payload.length) with
      | (.error error, w) => (.error error, w)
      | (.ok _, w) => w.writeAll payload

/-- `write_frame` for each message in turn, up to the first that fails. -/
def writeFrames : List α → Writer → Except CodecError Unit × Writer
  | [], w => (.ok (), w)
  | message :: rest, w =>
    match writeFrame wire limit message w with
    | (.ok _, w) => writeFrames rest w
    | (.error error, w) => (.error error, w)

end Frames

/-! ## What a buffer holds after it was filled -/

/-- No read of the stream fails. -/
def Unfailing (turns : List Turn) : Prop := ∀ error, Turn.failed error ∉ turns

theorem Unfailing.tail {turn : Turn} {turns : List Turn} (h : Unfailing (turn :: turns)) :
    Unfailing turns := fun error hmem => h error (List.mem_cons_of_mem _ hmem)

/-- A first part of a buffer and what is still wanted after it. -/
theorem take_then_rest (bytes : List UInt8) {k want : Nat} (h : k ≤ want) :
    bytes.take k ++ (bytes.drop k).take (want - (bytes.take k).length) = bytes.take want ∧
      (bytes.drop k).drop (want - (bytes.take k).length) = bytes.drop want := by
  by_cases hk : k ≤ bytes.length
  · have hlen : (bytes.take k).length = k := List.length_take_of_le hk
    have hsum : k + (want - k) = want := by omega
    rw [hlen, ← List.take_add, List.drop_drop, hsum]
    exact ⟨rfl, rfl⟩
  · have htake : bytes.take k = bytes := List.take_of_length_le (by omega)
    have hdrop : bytes.drop k = [] := List.drop_of_length_le (by omega)
    have htake' : bytes.take want = bytes := List.take_of_length_le (by omega)
    have hdrop' : bytes.drop want = [] := List.drop_of_length_le (by omega)
    rw [htake, hdrop, htake', hdrop']
    simp

/-- However the reads split the stream, a buffer gets its next bytes. -/
theorem fill_eq {turns : List Turn} (h : Unfailing turns) (bytes : List UInt8) (want : Nat) :
    ∃ turns', Unfailing turns' ∧
      fill turns bytes want = { got := bytes.take want, rest := ⟨bytes.drop want, turns'⟩ } := by
  induction turns, bytes, want using fill.induct with
  | case1 turns bytes => exact ⟨turns, h, by simp [fill]⟩
  | case2 bytes want => exact ⟨[], h, rfl⟩
  | case3 turns bytes want ih => exact ih h.tail
  | case4 error turns bytes want => exact absurd List.mem_cons_self (h error)
  | case5 n turns want => exact ⟨turns, h.tail, rfl⟩
  | case6 n turns b bytes want now ih =>
    obtain ⟨turns', hunfailing, hlater⟩ := ih h.tail
    obtain ⟨htake, hdrop⟩ := take_then_rest (b :: bytes) (Nat.min_le_right (n + 1) (want + 1))
    refine ⟨turns', hunfailing, ?_⟩
    simp only [now] at hlater
    rw [fill, hlater, htake, hdrop]

/-- What a buffer got and what is left are the stream, even when a read fails. -/
theorem fill_append (turns : List Turn) (bytes : List UInt8) (want : Nat) :
    (fill turns bytes want).got ++ (fill turns bytes want).rest.bytes = bytes ∨
      (fill turns bytes want).error ≠ none := by
  induction turns, bytes, want using fill.induct with
  | case1 turns bytes => simp [fill]
  | case2 bytes want => simp [fill]
  | case3 turns bytes want ih => exact ih
  | case4 error turns bytes want => simp [fill]
  | case5 n turns want => simp [fill]
  | case6 n turns b bytes want now ih =>
    rw [fill]
    dsimp only
    rcases ih with ih | ih
    · left
      rw [List.append_assoc, ih]
      exact List.take_append_drop _ _
    · exact .inr ih

theorem length_fill_le (turns : List Turn) (bytes : List UInt8) (want : Nat) :
    (fill turns bytes want).got.length ≤ want := by
  induction turns, bytes, want using fill.induct with
  | case1 turns bytes => simp [fill]
  | case2 bytes want =>
    rw [fill, List.length_take]
    omega
  | case3 turns bytes want ih => exact ih
  | case4 error turns bytes want => simp [fill]
  | case5 n turns want => simp [fill]
  | case6 n turns b bytes want now ih =>
    have hnow : now.length ≤ want + 1 := by
      rw [List.length_take]
      omega
    rw [fill]
    change (now ++ (fill turns ((b :: bytes).drop (min (n + 1) (want + 1)))
      (want + 1 - now.length)).got).length ≤ want + 1
    rw [List.length_append]
    omega

/-! ## The length prefix -/

theorem fromBeBytes_toBeBytes {n : Nat} (h : n < u32Limit) : fromBeBytes (toBeBytes n) = n := by
  unfold u32Limit at h
  simp only [fromBeBytes, toBeBytes, List.foldl_cons, List.foldl_nil, UInt8.toNat_ofNat']
  omega

end AgentSeat.Proto
