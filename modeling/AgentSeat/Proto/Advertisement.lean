/-
  The value of the X11 discovery property (`advertisement.rs`).

  A value has three fields with a NUL between them: the protocol, its revision and the socket. An
  advertisement is a socket that may stand in it, and has one way of being written: a value is
  accepted exactly if it is what an advertisement encodes to (`advertisement_exact`).
-/
import AgentSeat.Lib.Text
import AgentSeat.Proto.Call

namespace AgentSeat.Proto

open AgentSeat.Lib AgentSeat.Lib.Json AgentSeat.Lib.Text

def maxAdvertisementBytes : Nat := 256
def separator : UInt8 := 0
def revisionText : List UInt8 := ascii "9"

inductive AdvertisementError where
  | tooLarge
  | fields
  | protocol
  | revision
  | socket
  deriving DecidableEq

def AdvertisementError.text : AdvertisementError → String
  | .tooLarge => "advertisement exceeds 256 bytes"
  | .fields => "advertisement must contain exactly three fields"
  | .protocol => "advertisement names another protocol"
  | .revision => "advertisement names an unsupported revision"
  | .socket => "advertisement socket is not a bounded absolute path"

def validateSocket (socket : List UInt8) : Except AdvertisementError Unit :=
  if socket = [] ∨ socket.head? ≠ some 47 ∨ separator ∈ socket then .error .socket
  else if socket.length > 107 then .error .socket
  else .ok ()

/-- A socket that has been validated. -/
structure Advertisement where
  socket : List UInt8
  valid : validateSocket socket = .ok ()
  deriving DecidableEq

namespace Advertisement

def of (socket : List UInt8) : Except AdvertisementError Advertisement :=
  if h : validateSocket socket = .ok () then .ok ⟨socket, h⟩ else .error .socket

def parse (value : List UInt8) : Except AdvertisementError Advertisement :=
  if value.length > maxAdvertisementBytes then .error .tooLarge
  else
    match value.splitOn separator with
    | [] => .error .protocol
    | protocol :: rest =>
      if protocol ≠ ascii protocolName then .error .protocol
      else
        match rest with
        | [] => .error .fields
        | revision :: rest =>
          if revision ≠ revisionText then .error .revision
          else
            match rest with
            | [] => .error .fields
            | socket :: rest => if rest ≠ [] then .error .fields else of socket

/-- `Advertisement::new`. -/
def new (socket : List UInt8) : Except AdvertisementError Advertisement := do
  let advertisement ← of socket
  if (ascii protocolName).length + 1 + revisionText.length + 1 + socket.length >
      maxAdvertisementBytes then .error .tooLarge
  else return advertisement

def encode (a : Advertisement) : List UInt8 :=
  ascii protocolName ++ separator :: (digits protocolRevision ++ separator :: a.socket)

theorem socket_plain (a : Advertisement) :
    a.socket ≠ [] ∧ a.socket.head? = some 47 ∧ separator ∉ a.socket ∧ a.socket.length ≤ 107 := by
  have hvalid := a.valid
  unfold validateSocket at hvalid
  split_ifs at hvalid with hshape hlength
  simp only [not_or, not_not] at hshape
  exact ⟨hshape.1, hshape.2.1, hshape.2.2, Nat.not_lt.mp hlength⟩

theorem of_eq_ok {socket : List UInt8} {a : Advertisement} : of socket = .ok a ↔ socket = a.socket := by
  unfold of
  split_ifs with hvalid
  · rw [Except.ok.injEq]
    exact ⟨fun h => h ▸ rfl, fun h => by cases a; cases h; rfl⟩
  · refine iff_of_false (by simp) ?_
    rintro rfl
    exact hvalid a.valid

theorem splitOn_encode (a : Advertisement) :
    a.encode.splitOn separator = [ascii protocolName, revisionText, a.socket] := by
  have hname : separator ∉ ascii protocolName := by decide
  have hrevision : separator ∉ digits protocolRevision := by decide
  unfold encode
  rw [List.splitOn_append_cons_self_of_not_mem hname,
    List.splitOn_append_cons_self_of_not_mem hrevision,
    List.splitOn_eq_singleton a.socket_plain.2.2.1]
  rfl

theorem encode_length (a : Advertisement) : a.encode.length = 13 + a.socket.length := by
  have hname : (ascii protocolName).length = 10 := by decide
  have hrevision : (digits protocolRevision).length = 1 := by decide
  simp only [encode, List.length_append, List.length_cons, hname, hrevision]
  omega

theorem parse_encode (a : Advertisement) : parse a.encode = .ok a := by
  have hlength := a.encode_length
  have hbound := a.socket_plain.2.2.2
  have hfits : ¬ a.encode.length > maxAdvertisementBytes := by
    unfold maxAdvertisementBytes
    omega
  unfold parse
  rw [if_neg hfits, a.splitOn_encode]
  show of a.socket = .ok a
  exact of_eq_ok.mpr rfl

/-- The three fields of what is accepted. -/
theorem parse_fields {value : List UInt8} {a : Advertisement} (h : parse value = .ok a) :
    value.splitOn separator = [ascii protocolName, revisionText, a.socket] := by
  unfold parse at h
  split_ifs at h with hlength
  split at h
  · cases h
  · next protocol rest hsplit =>
    split_ifs at h with hprotocol
    split at h
    · cases h
    · next revision rest =>
      split_ifs at h with hrevision
      split at h
      · cases h
      · next socket rest =>
        split_ifs at h with hrest
        rw [hsplit, not_not.mp hprotocol, not_not.mp hrevision, not_not.mp hrest, of_eq_ok.mp h]

theorem parse_iff {value : List UInt8} {a : Advertisement} : parse value = .ok a ↔ value = a.encode := by
  constructor
  · intro h
    calc value = [separator].intercalate (value.splitOn separator) :=
          (List.intercalate_splitOn separator).symm
      _ = [separator].intercalate (a.encode.splitOn separator) := by
          rw [parse_fields h, a.splitOn_encode]
      _ = a.encode := List.intercalate_splitOn separator
  · rintro rfl
    exact a.parse_encode

end Advertisement

/-- Every advertisement fits its bound and can be built from its socket, and a value is accepted
    exactly if it is how an advertisement is written. -/
theorem advertisement_exact (a : Advertisement) :
    a.encode.length ≤ maxAdvertisementBytes ∧ Advertisement.new a.socket = .ok a ∧
      ∀ value, Advertisement.parse value = .ok a ↔ value = a.encode := by
  have hlength := a.encode_length
  have hbound := a.socket_plain.2.2.2
  have hfits : ¬ (ascii protocolName).length + 1 + revisionText.length + 1 + a.socket.length >
      maxAdvertisementBytes := by
    have hname : (ascii protocolName).length = 10 := by decide
    have hrevision : revisionText.length = 1 := by decide
    unfold maxAdvertisementBytes
    omega
  refine ⟨by unfold maxAdvertisementBytes; omega, ?_, fun value => Advertisement.parse_iff⟩
  unfold Advertisement.new
  rw [Advertisement.of_eq_ok.mpr rfl]
  exact if_neg hfits

end AgentSeat.Proto
