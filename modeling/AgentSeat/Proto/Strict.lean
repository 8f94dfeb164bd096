/-
  How strict the reader of frames is.

  The published rule is that a payload is one JSON object, that unknown and repeated fields and
  wrong JSON types are malformed, so that what is accepted has one spelling up to the order of keys
  and omitted defaulted members. The derived readers enforce it for objects. They also read a
  record or a tagged union from an array of its members, and an enumeration name from an object of
  that one name; `strict_iff_plain` says that these spellings are all that is accepted beside the
  published ones.
-/
import AgentSeat.Proto.RoundTrip

namespace AgentSeat.Proto

open AgentSeat.Lib

section Strict

variable {α : Type} {parse : List UInt8 → Option Json} {wire : Wire α} {limit : Nat}

/-- One JSON object, strict at every position, and written back the same. -/
def Faithful (wire : Wire α) (j : Json) (m : α) : Prop :=
  j.isObj = true ∧ wire.codec.Strict j ∧ wire.codec.Same j (wire.codec.encode m)

/-- What was behind a message that was read: the bytes of its frame, and their JSON value. -/
structure Origin (parse : List UInt8 → Option Json) (wire : Wire α) (limit : Nat) (r rest : Reader)
    (m : α) (payload : List UInt8) (j : Json) : Prop where
  bytes : ∃ lead, lead.length = prefixBytes ∧ fromBeBytes lead = payload.length ∧
    r.bytes = lead ++ payload ++ rest.bytes
  within : payload.length ≤ limit
  parsed : parse payload = some j
  decoded : wire.codec.decode .stream j = some m
  valid : wire.validate m = .ok ()

theorem accept_eq_ok {payload : List UInt8} {m : α}
    (h : accept parse wire payload = .ok (.message m)) :
    ∃ j, parse payload = some j ∧ wire.codec.decode .stream j = some m ∧
      wire.validate m = .ok () := by
  unfold accept at h
  split at h
  · simp at h
  · next n hdecode =>
    split at h
    · simp at h
    · next u hvalid =>
      obtain ⟨j, hj, hn⟩ := Option.bind_eq_some_iff.1 hdecode
      have hnm : n = m := ReadFrame.message.inj (Except.ok.inj h)
      subst hnm
      exact ⟨j, hj, hn, hvalid⟩

theorem origin_of_readFrame {r rest : Reader} {m : α}
    (h : readFrame parse wire limit r = (.ok (.message m), rest)) :
    ∃ payload j, Origin parse wire limit r rest m payload j := by
  unfold readFrame at h
  dsimp only at h
  cases herror : (fill r.turns r.bytes prefixBytes).error with
  | some error => simp [herror] at h
  | none =>
    have hlead := (fill_append r.turns r.bytes prefixBytes).resolve_right (by simp [herror])
    have hleadLength := length_fill_le r.turns r.bytes prefixBytes
    simp only [herror] at h
    split at h
    · simp at h
    · split at h
      · simp at h
      · next hwhole =>
        -- the length was read; now the payload behind it
        revert h hlead hleadLength hwhole
        generalize (fill r.turns r.bytes prefixBytes).got = lead
        generalize (fill r.turns r.bytes prefixBytes).rest = behind
        intro hlead hleadLength hwhole h
        unfold readPayload at h
        split at h
        · simp at h
        · split at h
          · simp at h
          · next hlimit =>
            dsimp only at h
            cases herror' : (fill behind.turns behind.bytes (fromBeBytes lead)).error with
            | some error => simp [herror'] at h
            | none =>
              have hpayload := (fill_append behind.turns behind.bytes
                (fromBeBytes lead)).resolve_right (by simp [herror'])
              have hlength := length_fill_le behind.turns behind.bytes (fromBeBytes lead)
              simp only [herror'] at h
              split at h
              · simp at h
              · next hfull =>
                obtain ⟨haccept, hrest⟩ := Prod.mk.inj h
                obtain ⟨j, hparse, hdecode, hvalid⟩ := accept_eq_ok haccept
                refine ⟨_, j, ⟨lead, by omega, by omega, ?_⟩, by omega, hparse, hdecode, hvalid⟩
                rw [← hrest, List.append_assoc, hpayload, hlead]

end Strict

/-- Every value of a tagged union is written as an object, and strict JSON of it is one. -/
theorem isObj_of_strict_client {j : Json} (h : Schema.clientMessage.Strict j) : j.isObj = true := by
  cases j <;> first | rfl | exact absurd h (by simp [Schema.clientMessage, Codec.tagged])

theorem isObj_of_strict_server {j : Json} (h : Schema.serverMessage.Strict j) : j.isObj = true := by
  cases j <;> first | rfl | exact absurd h (by simp [Schema.serverMessage, Codec.tagged])

theorem faithful_iff_plain {α : Type} {wire : Wire α}
    (hobj : ∀ j, wire.codec.Strict j → j.isObj = true) {j : Json} {m : α}
    (hdecode : wire.codec.decode .stream j = some m) :
    Faithful wire j m ↔ wire.codec.Plain j := by
  constructor
  · rintro ⟨-, hstrict, hsame⟩
    exact wire.codec.plain_of_strict hstrict hsame
  · intro hplain
    obtain ⟨hstrict, hsame⟩ := wire.codec.strict_same hdecode hplain
    exact ⟨hobj j hstrict, hstrict, hsame⟩

/-- Whatever the parser of JSON text and however the stream is split: a payload that is accepted is
    one strict object with one spelling exactly when no record or tagged union in it is spelled as
    an array and no enumeration name as an object. -/
theorem strict_iff_plain (parse : List UInt8 → Option Json) (limit : Nat) (r rest : Reader) :
    (∀ m, readFrame parse clientWire limit r = (.ok (.message m), rest) →
      ∃ payload j, Origin parse clientWire limit r rest m payload j ∧
        (Faithful clientWire j m ↔ clientWire.codec.Plain j)) ∧
    ∀ m, readFrame parse serverWire limit r = (.ok (.message m), rest) →
      ∃ payload j, Origin parse serverWire limit r rest m payload j ∧
        (Faithful serverWire j m ↔ serverWire.codec.Plain j) := by
  refine ⟨?_, ?_⟩
  · intro m h
    obtain ⟨payload, j, horigin⟩ := origin_of_readFrame h
    exact ⟨payload, j, horigin,
      faithful_iff_plain (fun _ => isObj_of_strict_client) horigin.decoded⟩
  · intro m h
    obtain ⟨payload, j, horigin⟩ := origin_of_readFrame h
    exact ⟨payload, j, horigin,
      faithful_iff_plain (fun _ => isObj_of_strict_server) horigin.decoded⟩

/-- A goodbye that is read as the object it was written as. -/
theorem strict_iff_plain_goodbye :
    ∃ rest j, readFrame sampleParse clientWire maxRequestFrameBytes
          ⟨frameOf clientWire (.goodbye ⟨.refused, none⟩) ++ [], [.upTo 2]⟩ =
        (.ok (.message (.goodbye ⟨.refused, none⟩)), rest) ∧
      clientWire.codec.Plain j ∧ Faithful clientWire j (.goodbye ⟨.refused, none⟩) := by
  have hfits : clientWire.codec.Fits (.goodbye ⟨.refused, none⟩) :=
    ⟨trivial, fun _ h => absurd h (by simp)⟩
  have hwritable : Writable clientWire maxRequestFrameBytes (.goodbye ⟨.refused, none⟩) :=
    ⟨rfl, by decide +kernel, by decide +kernel, by decide +kernel⟩
  have hother : (payloadOf clientWire (.request ⟨⟨7, Nat.succ_ne_zero 6⟩, .seatStatus⟩) ==
      payloadOf clientWire (.goodbye ⟨.refused, none⟩)) = false := by decide +kernel
  have hparse : sampleParse (payloadOf clientWire (.goodbye ⟨.refused, none⟩)) =
      some (clientWire.codec.encode (.goodbye ⟨.refused, none⟩)) := by
    simp [sampleParse, sampleMessages, hother]
  have hturns : Unfailing [.upTo 2] := by
    intro error
    simp
  obtain ⟨turns, -, hread⟩ := readFrame_frame hwritable hfits hparse hturns []
  obtain ⟨payload, j, horigin, hiff⟩ := (strict_iff_plain _ _ _ _).1 _ hread
  obtain ⟨n, -, hn⟩ := Option.map_eq_some_iff.1 horigin.parsed
  have hplain : clientWire.codec.Plain j := hn ▸ clientWire.codec.plain_encode n
  exact ⟨_, j, hread, hplain, hiff.2 hplain⟩

/-! ## A hello without an object -/

def arrayHello : Json :=
  .arr [.str "hello", .arr [.str "agent-seat", .num 9,
    .arr [.str "peer", .str "1", .str "test"], .arr []]]

/-- A parser that knows the text of that array. -/
def arrayParse (payload : List UInt8) : Option Json :=
  if payload = arrayHello.render then some arrayHello else none

theorem arrayHello_accept :
    ∃ m, accept arrayParse clientWire arrayHello.render = .ok (.message m) := by
  have h : ((Schema.clientMessage.decode .stream arrayHello).map fun m => m.validate.isOk) =
      some true := by decide +kernel
  obtain ⟨m, hm, hvalid⟩ := Option.map_eq_some_iff.1 h
  have hok : clientWire.validate m = .ok () := by
    show m.validate = .ok ()
    cases hresult : m.validate with
    | error reason =>
      rw [hresult] at hvalid
      exact absurd hvalid (by simp [Except.isOk, Except.toBool])
    | ok u => rfl
  have hdecode : clientWire.codec.decode .stream arrayHello = some m := hm
  exact ⟨m, by simp only [accept, arrayParse, if_true, Option.bind_some, hdecode, hok]⟩

/-- A hello spelled as an array is accepted. -/
theorem array_hello_accepted :
    ¬ ∀ parse limit r rest m, readFrame parse clientWire limit r = (.ok (.message m), rest) →
      ∃ payload j, Origin parse clientWire limit r rest m payload j ∧ Faithful clientWire j m := by
  intro hclaim
  obtain ⟨m, haccept⟩ := arrayHello_accept
  obtain ⟨turns, -, hread⟩ := @readFrame_payload _ arrayParse clientWire maxRequestFrameBytes
    arrayHello.render (by decide +kernel) (by decide +kernel) (by decide +kernel) []
    (by intro error; simp) []
  rw [haccept] at hread
  obtain ⟨payload, j, horigin, hfaithful⟩ := hclaim _ _ _ _ _ hread
  have hparsed := horigin.parsed
  rw [arrayParse] at hparsed
  split at hparsed
  · rw [← Option.some.inj hparsed] at hfaithful
    exact absurd hfaithful.1 (by decide)
  · simp at hparsed

end AgentSeat.Proto
