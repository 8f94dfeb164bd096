/-
  Messages written to a stream and read back from it.

  `readFrame_frame` is the step: with a whole frame in front, however the reads split it, one
  `read_frame` gives the message and leaves the stream behind the frame. `readFrame_cut` is what it
  gives when the stream ends inside the frame. The runs follow by induction over the messages.

  `StreamLaw` collects what holds of one direction, for every list of messages.
-/
import AgentSeat.Proto.Bounds

namespace AgentSeat.Proto

open AgentSeat.Lib

section Frames

variable {α : Type} {parse : List UInt8 → Option Json} {wire : Wire α} {limit : Nat}

/-- What `write_frame` lets through. -/
structure Writable (wire : Wire α) (limit : Nat) (m : α) : Prop where
  valid : wire.validate m = .ok ()
  nonempty : payloadOf wire m ≠ []
  within : (payloadOf wire m).length ≤ limit
  counted : (payloadOf wire m).length < u32Limit

theorem writeFrame_refused {m : α} {w w' : Writer} {error : CodecError}
    (h : writeFrame wire limit m w = (.error error, w'))
    (herror : (∃ reason, error = .invalid reason) ∨ ∃ length bound, error = .tooLarge length bound) :
    w' = w := by
  have hio : ∀ {v v' : Writer} {bytes : List UInt8}, v.writeAll bytes ≠ (.error error, v') := by
    intro v v' bytes hwrite
    unfold Writer.writeAll at hwrite
    split at hwrite
    · simp at hwrite
    · split at hwrite
      · simp at hwrite
      · rw [← Except.error.inj (Prod.mk.inj hwrite).1] at herror
        simp at herror
  unfold writeFrame at h
  split at h
  · exact (Prod.mk.inj h).2.symm
  · dsimp only at h
    split at h
    · exact (Prod.mk.inj h).2.symm
    · split at h
      · exact (Prod.mk.inj h).2.symm
      · split at h
        · next hwrite =>
          rw [Except.error.inj (Prod.mk.inj h).1] at hwrite
          exact absurd hwrite hio
        · exact absurd h hio

theorem Writer.writeAll_ok {w w' : Writer} {bytes : List UInt8}
    (h : w.writeAll bytes = (.ok (), w')) : w'.written = w.written ++ bytes := by
  unfold Writer.writeAll at h
  repeat' split at h
  all_goals simp_all [Prod.mk.injEq]
  all_goals rw [← h]

/-- A write that succeeds has written the frame, of a message it may write. -/
theorem writeFrame_ok {m : α} {w w' : Writer} (h : writeFrame wire limit m w = (.ok (), w')) :
    Writable wire limit m ∧ w'.written = w.written ++ frameOf wire m := by
  unfold writeFrame at h
  cases hvalid : wire.validate m with
  | error reason => simp [hvalid] at h
  | ok u =>
    rw [hvalid] at h
    dsimp only at h
    by_cases hempty : payloadOf wire m = []
    · simp [hempty] at h
    · rw [if_neg hempty] at h
      by_cases hlarge : (payloadOf wire m).length > limit ∨ (payloadOf wire m).length ≥ u32Limit
      · simp [hlarge] at h
      · rw [if_neg hlarge] at h
        cases hlead : w.writeAll (toBeBytes (payloadOf wire m).length) with
        | mk result v =>
          rw [hlead] at h
          cases result with
          | error e => simp at h
          | ok u' =>
            have hlength := Writer.writeAll_ok hlead
            have hpayload := Writer.writeAll_ok h
            rw [hlength, List.append_assoc] at hpayload
            exact ⟨⟨hvalid, hempty, by omega, by omega⟩, hpayload⟩

/-- With room for everything, a message that may be written is. -/
theorem writeFrame_of_writable {m : α} (h : Writable wire limit m) (written : List UInt8) :
    writeFrame wire limit m ⟨written, none⟩ = (.ok (), ⟨written ++ frameOf wire m, none⟩) := by
  have hnot : ¬ ((payloadOf wire m).length > limit ∨ (payloadOf wire m).length ≥ u32Limit) := by
    have hwithin := h.within
    have hcounted := h.counted
    omega
  simp only [writeFrame, h.valid, if_neg h.nonempty, if_neg hnot, Writer.writeAll, frameOf,
    List.append_assoc]

theorem writeFrames_ok {ms : List α} {w w' : Writer}
    (h : writeFrames wire limit ms w = (.ok (), w')) :
    (∀ m ∈ ms, Writable wire limit m) ∧ w'.written = w.written ++ ms.flatMap (frameOf wire) := by
  induction ms generalizing w with
  | nil =>
    rw [← (Prod.mk.inj h).2]
    simp
  | cons m ms ih =>
    rw [writeFrames] at h
    cases hwrite : writeFrame wire limit m w with
    | mk result v =>
      rw [hwrite] at h
      cases result with
      | error e => simp at h
      | ok u =>
        obtain ⟨hm, hv⟩ := writeFrame_ok hwrite
        obtain ⟨hms, hw'⟩ := ih h
        refine ⟨?_, ?_⟩
        · intro n hn
          rcases List.mem_cons.1 hn with rfl | hn
          · exact hm
          · exact hms n hn
        · rw [hw', hv, List.append_assoc, List.flatMap_cons]

theorem writeFrames_of_writable {ms : List α} (h : ∀ m ∈ ms, Writable wire limit m)
    (written : List UInt8) :
    writeFrames wire limit ms ⟨written, none⟩ =
      (.ok (), ⟨written ++ ms.flatMap (frameOf wire), none⟩) := by
  induction ms generalizing written with
  | nil => simp [writeFrames]
  | cons m ms ih =>
    have hrest := ih (fun n hn => h n (List.mem_cons_of_mem _ hn)) (written ++ frameOf wire m)
    rw [writeFrames, writeFrame_of_writable (h m List.mem_cons_self)]
    dsimp only
    rw [hrest, List.append_assoc, List.flatMap_cons]

/-! ## One frame -/

theorem length_toBeBytes (n : Nat) : (toBeBytes n).length = prefixBytes := rfl

/-- A payload that was written is accepted as its message. -/
theorem accept_payload {m : α} (hfits : wire.codec.Fits m) (hvalid : wire.validate m = .ok ())
    (hparse : parse (payloadOf wire m) = some (wire.codec.encode m)) :
    accept parse wire (payloadOf wire m) = .ok (.message m) := by
  simp only [accept, hparse, Option.bind_some, wire.codec.decode_encode .stream hfits, hvalid]

/-- A whole payload behind its length is what `read_frame` decides on. -/
theorem readFrame_payload {payload : List UInt8} (hnonempty : payload ≠ [])
    (hwithin : payload.length ≤ limit) (hcounted : payload.length < u32Limit) {turns : List Turn}
    (hturns : Unfailing turns) (rest : List UInt8) :
    ∃ turns', Unfailing turns' ∧
      readFrame parse wire limit ⟨toBeBytes payload.length ++ (payload ++ rest), turns⟩ =
        (accept parse wire payload, ⟨rest, turns'⟩) := by
  obtain ⟨turns₁, hturns₁, hlead⟩ :=
    fill_eq hturns (toBeBytes payload.length ++ (payload ++ rest)) prefixBytes
  obtain ⟨turns₂, hturns₂, hpayload⟩ := fill_eq hturns₁ (payload ++ rest) payload.length
  have hpositive : payload.length ≠ 0 := by
    rw [Ne, List.length_eq_zero_iff]
    exact hnonempty
  rw [List.take_left' (length_toBeBytes _), List.drop_left' (length_toBeBytes _)] at hlead
  rw [List.take_left' rfl, List.drop_left' rfl] at hpayload
  refine ⟨turns₂, hturns₂, ?_⟩
  rw [readFrame, hlead]
  dsimp only
  rw [if_neg (by simp [toBeBytes]), if_neg (by simp [length_toBeBytes]),
    fromBeBytes_toBeBytes hcounted, readPayload, if_neg hpositive, if_neg (Nat.not_lt.2 hwithin),
    hpayload]
  dsimp only
  rw [if_neg (Nat.lt_irrefl _)]

theorem readFrame_frame {m : α} (hm : Writable wire limit m) (hfits : wire.codec.Fits m)
    (hparse : parse (payloadOf wire m) = some (wire.codec.encode m)) {turns : List Turn}
    (hturns : Unfailing turns) (rest : List UInt8) :
    ∃ turns', Unfailing turns' ∧
      readFrame parse wire limit ⟨frameOf wire m ++ rest, turns⟩ =
        (.ok (.message m), ⟨rest, turns'⟩) := by
  rw [frameOf, List.append_assoc, ← accept_payload hfits hm.valid hparse]
  exact readFrame_payload hm.nonempty hm.within hm.counted hturns rest

/-- The end of a stream that was cut `k` bytes into a frame. -/
def cutEnding (k : Nat) : Ending :=
  if k = 0 then .cleanEof
  else if k < prefixBytes then .failed .truncatedPrefix
  else .failed .truncatedPayload

theorem readFrame_cut {m : α} (hm : Writable wire limit m) {k : Nat}
    (hk : k < (frameOf wire m).length) {turns : List Turn} (hturns : Unfailing turns) (reads : Nat) :
    readFrames parse wire limit (reads + 1) ⟨(frameOf wire m).take k, turns⟩ =
      ([], cutEnding k) := by
  obtain ⟨turns₁, hturns₁, hlead⟩ := fill_eq hturns ((frameOf wire m).take k) prefixBytes
  have hlength : ((frameOf wire m).take k).length = k := List.length_take_of_le (Nat.le_of_lt hk)
  rw [readFrames, readFrame, hlead]
  dsimp only
  by_cases hzero : k = 0
  · subst hzero
    simp [cutEnding]
  · have hnil : ((frameOf wire m).take k).take prefixBytes ≠ [] := by
      intro hnil
      have hlen := congrArg List.length hnil
      rw [List.length_take, hlength, prefixBytes, List.length_nil] at hlen
      omega
    rw [if_neg hnil, List.length_take, hlength, cutEnding, if_neg hzero]
    by_cases hshort : k < prefixBytes
    · rw [if_pos (by omega), if_pos hshort]
    · rw [if_neg (by omega), if_neg hshort]
      -- the prefix is whole, so the payload is what was cut
      have htake : ((frameOf wire m).take k).take prefixBytes =
          toBeBytes (payloadOf wire m).length := by
        rw [List.take_take, Nat.min_eq_left (by omega), frameOf]
        exact List.take_left' (length_toBeBytes _)
      have hpositive : (payloadOf wire m).length ≠ 0 := by
        rw [Ne, List.length_eq_zero_iff]
        exact hm.nonempty
      have hbound : ¬ (payloadOf wire m).length > limit := Nat.not_lt.2 hm.within
      obtain ⟨turns₂, -, hpayload⟩ := fill_eq hturns₁ (((frameOf wire m).take k).drop prefixBytes)
        (payloadOf wire m).length
      have hcut : ((((frameOf wire m).take k).drop prefixBytes).take
          (payloadOf wire m).length).length < (payloadOf wire m).length := by
        rw [frameOf, List.length_append, length_toBeBytes] at hk
        rw [List.length_take, List.length_drop, hlength]
        omega
      rw [htake, fromBeBytes_toBeBytes hm.counted, readPayload, if_neg hpositive, if_neg hbound,
        hpayload]
      dsimp only
      rw [if_pos hcut]

/-! ## Streams of frames -/

/-- Messages that a reader with this parser gets back from what was written. -/
structure Readable (parse : List UInt8 → Option Json) (wire : Wire α) (limit : Nat) (m : α) :
    Prop where
  writable : Writable wire limit m
  fits : wire.codec.Fits m
  parsed : parse (payloadOf wire m) = some (wire.codec.encode m)

/-- The frames of readable messages are read one by one; what comes after them is read then. -/
theorem readFrames_append {ms : List α} (h : ∀ m ∈ ms, Readable parse wire limit m)
    {turns : List Turn} (hturns : Unfailing turns) (rest : List UInt8) :
    ∃ turns', Unfailing turns' ∧ ∀ reads,
      readFrames parse wire limit (ms.length + reads)
          ⟨ms.flatMap (frameOf wire) ++ rest, turns⟩ =
        let later := readFrames parse wire limit reads ⟨rest, turns'⟩
        (ms ++ later.1, later.2) := by
  induction ms generalizing turns with
  | nil => exact ⟨turns, hturns, fun reads => by simp⟩
  | cons m ms ih =>
    have hm := h m List.mem_cons_self
    obtain ⟨turns₁, hturns₁, hframe⟩ := readFrame_frame hm.writable hm.fits hm.parsed hturns
      (ms.flatMap (frameOf wire) ++ rest)
    obtain ⟨turns₂, hturns₂, hlater⟩ := ih (fun n hn => h n (List.mem_cons_of_mem _ hn)) hturns₁
    refine ⟨turns₂, hturns₂, ?_⟩
    intro reads
    have hcount : (m :: ms).length + reads = ms.length + reads + 1 := by
      rw [List.length_cons]
      omega
    rw [hcount, readFrames, List.flatMap_cons, List.append_assoc, hframe]
    dsimp only
    rw [hlater reads]
    rfl

theorem readFrames_end (reads : Nat) {turns : List Turn} (hturns : Unfailing turns) :
    readFrames parse wire limit (reads + 1) ⟨[], turns⟩ = ([], .cleanEof) := by
  obtain ⟨turns₁, -, hlead⟩ := fill_eq hturns [] prefixBytes
  rw [readFrames, readFrame, hlead]
  simp

end Frames

/-! ## The law of a direction -/

/-- What holds of a direction of the protocol, with its limit. -/
structure StreamLaw {α : Type} (wire : Wire α) (limit : Nat) : Prop where
  /-- The JSON mapping is inverse, for whole values and for collected ones. -/
  inverse : ∀ source m, wire.codec.Fits m →
    wire.codec.decode source (wire.codec.encode m) = some m
  /-- Valid messages are written at the limit of the direction. -/
  written : ∀ ms, (∀ m ∈ ms, wire.codec.Fits m ∧ wire.validate m = .ok ()) →
    ∃ w, writeFrames wire limit ms {} = (.ok (), w)
  /-- What was written is read back, in order, and then the clean end of the stream. -/
  roundTrip : ∀ parse bound ms room w turns reads,
    writeFrames wire bound ms ⟨[], room⟩ = (.ok (), w) →
    (∀ m ∈ ms, wire.codec.Fits m ∧ parse (payloadOf wire m) = some (wire.codec.encode m)) →
    Unfailing turns → ms.length < reads →
    readFrames parse wire bound reads ⟨w.written, turns⟩ = (ms, .cleanEof)
  /-- A stream cut inside a frame gives the messages before it, and then the truncation. -/
  cut : ∀ parse bound before m after room w turns reads k,
    writeFrames wire bound (before ++ m :: after) ⟨[], room⟩ = (.ok (), w) →
    (∀ n ∈ before, wire.codec.Fits n ∧ parse (payloadOf wire n) = some (wire.codec.encode n)) →
    Unfailing turns → before.length < reads → k < (frameOf wire m).length →
    readFrames parse wire bound reads
        ⟨w.written.take ((before.flatMap (frameOf wire)).length + k), turns⟩ =
      (before, cutEnding k)
  /-- A refused message leaves no byte behind. -/
  refused : ∀ bound m w w' error, writeFrame wire bound m w = (.error error, w') →
    ((∃ reason, error = .invalid reason) ∨ ∃ length allowed, error = .tooLarge length allowed) →
    w'.written = w.written

theorem streamLaw {α : Type} {wire : Wire α} {limit : Nat} (hwithin : Within wire limit)
    (hlimit : limit < u32Limit) (hobj : ∀ m, (wire.codec.encode m).isObj = true) :
    StreamLaw wire limit where
  inverse source m hfits := wire.codec.decode_encode source hfits
  written := by
    intro ms hms
    refine ⟨_, writeFrames_of_writable ?_ []⟩
    intro m hm
    obtain ⟨hfits, hvalid⟩ := hms m hm
    have hlength := hwithin m hfits hvalid
    have hnonempty : payloadOf wire m ≠ [] := by
      refine Json.render_ne_nil _ ?_
      intro token htoken
      have hm := hobj m
      rw [htoken] at hm
      exact absurd hm (by simp [Json.isObj])
    exact ⟨hvalid, hnonempty, hlength, Nat.lt_of_le_of_lt hlength hlimit⟩
  roundTrip := by
    intro parse bound ms room w turns reads hwrite hms hturns hreads
    obtain ⟨hwritable, hwritten⟩ := writeFrames_ok hwrite
    have hreadable : ∀ m ∈ ms, Readable parse wire bound m := fun m hm =>
      ⟨hwritable m hm, (hms m hm).1, (hms m hm).2⟩
    obtain ⟨turns', hturns', hread⟩ := readFrames_append hreadable hturns []
    obtain ⟨extra, rfl⟩ : ∃ extra, reads = ms.length + (extra + 1) := ⟨reads - ms.length - 1, by omega⟩
    rw [List.append_nil, ← List.nil_append (ms.flatMap _), ← hwritten] at hread
    rw [hread, readFrames_end extra hturns']
    simp
  cut := by
    intro parse bound before m after room w turns reads k hwrite hbefore hturns hreads hk
    obtain ⟨hwritable, hwritten⟩ := writeFrames_ok hwrite
    have hreadable : ∀ n ∈ before, Readable parse wire bound n := fun n hn =>
      ⟨hwritable n (List.mem_append_left _ hn), (hbefore n hn).1, (hbefore n hn).2⟩
    have hm : Writable wire bound m := hwritable m (List.mem_append_right _ List.mem_cons_self)
    have htake : w.written.take ((before.flatMap (frameOf wire)).length + k) =
        before.flatMap (frameOf wire) ++ (frameOf wire m).take k := by
      rw [hwritten, List.nil_append, List.flatMap_append, List.flatMap_cons,
        List.take_length_add_append, List.take_append_of_le_length (Nat.le_of_lt hk)]
    obtain ⟨turns', hturns', hread⟩ := readFrames_append hreadable hturns ((frameOf wire m).take k)
    obtain ⟨extra, rfl⟩ : ∃ extra, reads = before.length + (extra + 1) :=
      ⟨reads - before.length - 1, by omega⟩
    rw [htake, hread, readFrame_cut hm hk hturns' extra]
    simp
  refused := by
    intro bound m w w' error h herror
    rw [writeFrame_refused h herror]

section Sample

def sampleMessages : List ClientMessage :=
  [.request ⟨⟨7, Nat.succ_ne_zero 6⟩, .seatStatus⟩, .goodbye ⟨.refused, none⟩]

/-- A parser that knows the two texts the samples are printed as. -/
def sampleParse (payload : List UInt8) : Option Json :=
  (sampleMessages.find? fun m => payloadOf clientWire m == payload).map clientWire.codec.encode

end Sample

/-- Both directions of the protocol keep the law of streams at their limits. -/
theorem streams_round_trip :
    StreamLaw clientWire maxRequestFrameBytes ∧ StreamLaw serverWire maxResponseFrameBytes := by
  refine ⟨streamLaw client_within (by decide) ?_, streamLaw server_within (by decide) ?_⟩
  · intro m
    cases m <;> rfl
  · intro m
    cases m <;> rfl

theorem streams_round_trip_samples :
    ∃ w, writeFrames clientWire maxRequestFrameBytes sampleMessages {} = (.ok (), w) ∧
      readFrames sampleParse clientWire maxRequestFrameBytes 3
          ⟨w.written, [.upTo 0, .interrupted, .upTo 6]⟩ = (sampleMessages, .cleanEof) := by
  have hsamples : ∀ m ∈ sampleMessages, clientWire.codec.Fits m ∧ clientWire.validate m = .ok () ∧
      sampleParse (payloadOf clientWire m) = some (clientWire.codec.encode m) := by
    intro m hm
    rcases List.mem_cons.1 hm with rfl | hm
    · exact ⟨⟨(by decide : 7 ≤ u64Max), trivial⟩, rfl, by simp [sampleParse, sampleMessages]⟩
    · obtain rfl := List.mem_singleton.1 hm
      refine ⟨⟨trivial, fun _ h => absurd h (by simp)⟩, rfl, ?_⟩
      have hother : (payloadOf clientWire (.request ⟨⟨7, Nat.succ_ne_zero 6⟩, .seatStatus⟩) ==
          payloadOf clientWire (.goodbye ⟨.refused, none⟩)) = false := by decide +kernel
      simp [sampleParse, sampleMessages, hother]
  obtain ⟨w, hw⟩ := streams_round_trip.1.written sampleMessages fun m hm =>
    ⟨(hsamples m hm).1, (hsamples m hm).2.1⟩
  refine ⟨w, hw, streams_round_trip.1.roundTrip _ _ _ _ _ _ _ hw ?_ ?_ (by decide)⟩
  · intro m hm
    exact ⟨(hsamples m hm).1, (hsamples m hm).2.2⟩
  · intro error
    simp

end AgentSeat.Proto
