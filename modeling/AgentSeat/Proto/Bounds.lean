/-
  Every valid message fits its frame.

  The bounds of the protocol are stated one by one (bytes of a text, scalars of a text, items of a
  list) and the frame limits beside them. The caps of the JSON mapping put them together: most
  texts may be escaped in full, but the long texts of a request and the image of a reply are only
  within the frame because of what their checks exclude. `clientMessage_light` and
  `serverMessage_light` say that the checks exclude enough.
-/
import AgentSeat.Proto.Frame

namespace AgentSeat.Proto

open AgentSeat.Lib

/-! ## Texts that passed their check -/

/-- A checked text is within its scalar bound and has no control but newline and tab. -/
theorem multiline_of_validate {text : String} {maximumScalars : Nat}
    {errors : TextValidationErrors}
    (h : validateTextContent text maximumScalars errors = .ok ()) :
    text.toList.length ≤ maximumScalars ∧ ∀ c ∈ text.toList, Json.Multiline c := by
  simp only [validateTextContent, Check.and_eq_ok, ensure_eq_ok, decide_eq_true_eq,
    List.all_eq_true] at h
  obtain ⟨-, hcontrols, hbound⟩ := h
  refine ⟨hbound, ?_⟩
  intro c hc
  have hcontrol := hcontrols c hc
  by_cases hlow : 32 ≤ c.toNat
  · exact .inl hlow
  · have his : isControl c = true := by simp [isControl, Nat.lt_of_not_le hlow]
    simp only [his, Bool.true_and, Bool.not_not, Bool.or_eq_true, beq_iff_eq] at hcontrol
    exact .inr hcontrol

/-- A character whose bytes are all ASCII is one byte, its own number. -/
theorem toNat_of_ascii_bytes {c : Char} (h : ∀ b ∈ String.utf8EncodeChar c, b.toNat < 128) :
    String.utf8EncodeChar c = [UInt8.ofNat c.toNat] ∧ c.toNat < 128 := by
  have hval : c.val.toNat = c.toNat := rfl
  unfold String.utf8EncodeChar at h ⊢
  simp only [hval] at h ⊢
  by_cases hone : c.toNat ≤ 0x7f
  · rw [if_pos hone]
    exact ⟨rfl, by omega⟩
  · -- the last byte of a longer encoding is a continuation byte
    exfalso
    have hlast := h (UInt8.ofNat (c.toNat % 0x40 + 0x80)) (by
      rw [if_neg hone]
      repeat' split
      all_goals simp)
    rw [UInt8.toNat_ofNat'] at hlast
    omega

/-- The symbols of base64 and its padding. -/
def isBase64 (b : UInt8) : Bool :=
  isAsciiAlphanumeric b || b == 43 || b == 47 || b == 61

theorem toNat_of_isBase64 {b : UInt8} (h : isBase64 b = true) :
    43 ≤ b.toNat ∧ b.toNat < 128 ∧ b.toNat ≠ 92 := by
  simp only [isBase64, isAsciiAlphanumeric, Bool.or_eq_true, Bool.and_eq_true, decide_eq_true_eq,
    beq_iff_eq, UInt8.le_iff_toNat_le, ← UInt8.toNat_inj] at h
  have h43 : (43 : UInt8).toNat = 43 := rfl
  have h47 : (47 : UInt8).toNat = 47 := rfl
  have h48 : (48 : UInt8).toNat = 48 := rfl
  have h57 : (57 : UInt8).toNat = 57 := rfl
  have h61 : (61 : UInt8).toNat = 61 := rfl
  have h65 : (65 : UInt8).toNat = 65 := rfl
  have h90 : (90 : UInt8).toNat = 90 := rfl
  have h97 : (97 : UInt8).toNat = 97 := rfl
  have h122 : (122 : UInt8).toNat = 122 := rfl
  omega

theorem isBase64_of_valid {data : List UInt8} (h : validPngBase64 data = true) :
    ∀ b ∈ data, isBase64 b = true := by
  have hall : ((data.take (data.length - (data.reverse.takeWhile (· = 61)).length)).all fun byte =>
      isAsciiAlphanumeric byte || byte == 43 || byte == 47) = true ∧
      ((data.drop (data.length - (data.reverse.takeWhile (· = 61)).length)).all fun byte =>
        byte == 61) = true := by
    unfold validPngBase64 at h
    dsimp only at h
    split at h
    · simp at h
    · split at h
      · simp at h
      · split at h
        · simp at h
        · next hsymbols =>
          simp only [Bool.or_eq_true, Bool.not_eq_true', not_or, Bool.not_eq_false] at hsymbols
          exact hsymbols
  simp only [List.all_eq_true] at hall
  obtain ⟨hbody, hpadding⟩ := hall
  intro b hb
  rw [← List.take_append_drop (data.length - (data.reverse.takeWhile (· = 61)).length) data] at hb
  rw [isBase64]
  rcases List.mem_append.1 hb with hb | hb
  · rw [hbody b hb, Bool.true_or]
  · rw [hpadding b hb, Bool.or_true]

/-- An image that passed its check is spelled without escapes. -/
theorem unescaped_of_png {s : String} (h : validPngBase64 (asBytes s) = true) :
    ∀ c ∈ s.toList, Json.Unescaped c := by
  intro c hc
  have hbytes : ∀ b ∈ String.utf8EncodeChar c, 43 ≤ b.toNat ∧ b.toNat < 128 ∧ b.toNat ≠ 92 :=
    fun b hb => toNat_of_isBase64 (isBase64_of_valid h b (List.mem_flatMap.2 ⟨c, hc, hb⟩))
  obtain ⟨hone, hascii⟩ := toNat_of_ascii_bytes fun b hb => (hbytes b hb).2.1
  have hnat : (UInt8.ofNat c.toNat).toNat = c.toNat := by
    rw [UInt8.toNat_ofNat']
    omega
  have hrange := hbytes (UInt8.ofNat c.toNat) (by rw [hone]; exact List.mem_singleton_self _)
  rw [hnat] at hrange
  refine ⟨by omega, ?_, ?_⟩
  · rintro rfl
    exact absurd hrange.1 (by decide)
  · rintro rfl
    exact hrange.2.2 rfl

/-! ## Messages that passed their check -/

theorem rect_light (r : Rect) : Schema.rect.Light r := ⟨trivial, trivial, trivial, trivial⟩

theorem clientDescriptor_light (c : ClientDescriptor) : Schema.clientDescriptor.Light c :=
  ⟨trivial, trivial, fun _ _ => trivial, fun _ _ => trivial, fun r _ => rect_light r,
    fun _ _ => trivial, fun _ _ => trivial⟩

theorem workspaceDescriptor_light (w : WorkspaceDescriptor) :
    Schema.workspaceDescriptor.Light w :=
  ⟨trivial, fun _ _ => trivial, fun r _ => rect_light r⟩

theorem desktopSnapshot_light (s : DesktopSnapshot) : Schema.desktopSnapshot.Light s :=
  ⟨trivial, trivial, fun w _ => workspaceDescriptor_light w, fun c _ => clientDescriptor_light c,
    fun _ _ => trivial⟩

theorem event_light (e : Event) : Schema.event.Light e := by
  cases e with
  | clientAdded c => exact clientDescriptor_light c
  | clientChanged c => exact clientDescriptor_light c
  | clientRemoved c => exact trivial
  | activeChanged c => exact fun _ _ => trivial
  | workspaceChanged w => exact trivial
  | applicationsChanged => exact trivial

theorem goodbye_light (g : Goodbye) : Schema.goodbye.Light g := ⟨trivial, fun _ _ => trivial⟩

theorem protocolError_light (e : ProtocolError) : Schema.protocolError.Light e :=
  ⟨trivial, trivial, fun _ _ => trivial, fun _ _ => trivial, fun _ _ => trivial, fun _ _ => trivial⟩

theorem call_light {c : Call} (h : c.validate = .ok ()) : Schema.call.Light c := by
  cases c with
  | keyboardWrite v =>
    have htext : validateTextContent v.text.asStr maxLongInputActions .keyboard = .ok () := h
    exact ⟨⟨trivial, trivial⟩, multiline_of_validate htext⟩
  | textInsert v =>
    have htext : validateTextContent v.text.asStr maxTextTransferScalars .transfer = .ok () := h
    exact ⟨⟨trivial, trivial⟩, multiline_of_validate htext⟩
  | _ => repeat' first | exact trivial | constructor | intro

theorem reply_light {r : Reply} (h : r.validate = .ok ()) : Schema.reply.Light r := by
  cases r with
  | desktopSnapshot s => exact desktopSnapshot_light s
  | events b => exact ⟨fun e _ => ⟨trivial, event_light e.event⟩, trivial⟩
  | capture v =>
    simp only [Reply.validate, CaptureReply.validate, Check.and_eq_ok, ensure_eq_ok] at h
    exact ⟨⟨trivial, trivial⟩, trivial, trivial, trivial, unescaped_of_png h.2.2.2⟩
  | captureRegion v =>
    simp only [Reply.validate, CaptureRegionReply.validate, Check.and_eq_ok, ensure_eq_ok] at h
    exact ⟨⟨trivial, trivial⟩, ⟨trivial, trivial, trivial, trivial⟩, trivial,
      unescaped_of_png h.2.2⟩
  | _ => repeat' first | exact trivial | constructor | intro

theorem clientMessage_light {m : ClientMessage} (h : m.validate = .ok ()) :
    Schema.clientMessage.Light m := by
  cases m with
  | hello v => exact ⟨trivial, trivial, ⟨trivial, trivial, trivial⟩, fun _ _ => trivial⟩
  | request v => exact ⟨trivial, call_light h⟩
  | goodbye v => exact goodbye_light v

theorem serverMessage_light {m : ServerMessage} (h : m.validate = .ok ()) :
    Schema.serverMessage.Light m := by
  cases m with
  | welcome v =>
    exact ⟨trivial, trivial, trivial, ⟨trivial, trivial⟩, trivial, trivial, fun _ _ => trivial,
      fun _ _ => trivial, ⟨trivial, trivial, trivial, trivial⟩⟩
  | response v =>
    refine ⟨trivial, ?_⟩
    obtain ⟨id, outcome⟩ := v
    cases outcome with
    | ok reply => exact reply_light h
    | error e => exact protocolError_light e
  | goodbye v => exact goodbye_light v

/-! ## Frames -/

theorem clientMessage_cap : Schema.clientMessage.cap ≤ maxRequestFrameBytes := by decide +kernel

theorem serverMessage_cap : Schema.serverMessage.cap ≤ maxResponseFrameBytes := by decide +kernel

/-- The payload of every valid message is within `limit`. -/
def Within {α : Type} (wire : Wire α) (limit : Nat) : Prop :=
  ∀ m, wire.codec.Fits m → wire.validate m = .ok () → (payloadOf wire m).length ≤ limit

theorem client_within : Within clientWire maxRequestFrameBytes := fun _ hfits hvalid =>
  Nat.le_trans (Schema.clientMessage.length_le hfits (clientMessage_light hvalid))
    clientMessage_cap

theorem server_within : Within serverWire maxResponseFrameBytes := fun _ hfits hvalid =>
  Nat.le_trans (Schema.serverMessage.length_le hfits (serverMessage_light hvalid))
    serverMessage_cap

theorem Writer.writeAll_ne_tooLarge {w w' : Writer} {bytes : List UInt8} {length limit : Nat} :
    w.writeAll bytes ≠ (.error (.tooLarge length limit), w') := by
  unfold Writer.writeAll
  repeat' split
  all_goals simp

/-- A write at a limit that every valid message keeps is never refused for size. -/
theorem writeFrame_ne_tooLarge {α : Type} {wire : Wire α} {limit : Nat}
    (hwithin : Within wire limit) (hlimit : limit < u32Limit) {m : α} (hfits : wire.codec.Fits m)
    (w : Writer) {length bound : Nat} :
    (writeFrame wire limit m w).1 ≠ .error (.tooLarge length bound) := by
  unfold writeFrame
  cases hvalid : wire.validate m with
  | error reason => simp
  | ok u =>
    have hlength := hwithin m hfits hvalid
    dsimp only
    split
    · simp
    · rw [if_neg (by omega)]
      split
      · next hwrite =>
        intro heq
        rw [Except.error.inj heq] at hwrite
        exact Writer.writeAll_ne_tooLarge hwrite
      · intro heq
        exact Writer.writeAll_ne_tooLarge (Prod.ext heq rfl)

/-- Every valid message fits its frame: whatever its texts are made of, its compact encoding is
    within the limit of its direction, and `write_frame` at that limit never refuses it for its
    size. -/
theorem valid_messages_fit :
    (∀ m, Schema.clientMessage.Fits m → m.validate = .ok () →
      (payloadOf clientWire m).length ≤ maxRequestFrameBytes) ∧
    (∀ m, Schema.serverMessage.Fits m → m.validate = .ok () →
      (payloadOf serverWire m).length ≤ maxResponseFrameBytes) ∧
    (∀ m w length limit, Schema.clientMessage.Fits m →
      (writeFrame clientWire maxRequestFrameBytes m w).1 ≠ .error (.tooLarge length limit)) ∧
    ∀ m w length limit, Schema.serverMessage.Fits m →
      (writeFrame serverWire maxResponseFrameBytes m w).1 ≠ .error (.tooLarge length limit) := by
  refine ⟨client_within, server_within, ?_, ?_⟩
  · intro m w length limit hfits
    exact writeFrame_ne_tooLarge client_within (by decide) hfits w
  · intro m w length limit hfits
    exact writeFrame_ne_tooLarge server_within (by decide) hfits w

def sampleInsert : ClientMessage :=
  .request ⟨⟨1, Nat.succ_ne_zero 0⟩, .textInsert ⟨⟨⟨2, Nat.succ_ne_zero 1⟩, 3⟩, ⟨"a\t\"b\"\n", by decide⟩⟩⟩

theorem valid_messages_fit_insert :
    Schema.clientMessage.Fits sampleInsert ∧ sampleInsert.validate = .ok () ∧
      (payloadOf clientWire sampleInsert).length ≤ maxRequestFrameBytes := by
  have hfits : Schema.clientMessage.Fits sampleInsert :=
    ⟨(by decide : 1 ≤ u64Max), ⟨(by decide : 2 ≤ u64Max), (by decide : 3 ≤ u64Max)⟩,
      (by decide : "a\t\"b\"\n".utf8ByteSize ≤ maxTextTransferBytes)⟩
  have hvalid : sampleInsert.validate = .ok () := by decide +kernel
  exact ⟨hfits, hvalid, valid_messages_fit.1 _ hfits hvalid⟩

end AgentSeat.Proto
