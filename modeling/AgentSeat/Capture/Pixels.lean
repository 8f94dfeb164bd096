/-
  The pixels of a capture (`read_named_pixmap` and `RawCapture::to_rgb` of `observer/capture.rs`).

  The server stores a picture row by row, each row rounded up to the scanline pad, with two to four
  bytes a pixel in its own byte order. `toRgb` takes three samples out of each pixel by the masks of
  the visual. Slices, chunks, shifts and divisions stop the source where they are out of range, and
  `Fault.panic` is that outcome here.
-/
import AgentSeat.Lib.Words
import AgentSeat.Proto.Validate
import AgentSeat.X11.Desktop

namespace AgentSeat.Capture

open Lib.Words Proto X11

/-- How a conversion ends without an answer. -/
inductive Fault where
  | panic
  | failed (failure : Failure)
  deriving DecidableEq

/-! ## Machine operations -/

def usizeMax : Nat := 2 ^ 64 - 1

def checkedMul (a b : Nat) : Option Nat := if a * b ≤ usizeMax then some (a * b) else none

/-- A product whose overflow stops the program. -/
def mul (a b : Nat) : Except Fault Nat := if a * b ≤ usizeMax then .ok (a * b) else .error .panic

def orFailed (failure : Failure) : Option Nat → Except Fault Nat
  | some n => .ok n
  | none => .error (.failed failure)

/-- `data[..n]`. -/
def sliceTo {α : Type} (n : Nat) (data : List α) : Except Fault (List α) :=
  if n ≤ data.length then .ok (data.take n) else .error .panic

/-- `data.chunks_exact(size)`. -/
def chunks {α : Type} (size : Nat) (data : List α) : Except Fault (List (List α)) :=
  if size = 0 then .error .panic else .ok (chunksExact size data)

def shiftLeft32 (value shift : Nat) : Except Fault Nat :=
  if shift < 32 then .ok (value <<< shift % 2 ^ 32) else .error .panic

def shiftRight32 (value shift : Nat) : Except Fault Nat :=
  if shift < 32 then .ok (value >>> shift) else .error .panic

def divide (a b : Nat) : Except Fault Nat := if b = 0 then .error .panic else .ok (a / b)

def divCeil (a b : Nat) : Except Fault Nat := do
  let quotient ← divide a b
  return if a % b > 0 then quotient + 1 else quotient

def isPowerOfTwo (n : Nat) : Bool := (List.range 32).any fun k => n == 2 ^ k

/-! ## Captures -/

inductive ImageOrder where
  | lsbFirst | msbFirst
  deriving DecidableEq

/-- The masks of a `TrueColor` visual. -/
structure Visualtype where
  redMask : UInt32
  greenMask : UInt32
  blueMask : UInt32

structure RawCapture where
  width : UInt16
  height : UInt16
  depth : UInt8
  visual : Visualtype
  bitsPerPixel : UInt8
  scanlinePad : UInt8
  imageByteOrder : ImageOrder
  data : List UInt8

structure PixmapGeometry where
  depth : UInt8
  width : UInt16
  height : UInt16

structure PixmapFormat where
  depth : UInt8
  bitsPerPixel : UInt8
  scanlinePad : UInt8

structure Image where
  depth : UInt8
  data : List UInt8

/-- What the server answers about one pixmap, and what its setup says. -/
structure PixmapReplies where
  getGeometry : Except XFault PixmapGeometry
  pixmapFormats : List PixmapFormat
  imageByteOrder : ImageOrder
  getImage : Nat → Nat → UInt16 → UInt16 → Except XFault Image

def validateDimensions (width height : UInt16) : Except Failure Unit :=
  refuseIf (width = 0 ∨ height = 0 ∨ width.toNat > maxCaptureWidth ∨
      height.toNat > maxCaptureHeight ∨ width.toNat * height.toNat > maxCapturePixels)
    (.tooLarge "capture target exceeds the published image bounds")

/-- The rectangle of a pixmap that is read; its corner is a pair of signed words. -/
def captureRectangle (geometry : PixmapGeometry) :
    Option CaptureRegion → Except Failure (Nat × Nat × UInt16 × UInt16)
  | some region => do
    refuseIf (region.x + region.width > maxU16)
      (.invalid "capture region horizontal extent overflowed")
    refuseIf (region.y + region.height > maxU16)
      (.invalid "capture region vertical extent overflowed")
    refuseIf (region.x + region.width > geometry.width.toNat ∨
        region.y + region.height > geometry.height.toNat)
      (.invalid "capture region extends outside the current target")
    refuseIf (region.x ≥ 2 ^ 15) (.invalid "capture region x is unsupported")
    refuseIf (region.y ≥ 2 ^ 15) (.invalid "capture region y is unsupported")
    return (region.x, region.y, UInt16.ofNat region.width, UInt16.ofNat region.height)
  | none => do
    validateDimensions geometry.width geometry.height
    return (0, 0, geometry.width, geometry.height)

def readNamedPixmap (pixmap : PixmapReplies) (visual : Visualtype) (region : Option CaptureRegion) :
    Except Failure RawCapture := do
  let geometry ← checked "cannot inspect the target pixmap" "cannot inspect the target pixmap"
    pixmap.getGeometry
  let (x, y, width, height) ← captureRectangle geometry region
  match pixmap.pixmapFormats.find? fun format => format.depth = geometry.depth with
  | none => throw (.unsupported "capture pixmap format is unavailable")
  | some format =>
    refuseIf (¬ (format.bitsPerPixel = 16 ∨ format.bitsPerPixel = 24 ∨ format.bitsPerPixel = 32) ∨
        format.scanlinePad = 0 ∨ format.scanlinePad % 8 ≠ 0)
      (.unsupported "capture pixmap storage format is unsupported")
    let image ← checked "cannot request capture pixels" "cannot read capture pixels"
      (pixmap.getImage x y width height)
    refuseIf (image.depth ≠ geometry.depth) (.unavailable "capture pixel depth changed")
    return ⟨width, height, image.depth, visual, format.bitsPerPixel, format.scanlinePad,
      pixmap.imageByteOrder, image.data⟩

def pixelValue (bytes : List UInt8) : ImageOrder → Except Fault Nat
  | .lsbFirst => bytes.zipIdx.foldlM (fun value byte => do
      let shifted ← shiftLeft32 byte.1.toNat (byte.2 * 8)
      return value ||| shifted) 0
  | .msbFirst => bytes.foldlM (fun value byte => do
      let shifted ← shiftLeft32 value 8
      return shifted ||| byte.toNat) 0

def component (pixel : Nat) (mask : UInt32) : Except Fault UInt8 :=
  if mask = 0 then .error (.failed (.unsupported "capture visual has an empty color mask"))
  else do
    let shift := trailingZeros 32 mask.toNat
    let maximum ← shiftRight32 mask.toNat shift
    if ¬ (maximum + 1 < 2 ^ 32 ∧ isPowerOfTwo (maximum + 1) = true) then
      .error (.failed (.unsupported "capture visual has a noncontiguous color mask"))
    else do
      let value ← shiftRight32 (pixel &&& mask.toNat) shift
      let scaled ← divide (value * 255 + maximum / 2) maximum
      if scaled < 2 ^ 8 then .ok (UInt8.ofNat scaled)
      else .error (.failed (.unsupported "capture color conversion overflowed"))

/-- The three samples of a pixel. -/
def samples (visual : Visualtype) (order : ImageOrder) (pixel : List UInt8) :
    Except Fault (List UInt8) := do
  let value ← pixelValue pixel order
  let red ← component value visual.redMask
  let green ← component value visual.greenMask
  let blue ← component value visual.blueMask
  return [red, green, blue]

def RawCapture.toRgb (self : RawCapture) : Except Fault (List UInt8) :=
  if self.depth = 0 then .error (.failed (.unsupported "capture pixmap has no color depth"))
  else do
    let pixelBytes := (self.bitsPerPixel / 8).toNat
    let rowBits ← orFailed (.tooLarge "capture scanline size overflowed")
      (checkedMul self.width.toNat self.bitsPerPixel.toNat)
    let pad := self.scanlinePad.toNat
    let padded ← divCeil rowBits pad
    let stride ← orFailed (.tooLarge "capture scanline size overflowed")
      ((checkedMul padded pad).map (· / 8))
    let required ← orFailed (.tooLarge "capture pixel storage overflowed")
      (checkedMul stride self.height.toNat)
    if self.data.length < required ∨ self.data.length > min (required + 3) usizeMax then
      .error (.failed (.unavailable "capture pixel storage has an unexpected length"))
    else do
      let pixelCount ← mul self.width.toNat self.height.toNat
      -- the capacity of the output
      let _ ← mul pixelCount 3
      let rows ← chunks stride (← sliceTo required self.data)
      concatM (fun row => do
        let rowBytes ← mul self.width.toNat pixelBytes
        let pixels ← chunks pixelBytes (← sliceTo rowBytes row)
        concatM (samples self.visual self.imageByteOrder) pixels) rows

/-! ## What a capture can be -/

/-- What `read_named_pixmap` checks of a capture before it is built. -/
structure RawCapture.Buildable (raw : RawCapture) : Prop where
  width_pos : 0 < raw.width.toNat
  height_pos : 0 < raw.height.toNat
  bits : raw.bitsPerPixel = 16 ∨ raw.bitsPerPixel = 24 ∨ raw.bitsPerPixel = 32
  pad_ne : raw.scanlinePad ≠ 0
  pad_bytes : raw.scanlinePad % 8 = 0

theorem captureRectangle_pos {geometry : PixmapGeometry} {region : Option CaptureRegion}
    (hregion : ∀ r, region = some r → r.validate = .ok ()) {x y : Nat} {width height : UInt16}
    (h : captureRectangle geometry region = .ok (x, y, width, height)) :
    0 < width.toNat ∧ 0 < height.toNat := by
  cases region with
  | some r =>
    have hvalid := hregion r rfl
    simp only [CaptureRegion.validate, Check.and_eq_ok, ensure_eq_ok, decide_eq_true_eq,
      Bool.not_eq_true', decide_eq_false_iff_not, not_or] at hvalid
    obtain ⟨-, hx, hy, hwidth, hheight, -⟩ := hvalid
    unfold captureRectangle at h
    iterate 5 obtain ⟨_, -, h⟩ := Lib.except_bind_ok h
    simp only [pure, Except.pure, Except.ok.injEq, Prod.mk.injEq] at h
    obtain ⟨-, -, rfl, rfl⟩ := h
    unfold maxU16 at hx hy
    rw [UInt16.toNat_ofNat', UInt16.toNat_ofNat']
    omega
  | none =>
    unfold captureRectangle at h
    obtain ⟨_, hbounds, h⟩ := Lib.except_bind_ok h
    simp only [pure, Except.pure, Except.ok.injEq, Prod.mk.injEq] at h
    obtain ⟨-, -, rfl, rfl⟩ := h
    have hgood := refuseIf_ok hbounds
    simp only [not_or] at hgood
    have hpos {n : UInt16} (hn : n ≠ 0) : 0 < n.toNat :=
      Nat.pos_of_ne_zero fun hzero => hn (UInt16.toNat_inj.1 hzero)
    exact ⟨hpos hgood.1, hpos hgood.2.1⟩

/-- The captures are those that the claims below are about. -/
theorem readNamedPixmap_buildable {pixmap : PixmapReplies} {visual : Visualtype}
    {region : Option CaptureRegion} (hregion : ∀ r, region = some r → r.validate = .ok ())
    {raw : RawCapture} (h : readNamedPixmap pixmap visual region = .ok raw) : raw.Buildable := by
  unfold readNamedPixmap at h
  obtain ⟨geometry, -, h⟩ := Lib.except_bind_ok h
  obtain ⟨⟨x, y, width, height⟩, hrectangle, h⟩ := Lib.except_bind_ok h
  obtain ⟨hwidth, hheight⟩ := captureRectangle_pos hregion hrectangle
  dsimp only at h
  split at h
  · exact absurd h (by simp [throw, throwThe, MonadExceptOf.throw])
  · obtain ⟨_, hformat, h⟩ := Lib.except_bind_ok h
    obtain ⟨image, -, h⟩ := Lib.except_bind_ok h
    obtain ⟨_, -, h⟩ := Lib.except_bind_ok h
    simp only [pure, Except.pure, Except.ok.injEq] at h
    have hgood := refuseIf_ok hformat
    rw [not_or, not_not, not_or, not_not] at hgood
    rw [← h]
    exact ⟨hwidth, hheight, hgood.1, hgood.2.1, hgood.2.2⟩

/-- The next multiple. -/
def roundUp (n m : Nat) : Nat := (n + (m - 1)) / m * m

def RawCapture.pixelBytes (raw : RawCapture) : Nat := raw.bitsPerPixel.toNat / 8

/-- The bytes of a row: its bits rounded up to the scanline pad. -/
def RawCapture.stride (raw : RawCapture) : Nat :=
  roundUp (raw.width.toNat * raw.bitsPerPixel.toNat) raw.scanlinePad.toNat / 8

def RawCapture.required (raw : RawCapture) : Nat := raw.stride * raw.height.toNat

/-- The bytes of a pixel. -/
def RawCapture.pixelAt (raw : RawCapture) (x y : Nat) : List UInt8 :=
  (raw.data.drop (y * raw.stride + x * raw.pixelBytes)).take raw.pixelBytes

theorem divCeil_eq {a b : Nat} (hb : b ≠ 0) : divCeil a b = .ok ((a + (b - 1)) / b) := by
  have hpos : 0 < b := Nat.pos_of_ne_zero hb
  have hmod : a % b < b := Nat.mod_lt a hpos
  have hparts : b * (a / b) + a % b = a := Nat.div_add_mod a b
  have hceil : (if a % b > 0 then a / b + 1 else a / b) = (a + (b - 1)) / b := by
    symm
    split_ifs with h
    · exact Nat.div_eq_of_lt_le (by rw [Nat.add_mul, Nat.mul_comm]; omega)
        (by rw [Nat.add_mul, Nat.add_mul, Nat.mul_comm (a / b)]; omega)
    · exact Nat.div_eq_of_lt_le (by rw [Nat.mul_comm]; omega)
        (by rw [Nat.add_mul, Nat.mul_comm (a / b)]; omega)
  show (divide a b >>= fun quotient => pure (if a % b > 0 then quotient + 1 else quotient)) = _
  rw [divide, if_neg hb]
  exact congrArg Except.ok hceil

theorem roundUp_le (n : Nat) {m : Nat} (hm : 0 < m) : n ≤ roundUp n m ∧ roundUp n m < n + m := by
  unfold roundUp
  have hparts := Nat.div_add_mod (n + (m - 1)) m
  have hmod := Nat.mod_lt (n + (m - 1)) hm
  rw [Nat.mul_comm] at hparts
  omega

namespace RawCapture.Buildable

variable {raw : RawCapture} (h : raw.Buildable)
include h

theorem pad_pos : 0 < raw.scanlinePad.toNat := by
  refine Nat.pos_of_ne_zero fun hzero => h.pad_ne ?_
  exact UInt8.toNat_inj.1 hzero

theorem bits_eq : raw.bitsPerPixel.toNat = raw.pixelBytes * 8 ∧ 2 ≤ raw.pixelBytes ∧
    raw.pixelBytes ≤ 4 := by
  unfold RawCapture.pixelBytes
  obtain hbits | hbits | hbits := h.bits <;> rw [hbits] <;> decide

/-- A row is a whole number of bytes. -/
theorem stride_eq : raw.stride * 8 =
    roundUp (raw.width.toNat * raw.bitsPerPixel.toNat) raw.scanlinePad.toNat := by
  have hpad : raw.scanlinePad.toNat % 8 = 0 := congrArg UInt8.toNat h.pad_bytes
  have hdvd : 8 ∣ roundUp (raw.width.toNat * raw.bitsPerPixel.toNat) raw.scanlinePad.toNat :=
    Dvd.dvd.mul_left (Nat.dvd_of_mod_eq_zero hpad) _
  exact Nat.div_mul_cancel hdvd

theorem row_le : raw.width.toNat * raw.pixelBytes ≤ raw.stride := by
  have hround := (roundUp_le (raw.width.toNat * raw.bitsPerPixel.toNat) h.pad_pos).1
  rw [← h.stride_eq, h.bits_eq.1, ← Nat.mul_assoc] at hround
  omega

theorem stride_pos : 0 < raw.stride := by
  have hrow := h.row_le
  have hpos : 0 < raw.width.toNat * raw.pixelBytes :=
    Nat.mul_pos h.width_pos (by have := h.bits_eq.2.1; omega)
  omega

/-- Sixteen-bit dimensions are far from the bounds of a machine word. -/
theorem sizes : raw.width.toNat * raw.bitsPerPixel.toNat ≤ 65536 * 32 ∧
    raw.stride * 8 ≤ 65536 * 32 + 256 ∧ raw.required ≤ 262176 * 65536 ∧
    raw.width.toNat * raw.height.toNat ≤ 65536 * 65536 := by
  have hwidth : raw.width.toNat < 65536 := raw.width.toNat_lt
  have hheight : raw.height.toNat < 65536 := raw.height.toNat_lt
  have hpad : raw.scanlinePad.toNat < 256 := raw.scanlinePad.toNat_lt
  have hbits : raw.bitsPerPixel.toNat ≤ 32 := by have := h.bits_eq; omega
  have hrow : raw.width.toNat * raw.bitsPerPixel.toNat ≤ 65536 * 32 :=
    Nat.mul_le_mul (Nat.le_of_lt hwidth) hbits
  have hstride : raw.stride * 8 ≤ 65536 * 32 + 256 := by
    have := (roundUp_le (raw.width.toNat * raw.bitsPerPixel.toNat) h.pad_pos).2
    rw [h.stride_eq]
    omega
  refine ⟨hrow, hstride, Nat.mul_le_mul (by omega) (Nat.le_of_lt hheight), ?_⟩
  exact Nat.mul_le_mul (Nat.le_of_lt hwidth) (Nat.le_of_lt hheight)

end RawCapture.Buildable

/-! ## Pixels -/

/-- The number of a pixel in the byte order of the image. -/
def ordered : ImageOrder → List UInt8 → Nat
  | .lsbFirst => littleEndian
  | .msbFirst => bigEndian

theorem shiftLeft32_eq {value shift : Nat} (hshift : shift < 32) (h : value <<< shift < 2 ^ 32) :
    shiftLeft32 value shift = .ok (value <<< shift) := by
  rw [shiftLeft32, if_pos hshift, Nat.mod_eq_of_lt h]

theorem fold_lsb : ∀ (rest before : List UInt8), before.length + rest.length ≤ 4 →
    (rest.zipIdx before.length).foldlM (fun value byte => do
      let shifted ← shiftLeft32 byte.1.toNat (byte.2 * 8)
      return value ||| shifted) (littleEndian before) = .ok (littleEndian (before ++ rest))
  | [], before, _ => by rw [List.append_nil]; rfl
  | b :: rest, before, hlength => by
    rw [List.length_cons] at hlength
    have hshifted : b.toNat <<< (before.length * 8) < 2 ^ 32 := by
      have hb := b.toNat_lt
      rw [Nat.shiftLeft_eq]
      calc b.toNat * 2 ^ (before.length * 8) < 2 ^ 8 * 2 ^ (before.length * 8) :=
            Nat.mul_lt_mul_of_pos_right hb (Nat.two_pow_pos _)
        _ = 2 ^ (8 + before.length * 8) := (Nat.pow_add 2 8 _).symm
        _ ≤ 2 ^ 32 := Nat.pow_le_pow_right (by omega) (by omega)
    have ih := fold_lsb rest (before ++ [b]) (by
      rw [List.length_append, List.length_singleton]
      omega)
    rw [List.length_append, List.length_singleton, List.append_assoc] at ih
    rw [List.zipIdx_cons, List.foldlM_cons, shiftLeft32_eq (by omega) hshifted]
    show List.foldlM _ (littleEndian before ||| b.toNat <<< (before.length * 8)) _ = _
    rw [or_shiftLeft rfl]
    exact ih

theorem fold_msb : ∀ (rest before : List UInt8), before.length + rest.length ≤ 4 →
    rest.foldlM (fun value byte => do
      let shifted ← shiftLeft32 value 8
      return shifted ||| byte.toNat) (bigEndian before) = .ok (bigEndian (before ++ rest))
  | [], before, _ => by rw [List.append_nil]; rfl
  | b :: rest, before, hlength => by
    rw [List.length_cons] at hlength
    have hshifted : bigEndian before <<< 8 < 2 ^ 32 := by
      have hbefore := littleEndian_lt before.reverse
      rw [List.length_reverse] at hbefore
      have hbound : 256 ^ before.length ≤ 256 ^ 3 := Nat.pow_le_pow_right (by omega) (by omega)
      rw [Nat.shiftLeft_eq, bigEndian]
      omega
    have ih := fold_msb rest (before ++ [b]) (by
      rw [List.length_append, List.length_singleton]
      omega)
    rw [List.append_assoc] at ih
    rw [List.foldlM_cons, shiftLeft32_eq (by omega) hshifted]
    show List.foldlM _ (bigEndian before <<< 8 ||| b.toNat) _ = _
    rw [shiftLeft_or rfl]
    exact ih

theorem pixelValue_eq {bytes : List UInt8} (h : bytes.length ≤ 4) (order : ImageOrder) :
    pixelValue bytes order = .ok (ordered order bytes) := by
  cases order with
  | lsbFirst => exact fold_lsb bytes [] (by rw [List.length_nil]; omega)
  | msbFirst => exact fold_msb bytes [] (by rw [List.length_nil]; omega)

/-! ## Samples -/

/-- What `component` does with a mask that is not empty. -/
theorem component_cases (pixel : Nat) {mask : UInt32} (hmask : mask ≠ 0) :
    ∃ maximum, maximum = mask.toNat >>> trailingZeros 32 mask.toNat ∧ 0 < maximum ∧
      component pixel mask =
        if maximum + 1 < 2 ^ 32 ∧ isPowerOfTwo (maximum + 1) = true then
          .ok (UInt8.ofNat (((pixel &&& mask.toNat) >>> trailingZeros 32 mask.toNat * 255 +
            maximum / 2) / maximum))
        else .error (.failed (.unsupported "capture visual has a noncontiguous color mask")) := by
  have hne : mask.toNat ≠ 0 := fun hzero => hmask (UInt32.toNat_inj.1 hzero)
  obtain ⟨hshift, hpos⟩ := trailingZeros_lt hne mask.toNat_lt
  refine ⟨_, rfl, hpos, ?_⟩
  have hle : ((pixel &&& mask.toNat) >>> trailingZeros 32 mask.toNat * 255 +
      mask.toNat >>> trailingZeros 32 mask.toNat / 2) /
        mask.toNat >>> trailingZeros 32 mask.toNat < 2 ^ 8 := by
    have hfield := field_le pixel mask.toNat (trailingZeros 32 mask.toNat)
    rw [Nat.div_lt_iff_lt_mul hpos]
    omega
  unfold component
  rw [if_neg hmask]
  simp only [shiftRight32, if_pos hshift, divide, if_neg (Nat.pos_iff_ne_zero.1 hpos), if_pos hle,
    bind, Except.bind]
  split_ifs
  · rfl
  · rfl

/-- A mask that selects `width` bits above the lowest `low` ones. -/
structure Contiguous (mask : UInt32) (low width : Nat) : Prop where
  nonempty : 0 < width
  inside : low + width ≤ 32
  ones : mask.toNat = ones low width

/-- The sample that stands for a field of a pixel: the field's share of its largest value. -/
def sample (low width pixel : Nat) : UInt8 :=
  UInt8.ofNat (roundHalfUp (255 * (pixel / 2 ^ low % 2 ^ width)) (2 ^ width - 1))

/-- The field of the whole word is the one contiguous mask that this leaves out. -/
theorem component_contiguous {mask : UInt32} {low width : Nat} (h : Contiguous mask low width)
    (hpart : width < 32) (pixel : Nat) : component pixel mask = .ok (sample low width pixel) := by
  have hpow : 1 < 2 ^ width := Nat.one_lt_two_pow (Nat.pos_iff_ne_zero.1 h.nonempty)
  have hzeros : trailingZeros 32 mask.toNat = low := by
    rw [h.ones]
    exact trailingZeros_ones h.nonempty (by have := h.inside; have := h.nonempty; omega)
  have hne : mask ≠ 0 := by
    rintro rfl
    have hshifted := ones_shiftRight low width
    rw [← h.ones] at hshifted
    have hzero : (0 : UInt32).toNat >>> low = 0 := Nat.zero_shiftRight low
    omega
  obtain ⟨maximum, hmaximum, -, hcomponent⟩ := component_cases pixel hne
  rw [hzeros, h.ones, ones_shiftRight] at hmaximum
  have hpower : isPowerOfTwo (maximum + 1) = true := by
    rw [isPowerOfTwo, List.any_eq_true]
    exact ⟨width, List.mem_range.2 hpart, beq_iff_eq.2 (by omega)⟩
  have hbound : maximum + 1 < 2 ^ 32 := by
    have := Nat.pow_lt_pow_right (a := 2) (by omega) hpart
    omega
  rw [hcomponent, if_pos ⟨hbound, hpower⟩, hzeros, h.ones, field_eq,
    roundHalfUp_odd (by rw [hmaximum]; exact two_pow_odd h.nonempty), hmaximum, Nat.mul_comm _ 255]
  rfl

/-! ## Pictures -/

/-- The bytes of a row. -/
def RawCapture.rowAt (raw : RawCapture) (y : Nat) : List UInt8 :=
  (raw.data.drop (y * raw.stride)).take raw.stride

section Rows

variable {raw : RawCapture} (h : raw.Buildable) (hdata : raw.required ≤ raw.data.length)
include h hdata

theorem rows_eq : chunksExact raw.stride (raw.data.take raw.required) =
    (List.range raw.height.toNat).map raw.rowAt := by
  have hlength : (raw.data.take raw.required).length = raw.height.toNat * raw.stride := by
    rw [List.length_take, Nat.min_eq_left hdata, RawCapture.required, Nat.mul_comm]
  rw [chunksExact_eq h.stride_pos hlength]
  refine List.map_congr_left fun y hy => ?_
  have hend : (y + 1) * raw.stride ≤ raw.required := by
    rw [RawCapture.required, Nat.mul_comm raw.stride]
    exact Nat.mul_le_mul_right _ (List.mem_range.1 hy)
  rw [Nat.add_mul, Nat.one_mul] at hend
  exact take_drop_take hend raw.data

omit h in
theorem length_rowAt {y : Nat} (hy : y < raw.height.toNat) : (raw.rowAt y).length = raw.stride := by
  have hend : (y + 1) * raw.stride ≤ raw.required := by
    rw [RawCapture.required, Nat.mul_comm raw.stride]
    exact Nat.mul_le_mul_right _ hy
  rw [Nat.add_mul, Nat.one_mul] at hend
  rw [RawCapture.rowAt, List.length_take, List.length_drop]
  omega

theorem pixels_eq {y : Nat} (hy : y < raw.height.toNat) :
    chunksExact raw.pixelBytes ((raw.rowAt y).take (raw.width.toNat * raw.pixelBytes)) =
      (List.range raw.width.toNat).map fun x => raw.pixelAt x y := by
  have hrow := h.row_le
  have hlength : ((raw.rowAt y).take (raw.width.toNat * raw.pixelBytes)).length =
      raw.width.toNat * raw.pixelBytes := by
    rw [List.length_take, length_rowAt hdata hy]
    omega
  rw [chunksExact_eq (by have := h.bits_eq.2.1; omega) hlength]
  refine List.map_congr_left fun x hx => ?_
  have hend : (x + 1) * raw.pixelBytes ≤ raw.width.toNat * raw.pixelBytes :=
    Nat.mul_le_mul_right _ (List.mem_range.1 hx)
  rw [Nat.add_mul, Nat.one_mul] at hend
  rw [take_drop_take hend, RawCapture.rowAt, take_drop_take (by omega), List.drop_drop]
  rfl

end Rows

/-- A picture whose bytes are all there is converted pixel by pixel, row by row. -/
theorem toRgb_eq {raw : RawCapture} (h : raw.Buildable) (hdepth : raw.depth ≠ 0) : raw.toRgb =
    if raw.required ≤ raw.data.length ∧ raw.data.length ≤ raw.required + 3 then
      concatM (fun y => concatM (fun x => samples raw.visual raw.imageByteOrder (raw.pixelAt x y))
        (List.range raw.width.toNat)) (List.range raw.height.toNat)
    else .error (.failed (.unavailable "capture pixel storage has an unexpected length")) := by
  obtain ⟨hrow, hstride, hrequired, hcount⟩ := h.sizes
  have hbytes : (raw.bitsPerPixel / 8).toNat = raw.pixelBytes := rfl
  have hpad : raw.scanlinePad.toNat ≠ 0 := Nat.pos_iff_ne_zero.1 h.pad_pos
  have hpadded : (raw.width.toNat * raw.bitsPerPixel.toNat + (raw.scanlinePad.toNat - 1)) /
      raw.scanlinePad.toNat * raw.scanlinePad.toNat = raw.stride * 8 := h.stride_eq.symm
  unfold RawCapture.toRgb
  rw [if_neg hdepth, checkedMul, if_pos (by unfold usizeMax; omega)]
  simp only [orFailed, bind, Except.bind]
  rw [divCeil_eq hpad]
  simp only [checkedMul, hpadded]
  rw [if_pos (by unfold usizeMax; omega)]
  simp only [Option.map_some, Nat.mul_div_cancel _ (show 0 < 8 by omega)]
  rw [show raw.stride * raw.height.toNat = raw.required from rfl, if_pos (by unfold usizeMax; omega)]
  by_cases hdata : raw.required ≤ raw.data.length ∧ raw.data.length ≤ raw.required + 3
  swap
  · rw [if_neg hdata]
    exact if_pos (by unfold usizeMax; omega)
  rw [if_pos hdata]
  refine (if_neg (by unfold usizeMax; omega)).trans ?_
  simp only [mul, sliceTo, chunks]
  rw [if_pos (by unfold usizeMax; omega)]
  simp only [if_neg (Nat.pos_iff_ne_zero.1 h.stride_pos), if_pos hdata.1]
  rw [if_pos (by unfold usizeMax; omega), rows_eq h hdata.1, concatM_map]
  refine concatM_congr fun y hy => ?_
  have hrowBytes := h.row_le
  have hpixel : raw.pixelBytes ≠ 0 := by
    have := h.bits_eq.2.1
    omega
  rw [hbytes, if_pos (by unfold usizeMax; omega)]
  simp only [length_rowAt hdata.1 (List.mem_range.1 hy), if_pos hrowBytes, if_neg hpixel]
  rw [pixels_eq h hdata.1 (List.mem_range.1 hy), concatM_map]

theorem component_error {pixel : Nat} {mask : UInt32} {fault : Fault}
    (h : component pixel mask = .error fault) :
    fault = .failed (.unsupported "capture visual has an empty color mask") ∨
      fault = .failed (.unsupported "capture visual has a noncontiguous color mask") := by
  by_cases hmask : mask = 0
  · rw [component, if_pos hmask] at h
    exact .inl (Except.error.inj h).symm
  · obtain ⟨maximum, -, -, hcomponent⟩ := component_cases pixel hmask
    rw [hcomponent] at h
    split_ifs at h
    exact .inr (Except.error.inj h).symm

/-- Only a mask can fail a pixel. -/
theorem samples_error {visual : Visualtype} {order : ImageOrder} {pixel : List UInt8} {fault : Fault}
    (hpixel : pixel.length ≤ 4) (h : samples visual order pixel = .error fault) :
    fault = .failed (.unsupported "capture visual has an empty color mask") ∨
      fault = .failed (.unsupported "capture visual has a noncontiguous color mask") := by
  unfold samples at h
  obtain hvalue | ⟨value, -, h⟩ := except_bind_error h
  · rw [pixelValue_eq hpixel] at hvalue
    exact absurd hvalue (by simp)
  obtain hred | ⟨red, -, h⟩ := except_bind_error h
  · exact component_error hred
  obtain hgreen | ⟨green, -, h⟩ := except_bind_error h
  · exact component_error hgreen
  obtain hblue | ⟨blue, -, h⟩ := except_bind_error h
  · exact component_error hblue
  · exact absurd h (by simp [pure, Except.pure])

theorem length_pixelAt (raw : RawCapture) (x y : Nat) : (raw.pixelAt x y).length ≤ raw.pixelBytes := by
  rw [RawCapture.pixelAt, List.length_take]
  exact Nat.min_le_left _ _

/-- The ways a conversion fails. -/
theorem toRgb_error {raw : RawCapture} (h : raw.Buildable) {fault : Fault}
    (hfault : raw.toRgb = .error fault) :
    fault = .failed (.unsupported "capture pixmap has no color depth") ∨
      fault = .failed (.unavailable "capture pixel storage has an unexpected length") ∨
      fault = .failed (.unsupported "capture visual has an empty color mask") ∨
      fault = .failed (.unsupported "capture visual has a noncontiguous color mask") := by
  by_cases hdepth : raw.depth = 0
  · rw [RawCapture.toRgb, if_pos hdepth] at hfault
    exact .inl (Except.error.inj hfault).symm
  · rw [toRgb_eq h hdepth] at hfault
    split_ifs at hfault
    · obtain ⟨y, -, hy⟩ := concatM_error hfault
      obtain ⟨x, -, hx⟩ := concatM_error hy
      have hpixel := length_pixelAt raw x y
      exact .inr (.inr (samples_error (by have := h.bits_eq; omega) hx))
    · exact .inr (.inl (Except.error.inj hfault).symm)

/-- The masks of a visual, none of them the whole word. -/
structure Visualtype.Fields (visual : Visualtype) (lows widths : Fin 3 → Nat) : Prop where
  red : Contiguous visual.redMask (lows 0) (widths 0)
  green : Contiguous visual.greenMask (lows 1) (widths 1)
  blue : Contiguous visual.blueMask (lows 2) (widths 2)
  parts : ∀ k, widths k < 32

/-- The samples that stand for a pixel. -/
def RawCapture.rgbAt (raw : RawCapture) (lows widths : Fin 3 → Nat) (x y : Nat) : List UInt8 :=
  (List.finRange 3).map fun k =>
    sample (lows k) (widths k) (ordered raw.imageByteOrder (raw.pixelAt x y))

theorem samples_ok {raw : RawCapture} (h : raw.Buildable) {lows widths : Fin 3 → Nat}
    (hfields : raw.visual.Fields lows widths) (x y : Nat) :
    samples raw.visual raw.imageByteOrder (raw.pixelAt x y) = .ok (raw.rgbAt lows widths x y) := by
  have hpixel := length_pixelAt raw x y
  unfold samples
  rw [pixelValue_eq (by have := h.bits_eq; omega)]
  simp only [bind, Except.bind]
  rw [component_contiguous hfields.red (hfields.parts 0),
    component_contiguous hfields.green (hfields.parts 1),
    component_contiguous hfields.blue (hfields.parts 2)]
  rfl

/-- The whole picture. -/
def RawCapture.rgb (raw : RawCapture) (lows widths : Fin 3 → Nat) : List UInt8 :=
  (List.range raw.height.toNat).flatMap fun y =>
    (List.range raw.width.toNat).flatMap fun x => raw.rgbAt lows widths x y

theorem length_rgbAt (raw : RawCapture) (lows widths : Fin 3 → Nat) (x y : Nat) :
    (raw.rgbAt lows widths x y).length = 3 := by
  rw [RawCapture.rgbAt, List.length_map, List.length_finRange]

theorem length_rgbRow (raw : RawCapture) (lows widths : Fin 3 → Nat) (y : Nat) :
    ((List.range raw.width.toNat).flatMap fun x => raw.rgbAt lows widths x y).length =
      raw.width.toNat * 3 := by
  rw [length_flatMap_const (fun x _ => length_rgbAt raw lows widths x y), List.length_range]

theorem length_rgb (raw : RawCapture) (lows widths : Fin 3 → Nat) :
    (raw.rgb lows widths).length = 3 * (raw.width.toNat * raw.height.toNat) := by
  rw [RawCapture.rgb, length_flatMap_const (fun y _ => length_rgbRow raw lows widths y),
    List.length_range]
  ring

theorem rgb_sample (raw : RawCapture) (lows widths : Fin 3 → Nat) {x y : Nat}
    (hx : x < raw.width.toNat) (hy : y < raw.height.toNat) (k : Fin 3) :
    (raw.rgb lows widths)[3 * (y * raw.width.toNat + x) + k.val]? =
      some (sample (lows k) (widths k) (ordered raw.imageByteOrder (raw.pixelAt x y))) := by
  have hinside : x * 3 + k.val < raw.width.toNat * 3 := by
    have := k.isLt
    omega
  have hrow : (raw.rgb lows widths)[y * (raw.width.toNat * 3) + (x * 3 + k.val)]? =
      ((List.range raw.width.toNat).flatMap fun x => raw.rgbAt lows widths x y)[x * 3 + k.val]? :=
    getElem?_flatMap_const (fun y' _ => length_rgbRow raw lows widths y') (List.getElem?_range hy)
      hinside
  have hpixel : ((List.range raw.width.toNat).flatMap fun x =>
      raw.rgbAt lows widths x y)[x * 3 + k.val]? = (raw.rgbAt lows widths x y)[k.val]? :=
    getElem?_flatMap_const (fun x' _ => length_rgbAt raw lows widths x' y) (List.getElem?_range hx)
      k.isLt
  have hindex : 3 * (y * raw.width.toNat + x) + k.val = y * (raw.width.toNat * 3) + (x * 3 + k.val) := by
    ring
  rw [hindex, hrow, hpixel, RawCapture.rgbAt, List.getElem?_map]
  have hk : (List.finRange 3)[k.val]? = some k := by
    rw [List.getElem?_eq_getElem (by rw [List.length_finRange]; exact k.isLt), List.getElem_finRange]
    rfl
  rw [hk]
  rfl

/-! ## The conversion -/

/-- The two captures have the same bytes wherever a pixel is. -/
def RawCapture.SamePixels (raw other : RawCapture) : Prop :=
  ∀ x < raw.width.toNat, ∀ y < raw.height.toNat, raw.pixelAt x y = other.pixelAt x y

/-- A capture that can be built never stops the program, and no sample overflows. It fails for its
length just when the bytes are not those of its rows with at most three more; the bytes between the
pixels never matter; and fields that are runs of bits come out as their rounded shares of 255. -/
theorem to_rgb_exact (raw : RawCapture) (h : raw.Buildable) :
    raw.toRgb ≠ .error .panic ∧
    raw.toRgb ≠ .error (.failed (.unsupported "capture color conversion overflowed")) ∧
    (raw.depth = 0 →
      raw.toRgb = .error (.failed (.unsupported "capture pixmap has no color depth"))) ∧
    (raw.depth ≠ 0 →
      (raw.toRgb = .error (.failed (.unavailable "capture pixel storage has an unexpected length")) ↔
        ¬ (raw.required ≤ raw.data.length ∧ raw.data.length ≤ raw.required + 3))) ∧
    (∀ data, raw.required ≤ raw.data.length ∧ raw.data.length ≤ raw.required + 3 →
      raw.required ≤ data.length ∧ data.length ≤ raw.required + 3 →
      raw.SamePixels { raw with data := data } → raw.toRgb = { raw with data := data }.toRgb) ∧
    (raw.depth ≠ 0 → raw.required ≤ raw.data.length ∧ raw.data.length ≤ raw.required + 3 →
      ∀ lows widths, raw.visual.Fields lows widths → ∃ rgb, raw.toRgb = .ok rgb ∧
        rgb.length = 3 * (raw.width.toNat * raw.height.toNat) ∧
        ∀ x < raw.width.toNat, ∀ y < raw.height.toNat, ∀ k : Fin 3,
          rgb[3 * (y * raw.width.toNat + x) + k.val]? =
            some (sample (lows k) (widths k) (ordered raw.imageByteOrder (raw.pixelAt x y)))) := by
  refine ⟨?_, ?_, ?_, ?_, ?_, ?_⟩
  · intro hpanic
    have hfault := toRgb_error h hpanic
    simp at hfault
  · intro hoverflow
    have hfault := toRgb_error h hoverflow
    simp [Failure.unsupported, Failure.unavailable] at hfault
  · intro hdepth
    rw [RawCapture.toRgb, if_pos hdepth]
  · intro hdepth
    rw [toRgb_eq h hdepth]
    split_ifs with hdata
    · refine iff_of_false (fun hfault => ?_) (fun hnot => hnot hdata)
      obtain ⟨y, -, hy⟩ := concatM_error hfault
      obtain ⟨x, -, hx⟩ := concatM_error hy
      have hpixel := length_pixelAt raw x y
      have hmask := samples_error (by have := h.bits_eq; omega) hx
      simp [Failure.unsupported, Failure.unavailable] at hmask
    · exact iff_of_true rfl hdata
  · intro data hraw hdata hsame
    have hother : RawCapture.Buildable { raw with data := data } :=
      ⟨h.width_pos, h.height_pos, h.bits, h.pad_ne, h.pad_bytes⟩
    by_cases hdepth : raw.depth = 0
    · rw [RawCapture.toRgb, RawCapture.toRgb, if_pos hdepth, if_pos hdepth]
    · rw [toRgb_eq h hdepth, if_pos hraw, toRgb_eq hother hdepth]
      refine Eq.trans ?_ (if_pos hdata).symm
      refine concatM_congr fun y hy => concatM_congr fun x hx => ?_
      rw [hsame x (List.mem_range.1 hx) y (List.mem_range.1 hy)]
  · intro hdepth hdata lows widths hfields
    refine ⟨raw.rgb lows widths, ?_, length_rgb raw lows widths, fun x hx y hy k =>
      rgb_sample raw lows widths hx hy k⟩
    rw [toRgb_eq h hdepth, if_pos hdata]
    exact concatM_ok fun y _ => concatM_ok fun x _ => samples_ok h hfields x y

/-- One pixel of 32 bits, on a pixmap of the given depth. -/
def onePixel (depth : UInt8) : RawCapture :=
  ⟨1, 1, depth, ⟨0xff0000, 0xff00, 0xff⟩, 32, 32, .lsbFirst, [0x11, 0x22, 0x33, 0]⟩

theorem onePixel_buildable (depth : UInt8) : (onePixel depth).Buildable :=
  ⟨by show 0 < (1 : UInt16).toNat; decide, by show 0 < (1 : UInt16).toNat; decide, .inr (.inr rfl),
    by show (32 : UInt8) ≠ 0; decide, by show (32 : UInt8) % 8 = 0; decide⟩

theorem onePixel_fields (depth : UInt8) : (onePixel depth).visual.Fields (fun k => 16 - 8 * k.val) (fun _ => 8) :=
  ⟨⟨by decide, by decide, rfl⟩, ⟨by decide, by decide, rfl⟩, ⟨by decide, by decide, rfl⟩, by decide⟩

theorem to_rgb_exact_one : ∃ rgb, (onePixel 24).toRgb = .ok rgb ∧ rgb.length = 3 ∧
    rgb[0]? = some (sample 16 8 0x332211) := by
  obtain ⟨-, -, -, -, -, hrgb⟩ := to_rgb_exact (onePixel 24) (onePixel_buildable 24)
  obtain ⟨rgb, hok, hlength, hsamples⟩ := hrgb (by decide) (by decide) _ _ (onePixel_fields 24)
  exact ⟨rgb, hok, hlength, hsamples 0 (by decide) 0 (by decide) 0⟩

/-- Without a depth no picture is converted, whatever its masks and its length. -/
theorem to_rgb_no_depth : (onePixel 0).Buildable ∧ (onePixel 0).visual.Fields (fun k => 16 - 8 * k.val) (fun _ => 8) ∧
    (onePixel 0).required = (onePixel 0).data.length ∧ ¬ ∃ rgb, (onePixel 0).toRgb = .ok rgb := by
  refine ⟨onePixel_buildable 0, onePixel_fields 0, by decide, ?_⟩
  rintro ⟨rgb, hrgb⟩
  rw [RawCapture.toRgb, if_pos (show (onePixel 0).depth = 0 from rfl)] at hrgb
  exact absurd hrgb (by simp)

end AgentSeat.Capture
