/-
  The frames of the activity broker (`lib.rs` of `agent-seat-activity-broker`): the status a provider
  asks for, the request it asks with, and the assertions of the eligibility source.

  All three have a fixed length and one way of being written: a frame is accepted exactly if it is
  the encoding of what is read from it (`frames_exact`).
-/
import AgentSeat.Lib.Prog
import AgentSeat.Lib.Words

namespace AgentSeat.Broker

open AgentSeat.Lib AgentSeat.Lib.Words

inductive ProtocolError where
  | unavailable
  | incompatible
  | malformed
  deriving DecidableEq

/-! ## Eligibility -/

def eligibilityMagic : List UInt8 := [65, 83, 69, 76]
def eligibilityRevision : Nat := 1
def eligibilityFrameBytes : Nat := 8

inductive EligibilityState where
  | eligible
  | ineligible
  deriving DecidableEq

def EligibilityState.encode : EligibilityState → UInt8
  | .eligible => 1
  | .ineligible => 2

def EligibilityState.decode (value : UInt8) : Except ProtocolError EligibilityState :=
  if value = 1 then .ok .eligible else if value = 2 then .ok .ineligible else .error .malformed

/-- The two bytes of a `u16`, the high one first. -/
def revisionBytes (revision : Nat) : List UInt8 := (toLittleEndian 2 revision).reverse

def eligibilityFrame (state : EligibilityState) : List UInt8 :=
  eligibilityMagic ++ revisionBytes eligibilityRevision ++ [state.encode, 0]

/-- `read_eligibility` on what there is to read. -/
def readEligibility (source : List UInt8) : Except ProtocolError EligibilityState :=
  match source with
  | m0 :: m1 :: m2 :: m3 :: r0 :: r1 :: state :: last :: _ =>
    if [m0, m1, m2, m3] ≠ eligibilityMagic ∨ bigEndian [r0, r1] ≠ eligibilityRevision ∨ last ≠ 0 then
      .error .incompatible
    else EligibilityState.decode state
  | _ => .error .unavailable

/-! ## Status -/

def magic : List UInt8 := [65, 83, 65, 66]
def revision : Nat := 1
def opStatus : UInt8 := 1
def statusRequestBytes : Nat := 8
def statusResponseBytes : Nat := 24

inductive BrokerState where
  | arming
  | ready
  | stopped
  | unavailable
  deriving DecidableEq

def BrokerState.encode : BrokerState → UInt8
  | .arming => 4
  | .ready => 1
  | .stopped => 2
  | .unavailable => 3

def BrokerState.decode (value : UInt8) : Except ProtocolError BrokerState :=
  if value = 4 then .ok .arming
  else if value = 1 then .ok .ready
  else if value = 2 then .ok .stopped
  else if value = 3 then .ok .unavailable
  else .error .malformed

inductive StopReason where
  | none
  | activity
  | eventLoss
  | evidenceLost
  | internal
  | eligibilityChanged
  deriving DecidableEq

def StopReason.encode : StopReason → UInt8
  | .none => 0
  | .activity => 1
  | .eventLoss => 2
  | .evidenceLost => 3
  | .internal => 4
  | .eligibilityChanged => 5

def StopReason.decode (value : UInt8) : Except ProtocolError StopReason :=
  if value = 0 then .ok .none
  else if value = 1 then .ok .activity
  else if value = 2 then .ok .eventLoss
  else if value = 3 then .ok .evidenceLost
  else if value = 4 then .ok .internal
  else if value = 5 then .ok .eligibilityChanged
  else .error .malformed

/-- The states and reasons that go together. -/
def validState : BrokerState → StopReason → Bool
  | .arming, .none | .ready, .none => true
  | .stopped, .activity | .stopped, .eligibilityChanged => true
  | .unavailable, .eventLoss | .unavailable, .evidenceLost | .unavailable, .internal => true
  | _, _ => false

/-- One observation of a broker; `inst` is its `instance`. -/
structure BrokerStatus where
  inst : UInt64
  epoch : UInt64
  state : BrokerState
  reason : StopReason
  deriving DecidableEq

namespace BrokerStatus

/-- Two ready observations of one gate that has not changed. -/
def isSameReady (status later : BrokerStatus) : Bool :=
  status.state = .ready ∧ later.state = .ready ∧ status.inst = later.inst ∧
    status.epoch = later.epoch

def encode (status : BrokerStatus) : List UInt8 :=
  magic ++ revisionBytes revision ++ [status.state.encode, status.reason.encode] ++
    (toLittleEndian 8 status.inst.toNat).reverse ++ (toLittleEndian 8 status.epoch.toNat).reverse

/-- `decode` of a frame of the right length. -/
def decode (frame : List UInt8) : Except ProtocolError BrokerStatus :=
  match frame with
  | m0 :: m1 :: m2 :: m3 :: r0 :: r1 :: state :: reason :: rest =>
    if [m0, m1, m2, m3] ≠ magic ∨ bigEndian [r0, r1] ≠ revision then .error .incompatible
    else do
      let state ← BrokerState.decode state
      let reason ← StopReason.decode reason
      let inst := UInt64.ofNat (bigEndian (rest.take 8))
      let epoch := UInt64.ofNat (bigEndian (rest.drop 8))
      if validState state reason = false ∨ inst = 0 ∨ epoch = 0 then .error .malformed
      else return ⟨inst, epoch, state, reason⟩
  | _ => .error .unavailable

structure Valid (status : BrokerStatus) : Prop where
  state : validState status.state status.reason = true
  inst : status.inst ≠ 0
  epoch : status.epoch ≠ 0

end BrokerStatus

/-- `read_status_response` on what there is to read. -/
def readStatusResponse (source : List UInt8) : Except ProtocolError BrokerStatus :=
  if source.length < statusResponseBytes then .error .unavailable
  else BrokerStatus.decode (source.take statusResponseBytes)

def statusRequest : List UInt8 := magic ++ revisionBytes revision ++ [opStatus, 0]

/-- `read_status_request` on what there is to read. -/
def readStatusRequest (source : List UInt8) : Except ProtocolError Unit :=
  match source with
  | m0 :: m1 :: m2 :: m3 :: r0 :: r1 :: op :: last :: _ =>
    if [m0, m1, m2, m3] ≠ magic ∨ bigEndian [r0, r1] ≠ revision then .error .incompatible
    else if op ≠ opStatus ∨ last ≠ 0 then .error .malformed
    else .ok ()
  | _ => .error .unavailable

/-! ## Exactness -/

theorem eligibility_decode_iff {value : UInt8} {state : EligibilityState} :
    EligibilityState.decode value = .ok state ↔ value = state.encode := by
  unfold EligibilityState.decode
  cases state <;> split_ifs <;> simp_all [EligibilityState.encode]

theorem state_decode_iff {value : UInt8} {state : BrokerState} :
    BrokerState.decode value = .ok state ↔ value = state.encode := by
  unfold BrokerState.decode
  cases state <;> split_ifs <;> simp_all [BrokerState.encode]

theorem reason_decode_iff {value : UInt8} {reason : StopReason} :
    StopReason.decode value = .ok reason ↔ value = reason.encode := by
  unfold StopReason.decode
  cases reason <;> split_ifs <;> simp_all [StopReason.encode]

theorem frame_eight {frame : List UInt8} (hlength : frame.length = 8) :
    ∃ b0 b1 b2 b3 b4 b5 b6 b7, frame = [b0, b1, b2, b3, b4, b5, b6, b7] := by
  match frame, hlength with
  | [b0, b1, b2, b3, b4, b5, b6, b7], _ => exact ⟨b0, b1, b2, b3, b4, b5, b6, b7, rfl⟩

/-- The two checks at the head of a frame. -/
theorem head_iff {m0 m1 m2 m3 r0 r1 : UInt8} {start : List UInt8} {n : Nat}
    (hstart : start.length = 4) (hn : n < 256 ^ 2) :
    ([m0, m1, m2, m3] ≠ start ∨ bigEndian [r0, r1] ≠ n) ↔
      [m0, m1, m2, m3, r0, r1] ≠ start ++ revisionBytes n := by
  have hnumber : bigEndian [r0, r1] = n ↔ [r0, r1] = revisionBytes n := bigEndian_eq_iff hn
  rw [← not_iff_not]
  simp only [not_or, not_not, ne_eq, hnumber]
  constructor
  · rintro ⟨hmagic, hrevision⟩
    rw [← hmagic, ← hrevision]
    rfl
  · intro heq
    have heq : [m0, m1, m2, m3] ++ [r0, r1] = start ++ revisionBytes n := heq
    exact List.append_inj heq hstart.symm

/-- A `u64` and the eight bytes it is written in. -/
theorem word_iff {bytes : List UInt8} (hlength : bytes.length = 8) {n : UInt64} :
    UInt64.ofNat (bigEndian bytes) = n ↔ bytes = (toLittleEndian 8 n.toNat).reverse := by
  have hlt : bigEndian bytes < 2 ^ 64 := by
    have := littleEndian_lt bytes.reverse
    rwa [List.length_reverse, hlength] at this
  have hword : UInt64.ofNat (bigEndian bytes) = n ↔ bigEndian bytes = n.toNat := by
    rw [← UInt64.toNat_inj, UInt64.toNat_ofNat', Nat.mod_eq_of_lt hlt]
  have hn : n.toNat < 256 ^ bytes.length := by
    rw [hlength]
    exact n.toNat_lt
  rw [hword, bigEndian_eq_iff hn, hlength]

theorem readEligibility_iff {frame : List UInt8} (hlength : frame.length = eligibilityFrameBytes)
    (state : EligibilityState) :
    readEligibility frame = .ok state ↔ frame = eligibilityFrame state := by
  obtain ⟨m0, m1, m2, m3, r0, r1, value, last, rfl⟩ := frame_eight hlength
  have hsplit : [m0, m1, m2, m3, r0, r1, value, last] = eligibilityFrame state ↔
      [m0, m1, m2, m3, r0, r1] = eligibilityMagic ++ revisionBytes eligibilityRevision ∧
        value = state.encode ∧ last = 0 := by
    simp [eligibilityFrame, eligibilityMagic, revisionBytes, eligibilityRevision, toLittleEndian,
      and_assoc]
  rw [hsplit, readEligibility]
  split_ifs with hbad <;> rw [← or_assoc, head_iff rfl (by decide)] at hbad
  · refine iff_of_false (by simp) ?_
    rintro ⟨hhead, -, hlast⟩
    exact hbad.elim (fun h => h hhead) fun h => h hlast
  · simp only [not_or, not_not, ne_eq] at hbad
    rw [eligibility_decode_iff]
    exact ⟨fun hvalue => ⟨hbad.1, hvalue, hbad.2⟩, fun h => h.2.1⟩

theorem readStatusRequest_iff {frame : List UInt8} (hlength : frame.length = statusRequestBytes) :
    readStatusRequest frame = .ok () ↔ frame = statusRequest := by
  obtain ⟨m0, m1, m2, m3, r0, r1, op, last, rfl⟩ := frame_eight hlength
  have hsplit : [m0, m1, m2, m3, r0, r1, op, last] = statusRequest ↔
      [m0, m1, m2, m3, r0, r1] = magic ++ revisionBytes revision ∧ op = opStatus ∧ last = 0 := by
    simp [statusRequest, magic, revisionBytes, revision, toLittleEndian, and_assoc]
  rw [hsplit, readStatusRequest]
  split_ifs with hbad hrest <;> rw [head_iff rfl (by decide)] at hbad
  · exact iff_of_false (by simp) fun h => hbad h.1
  · refine iff_of_false (by simp) ?_
    rintro ⟨-, hop, hlast⟩
    exact hrest.elim (fun h => h hop) fun h => h hlast
  · simp only [not_or, not_not, ne_eq] at hbad hrest
    exact iff_of_true rfl ⟨hbad, hrest⟩

theorem BrokerStatus.decode_iff {frame : List UInt8} (hlength : frame.length = statusResponseBytes)
    (status : BrokerStatus) :
    BrokerStatus.decode frame = .ok status ↔ status.Valid ∧ frame = status.encode := by
  obtain ⟨m0, m1, m2, m3, r0, r1, state, reason, rest, rfl, hrest⟩ : ∃ m0 m1 m2 m3 r0 r1 state reason
      rest, frame = m0 :: m1 :: m2 :: m3 :: r0 :: r1 :: state :: reason :: rest ∧
        rest.length = 16 := by
    match frame, hlength with
    | m0 :: m1 :: m2 :: m3 :: r0 :: r1 :: state :: reason :: rest, hlength =>
      refine ⟨m0, m1, m2, m3, r0, r1, state, reason, rest, rfl, ?_⟩
      simpa [statusResponseBytes] using hlength
  have hinst := @word_iff (rest.take 8) (by rw [List.length_take]; omega) status.inst
  have hepoch := @word_iff (rest.drop 8) (by rw [List.length_drop]; omega) status.epoch
  have hsplit : m0 :: m1 :: m2 :: m3 :: r0 :: r1 :: state :: reason :: rest = status.encode ↔
      [m0, m1, m2, m3, r0, r1] = magic ++ revisionBytes revision ∧ state = status.state.encode ∧
        reason = status.reason.encode ∧ UInt64.ofNat (bigEndian (rest.take 8)) = status.inst ∧
        UInt64.ofNat (bigEndian (rest.drop 8)) = status.epoch := by
    rw [hinst, hepoch]
    have hframe : m0 :: m1 :: m2 :: m3 :: r0 :: r1 :: state :: reason :: rest =
        [m0, m1, m2, m3, r0, r1] ++ ([state, reason] ++ (rest.take 8 ++ rest.drop 8)) := by
      rw [List.take_append_drop]
      rfl
    have hencode : status.encode = (magic ++ revisionBytes revision) ++
        ([status.state.encode, status.reason.encode] ++
          ((toLittleEndian 8 status.inst.toNat).reverse ++
            (toLittleEndian 8 status.epoch.toNat).reverse)) := by
      simp only [encode, List.append_assoc]
    rw [hframe, hencode]
    constructor
    · intro heq
      obtain ⟨hhead, heq⟩ := List.append_inj heq rfl
      obtain ⟨hcodes, heq⟩ := List.append_inj heq rfl
      have hlen : (rest.take 8).length = (toLittleEndian 8 status.inst.toNat).reverse.length := by
        rw [List.length_take, List.length_reverse, toLittleEndian_length]
        omega
      obtain ⟨hi, he⟩ := List.append_inj heq hlen
      simp only [List.cons.injEq, and_true] at hcodes
      exact ⟨hhead, hcodes.1, hcodes.2, hi, he⟩
    · rintro ⟨hhead, rfl, rfl, hi, he⟩
      rw [hhead, hi, he]
  rw [hsplit, BrokerStatus.decode]
  split_ifs with hbad <;> rw [head_iff rfl (by decide)] at hbad
  · refine iff_of_false (by simp) ?_
    rintro ⟨-, hhead, -⟩
    exact hbad hhead
  · have hhead := not_not.mp hbad
    constructor
    · intro hok
      obtain ⟨st, hstate, hok⟩ := except_bind_ok hok
      obtain ⟨why, hreason, hok⟩ := except_bind_ok hok
      simp only at hok
      split_ifs at hok with hvalid
      obtain rfl := Except.ok.inj hok
      simp only [not_or, Bool.not_eq_false] at hvalid
      exact ⟨⟨hvalid.1, hvalid.2.1, hvalid.2.2⟩, hhead, state_decode_iff.mp hstate,
        reason_decode_iff.mp hreason, rfl, rfl⟩
    · rintro ⟨hvalid, -, hstate, hreason, hi, he⟩
      have hok : ¬(validState status.state status.reason = false ∨ status.inst = 0 ∨
          status.epoch = 0) := by
        simp only [not_or, Bool.not_eq_false]
        exact ⟨hvalid.state, hvalid.inst, hvalid.epoch⟩
      rw [hstate, hreason, state_decode_iff.mpr rfl, reason_decode_iff.mpr rfl, hi, he]
      exact if_neg hok

/-- A frame of the right length is accepted exactly if it is the encoding of what is read from it;
    the eligibility source and the provider can write nothing else. -/
theorem frames_exact (frame : List UInt8) :
    (frame.length = statusResponseBytes → ∀ status : BrokerStatus,
      readStatusResponse frame = .ok status ↔ status.Valid ∧ frame = status.encode) ∧
    (frame.length = statusRequestBytes →
      (readStatusRequest frame = .ok () ↔ frame = statusRequest)) ∧
    (frame.length = eligibilityFrameBytes → ∀ state : EligibilityState,
      readEligibility frame = .ok state ↔ frame = eligibilityFrame state) := by
  refine ⟨fun hlength status => ?_, readStatusRequest_iff, readEligibility_iff⟩
  rw [readStatusResponse, if_neg (by omega), ← hlength, List.take_length]
  exact BrokerStatus.decode_iff hlength status

end AgentSeat.Broker
