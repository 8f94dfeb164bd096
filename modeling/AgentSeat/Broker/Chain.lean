/-
  The guard and the broker together: the guard writes to a stream that the broker has as its
  eligibility source, each runs at its own pace, and the world changes under both.

  Of the stream it is assumed that a broker reads what was written to it, and that `poll` reports a
  source with something to read or one that was closed. `ready_means_eligible` is what a provider may
  make of an answer: while it is `Arming` or `Ready` the guard stands behind its assertion, and the
  session is eligible at that very time, unless evidence of the change still waits at the guard.
-/
import AgentSeat.Broker.Guard
import AgentSeat.Broker.Latch

namespace AgentSeat.Broker

open AgentSeat.Lib

/-! ## The first frame -/

/-- The bytes that are read into the frame. -/
def readFrame (frame : List UInt8) : List Attempt → List UInt8
  | [] => frame
  | attempt :: rest =>
    if frame.length < eligibilityFrameBytes then
      match attempt with
      | .bytes read => readFrame (frame ++ read.take (eligibilityFrameBytes - frame.length)) rest
      | _ => readFrame frame rest
    else frame

theorem finishInitialEligibility_ok {frame : List UInt8} {state : EligibilityState}
    (hlength : frame.length = eligibilityFrameBytes)
    (h : finishInitialEligibility frame = .ok state) : frame = eligibilityFrame state := by
  unfold finishInitialEligibility at h
  split at h
  · next found hfound =>
    obtain rfl := Except.ok.inj h
    exact (readEligibility_iff hlength _).mp hfound
  · cases h

/-- What a broker makes of its first frame is what was written, however it came in. -/
theorem readFrame_eq {attempts : List Attempt} {frame : List UInt8} {state : EligibilityState}
    (hlength : frame.length ≤ eligibilityFrameBytes)
    (h : readInitialEligibility frame attempts = some (.ok state)) :
    readFrame frame attempts = eligibilityFrame state := by
  induction attempts generalizing frame with
  | nil =>
    unfold readInitialEligibility at h
    split_ifs at h with hshort
    have hwhole : frame.length = eligibilityFrameBytes := by omega
    exact finishInitialEligibility_ok hwhole (Option.some.inj h)
  | cons attempt rest ih =>
    unfold readInitialEligibility at h
    unfold readFrame
    split_ifs at h ⊢ with hshort
    · cases attempt with
      | bytes read =>
        simp only at h ⊢
        split_ifs at h with hclosed
        · cases h
        · refine ih ?_ h
          rw [List.length_append, List.length_take]
          omega
      | interrupted => exact ih hlength h
      | failed error => cases h
      | wouldBlock remaining polled =>
        simp only at h ⊢
        split_ifs at h with htime
        · cases h
        · cases polled with
          | error error => cases h
          | ok events =>
            simp only at h
            split_ifs at h
            · cases h
            · cases h
            · cases h
            · exact ih hlength h
    · exact finishInitialEligibility_ok (by omega) (Option.some.inj h)

/-! ## Both together -/

structure Chain where
  world : Guard
  gate : Option Gate

inductive ChainMove where
  | guard (move : GuardMove)
  | start (setting : Setting)
  | round (r : Round)

namespace Chain

def step (e : Enrolled) (c : Chain) : ChainMove → Option Chain
  | .guard move => (c.world.step e move).map fun world => { c with world := world }
  | .start setting =>
    if c.gate.isSome then none else (Gate.start setting).map fun gate => { c with gate := some gate }
  | .round r => (c.gate.bind fun gate => gate.round r).map fun gate => { c with gate := some gate }

/-- The guard has closed its end, or has written more than its first frame. -/
def Waiting (c : Chain) : Prop :=
  (∃ result, c.world.phase = .finished result) ∨ eligibilityFrameBytes < c.world.written.length

def Truthful (c : Chain) : ChainMove → Prop
  | .guard move => c.world.Announced move
  | .start setting => readFrame [] setting.attempts <+: c.world.written
  | .round r => c.Waiting → r.eligibility.lost = true ∨ r.eligibility.readable = true

abbrev Runs (e : Enrolled) : List (Chain × ChainMove) → Chain → Prop :=
  Run (fun c => c.world.Starting ∧ c.gate = none) (step e) Truthful

/-- The guard is as it is alone, and the gate stands at most after the guard's assertion. -/
structure Holds (e : Enrolled) (c : Chain) : Prop where
  guard : c.world.Vouches e
  gate : ∀ g, c.gate = some g → ∃ setting past, g.Follows setting past ∧
    (setting.Quiet → eligibilityFrame .eligible <+: c.world.written)

theorem Holds.step {e : Enrolled} {c c' : Chain} {move : ChainMove} (h : c.Holds e)
    (htruthful : c.Truthful move) (hstep : c.step e move = some c') : c'.Holds e := by
  cases move with
  | guard move =>
    obtain ⟨world, hworld, rfl⟩ := Option.map_eq_some_iff.mp hstep
    refine ⟨h.guard.step htruthful hworld, fun g hg => ?_⟩
    obtain ⟨setting, past, hfollows, hquiet⟩ := h.gate g hg
    exact ⟨setting, past, hfollows, fun hstart =>
      (hquiet hstart).trans (Guard.written_step hworld)⟩
  | start setting =>
    unfold Chain.step at hstep
    split_ifs at hstep with hstarted
    obtain ⟨gate, hgate, rfl⟩ := Option.map_eq_some_iff.mp hstep
    refine ⟨h.guard, fun g hg => ?_⟩
    obtain rfl := Option.some.inj hg
    refine ⟨setting, [], Gate.Follows.start hgate, fun hquiet => ?_⟩
    rw [← readFrame_eq (by decide) hquiet.1]
    exact htruthful
  | round r =>
    obtain ⟨gate, hgate, rfl⟩ := Option.map_eq_some_iff.mp hstep
    obtain ⟨g₀, hg₀, hround⟩ := Option.bind_eq_some_iff.mp hgate
    refine ⟨h.guard, fun g hg => ?_⟩
    obtain rfl := Option.some.inj hg
    obtain ⟨setting, past, hfollows, hquiet⟩ := h.gate g₀ hg₀
    exact ⟨setting, _, hfollows.round hround, hquiet⟩

theorem Runs.holds {e : Enrolled} {past : List (Chain × ChainMove)} {c : Chain}
    (run : Runs e past c) : c.Holds e := by
  refine Run.invariant run (fun c hstart => ?_) fun c move c' => Holds.step
  refine ⟨Guard.Runs.vouches (Run.start hstart.1), fun g hg => ?_⟩
  rw [hstart.2] at hg
  cases hg

end Chain

/-- What a provider may make of an answer, in any run of guard and broker, whatever changes and
    whoever goes first: while the answer is `Arming` or `Ready`, the guard has asserted eligibility
    and still runs, with no second frame written, and as long as no evidence waits there, the session
    is eligible and the input class the enrolled one. -/
theorem ready_means_eligible {e : Enrolled} {past earlier later : List (Chain × ChainMove)}
    {c c₀ : Chain} {g : Gate} {r : Round} (run : Chain.Runs e past c)
    (hround : past = later ++ (c₀, .round r) :: earlier) (hgate : c₀.gate = some g)
    {frame : List UInt8} (hanswer : g.answer r = some frame) :
    ∃ status, readStatusResponse frame = .ok status ∧
      (status.state = .arming ∨ status.state = .ready →
        c₀.world.written = eligibilityFrame .eligible ∧ c₀.world.Standing ∧
        (c₀.world.Calm → c₀.world.logind.Eligible e ∧ Guard.SameInputs e c₀.world.machine)) := by
  have hholds := Chain.Runs.holds (run.before hround)
  have htruthful : c₀.Truthful (.round r) := by
    refine (run.taken_of_mem ?_).1
    rw [hround]
    exact List.mem_append_right _ List.mem_cons_self
  obtain ⟨setting, before, hfollows, hwritten⟩ := hholds.gate g hgate
  have hobserve := hfollows.observe r
  refine ⟨_, hfollows.answer hanswer, fun hpositive => ?_⟩
  have hquiet : setting.Quiet ∧ QuietPast setting.devices.length ((g, r) :: before) := by
    rcases hpositive with harming | hready
    · exact (hobserve.arming_iff.mp harming).1
    · exact (hobserve.ready_iff.mp hready).1
  -- the source was reported neither readable nor lost, so there is nothing in it
  have hsilent : ¬ c₀.Waiting := by
    intro hwaiting
    have hevidence := hquiet.2 (g, r) List.mem_cons_self
    rcases htruthful hwaiting with hlost | hreadable
    · exact hevidence (Or.inl hlost)
    · exact hevidence (Or.inr (Or.inl hreadable))
  have hasserted := hwritten hquiet.1
  have hlength : c₀.world.written.length ≤ (eligibilityFrame .eligible).length := by
    have := not_lt.mp fun hlt => hsilent (Or.inr hlt)
    exact this
  have hstanding := (hholds.guard.standing hasserted).resolve_left fun hfinished =>
    hsilent (Or.inl hfinished)
  exact ⟨(hasserted.eq_of_length_le hlength).symm, hstanding, hholds.guard.eligible hstanding⟩

/-- A guard may run to any place before its broker starts. -/
theorem Chain.Runs.of_guard {e : Enrolled} {past : List (Guard × GuardMove)} {w : Guard}
    (run : Guard.Runs e past w) : ∃ past', Chain.Runs e past' ⟨w, none⟩ := by
  induction run with
  | start h => exact ⟨[], Run.start ⟨h, rfl⟩⟩
  | step run move ok taken ih =>
    obtain ⟨past', hrun⟩ := ih
    refine ⟨_, hrun.step (.guard move) ok ?_⟩
    simp only [Chain.step, taken, Option.map_some]

theorem ready_means_eligible_rest : ∃ status,
    readStatusResponse (restGate .ready none true).status.encode = .ok status ∧
      (status.state = .arming ∨ status.state = .ready →
        restLogind.Eligible restEnrolled ∧ Guard.SameInputs restEnrolled restMachine) := by
  obtain ⟨past, hguard⟩ := restGuard_run
  obtain ⟨past', hstart⟩ := Chain.Runs.of_guard hguard
  have harming : Chain.Runs restEnrolled _
      ⟨restGuard .processing (eligibilityFrame .eligible), some (restGate .arming (some 250) false)⟩ :=
    hstart.step (.start restSetting) List.prefix_rfl rfl
  have hquiet (gate : Option Gate) :
      ¬ (Chain.mk (restGuard .processing (eligibilityFrame .eligible)) gate).Waiting := by
    rintro (⟨result, hfinished⟩ | hmore)
    · cases hfinished
    · exact absurd hmore (by decide : ¬ eligibilityFrameBytes < (eligibilityFrame .eligible).length)
  have haccepted : Chain.Runs restEnrolled _
      ⟨restGuard .processing (eligibilityFrame .eligible), some (restGate .arming (some 250) true)⟩ :=
    harming.step (.round (restRound 100 false)) (fun hmore => absurd hmore (hquiet _)) rfl
  have hready : Chain.Runs restEnrolled _
      ⟨restGuard .processing (eligibilityFrame .eligible), some (restGate .ready none true)⟩ :=
    haccepted.step (.round (restRound 300 true)) (fun hmore => absurd hmore (hquiet _)) rfl
  obtain ⟨status, hread, hmeans⟩ := @ready_means_eligible _ _ _ [] _ _ _ _ hready rfl rfl _ rfl
  refine ⟨status, hread, fun hpositive => (hmeans hpositive).2.2 ?_⟩
  exact ⟨rfl, by simp [restGuard], by simp [restGuard]⟩

end AgentSeat.Broker
