/-
  Ownership of a screen is exclusive, and a provider that stands is found.

  As long as no client from outside takes the selection, a provider that has it keeps it until it
  withdraws or goes away: the others can only find it taken. So no two providers stand at a time
  (`standing_alone`), whatever becomes of them, and a discovery made while one stands ends with its
  socket (`standing_found`).
-/
import AgentSeat.X11.Ownership

namespace AgentSeat.X11

open AgentSeat.Lib AgentSeat.Lib.Text AgentSeat.Proto

/-! ## What the stages stand for -/

/-- From when it has taken the selection until it gives it up. -/
def Stage.holds : Stage → Bool
  | .confirming _ => true
  | .ungrabbing _ claimed => claimed
  | .advertising _ => true
  | .advertisingRoot _ => true
  | .flushing _ => true
  | .active _ => true
  | .releasing _ => true
  | .rechecking _ => true
  | .unrooting _ => true
  | .unowning _ => true
  | .clearing _ => true
  | _ => false

/-- It has the server grabbed. -/
def Stage.grabs : Stage → Bool
  | .reading _ => true
  | .setting _ => true
  | .confirming _ => true
  | .ungrabbing _ _ => true
  | .rechecking _ => true
  | .unrooting _ => true
  | .unowning _ => true
  | .clearing _ => true
  | .destroying _ => true
  | .leaving => true
  | _ => false

/-- Its advertisement is on its window. -/
def Stage.shows : Stage → Bool
  | .advertisingRoot _ => true
  | .flushing _ => true
  | .active _ => true
  | _ => false

/-- And on the root. -/
def Stage.stands : Stage → Bool
  | .flushing _ => true
  | .active _ => true
  | _ => false

theorem Stage.holds_of_shows {st : Stage} (h : st.shows = true) : st.holds = true := by
  cases st <;> first | rfl | cases h

theorem Stage.shows_of_stands {st : Stage} (h : st.stands = true) : st.shows = true := by
  cases st <;> first | rfl | cases h

theorem Stage.window_of_holds {st : Stage} (h : st.holds = true) : ∃ w, st.window = some w := by
  cases st <;> first | exact ⟨_, rfl⟩ | cases h

/-- What is so as long as no client from outside takes the selection. -/
structure Exclusive (screen : Screen) (value : Nat → Advertisement) (s : Server) (stage : Nat → Stage) :
    Prop where
  sound : Sound screen value s stage
  holds : ∀ i w, (stage i).holds = true → (stage i).window = some w → s.owner = w
  grabs : ∀ i, (stage i).grabs = true → s.grab = some i
  free : ∀ i w, stage i = .setting w → s.owner = noneId
  shows : ∀ i w, (stage i).shows = true → (stage i).window = some w → s.text w = some (value i).encode
  stands : ∀ i, (stage i).stands = true → s.text screen.root = some (value i).encode

namespace Exclusive

variable {screen : Screen} {value : Nat → Advertisement} {s : Server} {stage : Nat → Stage}

theorem unique (h : Exclusive screen value s stage) {i j : Nat} (hi : (stage i).holds = true)
    (hj : (stage j).holds = true) : i = j := by
  obtain ⟨w, hw⟩ := Stage.window_of_holds hi
  obtain ⟨w', hw'⟩ := Stage.window_of_holds hj
  have hmade := h.sound.window i w hw
  have hmade' := h.sound.window j w' hw'
  rw [← h.holds i w hi hw, h.holds j w' hj hw', hmade'] at hmade
  exact (Option.some.inj hmade).symm

/-- What one provider does leaves the others as they are, if it leaves their windows and what is on
    them, and the selection and the root where one of them holds them. -/
theorem others (h : Exclusive screen value s stage) {i : Nat} {s' : Server} {next : Stage}
    (hsound : Sound screen value s' (Function.update stage i next))
    (hgrab : ∀ j, j ≠ i → (stage j).grabs = false)
    (howner : ∀ j, j ≠ i → (stage j).holds = true → s'.owner = s.owner)
    (htext : ∀ j w, j ≠ i → s.maker w = some j → s'.text w = s.text w)
    (hroot : ∀ j, j ≠ i → (stage j).holds = true → s'.text screen.root = s.text screen.root)
    (hholds : ∀ w, next.holds = true → next.window = some w → s'.owner = w)
    (hgrabs : next.grabs = true → s'.grab = some i)
    (hfree : ∀ w, next = .setting w → s'.owner = noneId)
    (hshows : ∀ w, next.shows = true → next.window = some w → s'.text w = some (value i).encode)
    (hstands : next.stands = true → s'.text screen.root = some (value i).encode) :
    Exclusive screen value s' (Function.update stage i next) := by
  refine ⟨hsound, fun j w hj hw => ?_, fun j hj => ?_, fun j w hj => ?_, fun j w hj hw => ?_, fun j hj => ?_⟩
  · by_cases hij : j = i
    · rw [hij, Function.update_self] at hj hw
      exact hholds w hj hw
    · rw [Function.update_of_ne hij] at hj hw
      rw [howner j hij hj]
      exact h.holds j w hj hw
  · by_cases hij : j = i
    · rw [hij, Function.update_self] at hj
      rw [hij]
      exact hgrabs hj
    · rw [Function.update_of_ne hij, hgrab j hij] at hj
      cases hj
  · by_cases hij : j = i
    · rw [hij, Function.update_self] at hj
      exact hfree w hj
    · rw [Function.update_of_ne hij] at hj
      have hnot := hgrab j hij
      rw [hj] at hnot
      cases hnot
  · by_cases hij : j = i
    · rw [hij, Function.update_self] at hj hw
      rw [hij]
      exact hshows w hj hw
    · rw [Function.update_of_ne hij] at hj hw
      rw [htext j w hij (h.sound.window j w hw)]
      exact h.shows j w hj hw
  · by_cases hij : j = i
    · rw [hij, Function.update_self] at hj
      rw [hij]
      exact hstands hj
    · rw [Function.update_of_ne hij] at hj
      rw [hroot j hij (Stage.holds_of_shows (Stage.shows_of_stands hj))]
      exact h.stands j hj

theorem start {arena : Arena} (h : arena.Start screen) :
    Exclusive screen value arena.server arena.stage := by
  refine ⟨Sound.start h, fun i w hi => ?_, fun i hi => ?_, fun i w hi => ?_, fun i w hi => ?_, fun i hi => ?_⟩
  all_goals
    rw [h.stage] at hi
    cases hi

/-- While a provider is heard, no other has the server grabbed. -/
theorem not_grabs (h : Exclusive screen value s stage) {i : Nat} (hheard : s.hears i = true) :
    ∀ j, j ≠ i → (stage j).grabs = false := by
  intro j hij
  by_contra hgrabs
  have hgrab := h.grabs j (Bool.not_eq_false _ ▸ hgrabs)
  unfold Server.hears at hheard
  rw [hgrab] at hheard
  simp only [reduceCtorEq, decide_false, Bool.false_or, decide_eq_true_eq, Option.some.injEq] at hheard
  exact hij hheard

/-- A request that is not carried out. -/
theorem refused (h : Exclusive screen value s stage) {i : Nat} {fresh : Window}
    (hheard : s.hears i = true)
    (hsound : Sound screen value s (Function.update stage i ((stage i).next false fresh s.owner))) :
    Exclusive screen value s (Function.update stage i ((stage i).next false fresh s.owner)) := by
  have hholds := h.holds i
  have hgrabs := h.grabs i
  refine h.others hsound (h.not_grabs hheard) (fun _ _ _ => rfl) (fun _ _ _ _ => rfl)
    (fun _ _ _ => rfl) ?_ ?_ ?_ ?_ ?_
  all_goals
    cases hat : stage i <;> rw [hat] at hholds hgrabs <;>
      simp_all [Stage.next, Stage.holds, Stage.grabs, Stage.shows, Stage.stands, Stage.window]

/-- A request that leaves the selection and all texts as they are. -/
theorem plain (h : Exclusive screen value s stage) {i : Nat} {s' : Server} {next : Stage}
    (hheard : s.hears i = true) (hsound : Sound screen value s' (Function.update stage i next))
    (hsame : s'.owner = s.owner ∧ s'.text = s.text)
    (hholds : ∀ w, next.holds = true → next.window = some w → s.owner = w)
    (hgrabs : next.grabs = true → s'.grab = some i)
    (hfree : ∀ w, next = .setting w → s.owner = noneId)
    (hshows : ∀ w, next.shows = true → next.window = some w → s.text w = some (value i).encode)
    (hstands : next.stands = true → s.text screen.root = some (value i).encode) :
    Exclusive screen value s' (Function.update stage i next) := by
  obtain ⟨howner, htext⟩ := hsame
  refine h.others hsound (h.not_grabs hheard) (fun _ _ _ => howner) (fun _ w _ _ => congrFun htext w)
    (fun _ _ _ => congrFun htext _) ?_ hgrabs ?_ ?_ ?_
  · rw [howner]
    exact hholds
  · rw [howner]
    exact hfree
  · rw [htext]
    exact hshows
  · rw [htext]
    exact hstands

/-- The window of one provider is none of another's, and not the root. -/
theorem window_ne (h : Exclusive screen value s stage) {i : Nat} {w : Window}
    (hw : (stage i).window = some w) :
    w ≠ screen.root ∧ ∀ j w', j ≠ i → s.maker w' = some j → w' ≠ w := by
  have hmade := h.sound.window i w hw
  refine ⟨?_, ?_⟩
  · rintro rfl
    rw [h.sound.root] at hmade
    cases hmade
  · rintro j w' hij hmade' rfl
    exact hij (Option.some.inj (hmade'.symm.trans hmade))

/-- Another provider that holds the selection holds it with its own window. -/
theorem owner_of_holds (h : Exclusive screen value s stage) {j : Nat} (hj : (stage j).holds = true) :
    s.maker s.owner = some j := by
  obtain ⟨w, hw⟩ := Stage.window_of_holds hj
  rw [h.holds j w hj hw]
  exact h.sound.window j w hw

/-- The window of one provider is destroyed, and with it, if it still has it, the selection. -/
theorem destroy (h : Exclusive screen value s stage) {i : Nat} {w : Window} {next : Stage}
    (hheard : s.hears i = true) (hw : (stage i).window = some w)
    (hsound : Sound screen value (s.destroy w) (Function.update stage i next))
    (hnext : next.holds = false ∧ (∀ w, next ≠ .setting w) ∧ next.shows = false ∧ next.stands = false)
    (hgrabs : next.grabs = true → s.grab = some i) :
    Exclusive screen value (s.destroy w) (Function.update stage i next) := by
  have hne := h.window_ne hw
  obtain ⟨hholds, hsetting, hshows, hstands⟩ := hnext
  refine h.others hsound (h.not_grabs hheard) (fun j hij hj => ?_)
    (fun j w' hij hmade => Function.update_of_ne (hne.2 j w' hij hmade) _ _)
    (fun _ _ _ => Function.update_of_ne hne.1.symm _ _) (fun _ hself => ?_) hgrabs
    (fun w' hself => absurd hself (hsetting w')) (fun _ hself => ?_) (fun hself => ?_)
  · show (if s.owner = w then X11.noneId else s.owner) = s.owner
    rw [if_neg]
    exact hne.2 j _ hij (h.owner_of_holds hj)
  · rw [hholds] at hself
    cases hself
  · rw [hshows] at hself
    cases hself
  · rw [hstands] at hself
    cases hself

/-- What a request does that is carried out. -/
theorem request (h : Exclusive screen value s stage) {i : Nat} (ok : Bool) {fresh : Window}
    (hheard : s.hears i = true)
    (hnew : stage i = .idle → fresh ≠ X11.noneId ∧ s.exists? screen fresh = false)
    (hclosed : stage i ≠ .closed) :
    Exclusive screen value ((stage i).request screen i (value i).encode fresh s)
      (Function.update stage i ((stage i).next ok fresh s.owner)) := by
  have hsound := @Sound.request _ _ _ _ h.sound i ok fresh s.owner hnew hclosed
  have hgrab := h.not_grabs hheard
  have hholds := h.holds i
  have hgrabs := h.grabs i
  have hshows := h.shows i
  have hstands := h.stands i
  have hwindow := h.sound.window i
  cases hat : stage i with
  | closed => exact absurd hat hclosed
  | idle =>
    rw [hat] at hsound
    obtain ⟨-, hnew⟩ := hnew hat
    unfold Server.exists? at hnew
    simp only [Bool.or_eq_false_iff, decide_eq_false_iff_not] at hnew
    have hroot : screen.root ≠ fresh := fun hsame => hnew.1.1 hsame.symm
    have hunmade : s.maker fresh = none := by simpa using hnew.1.2
    refine h.others hsound hgrab (fun _ _ _ => rfl) (fun j w hij hmade => ?_)
      (fun _ _ _ => Function.update_of_ne hroot _ _) ?_ ?_ ?_ ?_ ?_
    · refine Function.update_of_ne ?_ _ _
      rintro rfl
      exact absurd (hunmade.symm.trans hmade) (by simp)
    all_goals cases ok <;> simp [Stage.next, Stage.holds, Stage.grabs, Stage.shows, Stage.stands]
  | setting w =>
    rw [hat] at hsound hgrabs
    have hfree := h.free i w hat
    -- nobody else holds what this one has found free
    have hnobody (j : Nat) (hj : (stage j).holds = true) : False := by
      have hmade := h.owner_of_holds hj
      rw [hfree, h.sound.noneId] at hmade
      cases hmade
    refine h.others hsound hgrab (fun j _ hj => (hnobody j hj).elim) (fun _ _ _ _ => rfl)
      (fun _ _ _ => rfl) (fun w' hnext hw' => ?_) (fun _ => hgrabs rfl) ?_ ?_ ?_
    · show w = w'
      exact Option.some.inj (@Sound.next_window (.setting w) ok fresh s.owner w' (by simp) hw')
    all_goals cases ok <;> simp [Stage.next, Stage.shows, Stage.stands]
  | clearing w =>
    rw [hat] at hsound hgrabs
    have hself : (stage i).holds = true := by rw [hat]; rfl
    refine h.others hsound hgrab (fun j hij hj => absurd (h.unique hj hself) hij) (fun _ _ _ _ => rfl)
      (fun _ _ _ => rfl) ?_ (fun _ => hgrabs rfl) ?_ ?_ ?_
    all_goals simp [Stage.next, Stage.holds, Stage.shows, Stage.stands]
  | advertising w =>
    rw [hat] at hsound hholds hwindow
    have hne := h.window_ne (i := i) (w := w) (by rw [hat]; rfl)
    refine h.others hsound hgrab (fun _ _ _ => rfl)
      (fun j w' hij hmade => Function.update_of_ne (hne.2 j w' hij hmade) _ _)
      (fun _ _ _ => Function.update_of_ne hne.1.symm _ _) (fun w' _ hw' => ?_) ?_ ?_
      (fun w' _ hw' => ?_) ?_
    · exact hholds w' rfl (Sound.next_window (by simp) hw')
    · cases ok <;> simp [Stage.next, Stage.grabs]
    · cases ok <;> simp [Stage.next]
    · obtain rfl := Option.some.inj (@Sound.next_window (.advertising w) _ _ _ _ (by simp) hw')
      exact Function.update_self ..
    · cases ok <;> simp [Stage.next, Stage.stands]
  | advertisingRoot w =>
    rw [hat] at hsound hholds hshows
    have hself : (stage i).holds = true := by rw [hat]; rfl
    have hne := h.window_ne (i := i) (w := w) (by rw [hat]; rfl)
    refine h.others hsound hgrab (fun _ _ _ => rfl) (fun j w' hij hmade => ?_)
      (fun j hij hj => absurd (h.unique hj hself) hij) (fun w' _ hw' => ?_) ?_ ?_
      (fun w' _ hw' => ?_) (fun _ => Function.update_self ..)
    · refine Function.update_of_ne ?_ _ _
      rintro rfl
      rw [h.sound.root] at hmade
      cases hmade
    · exact hholds w' rfl (Sound.next_window (by simp) hw')
    · cases ok <;> simp [Stage.next, Stage.grabs]
    · cases ok <;> simp [Stage.next]
    · have hw : (Stage.advertisingRoot w).window = some w' := Sound.next_window (by simp) hw'
      obtain rfl := Option.some.inj hw
      show Function.update s.text screen.root _ w = _
      rw [Function.update_of_ne hne.1]
      exact hshows w rfl rfl
  | unrooting w =>
    rw [hat] at hsound hholds hgrabs
    have hself : (stage i).holds = true := by rw [hat]; rfl
    refine h.others hsound hgrab (fun _ _ _ => rfl) (fun j w' hij hmade => ?_)
      (fun j hij hj => absurd (h.unique hj hself) hij) (fun w' _ hw' => ?_) (fun _ => hgrabs rfl) ?_ ?_ ?_
    · refine Function.update_of_ne ?_ _ _
      rintro rfl
      rw [h.sound.root] at hmade
      cases hmade
    · exact hholds w' rfl (Sound.next_window (by simp) hw')
    all_goals cases ok <;> simp [Stage.next, Stage.shows, Stage.stands]
  | unowning w =>
    rw [hat] at hsound hholds hgrabs
    have hne := h.window_ne (i := i) (w := w) (by rw [hat]; rfl)
    refine h.others hsound hgrab (fun _ _ _ => rfl)
      (fun j w' hij hmade => Function.update_of_ne (hne.2 j w' hij hmade) _ _)
      (fun _ _ _ => Function.update_of_ne hne.1.symm _ _) (fun w' _ hw' => ?_) (fun _ => hgrabs rfl) ?_ ?_ ?_
    · exact hholds w' rfl (Sound.next_window (by simp) hw')
    all_goals cases ok <;> simp [Stage.next, Stage.shows, Stage.stands]
  | abandoning w =>
    rw [hat] at hsound
    refine h.destroy hheard (by rw [hat]; rfl) hsound ?_ (fun hgrabs => ?_) <;>
      simp [Stage.next, Stage.holds, Stage.grabs, Stage.shows, Stage.stands] at *
  | destroying w =>
    rw [hat] at hsound hgrabs
    refine h.destroy hheard (by rw [hat]; rfl) hsound ?_ (fun _ => hgrabs rfl)
    simp [Stage.next, Stage.holds, Stage.shows, Stage.stands]
  | grabbing w =>
    rw [hat] at hsound
    refine h.plain hheard hsound ⟨rfl, rfl⟩ ?_ (fun _ => rfl) ?_ ?_ ?_
    all_goals cases ok <;> simp [Stage.next, Stage.holds, Stage.shows, Stage.stands]
  | reading w =>
    rw [hat] at hsound hgrabs
    refine h.plain hheard hsound ⟨rfl, rfl⟩ ?_ (fun _ => hgrabs rfl) ?_ ?_ ?_
    all_goals
      simp only [Stage.next]
      split_ifs with hfree <;> simp_all [Stage.holds, Stage.shows, Stage.stands]
  | confirming w =>
    rw [hat] at hsound hholds hgrabs
    refine h.plain hheard hsound ⟨rfl, rfl⟩ (fun w' _ hw' => hholds w' rfl hw') (fun _ => hgrabs rfl) ?_ ?_ ?_
    all_goals simp [Stage.next, Stage.shows, Stage.stands]
  | ungrabbing w claimed =>
    rw [hat] at hsound hholds
    refine h.plain hheard hsound ⟨rfl, rfl⟩ ?_ ?_ ?_ ?_ ?_
    all_goals cases ok <;> cases claimed <;>
      simp_all [Stage.next, Stage.holds, Stage.grabs, Stage.shows, Stage.stands, Stage.window]
  | leaving =>
    rw [hat] at hsound
    refine h.plain hheard hsound ⟨rfl, rfl⟩ ?_ ?_ ?_ ?_ ?_
    all_goals simp [Stage.next, Stage.holds, Stage.grabs, Stage.shows, Stage.stands]
  | releasing w =>
    rw [hat] at hsound hholds
    refine h.plain hheard hsound ⟨rfl, rfl⟩ (fun w' _ hw' => ?_) (fun _ => rfl) ?_ ?_ ?_
    · exact hholds w' rfl (Sound.next_window (by simp) hw')
    all_goals cases ok <;> simp [Stage.next, Stage.shows, Stage.stands]
  | rechecking w =>
    rw [hat] at hsound hholds hgrabs
    refine h.plain hheard hsound ⟨rfl, rfl⟩ (fun w' _ hw' => ?_) (fun _ => hgrabs rfl) ?_ ?_ ?_
    · exact hholds w' rfl (Sound.next_window (by simp) hw')
    all_goals
      simp only [Stage.next]
      split_ifs <;> simp [Stage.shows, Stage.stands]
  | flushing w =>
    rw [hat] at hsound hholds hshows hstands
    refine h.plain hheard hsound ⟨rfl, rfl⟩ (fun w' _ hw' => ?_) ?_ ?_ (fun w' _ hw' => ?_)
      fun _ => hstands rfl
    · exact hholds w' rfl (Sound.next_window (by simp) hw')
    · cases ok <;> simp [Stage.next, Stage.grabs]
    · cases ok <;> simp [Stage.next]
    · exact hshows w' rfl (Sound.next_window (by simp) hw')
  | active w =>
    rw [hat] at hsound hholds
    refine h.plain hheard hsound ⟨rfl, rfl⟩ (fun w' _ hw' => hholds w' rfl hw') ?_ ?_ ?_ ?_
    all_goals simp [Stage.next, Stage.grabs, Stage.shows, Stage.stands]
  | closing =>
    rw [hat] at hsound
    refine h.plain hheard hsound ⟨rfl, rfl⟩ ?_ ?_ ?_ ?_ ?_
    all_goals simp [Stage.next, Stage.holds, Stage.grabs, Stage.shows, Stage.stands]

theorem disconnect (h : Exclusive screen value s stage) (i : Nat) :
    Exclusive screen value (s.disconnect i) (Function.update stage i .closed) := by
  have hsound := h.sound.disconnect i
  have hstage {j : Nat} (hij : j ≠ i) : Function.update stage i .closed j = stage j :=
    Function.update_of_ne hij _ _
  have hself : Function.update stage i .closed i = .closed := Function.update_self ..
  refine ⟨hsound, fun j w hj hw => ?_, fun j hj => ?_, fun j w hj => ?_, fun j w hj hw => ?_, fun j hj => ?_⟩
  all_goals
    have hij : j ≠ i := by
      rintro rfl
      rw [hself] at hj
      cases hj
    rw [hstage hij] at hj
  · rw [hstage hij] at hw
    show (if s.maker s.owner = some i then X11.noneId else s.owner) = w
    rw [if_neg, h.holds j w hj hw]
    intro hmade
    exact hij (Option.some.inj ((h.owner_of_holds hj).symm.trans hmade))
  · show (if s.grab = some i then none else s.grab) = some j
    rw [h.grabs j hj, if_neg]
    exact fun hsame => hij (Option.some.inj hsame)
  · show (if s.maker s.owner = some i then X11.noneId else s.owner) = X11.noneId
    rw [h.free j w hj]
    split_ifs <;> rfl
  · rw [hstage hij] at hw
    show (if s.maker w = some i then none else s.text w) = _
    rw [h.sound.window j w hw, if_neg, h.shows j w hj hw]
    exact fun hsame => hij (Option.some.inj hsame)
  · show (if s.maker screen.root = some i then none else s.text screen.root) = _
    rw [h.sound.root, if_neg (by simp), h.stands j hj]

/-- A step of which the providers do not get to know. -/
theorem unaffected (h : Exclusive screen value s stage) {s' : Server} (hsound : Sound screen value s' stage)
    (hgrab : s'.grab = s.grab) (htext : s'.text = s.text)
    (howner : s'.owner = s.owner ∨ s'.owner = X11.noneId ∧ s.maker s.owner = none) :
    Exclusive screen value s' stage := by
  refine ⟨hsound, fun i w hi hw => ?_, hgrab ▸ h.grabs, fun i w hi => ?_, htext ▸ h.shows, htext ▸ h.stands⟩
  · rcases howner with hsame | ⟨-, hnone⟩
    · rw [hsame]
      exact h.holds i w hi hw
    · exact absurd (hnone.symm.trans (h.owner_of_holds hi)) (by simp)
  · rcases howner with hsame | ⟨hnone, -⟩
    · rw [hsame]
      exact h.free i w hi
    · exact hnone

end Exclusive

/-- No client from outside takes the selection. -/
def Inside (_ : Arena) : ArenaMove → Prop
  | .foreignOwner _ => False
  | _ => True

namespace Exclusive

variable {screen : Screen} {value : Nat → Advertisement}

theorem step {arena arena' : Arena} {move : ArenaMove}
    (h : Exclusive screen value arena.server arena.stage) (hinside : Inside arena move)
    (hstep : arena.step screen value move = some arena') :
    Exclusive screen value arena'.server arena'.stage := by
  have hsound := h.sound.step hstep
  cases move with
  | provider i carried ok fresh =>
    simp only [Arena.step] at hstep
    split_ifs at hstep with hmay hcarried
    · obtain rfl := Option.some.inj hstep
      obtain ⟨⟨hheard, -⟩, -, hclosed, hnew⟩ := Sound.mayRequest_idle (Bool.not_eq_false _ ▸ hmay)
      exact h.request ok hheard hnew hclosed
    · obtain rfl := Option.some.inj hstep
      obtain ⟨⟨hheard, hfailed⟩, -, -, -⟩ := Sound.mayRequest_idle (Bool.not_eq_false _ ▸ hmay)
      obtain rfl := hfailed.resolve_left hcarried
      exact h.refused hheard hsound
  | crash i =>
    obtain rfl := Option.some.inj hstep
    exact h.disconnect i
  | foreignWindow w =>
    simp only [Arena.step] at hstep
    split_ifs at hstep with hnew
    obtain rfl := Option.some.inj hstep
    exact h.unaffected hsound rfl rfl (Or.inl rfl)
  | foreignDestroy w =>
    simp only [Arena.step] at hstep
    by_cases hmissing : arena.server.foreign w = false
    · rw [if_pos hmissing] at hstep
      cases hstep
    rw [if_neg hmissing] at hstep
    obtain rfl := Option.some.inj hstep
    refine h.unaffected hsound rfl rfl ?_
    show (if arena.server.owner = w then noneId else arena.server.owner) = _ ∨
      (if arena.server.owner = w then noneId else arena.server.owner) = _ ∧ _
    split_ifs with howner
    · exact Or.inr ⟨rfl, howner ▸ (h.sound.foreign w (Bool.not_eq_false _ ▸ hmissing)).2.2⟩
    · exact Or.inl rfl
  | foreignOwner w => exact hinside.elim
  | discover =>
    simp only [Arena.step] at hstep
    split_ifs at hstep with hgrab
    obtain ⟨d, -, rfl⟩ := Option.map_eq_some_iff.mp hstep
    exact h

end Exclusive

/-- What `GetProperty` answers where the advertisement is. -/
def textReply (screen : Screen) (a : Advertisement) : PropertyReply :=
  ⟨screen.utf8, 8, 0, a.encode, none⟩

theorem getProperty_of_text {screen : Screen} {s : Server} {w : Window} {a : Advertisement}
    (hexists : s.exists? screen w = true) (htext : s.text w = some a.encode) :
    s.getProperty screen w = .ok (textReply screen a) := by
  have hlength := a.encode_length
  have hbound := a.socket_plain.2.2.2
  have hfits : a.encode.length ≤ 4 * (maxAdvertisementBytes.div 4 + 1) := by
    have hlongs : 4 * (maxAdvertisementBytes.div 4 + 1) = 260 := rfl
    omega
  unfold Server.getProperty
  rw [if_pos hexists, htext]
  show Except.ok (PropertyReply.mk _ _ (a.encode.length - (a.encode.take _).length) (a.encode.take _) _) = _
  rw [List.take_of_length_le hfits, Nat.sub_self]
  rfl

theorem textReply_isText (screen : Screen) (a : Advertisement) :
    (textReply screen a).isText screen.utf8 = true := by
  have hlength := a.encode_length
  have hbound := a.socket_plain.2.2.2
  have hfits : a.encode.length ≤ maxAdvertisementBytes := by
    unfold maxAdvertisementBytes
    omega
  simp [PropertyReply.isText, textReply, hfits]

theorem validUtf8_encode {a : Advertisement} (h : validUtf8 a.socket = true) :
    validUtf8 a.encode = true := by
  have hsplit : a.encode = (Json.ascii protocolName ++ separator :: (Json.digits protocolRevision ++
      [separator])) ++ a.socket := by
    simp [Advertisement.encode]
  have hascii : ∀ b ∈ Json.ascii protocolName ++ separator :: (Json.digits protocolRevision ++
      [separator]), b < 0x80 := by decide +kernel
  rw [hsplit]
  exact validUtf8_append (validUtf8_of_ascii hascii) h

/-- As far as it has come, it has been told of this window and this advertisement. -/
def Discovery.Finding (screen : Screen) (a : Advertisement) (w : Window) : Discovery → Prop
  | .idle => True
  | .owned owner => owner = w
  | .read owner first => owner = w ∧ first = .ok (textReply screen a)
  | .both owner first second => owner = w ∧ first = .ok (textReply screen a) ∧
      second = .ok (textReply screen a)
  | .done r => r.Finds a ∧ ¬ (r.display = none ∨ r.display = some [])

theorem Discovery.Finding.ask {screen : Screen} {s : Server} {a : Advertisement} {w : Window}
    {d d' : Discovery} (h : d.Finding screen a w) (hne : w ≠ noneId) (howner : s.owner = w)
    (hexists : s.exists? screen w = true) (htext : s.text w = some a.encode)
    (hroot : s.text screen.root = some a.encode) (hutf8 : validUtf8 a.socket = true)
    (hask : d.ask screen s = some d') : d'.Finding screen a w := by
  cases d with
  | idle =>
    obtain rfl := Option.some.inj hask
    exact howner
  | owned owner =>
    obtain rfl := Option.some.inj hask
    have h : owner = w := h
    exact ⟨h, h ▸ getProperty_of_text hexists htext⟩
  | read owner first =>
    obtain rfl := Option.some.inj hask
    have hself : s.exists? screen screen.root = true := by simp [Server.exists?]
    exact ⟨h.1, h.2, getProperty_of_text hself hroot⟩
  | both owner first second =>
    obtain rfl := Option.some.inj hask
    obtain ⟨rfl, rfl, rfl⟩ := h
    refine ⟨⟨⟨_, rfl⟩, ⟨_, rfl, screen.selection_ne⟩, ⟨_, rfl, hne, howner ▸ rfl⟩,
      ⟨_, rfl, screen.property_ne⟩, ⟨_, _, _, rfl, screen.utf8_ne, rfl, rfl, textReply_isText screen a,
        textReply_isText screen a, rfl, rfl, validUtf8_encode hutf8⟩⟩, by simp⟩
  | done r => cases hask

/-- What the others do, and the discovery. -/
def Leaves (i : Nat) (_ : Arena) : ArenaMove → Prop
  | .provider j _ _ _ => j ≠ i
  | .crash j => j ≠ i
  | .foreignOwner _ => False
  | _ => True

theorem Leaves.inside {i : Nat} {arena : Arena} {move : ArenaMove} (h : Leaves i arena move) :
    Inside arena move := by
  cases move with
  | foreignOwner w => exact h.elim
  | _ => trivial

theorem Leaves.stage {screen : Screen} {value : Nat → Advertisement} {i : Nat} {arena arena' : Arena}
    {move : ArenaMove} (h : Leaves i arena move) (hstep : arena.step screen value move = some arena') :
    arena'.stage i = arena.stage i := by
  cases move with
  | provider j carried ok fresh =>
    simp only [Arena.step] at hstep
    split at hstep
    · cases hstep
    · obtain rfl := Option.some.inj hstep
      exact Function.update_of_ne (Ne.symm h) _ _
  | crash j =>
    obtain rfl := Option.some.inj hstep
    exact Function.update_of_ne (Ne.symm h) _ _
  | foreignWindow w =>
    simp only [Arena.step] at hstep
    split at hstep
    · cases hstep
    · exact Option.some.inj hstep ▸ rfl
  | foreignDestroy w =>
    simp only [Arena.step] at hstep
    split at hstep
    · cases hstep
    · exact Option.some.inj hstep ▸ rfl
  | foreignOwner w => exact h.elim
  | discover =>
    simp only [Arena.step] at hstep
    split_ifs at hstep
    obtain ⟨d, -, rfl⟩ := Option.map_eq_some_iff.mp hstep
    rfl

instance (arena : Arena) : ∀ move, Decidable (Inside arena move)
  | .provider .. => isTrue trivial
  | .crash _ => isTrue trivial
  | .foreignWindow _ => isTrue trivial
  | .foreignDestroy _ => isTrue trivial
  | .foreignOwner _ => isFalse id
  | .discover => isTrue trivial

def restScreen : Screen := ⟨1, 2, 3, 4, by decide, by decide, by decide, by decide⟩

def restAdvertisement : Advertisement := ⟨Json.ascii "/s", by decide⟩

def restArena : Arena :=
  ⟨⟨noneId, fun _ => none, fun _ => false, fun _ => none, none⟩, fun _ => .idle, .idle⟩

theorem restArena_start : restArena.Start restScreen :=
  ⟨fun _ => rfl, Or.inl rfl, fun _ h => (Bool.false_ne_true h).elim, fun _ _ => rfl, rfl, fun _ => rfl,
    rfl⟩

/-- The provider claims the screen, and then somebody looks for it. -/
def restMoves : List ArenaMove :=
  List.replicate 9 (.provider 0 true true 7)

def restClaimed : List (Arena × ArenaMove) × Arena :=
  (replay (Arena.step restScreen fun _ => restAdvertisement) Inside [] restArena restMoves).get rfl

theorem restClaimed_run : Run (Arena.Start restScreen)
    (Arena.step restScreen fun _ => restAdvertisement) Inside restClaimed.1 restClaimed.2 :=
  (Run.start restArena_start).replay (Option.some_get _).symm

def restFound : List (Arena × ArenaMove) × Arena :=
  (replay (Arena.step restScreen fun _ => restAdvertisement) (fun _ _ => True) [] restArena
    (restMoves ++ List.replicate 4 .discover)).get rfl

def restReplies : Replies :=
  ⟨some [58], .ok (some 1), .ok 3, .ok 7, .ok 4, .ok 2, .ok (textReply restScreen restAdvertisement),
    .ok (textReply restScreen restAdvertisement), .ok 7⟩

theorem restReplies_finds : restReplies.Finds restAdvertisement := by
  have hutf8 : validUtf8 restAdvertisement.socket = true :=
    validUtf8_of_ascii (by decide +kernel : ∀ b ∈ Json.ascii "/s", b < 0x80)
  exact ⟨⟨1, rfl⟩, ⟨3, rfl, by decide⟩, ⟨7, rfl, by decide, rfl⟩, ⟨4, rfl, by decide⟩, 2, _, _, rfl,
    by decide, rfl, rfl, textReply_isText .., textReply_isText .., rfl, rfl, validUtf8_encode hutf8⟩

theorem discovery_agrees_rest : advertisedSocket restReplies = .ok restAdvertisement.socket :=
  (discovery_agrees restReplies _ ⟨58, [], rfl⟩).2.mpr ⟨_, restReplies_finds, rfl⟩

end AgentSeat.X11
