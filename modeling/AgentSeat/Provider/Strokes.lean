/-
  What the XTEST requests of one stroke do to the keyboard, whatever the server answers.

  A call of `fake_input` or `best_effort_release` is one `Attempt`, read off the trace together with
  the synchronization behind it. The calls of one `type_key` are labelled with the place of their key
  in the stroke, the modifiers in order and the main key last: a stroke may name a keycode twice, and
  only the place says which press a release belongs to.

  Every run has one shape. Keys go down by rising place until the main key is down or a press fails;
  from then on keys go up by falling place, down to the first (`Stroke`). `Balanced` is what
  follows from the shape.
-/
import AgentSeat.Provider.Input

namespace AgentSeat.Provider

open AgentSeat.Lib AgentSeat.Proto AgentSeat.X11

/-! ## Attempts -/

/-- What became of a request: it could not be sent or was refused, it was accepted but the
    synchronization failed, or both went through. -/
inductive Fate where
  | refused | unsynchronized | done
  deriving DecidableEq

structure Attempt where
  kind : XTestKind
  detail : Nat
  fate : Fate
  deriving DecidableEq

/-- The call returned `Ok`. -/
def Attempt.Ok (a : Attempt) : Prop := a.fate = .done

def synchronized : List Step → Bool
  | .said .sync (.ok _) :: _ => true
  | _ => false

/-- The XTEST requests among the entries. -/
def attempts : List Step → List Attempt
  | [] => []
  | .said (.fakeInput event) (.error _) :: rest =>
    ⟨event.kind, event.detail, .refused⟩ :: attempts rest
  | .said (.fakeInput event) (.ok _) :: rest =>
    ⟨event.kind, event.detail, if synchronized rest then .done else .unsynchronized⟩ ::
      attempts rest
  | _ :: rest => attempts rest

/-- The entries make exactly these attempts, whatever stands behind them. -/
def Makes (added : List Step) (made : List Attempt) : Prop :=
  ∀ rest, attempts (added ++ rest) = made ++ attempts rest

theorem Makes.nil : Makes [] [] := fun _ => rfl

theorem Makes.append {added more : List Step} {made made' : List Attempt} (h : Makes added made)
    (h' : Makes more made') : Makes (added ++ more) (made ++ made') := by
  intro rest
  rw [List.append_assoc, h, h', List.append_assoc]

theorem Makes.attempts_eq {added : List Step} {made : List Attempt} (h : Makes added made) :
    attempts added = made := by
  have := h []
  rwa [List.append_nil, show attempts [] = [] from rfl, List.append_nil] at this

/-- What every run of `m` returns, and the attempts it makes. -/
def Attempting {α : Type} (m : XM α) (F : Except Failure α → List Attempt → Prop) : Prop :=
  Writes (fun _ => True) m fun r added => ∃ made, Makes added made ∧ F r made

section Attempting

variable {α β : Type} {F F' : Except Failure α → List Attempt → Prop}
  {G : Except Failure β → List Attempt → Prop}

theorem Attempting.post {m : XM α} (h : Attempting m F) (hF : ∀ r made, F r made → F' r made) :
    Attempting m F' :=
  Writes.post h fun _ _ ⟨made, hmade, hf⟩ => ⟨made, hmade, hF _ _ hf⟩

theorem Attempting.pure {a : α} (h : F (.ok a) []) : Attempting (Pure.pure a : XM α) F :=
  Writes.pure ⟨[], Makes.nil, h⟩

theorem Attempting.fail {e : Failure} (h : F (.error e) []) :
    Attempting (Prog.fail e : XM α) F :=
  Writes.fail ⟨[], Makes.nil, h⟩

theorem Attempting.bind {m : XM α} {f : α → XM β} (hm : Attempting m F)
    (hf : ∀ a made, F (.ok a) made → Attempting (f a) fun r more => G r (made ++ more))
    (herr : ∀ e made, F (.error e) made → G (.error e) made) : Attempting (m >>= f) G := by
  refine Writes.bind hm (fun a added ⟨made, hmade, hF⟩ => ?_)
    fun e added ⟨made, hmade, hF⟩ => ⟨made, hmade, herr e made hF⟩
  exact Writes.post (hf a made hF) fun r more ⟨made', hmade', hG⟩ =>
    ⟨made ++ made', hmade.append hmade', hG⟩

theorem Attempting.attempt_bind {m : XM α} {f : Except Failure α → XM β} (hm : Attempting m F)
    (hf : ∀ r made, F r made → Attempting (f r) fun r' more => G r' (made ++ more)) :
    Attempting (Prog.attempt m >>= f) G := by
  refine Writes.attempt_bind hm fun r added ⟨made, hmade, hF⟩ => ?_
  exact Writes.post (hf r made hF) fun r' more ⟨made', hmade', hG⟩ =>
    ⟨made ++ made', hmade.append hmade', hG⟩

end Attempting

/-! ## The two ways to emit -/

section Emit

variable (env : Outside)

/-- How a run of `fake_input` goes: refused, accepted but not synchronized, or both done. -/
theorem fakeInput_run (event : XTestEvent) (w : World) :
    (∃ fault e, fakeInput env event w =
      (.error e, ⟨w.state, w.trace ++ [.said (.fakeInput event) (.error fault)]⟩)) ∨
    (∃ fault e, fakeInput env event w =
      (.error e, ⟨w.state, w.trace ++ [.said (.fakeInput event) (.ok ()),
        .said .sync (.error fault)]⟩)) ∨
    fakeInput env event w =
      (.ok (), ⟨w.state, w.trace ++ [.said (.fakeInput event) (.ok ()), .said .sync (.ok ())]⟩) := by
  have hrun : fakeInput env event w =
      (Prog.lift (checked "cannot queue XTEST input" "the X server refused XTEST input"
          (env w.trace (.fakeInput event))) >>= fun _ : Unit =>
        reply "cannot synchronize XTEST input" "cannot synchronize XTEST input"
          (Dialogue.ask env .sync))
        ⟨w.state, w.trace ++ [.said (.fakeInput event) (env w.trace (.fakeInput event))]⟩ := rfl
  rw [hrun]
  cases hq : (env w.trace (.fakeInput event) : Except XFault Unit) with
  | error fault => exact .inl ⟨fault, by cases fault <;> exact ⟨_, rfl⟩⟩
  | ok u =>
    have hsync : (Prog.lift (checked "cannot queue XTEST input" "the X server refused XTEST input"
          (.ok u)) >>= fun _ : Unit =>
        reply "cannot synchronize XTEST input" "cannot synchronize XTEST input"
          (Dialogue.ask env .sync))
        ⟨w.state, w.trace ++ [.said (.fakeInput event) (.ok u)]⟩ =
      (checked "cannot synchronize XTEST input" "cannot synchronize XTEST input"
          (env (w.trace ++ [.said (.fakeInput event) (.ok u)]) .sync),
        ⟨w.state, w.trace ++ [.said (.fakeInput event) (.ok u)] ++
          [.said .sync (env (w.trace ++ [.said (.fakeInput event) (.ok u)]) .sync)]⟩) := rfl
    rw [hsync, List.append_assoc]
    cases hs : (env (w.trace ++ [.said (.fakeInput event) (.ok u)]) .sync : Except XFault Unit) with
    | error fault => exact .inr (.inl ⟨fault, by cases fault <;> exact ⟨_, rfl⟩⟩)
    | ok u' => exact .inr (.inr rfl)

/-- `fake_input` is one attempt, and its result says what became of it. -/
theorem fakeInput_attempting (event : XTestEvent) :
    Attempting (fakeInput env event) fun r made =>
      ∃ fate, made = [⟨event.kind, event.detail, fate⟩] ∧ (r = .ok () ↔ fate = .done) := by
  intro w _
  rcases fakeInput_run env event w with ⟨fault, e, h⟩ | ⟨fault, e, h⟩ | h
  · rw [h]
    exact ⟨_, rfl, trivial, _, fun _ => rfl, .refused, rfl, by simp⟩
  · rw [h]
    exact ⟨_, rfl, trivial, _, fun _ => rfl, .unsynchronized, rfl, by simp⟩
  · rw [h]
    exact ⟨_, rfl, trivial, _, fun _ => rfl, .done, rfl, by simp⟩

/-- A release that cannot fail is one attempt as well. -/
theorem bestEffortRelease_attempting (kind : XTestKind) (detail : Nat) :
    Attempting (bestEffortRelease env kind detail) fun r made =>
      r = .ok () ∧ ∃ fate, made = [⟨kind, detail, fate⟩] := by
  unfold bestEffortRelease
  refine Writes.bind (F := fun r added => ∃ answer : Except XFault Unit, r = .ok answer ∧
      added = [.said (.fakeInput ⟨kind, detail, 0, 0⟩) answer])
    (Writes.ask fun answer => ⟨answer, rfl, rfl⟩) ?_ ?_
  rotate_left
  · rintro e added ⟨answer, h, -⟩
    simp at h
  rintro answer added ⟨answer', heq, rfl⟩
  obtain rfl := Except.ok.inj heq
  have hsynced (answer : Except XFault Unit) (fate : Except XFault Unit → Fate)
      (h : ∀ a, Makes [.said (.fakeInput ⟨kind, detail, 0, 0⟩) answer, .said .sync a]
        [⟨kind, detail, fate a⟩]) :
      Writes (fun _ => True) (do let _ ← Dialogue.ask env .sync; pure () : XM Unit)
        fun r more => ∃ made, Makes ([.said (.fakeInput ⟨kind, detail, 0, 0⟩) answer] ++ more) made ∧
          r = .ok () ∧ ∃ fate, made = [⟨kind, detail, fate⟩] :=
    fun w _ => ⟨_, rfl, trivial, _, h _, rfl, _, rfl⟩
  cases answer with
  | error fault =>
    cases fault with
    | send => exact Writes.pure ⟨_, fun _ => rfl, rfl, .refused, rfl⟩
    | reply => exact hsynced _ (fun _ => .refused) fun _ _ => rfl
  | ok u =>
    refine hsynced _ (fun a => if synchronized [.said .sync a] then .done else .unsynchronized) ?_
    intro a rest
    cases (a : Except XFault Unit) <;> rfl

end Emit

/-! ## The shape of a stroke -/

/-- An attempt and the place of its key in the stroke. -/
structure KeyCall where
  place : Nat
  attempt : Attempt

section Shape

variable (press release : XTestKind) (keys : List Nat)

/-- Keys pressed one after the other, from place `p` up to place `q`. -/
inductive Presses : Nat → Nat → List KeyCall → Prop
  | nil (p : Nat) : Presses p p []
  | cons {p q k : Nat} {rest : List KeyCall} (named : keys[p]? = some k)
      (h : Presses (p + 1) q rest) : Presses p q (⟨p, ⟨press, k, .done⟩⟩ :: rest)

/-- Keys released from the place below `p` down to the first, each of them at least once. -/
inductive Releases : Nat → List KeyCall → Prop
  | nil : Releases 0 []
  | next {p k : Nat} {fate : Fate} {rest : List KeyCall} (named : keys[p]? = some k)
      (h : Releases p rest) : Releases (p + 1) (⟨p, ⟨release, k, fate⟩⟩ :: rest)
  | again {p k : Nat} {fate : Fate} {rest : List KeyCall} (named : keys[p]? = some k)
      (h : Releases (p + 1) rest) : Releases (p + 1) (⟨p, ⟨release, k, fate⟩⟩ :: rest)

/-- At most one press that failed, at place `p`. -/
def Failed (p : Nat) (calls : List KeyCall) : Prop :=
  calls = [] ∨ ∃ k fate, keys[p]? = some k ∧ fate ≠ .done ∧ calls = [⟨p, ⟨press, k, fate⟩⟩]

/-- Presses, a press that failed, releases of everything pressed before it. -/
def Stroke (calls : List KeyCall) : Prop :=
  ∃ p downs failed ups, calls = downs ++ (failed ++ ups) ∧ Presses press keys 0 p downs ∧
    Failed press keys p failed ∧ Releases release keys p ups

/-- No key is left down and none is released that was not pressed. A greater place is a later key
    of the stroke, the main key has the greatest. -/
structure Balanced (calls : List KeyCall) : Prop where
  named : ∀ c ∈ calls, keys[c.place]? = some c.attempt.detail
  kinds : ∀ c ∈ calls, c.attempt.kind = press ∨ c.attempt.kind = release
  released : ∀ before c after, calls = before ++ c :: after → c.attempt.kind = press →
    c.attempt.Ok → ∃ r ∈ after, r.place = c.place ∧ r.attempt.kind = release
  justified : ∀ before c after, calls = before ++ c :: after → c.attempt.kind = release →
    ∃ d ∈ before, d.place = c.place ∧ d.attempt.kind = press ∧ d.attempt.Ok
  rising : calls.Pairwise fun c d => c.attempt.kind = press → d.attempt.kind = press →
    c.place < d.place
  falling : calls.Pairwise fun c d => c.attempt.kind = release → d.attempt.kind = release →
    d.place ≤ c.place
  stopped : calls.Pairwise fun c d => ¬ c.attempt.Ok → d.attempt.kind ≠ press

/-- Every key pressed and released once, the last pressed first. -/
def nested : List Attempt :=
  keys.map (fun k => ⟨press, k, .done⟩) ++ keys.reverse.map fun k => ⟨release, k, .done⟩

variable {press release keys}

theorem Presses.mem {p q : Nat} {downs : List KeyCall} (h : Presses press keys p q downs) :
    ∀ c ∈ downs, p ≤ c.place ∧ c.place < q ∧ keys[c.place]? = some c.attempt.detail ∧
      c.attempt.kind = press ∧ c.attempt.Ok := by
  induction h with
  | nil p => simp
  | @cons p q k rest named h ih =>
    have hle : p + 1 ≤ q := by
      clear ih
      generalize p + 1 = p' at h
      induction h with
      | nil p => exact Nat.le_refl p
      | cons named h ih => omega
    intro c hc
    rcases List.mem_cons.mp hc with rfl | hc
    · exact ⟨Nat.le_refl p, hle, named, rfl, rfl⟩
    · obtain ⟨hp, hq, hrest⟩ := ih c hc
      exact ⟨by omega, hq, hrest⟩

theorem Presses.covers {p q : Nat} {downs : List KeyCall} (h : Presses press keys p q downs)
    {i : Nat} (hp : p ≤ i) (hq : i < q) : ∃ c ∈ downs, c.place = i := by
  induction h with
  | nil p => omega
  | @cons p q k rest named h ih =>
    rcases Nat.lt_or_eq_of_le hp with hlt | rfl
    · obtain ⟨c, hc, hi⟩ := ih hlt hq
      exact ⟨c, List.mem_cons_of_mem _ hc, hi⟩
    · exact ⟨_, List.mem_cons_self .., rfl⟩

theorem Presses.rising {p q : Nat} {downs : List KeyCall} (h : Presses press keys p q downs) :
    downs.Pairwise fun c d => c.place < d.place := by
  induction h with
  | nil p => exact List.Pairwise.nil
  | @cons p q k rest named h ih =>
    refine List.pairwise_cons.mpr ⟨fun d hd => ?_, ih⟩
    have hd := (h.mem d hd).1
    show p < d.place
    omega

theorem Presses.snoc {p q k : Nat} {downs : List KeyCall} (h : Presses press keys p q downs)
    (named : keys[q]? = some k) :
    Presses press keys p (q + 1) (downs ++ [⟨q, ⟨press, k, .done⟩⟩]) := by
  induction h with
  | nil p => exact .cons named (.nil _)
  | cons named' h ih => exact .cons named' (ih named)

theorem Releases.mem {p : Nat} {ups : List KeyCall} (h : Releases release keys p ups) :
    ∀ c ∈ ups, c.place < p ∧ keys[c.place]? = some c.attempt.detail ∧
      c.attempt.kind = release := by
  induction h with
  | nil => simp
  | next named h ih =>
    intro c hc
    rcases List.mem_cons.mp hc with rfl | hc
    · exact ⟨Nat.lt_succ_self _, named, rfl⟩
    · obtain ⟨hp, hrest⟩ := ih c hc
      exact ⟨by omega, hrest⟩
  | again named h ih =>
    intro c hc
    rcases List.mem_cons.mp hc with rfl | hc
    · exact ⟨Nat.lt_succ_self _, named, rfl⟩
    · exact ih c hc

theorem Releases.covers {p : Nat} {ups : List KeyCall} (h : Releases release keys p ups) {i : Nat}
    (hi : i < p) : ∃ c ∈ ups, c.place = i := by
  induction h with
  | nil => omega
  | @next p k fate rest named h ih =>
    rcases Nat.lt_succ_iff_lt_or_eq.mp hi with hlt | rfl
    · obtain ⟨c, hc, hci⟩ := ih hlt
      exact ⟨c, List.mem_cons_of_mem _ hc, hci⟩
    · exact ⟨_, List.mem_cons_self .., rfl⟩
  | again named h ih =>
    obtain ⟨c, hc, hci⟩ := ih hi
    exact ⟨c, List.mem_cons_of_mem _ hc, hci⟩

theorem Releases.falling {p : Nat} {ups : List KeyCall} (h : Releases release keys p ups) :
    ups.Pairwise fun c d => d.place ≤ c.place := by
  induction h with
  | nil => exact List.Pairwise.nil
  | @next p k fate rest named h ih =>
    refine List.pairwise_cons.mpr ⟨fun d hd => ?_, ih⟩
    have hd := (h.mem d hd).1
    show d.place ≤ p
    omega
  | @again p k fate rest named h ih =>
    refine List.pairwise_cons.mpr ⟨fun d hd => ?_, ih⟩
    have hd := (h.mem d hd).1
    show d.place ≤ p
    omega

/-- The failed press, if there is one, is of the next key. -/
theorem Failed.mem {p : Nat} {failed : List KeyCall} (h : Failed press keys p failed) :
    ∀ c ∈ failed, c.place = p ∧ keys[c.place]? = some c.attempt.detail ∧ c.attempt.kind = press ∧
      ¬ c.attempt.Ok := by
  rcases h with rfl | ⟨k, fate, named, hfate, rfl⟩
  · simp
  · intro c hc
    rw [List.mem_singleton.mp hc]
    exact ⟨rfl, named, rfl, hfate⟩

theorem Failed.pairwise {p : Nat} {failed : List KeyCall} (h : Failed press keys p failed)
    (R : KeyCall → KeyCall → Prop) : failed.Pairwise R := by
  rcases h with rfl | ⟨k, fate, named, hfate, rfl⟩
  · exact List.Pairwise.nil
  · exact List.pairwise_singleton ..

/-- Everything that holds of a stroke follows from its shape. -/
theorem Stroke.balanced {calls : List KeyCall} (hne : press ≠ release)
    (h : Stroke press release keys calls) : Balanced press release keys calls := by
  obtain ⟨p, downs, failed, ups, rfl, hdowns, hfailed, hups⟩ := h
  have hdown := hdowns.mem
  have hfail := hfailed.mem
  have hup := hups.mem
  have hpress (c : KeyCall) (hc : c ∈ downs ++ failed) : c.attempt.kind = press := by
    rcases List.mem_append.mp hc with hc | hc
    · exact (hdown c hc).2.2.2.1
    · exact (hfail c hc).2.2.1
  constructor
  case named =>
    intro c hc
    simp only [List.mem_append] at hc
    rcases hc with hc | hc | hc
    · exact (hdown c hc).2.2.1
    · exact (hfail c hc).2.1
    · exact (hup c hc).2.1
  case kinds =>
    intro c hc
    rw [← List.append_assoc] at hc
    rcases List.mem_append.mp hc with hc | hc
    · exact .inl (hpress c hc)
    · exact .inr (hup c hc).2.2
  case released =>
    -- a press that succeeded stands before the releases, and these reach its place
    intro before c after hsplit hkind hok
    have hno : ¬ c.attempt.kind = release := fun hr => hne (hkind.symm.trans hr)
    rw [← List.append_assoc] at hsplit
    obtain ⟨post, hpre⟩ := split_before (fun y hy => (hup y hy).2.2) hno hsplit
    have hplace : c.place < p := by
      have hc : c ∈ downs ++ failed := by simp [hpre]
      rcases List.mem_append.mp hc with hc | hc
      · exact (hdown c hc).2.1
      · exact absurd hok (hfail c hc).2.2.2
    obtain ⟨r, hr, hrp⟩ := hups.covers hplace
    refine ⟨r, ?_, hrp, (hup r hr).2.2⟩
    have hafter : after = post ++ ups := by
      rw [hpre, List.append_assoc, List.cons_append] at hsplit
      exact (List.cons.inj (List.append_cancel_left hsplit)).2.symm
    rw [hafter]
    exact List.mem_append_right _ hr
  case justified =>
    intro before c after hsplit hkind
    have hno : ¬ c.attempt.kind = press := fun hp => hne (hp.symm.trans hkind)
    rw [← List.append_assoc] at hsplit
    obtain ⟨mid, rfl, hmid⟩ := split_past hpress hno hsplit
    have hplace : c.place < p := (hup c (by simp [hmid])).1
    obtain ⟨d, hd, hdp⟩ := hdowns.covers (Nat.zero_le _) hplace
    obtain ⟨-, -, -, hdk, hdo⟩ := hdown d hd
    exact ⟨d, by simp [hd], hdp, hdk, hdo⟩
  case rising =>
    refine List.pairwise_append.mpr ⟨hdowns.rising.imp fun h _ _ => h, List.pairwise_append.mpr
      ⟨hfailed.pairwise _, hups.falling.imp_of_mem fun hc _ _ hp => ?_, ?_⟩, ?_⟩
    · exact absurd (hp.symm.trans (hup _ hc).2.2) hne
    · intro c _ d hd _ hp
      exact absurd (hp.symm.trans (hup d hd).2.2) hne
    · intro c hc d hd _ hp
      rcases List.mem_append.mp hd with hd | hd
      · have h₁ := (hdown c hc).2.1
        have h₂ := (hfail d hd).1
        omega
      · exact absurd (hp.symm.trans (hup d hd).2.2) hne
  case falling =>
    rw [← List.append_assoc]
    refine List.pairwise_append.mpr ⟨?_, hups.falling.imp fun h _ _ => h, ?_⟩
    · refine List.Pairwise.imp_of_mem (R := fun _ _ => True) (fun hc _ _ hr => ?_)
        (List.pairwise_of_forall fun _ _ => trivial)
      exact absurd ((hpress _ hc).symm.trans hr) hne
    · intro c hc d _ hr
      exact absurd ((hpress c hc).symm.trans hr) hne
  case stopped =>
    refine List.pairwise_append.mpr ⟨hdowns.rising.imp_of_mem fun hc _ _ hno => ?_,
      List.pairwise_append.mpr ⟨hfailed.pairwise _, ?_, ?_⟩, ?_⟩
    · exact absurd (hdown _ hc).2.2.2.2 hno
    · refine hups.falling.imp_of_mem fun _ hd _ _ hp => ?_
      exact absurd (hp.symm.trans (hup _ hd).2.2) hne
    · intro c _ d hd _ hp
      exact absurd (hp.symm.trans (hup d hd).2.2) hne
    · intro c hc d _ hno
      exact absurd (hdown c hc).2.2.2.2 hno

/-- What a run of presses leaves of the keys. -/
theorem Presses.attempts_append {p q : Nat} {downs : List KeyCall}
    (h : Presses press keys p q downs) :
    downs.map KeyCall.attempt ++ (keys.drop q).map (fun k => ⟨press, k, .done⟩) =
      (keys.drop p).map fun k => ⟨press, k, .done⟩ := by
  induction h with
  | nil p => rfl
  | @cons p q k rest named h ih =>
    obtain ⟨hp, hk⟩ := List.getElem?_eq_some_iff.mp named
    rw [List.drop_eq_getElem_cons hp, hk, List.map_cons, List.map_cons, List.cons_append, ih]

end Shape

/-! ## The programs -/

section Programs

variable (env : Outside) {keys : List Nat}

theorem take_reverse_succ {p k : Nat} (named : keys[p]? = some k) :
    (keys.take (p + 1)).reverse = k :: (keys.take p).reverse := by
  rw [List.take_add_one, named, Option.toList_some, List.reverse_append]
  rfl

/-- The calls are releases of every key below place `p`. -/
def Lifting (keys : List Nat) (p : Nat) (made : List Attempt) : Prop :=
  ∃ ups, Releases .keyRelease keys p ups ∧ made = ups.map KeyCall.attempt

theorem Lifting.next {p k : Nat} {fate : Fate} {made : List Attempt} (named : keys[p]? = some k)
    (h : Lifting keys p made) : Lifting keys (p + 1) (⟨.keyRelease, k, fate⟩ :: made) := by
  obtain ⟨ups, hups, rfl⟩ := h
  exact ⟨_, .next named hups, rfl⟩

/-- A release that failed is tried once more. -/
theorem Lifting.twice {p k : Nat} {fate fate' : Fate} {made : List Attempt}
    (named : keys[p]? = some k) (h : Lifting keys p made) :
    Lifting keys (p + 1) (⟨.keyRelease, k, fate⟩ :: ⟨.keyRelease, k, fate'⟩ :: made) := by
  obtain ⟨ups, hups, rfl⟩ := h
  exact ⟨_, .again named (.next named hups), rfl⟩

theorem releaseKeys_attempting {p : Nat} (hp : p ≤ keys.length) :
    Attempting (releaseKeys env (keys.take p)) fun r made => r = .ok () ∧ Lifting keys p made := by
  unfold releaseKeys
  induction p with
  | zero => exact Attempting.pure ⟨rfl, [], .nil, rfl⟩
  | succ p ih =>
    have named := List.getElem?_eq_getElem (show p < keys.length by omega)
    rw [take_reverse_succ named]
    refine Attempting.bind (bestEffortRelease_attempting env _ _) ?_ fun e made h => by
      simp at h
    rintro - made ⟨-, fate, rfl⟩
    refine Attempting.post (ih (by omega)) fun r more ⟨hr, hmore⟩ => ⟨hr, hmore.next named⟩

/-- Releasing what was pressed: everything comes up, and without a fault each key once. -/
theorem popModifiers_attempting {p : Nat} (hp : p ≤ keys.length) :
    Attempting (popModifiers env (keys.take p).reverse) fun r made => Lifting keys p made ∧
      (r = .ok () → made = (keys.take p).reverse.map fun k => ⟨.keyRelease, k, .done⟩) := by
  induction p with
  | zero => exact Attempting.pure ⟨⟨[], .nil, rfl⟩, fun _ => rfl⟩
  | succ p ih =>
    have named := List.getElem?_eq_getElem (show p < keys.length by omega)
    rw [take_reverse_succ named]
    refine Attempting.attempt_bind (fakeInput_attempting env _) ?_
    rintro r made ⟨fate, rfl, hfate⟩
    cases r with
    | ok u =>
      obtain rfl := hfate.mp rfl
      refine Attempting.post (ih (by omega)) fun r more ⟨hmore, hall⟩ =>
        ⟨hmore.next named, fun hr => ?_⟩
      rw [hall hr]
      rfl
    | error e =>
      refine Attempting.bind (bestEffortRelease_attempting env _ _) ?_ fun e made h => by simp at h
      rintro - made ⟨-, fate', rfl⟩
      rw [List.reverse_reverse]
      refine Attempting.bind (releaseKeys_attempting env (by omega)) ?_ fun e made h => by simp at h
      rintro - made ⟨-, hmade⟩
      refine Attempting.fail ⟨?_, by simp⟩
      rw [List.append_nil]
      exact hmade.twice named

/-- The calls press keys from place `p` on until one fails, and release the keys before it. -/
def Broken (keys : List Nat) (p : Nat) (made : List Attempt) : Prop :=
  ∃ q downs k fate more, Presses .keyPress keys p q downs ∧ keys[q]? = some k ∧ fate ≠ .done ∧
    Lifting keys q more ∧ made = downs.map KeyCall.attempt ++ ⟨.keyPress, k, fate⟩ :: more

theorem pressModifiers_attempting {rest tail : List Nat} {p : Nat}
    (hkeys : keys.drop p = rest ++ tail) (hp : p ≤ keys.length) :
    Attempting (pressModifiers env rest (keys.take p)) fun r made =>
      (∃ q downs, r = .ok (keys.take q) ∧ q = p + rest.length ∧ q ≤ keys.length ∧
        Presses .keyPress keys p q downs ∧ made = downs.map KeyCall.attempt) ∨
      (∃ e, r = .error e) ∧ Broken keys p made := by
  induction rest generalizing p with
  | nil => exact Attempting.pure (.inl ⟨p, [], rfl, rfl, hp, .nil p, rfl⟩)
  | cons k rest ih =>
    have hlt : p < keys.length := by
      have := congrArg List.length hkeys
      simp only [List.length_drop, List.cons_append, List.length_cons] at this
      omega
    rw [List.drop_eq_getElem_cons hlt, List.cons_append] at hkeys
    obtain ⟨hk, hrest⟩ := List.cons.inj hkeys
    have named : keys[p]? = some k := by rw [List.getElem?_eq_getElem hlt, hk]
    refine Attempting.attempt_bind (fakeInput_attempting env _) ?_
    rintro r made ⟨fate, rfl, hfate⟩
    cases r with
    | ok u =>
      obtain rfl := hfate.mp rfl
      have htake : keys.take p ++ [k] = keys.take (p + 1) := by
        rw [List.take_add_one, named, Option.toList_some]
      show Attempting (pressModifiers env rest (keys.take p ++ [k])) _
      rw [htake]
      refine Attempting.post (ih hrest hlt) fun r more h => ?_
      rcases h with ⟨q, downs, hr, hq, hle, hdowns, rfl⟩ | ⟨he, q, downs, k', fate, ups, hdowns, hrest⟩
      · refine .inl ⟨q, _, hr, ?_, hle, .cons named hdowns, rfl⟩
        rw [hq, List.length_cons]
        omega
      · obtain ⟨named', hfate', hups, rfl⟩ := hrest
        exact .inr ⟨he, q, _, k', fate, ups, .cons named hdowns, named', hfate', hups, rfl⟩
    | error e =>
      refine Attempting.bind (releaseKeys_attempting env hp) ?_ fun e made h => by simp at h
      rintro - made ⟨-, hmade⟩
      refine Attempting.fail (.inr ⟨⟨e, rfl⟩, p, [], k, fate, made, .nil p, named, ?_, hmade, ?_⟩)
      · exact fun h => by simpa using hfate.mpr h
      · rw [List.append_nil]
        rfl

theorem Broken.stroke {made : List Attempt} (h : Broken keys 0 made) :
    ∃ calls, Stroke .keyPress .keyRelease keys calls ∧ made = calls.map KeyCall.attempt := by
  obtain ⟨q, downs, k, fate, more, hdowns, named, hfate, ⟨ups, hups, rfl⟩, rfl⟩ := h
  refine ⟨_, ⟨q, downs, [⟨q, ⟨.keyPress, k, fate⟩⟩], ups, rfl, hdowns,
    .inr ⟨k, fate, named, hfate, rfl⟩, hups⟩, ?_⟩
  simp

theorem Lifting.stroke {p : Nat} {downs : List KeyCall} {more : List Attempt}
    (hdowns : Presses .keyPress keys 0 p downs) (h : Lifting keys p more) :
    ∃ calls, Stroke .keyPress .keyRelease keys calls ∧
      downs.map KeyCall.attempt ++ more = calls.map KeyCall.attempt := by
  obtain ⟨ups, hups, rfl⟩ := h
  exact ⟨_, ⟨p, downs, [], ups, rfl, hdowns, .inl rfl, hups⟩, by simp⟩

end Programs

/-! ## Strokes and clicks -/

/-- The keys of a stroke in the order they go down. -/
def strokeKeys (stroke : KeyStroke) : List Nat := stroke.modifiers ++ [stroke.keycode]

section Strokes

variable (env : Outside)

theorem typeKey_attempting (stroke : KeyStroke) :
    Attempting (typeKey env stroke) fun r made =>
      (∃ calls, Stroke .keyPress .keyRelease (strokeKeys stroke) calls ∧
        made = calls.map KeyCall.attempt) ∧
      (r = .ok () → made = nested .keyPress .keyRelease (strokeKeys stroke)) := by
  have hmods : (strokeKeys stroke).take stroke.modifiers.length = stroke.modifiers := by
    simp [strokeKeys]
  have hlast : (strokeKeys stroke)[stroke.modifiers.length]? = some stroke.keycode := by
    simp [strokeKeys]
  have hlength : (strokeKeys stroke).length = stroke.modifiers.length + 1 := by simp [strokeKeys]
  have hpresses := @pressModifiers_attempting env (strokeKeys stroke) stroke.modifiers
    [stroke.keycode] 0 rfl (Nat.zero_le _)
  unfold typeKey
  refine Attempting.bind hpresses ?_ ?_
  · rintro pressed made (⟨q, downs, hr, hq, -, hdowns, rfl⟩ | ⟨⟨e, he⟩, -⟩)
    rotate_left
    · simp at he
    rw [Nat.zero_add] at hq
    subst hq
    rw [Except.ok.inj hr]
    refine Attempting.attempt_bind (fakeInput_attempting env _) ?_
    rintro down made ⟨fate, rfl, hfate⟩
    cases down with
    | error e =>
      have hfailed : fate ≠ .done := fun h => by simpa using hfate.mpr h
      refine Attempting.bind (releaseKeys_attempting env (by omega)) ?_ fun e made h => by simp at h
      rintro - made ⟨-, hmade⟩
      refine Attempting.fail ⟨Broken.stroke ⟨_, downs, _, fate, made, hdowns, hlast, hfailed, hmade,
        ?_⟩, by simp⟩
      simp
    | ok u =>
      obtain rfl := hfate.mp rfl
      have hall := hdowns.snoc hlast
      refine Attempting.attempt_bind (fakeInput_attempting env _) ?_
      rintro up made ⟨fate, rfl, hfate⟩
      cases up with
      | error e =>
        refine Attempting.bind (bestEffortRelease_attempting env _ _) ?_ fun e made h => by
          simp at h
        rintro - made ⟨-, fate', rfl⟩
        refine Attempting.bind (releaseKeys_attempting env (by omega)) ?_ fun e made h => by
          simp at h
        rintro - made ⟨-, hmade⟩
        refine Attempting.fail ⟨?_, by simp⟩
        have hups : Lifting (strokeKeys stroke) (stroke.modifiers.length + 1)
            (⟨.keyRelease, stroke.keycode, fate⟩ :: ⟨.keyRelease, stroke.keycode, fate'⟩ :: made) :=
          hmade.twice hlast
        obtain ⟨calls, hcalls, heq⟩ := hups.stroke hall
        refine ⟨calls, hcalls, heq ▸ ?_⟩
        simp
      | ok u =>
        obtain rfl := hfate.mp rfl
        refine Attempting.post (popModifiers_attempting env (by omega)) fun r more ⟨hmore, hdone⟩ =>
          ⟨?_, fun hr => ?_⟩
        · have hups : Lifting (strokeKeys stroke) (stroke.modifiers.length + 1)
              (⟨.keyRelease, stroke.keycode, .done⟩ :: more) := hmore.next hlast
          obtain ⟨calls, hcalls, heq⟩ := hups.stroke hall
          refine ⟨calls, hcalls, heq ▸ ?_⟩
          simp
        · have hdown := hdowns.attempts_append
          rw [hdone hr, hmods]
          simpa [nested, strokeKeys] using hdown
  · rintro e made (⟨q, downs, hr, -⟩ | ⟨-, hbroken⟩)
    · simp at hr
    · exact ⟨hbroken.stroke, by simp⟩

theorem clickButton_attempting (button : PointerButton) (rootX rootY : Int) :
    Attempting (clickButton env button rootX rootY) fun r made =>
      (∃ calls, Stroke .buttonPress .buttonRelease [buttonDetail button] calls ∧
        made = calls.map KeyCall.attempt) ∧
      (r = .ok () → made = nested .buttonPress .buttonRelease [buttonDetail button]) := by
  unfold clickButton
  have hdown : Presses .buttonPress [buttonDetail button] 0 1
      [⟨0, ⟨.buttonPress, buttonDetail button, .done⟩⟩] := .cons rfl (.nil 1)
  refine Attempting.bind (fakeInput_attempting env _) ?_ ?_
  · rintro u made ⟨fate, rfl, hfate⟩
    obtain rfl := hfate.mp rfl
    refine Attempting.attempt_bind (fakeInput_attempting env _) ?_
    rintro released made ⟨fate, rfl, hfate⟩
    cases released with
    | ok u =>
      obtain rfl := hfate.mp rfl
      exact Attempting.pure ⟨⟨_, ⟨1, _, [], _, rfl, hdown, .inl rfl, .next rfl .nil⟩, rfl⟩,
        fun _ => rfl⟩
    | error e =>
      refine Attempting.bind (bestEffortRelease_attempting env _ _) ?_ fun e made h => by simp at h
      rintro - made ⟨-, fate', rfl⟩
      exact Attempting.fail ⟨⟨_, ⟨1, _, [], _, rfl, hdown, .inl rfl,
        .again rfl (.next rfl .nil)⟩, rfl⟩, by simp⟩
  · rintro e made ⟨fate, rfl, hfate⟩
    have hfailed : fate ≠ .done := fun h => by simpa using hfate.mpr h
    exact ⟨⟨_, ⟨0, [], _, [], rfl, .nil 0, .inr ⟨_, fate, rfl, hfailed, rfl⟩, .nil⟩, rfl⟩, by simp⟩

/-- The calls of a run, labelled so that they are balanced, and nested if the run succeeds. -/
def StruckWell {α : Type} (press release : XTestKind) (keys : List Nat) (m : XM α) (w : World) :
    Prop :=
  ∃ added calls, (m w).2.trace = w.trace ++ added ∧ attempts added = calls.map KeyCall.attempt ∧
    Balanced press release keys calls ∧
    ((∃ a, (m w).1 = .ok a) → attempts added = nested press release keys)

theorem Attempting.struckWell {press release : XTestKind} {keys : List Nat} {m : XM Unit}
    (hne : press ≠ release)
    (h : Attempting m fun r made =>
      (∃ calls, Stroke press release keys calls ∧ made = calls.map KeyCall.attempt) ∧
      (r = .ok () → made = nested press release keys)) (w : World) :
    StruckWell press release keys m w := by
  obtain ⟨added, htrace, -, made, hmade, ⟨calls, hcalls, rfl⟩, hok⟩ := h w trivial
  refine ⟨added, calls, htrace, hmade.attempts_eq, hcalls.balanced hne, fun ⟨a, ha⟩ => ?_⟩
  rw [hmade.attempts_eq]
  exact hok ha

/-- Under any pattern of faults a stroke and a click leave no key and no button down that the
    provider could release, release nothing they did not press, and press nothing after a fault. -/
theorem strokes_and_clicks_balanced (w : World) :
    (∀ stroke, StruckWell .keyPress .keyRelease (strokeKeys stroke) (typeKey env stroke) w) ∧
    ∀ button rootX rootY, StruckWell .buttonPress .buttonRelease [buttonDetail button]
      (clickButton env button rootX rootY) w :=
  ⟨fun stroke => (typeKey_attempting env stroke).struckWell (by decide) w,
    fun button rootX rootY => (clickButton_attempting env button rootX rootY).struckWell (by decide) w⟩

end Strokes

end AgentSeat.Provider
