/-
  When the evidence of running providers can be trusted.

  A reader takes a lock itself to see whether it is free. While it holds that lock another reader
  sees a live provider where there is none, and a provider that is just starting cannot lock its own
  marker. `Apart` excludes just this: nobody tries a lock while someone other than the maker of the
  file holds it. In every run that keeps apart, each record a call counts comes from a provider that
  held its marker while the call was under way, and publishing only fails for a path that is too
  long (`apart_evidence_live`).
-/
import AgentSeat.Active.Publish

namespace AgentSeat.Active

/-! ## Readers -/

/-- A reader leaves no trace in the directory but a lock it takes for a moment. -/
theorem reader_still {a n : Nat} {r r' : Reader} {entry : Option Nat} {d d' : Directory}
    (hstep : r.step a entry n d = some (r', d')) : Still d d' := by
  unfold Reader.step at hstep
  cases hpc : r.pc with
  | inspectDirectory => rw [hpc] at hstep; obtain ⟨-, rfl⟩ := hstep; exact Still.refl d
  | nextEntry =>
    rw [hpc] at hstep
    cases entry with
    | none => obtain ⟨-, rfl⟩ := hstep; exact Still.refl d
    | some pid =>
      dsimp only at hstep
      split_ifs at hstep
      · obtain ⟨-, rfl⟩ := hstep; exact Still.refl d
      · obtain ⟨-, rfl⟩ := hstep; exact Still.refl d
  | openMarker pid =>
    rw [hpc] at hstep
    dsimp only at hstep
    cases hname : d.names pid with
    | none => rw [hname] at hstep; obtain ⟨-, rfl⟩ := hstep; exact Still.refl d
    | some i => rw [hname] at hstep; obtain ⟨-, rfl⟩ := hstep; exact Still.refl d
  | validateMarker i =>
    rw [hpc] at hstep
    dsimp only at hstep
    split_ifs at hstep
    · obtain ⟨-, rfl⟩ := hstep; exact Still.close d i _
    · obtain ⟨-, rfl⟩ := hstep; exact Still.refl d
  | lockMarker i =>
    rw [hpc] at hstep
    dsimp only at hstep
    cases hlock : (d.files i).lock with
    | none => rw [hlock] at hstep; obtain ⟨-, rfl⟩ := hstep; exact Still.lock d i a
    | some holder => rw [hlock] at hstep; obtain ⟨-, rfl⟩ := hstep; exact Still.refl d
  | closeMarker i => rw [hpc] at hstep; obtain ⟨-, rfl⟩ := hstep; exact Still.close d i _
  | readMarker i seen =>
    rw [hpc] at hstep
    dsimp only at hstep
    split_ifs at hstep
    · cases hmarker : readMarker seen with
      | none => rw [hmarker] at hstep; obtain ⟨-, rfl⟩ := hstep; exact Still.close d i _
      | some marker => rw [hmarker] at hstep; obtain ⟨-, rfl⟩ := hstep; exact Still.close d i _
    · obtain ⟨-, rfl⟩ := hstep; exact Still.refl d
  | returned status => rw [hpc] at hstep; cases hstep
  | failed => rw [hpc] at hstep; cases hstep

/-- What stays true of a world as it goes on. -/
structure Onward (w w' : World) : Prop where
  next : w.directory.next ≤ w'.directory.next
  makers : ∀ i < w.directory.next, (w'.directory.files i).maker = (w.directory.files i).maker
  grows : ∀ i < w.directory.next,
    (w.directory.files i).content <+: (w'.directory.files i).content
  providers : ∀ q p, w.providers q = some p →
    ∃ p', w'.providers q = some p' ∧ p'.pid = p.pid ∧ p'.snapshot = p.snapshot

theorem Still.onward {w : World} {d' : Directory} (h : Still w.directory d')
    (readers : Nat → Option Reader) : Onward w ⟨d', w.providers, readers⟩ where
  next := Nat.le_of_eq h.next.symm
  makers i _ := h.makers i
  grows i _ := (h.contents i).symm ▸ List.prefix_rfl
  providers _ p hp := ⟨p, hp, rfl, rfl⟩

theorem Stepped.onward {w : World} {q : Nat} {p p' : Provider} {d' : Directory}
    (h : Stepped q p p' w.directory d') (hp : w.providers q = some p) :
    Onward w ({ w with directory := d' }.setProvider q p') where
  next := h.frame.next
  makers := h.frame.makers
  grows := h.frame.grows
  providers k s hs := by
    show ∃ s', (if k = q then some p' else w.providers k) = some s' ∧ _
    split_ifs with hk
    · rw [hk, hp] at hs
      obtain rfl := Option.some.inj hs
      exact ⟨p', rfl, h.pid, h.snapshot⟩
    · exact ⟨s, hs, rfl, rfl⟩

/-- A provider of this process ID and policy held its marker in a world in which the call was under
    way. -/
def Vouched (past : List World) (a pid : Nat) (snapshot : PolicySnapshot) : Prop :=
  ∃ v ∈ past, (∃ r, v.readers a = some r ∧ r.asking = true) ∧
    ∃ q p, v.Holding q p ∧ p.pid = pid ∧ p.snapshot = snapshot

theorem Vouched.cons {past : List World} {a pid : Nat} {snapshot : PolicySnapshot}
    (h : Vouched past a pid snapshot) (w : World) : Vouched (w :: past) a pid snapshot := by
  obtain ⟨v, hv, hmoment⟩ := h
  exact ⟨v, List.mem_cons_of_mem w hv, hmoment⟩

/-- A record stands for a provider that held its marker during the call. -/
def Backed (past : List World) (a : Nat) (snapshot : PolicySnapshot) (record : Nat × Bool) : Prop :=
  ∃ loaded, Vouched past a record.1 loaded ∧ loaded.path = snapshot.path ∧
    record.2 = decide (loaded.source = snapshot.source)

/-- What holds at each point of a reader's call. -/
def Reader.At (past : List World) (a : Nat) (r : Reader) (w : World) : Prop :=
  match r.pc with
  | .inspectDirectory => r.records = []
  | .nextEntry | .openMarker _ | .failed => True
  | .validateMarker i | .lockMarker i | .closeMarker i => i < w.directory.next
  | .readMarker i seen => i < w.directory.next ∧ seen <+: (w.directory.files i).content ∧
      ∃ p, w.providers (w.directory.files i).maker = some p ∧ Vouched past a p.pid p.snapshot
  | .returned status => status = statusOf r.records

def ReaderInv (past : List World) (a : Nat) (r : Reader) (w : World) : Prop :=
  (∀ record ∈ r.records, Backed past a r.snapshot record) ∧ r.At past a w

section Readers

variable {past : List World} {a : Nat} {r : Reader} {w : World}

theorem backed_cons {records : List (Nat × Bool)} {snapshot : PolicySnapshot}
    (h : ∀ record ∈ records, Backed past a snapshot record) (w : World) :
    ∀ record ∈ records, Backed (w :: past) a snapshot record := by
  intro record hrecord
  obtain ⟨loaded, hvouched, hloaded⟩ := h record hrecord
  exact ⟨loaded, hvouched.cons w, hloaded⟩

theorem ReaderInv.onward {w' : World} (h : ReaderInv past a r w) (ho : Onward w w') :
    ReaderInv (w :: past) a r w' := by
  obtain ⟨hrecords, hat⟩ := h
  refine ⟨backed_cons hrecords w, ?_⟩
  unfold Reader.At at hat ⊢
  cases hpc : r.pc with
  | validateMarker i => rw [hpc] at hat; exact Nat.lt_of_lt_of_le hat ho.next
  | lockMarker i => rw [hpc] at hat; exact Nat.lt_of_lt_of_le hat ho.next
  | closeMarker i => rw [hpc] at hat; exact Nat.lt_of_lt_of_le hat ho.next
  | readMarker i seen =>
    rw [hpc] at hat
    obtain ⟨hi, hseen, p, hp, hvouched⟩ := hat
    obtain ⟨p', hp', hpid, hsnapshot⟩ := ho.providers _ p hp
    refine ⟨Nat.lt_of_lt_of_le hi ho.next, hseen.trans (ho.grows i hi), p', ?_, ?_⟩
    · rw [ho.makers i hi]
      exact hp'
    · rw [hpid, hsnapshot]
      exact hvouched.cons w
  | inspectDirectory => rw [hpc] at hat; exact hat
  | returned status => rw [hpc] at hat; exact hat
  | nextEntry => trivial
  | openMarker pid => trivial
  | failed => trivial

/-- The maker of a file whose lock is not free holds it now. -/
theorem Inv.holding (h : Inv w) {i : Nat} (hi : i < w.directory.next)
    (hlock : (w.directory.files i).lock = some (.provider (w.directory.files i).maker)) :
    ∃ p, w.Holding (w.directory.files i).maker p := by
  obtain ⟨p, hp, hholds⟩ := h.locked i _ hlock
  exact ⟨p, hp, hholds.alive, i, hi, rfl, hlock⟩

theorem readMarker_nil : readMarker [] = none := rfl

/-- A marker that could be read is the whole of what its maker writes. -/
theorem Inv.marker_exact (h : Inv w) {i : Nat} {seen : List UInt8} {marker : Marker} {p : Provider}
    (hi : i < w.directory.next) (hseen : seen <+: (w.directory.files i).content)
    (hp : w.providers (w.directory.files i).maker = some p) (hmarker : readMarker seen = some marker) :
    marker = ⟨p.pid, p.snapshot.path, p.snapshot.source⟩ := by
  obtain ⟨hbegins, hempty | hpath⟩ := h.wrote hp ⟨hi, rfl⟩
  · rw [hempty, List.prefix_nil] at hseen
    rw [hseen, readMarker_nil] at hmarker
    cases hmarker
  · exact readMarker_of_prefix p.pid_lt hpath (hseen.trans hbegins) hmarker

theorem backed_count {p : Provider}
    (hrecords : ∀ record ∈ r.records, Backed past a r.snapshot record)
    (hvouched : Vouched past a p.pid p.snapshot) :
    ∀ record ∈ (r.count ⟨p.pid, p.snapshot.path, p.snapshot.source⟩).records,
      Backed past a r.snapshot record := by
  intro record hrecord
  unfold Reader.count at hrecord
  split_ifs at hrecord with hpath
  · obtain hold | hnew := List.mem_append.mp hrecord
    · exact hrecords record hold
    · obtain rfl := List.mem_singleton.mp hnew
      exact ⟨p.snapshot, hvouched, hpath, rfl⟩
  · exact hrecords record hrecord

theorem count_snapshot (r : Reader) (marker : Marker) : (r.count marker).snapshot = r.snapshot := by
  unfold Reader.count
  split_ifs
  · rfl
  · rfl

/-- The one system call whose outcome is the evidence. -/
def ReaderPc.locks : ReaderPc → Option Nat
  | .lockMarker i => some i
  | _ => none

/-- One step of a reader. The lock it finds taken is the maker's: this is the moment the record will
    stand for. -/
theorem ReaderInv.step {r' : Reader} {entry : Option Nat} {n : Nat} {d' : Directory}
    (h : ReaderInv past a r w) (hinv : Inv w) (hr : w.readers a = some r)
    (hapart : ∀ i, r.pc.locks = some i → w.directory.Undisturbed i)
    (hstep : r.step a entry n w.directory = some (r', d')) :
    ReaderInv (w :: past) a r' ({ w with directory := d' }.setReader a r') := by
  have hstill := reader_still hstep
  obtain ⟨hrecords, hat⟩ := h
  have hrecords := backed_cons hrecords w
  unfold Reader.At at hat
  unfold Reader.step at hstep
  cases hpc : r.pc with
  | inspectDirectory =>
    rw [hpc] at hstep hat
    obtain ⟨rfl, rfl⟩ := hstep
    refine ⟨hrecords, ?_⟩
    split_ifs
    · trivial
    · exact (congrArg statusOf hat).symm
  | nextEntry =>
    rw [hpc] at hstep
    cases entry with
    | none =>
      obtain ⟨rfl, rfl⟩ := hstep
      exact ⟨hrecords, rfl⟩
    | some pid =>
      dsimp only at hstep
      split_ifs at hstep
      · obtain ⟨rfl, rfl⟩ := hstep
        exact ⟨hrecords, trivial⟩
      · obtain ⟨rfl, rfl⟩ := hstep
        exact ⟨hrecords, trivial⟩
  | openMarker pid =>
    rw [hpc] at hstep
    dsimp only at hstep
    cases hname : w.directory.names pid with
    | none =>
      rw [hname] at hstep
      obtain ⟨rfl, rfl⟩ := hstep
      exact ⟨hrecords, trivial⟩
    | some i =>
      rw [hname] at hstep
      obtain ⟨rfl, rfl⟩ := hstep
      exact ⟨hrecords, (hinv.named pid i hname).1⟩
  | validateMarker i =>
    rw [hpc] at hstep hat
    dsimp only at hstep
    rw [if_neg (Nat.not_lt_of_le (hinv.content_le hat))] at hstep
    obtain ⟨rfl, rfl⟩ := hstep
    exact ⟨hrecords, hat⟩
  | lockMarker i =>
    have hun := hapart i (by rw [hpc]; rfl)
    rw [hpc] at hstep hat
    dsimp only at hstep
    obtain hfree | hheld := hun
    · rw [hfree] at hstep
      obtain ⟨rfl, rfl⟩ := hstep
      exact ⟨hrecords, hat⟩
    · rw [hheld] at hstep
      obtain ⟨rfl, rfl⟩ := hstep
      obtain ⟨p, hholding⟩ := hinv.holding hat hheld
      refine ⟨hrecords, hat, List.nil_prefix, p, hholding.1, w, List.mem_cons_self, ⟨r, hr, ?_⟩, ?_⟩
      · unfold Reader.asking
        rw [hpc]
      · exact ⟨_, p, hholding, rfl, rfl⟩
  | closeMarker i =>
    rw [hpc] at hstep
    obtain ⟨rfl, rfl⟩ := hstep
    exact ⟨hrecords, trivial⟩
  | readMarker i seen =>
    rw [hpc] at hstep hat
    obtain ⟨hi, hseen, p, hp, hvouched⟩ := hat
    dsimp only at hstep
    split_ifs at hstep with hend
    · cases hmarker : readMarker seen with
      | none =>
        rw [hmarker] at hstep
        obtain ⟨rfl, rfl⟩ := hstep
        exact ⟨hrecords, trivial⟩
      | some marker =>
        rw [hmarker] at hstep
        obtain ⟨rfl, rfl⟩ := hstep
        have hexact := hinv.marker_exact hi hseen hp hmarker
        subst hexact
        refine ⟨?_, trivial⟩
        have hcount := backed_count (r := r) hrecords (hvouched.cons w)
        rw [← count_snapshot r ⟨p.pid, p.snapshot.path, p.snapshot.source⟩] at hcount
        exact hcount
    · obtain ⟨rfl, rfl⟩ := hstep
      refine ⟨hrecords, hi, ?_, p, hp, hvouched.cons w⟩
      obtain ⟨more, hmore⟩ := hseen
      have hdrop : (w.directory.files i).content.drop seen.length = more := by
        rw [← hmore, List.drop_left]
      rw [hdrop]
      show _ <+: (w.directory.files i).content
      rw [← hmore]
      exact (List.prefix_append_right_inj seen).mpr (List.take_prefix _ _)
  | returned status => rw [hpc] at hstep; cases hstep
  | failed => rw [hpc] at hstep; cases hstep

end Readers

/-! ## Runs -/

/-- Nobody tries the lock of a file while someone other than its maker holds it. -/
def World.Apart (w : World) : Move → Prop
  | .provide q _ => ∀ p ∈ w.providers q, ∀ i ∈ p.pc.locks, w.directory.Undisturbed i
  | .read a _ _ => ∀ r ∈ w.readers a, ∀ i ∈ r.pc.locks, w.directory.Undisturbed i
  | _ => True

/-- The invariant of a run: the providers', and that of every reader. -/
def RunInv (past : List World) (w : World) : Prop :=
  Inv w ∧ ∀ a r, w.readers a = some r → ReaderInv past a r w

theorem runInv_initial : RunInv [] .initial := by
  refine ⟨⟨?_, ?_, ?_, ?_, ?_⟩, ?_⟩
  · intro q q' p p' hp
    cases hp
  · intro q p hp
    cases hp
  · intro pid i hname
    cases hname
  · intro i hi
    exact absurd hi (Nat.not_lt_zero i)
  · intro i q hlock
    cases hlock
  · intro a r hr
    cases hr

/-- A move of a provider leaves every reader where it is. -/
theorem RunInv.provider_move {past : List World} {w : World} {q : Nat} {p p' : Provider}
    {d' : Directory} (h : RunInv past w) (hp : w.providers q = some p) (halive : p.pc.alive = true)
    (hs : Stepped q p p' w.directory d') :
    RunInv (w :: past) ({ w with directory := d' }.setProvider q p') :=
  ⟨h.1.stepped hp halive hs, fun a r hr => (h.2 a r hr).onward (hs.onward hp)⟩

/-- A move of a reader leaves the providers and the other readers where they are. -/
theorem RunInv.reader_move {past : List World} {w : World} {a : Nat} {r' : Reader} {d' : Directory}
    (h : RunInv past w) (hs : Still w.directory d')
    (hr' : ReaderInv (w :: past) a r' ({ w with directory := d' }.setReader a r')) :
    RunInv (w :: past) ({ w with directory := d' }.setReader a r') := by
  refine ⟨h.1.still hs _, fun k r hr => ?_⟩
  have hr : (if k = a then some r' else w.readers k) = some r := hr
  split_ifs at hr with hk
  · obtain rfl := Option.some.inj hr
    rw [hk]
    exact hr'
  · exact (h.2 k r hr).onward (hs.onward _)

theorem RunInv.step {past : List World} {w w' : World} {m : Move} (h : RunInv past w)
    (hkernel : w.Kernel m) (hapart : w.Apart m) (hstep : w.step m = some w') :
    RunInv (w :: past) w' := by
  cases m with
  | start q pid snapshot =>
    simp only [World.step] at hstep
    split_ifs at hstep with hstart
    obtain rfl := Option.some.inj hstep
    have hnone : w.providers q = none := Option.isNone_iff_eq_none.mp hstart.2
    refine ⟨h.1.start_step hstart.1 hnone hkernel, fun a r hr => (h.2 a r hr).onward ?_⟩
    refine ⟨Nat.le_refl _, fun _ _ => rfl, fun _ _ => List.prefix_rfl, fun k s hs => ?_⟩
    refine ⟨s, ?_, rfl, rfl⟩
    show (if k = q then _ else w.providers k) = some s
    rw [if_neg]
    · exact hs
    · rintro rfl
      rw [hnone] at hs
      cases hs
  | provide q n =>
    simp only [World.step] at hstep
    obtain ⟨p, hp, hstep⟩ := Option.bind_eq_some_iff.mp hstep
    obtain ⟨⟨p', d'⟩, hone, hstep⟩ := Option.bind_eq_some_iff.mp hstep
    obtain rfl := Option.some.inj hstep
    obtain ⟨halive, hs⟩ := h.1.provider_step hp (fun i hi => hapart p hp i hi) hone
    exact h.provider_move hp halive hs
  | drop q =>
    simp only [World.step] at hstep
    obtain ⟨p, hp, hstep⟩ := Option.bind_eq_some_iff.mp hstep
    split at hstep
    · rename_i i hpc
      obtain rfl := Option.some.inj hstep
      exact h.provider_move hp (by rw [hpc]; rfl) (h.1.drop_step hp hpc)
    · cases hstep
  | crash q =>
    simp only [World.step] at hstep
    obtain ⟨p, hp, hstep⟩ := Option.bind_eq_some_iff.mp hstep
    split_ifs at hstep with halive
    obtain rfl := Option.some.inj hstep
    exact h.provider_move hp halive (h.1.crash_step hp)
  | ask a snapshot =>
    simp only [World.step] at hstep
    split_ifs at hstep
    obtain rfl := Option.some.inj hstep
    exact h.reader_move (Still.refl _) ⟨fun _ hr => absurd hr List.not_mem_nil, rfl⟩
  | read a entry n =>
    simp only [World.step] at hstep
    obtain ⟨r, hr, hstep⟩ := Option.bind_eq_some_iff.mp hstep
    obtain ⟨⟨r', d'⟩, hone, hstep⟩ := Option.bind_eq_some_iff.mp hstep
    obtain rfl := Option.some.inj hstep
    refine h.reader_move (reader_still hone) ?_
    exact (h.2 a r hr).step h.1 hr (fun i hi => hapart r hr i hi) hone
  | abort a =>
    simp only [World.step] at hstep
    obtain ⟨r, hr, hstep⟩ := Option.bind_eq_some_iff.mp hstep
    split_ifs at hstep with hasking
    obtain rfl := Option.some.inj hstep
    exact h.reader_move (Still.closeAll _ _) ⟨backed_cons (h.2 a r hr).1 w, trivial⟩

theorem Run.inv {past : List World} {w : World} (run : Run World.Apart past w) : RunInv past w := by
  induction run with
  | init => exact runInv_initial
  | move _ m kernel ok step ih => exact ih.step kernel ok step

/-- The evidence is live and exact: a status counts what its records say, each record is that of a
    provider that held its marker at some moment of the call, and no publication fails but for its
    own path. -/
structure EvidenceLive (past : List World) (w : World) : Prop where
  status : ∀ a r status, w.readers a = some r → r.pc = .returned status → status = statusOf r.records
  records : ∀ a r status, w.readers a = some r → r.pc = .returned status → ∀ record ∈ r.records,
    ∃ v ∈ past, (∃ r', v.readers a = some r' ∧ r'.asking = true) ∧ ∃ q p, v.Holding q p ∧
      p.pid = record.1 ∧ p.snapshot.path = r.snapshot.path ∧
      (record.2 = true ↔ p.snapshot.source = r.snapshot.source)
  publish : ∀ q p error, w.providers q = some p → p.pc = .failed error → error = .pathTooLong

/-- In a run that keeps apart the evidence is live and exact. -/
theorem apart_evidence_live {past : List World} {w : World} (run : Run World.Apart past w) :
    EvidenceLive past w := by
  obtain ⟨hinv, hreaders⟩ := run.inv
  refine ⟨?_, ?_, ?_⟩
  · intro a r status hr hpc
    have hat := (hreaders a r hr).2
    unfold Reader.At at hat
    rw [hpc] at hat
    exact hat
  · intro a r status hr hpc record hrecord
    obtain ⟨loaded, ⟨v, hv, hasking, q, p, hholding, hpid, rfl⟩, hpath, hflag⟩ :=
      (hreaders a r hr).1 record hrecord
    refine ⟨v, hv, hasking, q, p, hholding, hpid, hpath, ?_⟩
    rw [hflag]
    exact decide_eq_true_iff
  · intro q p error hp hpc
    have hat := hinv.pcs q p hp
    unfold PcInv at hat
    rw [hpc] at hat
    exact hat

/-! ## Runs that do not keep apart -/

section Replay

instance (d : Directory) (i : Nat) : Decidable (d.Undisturbed i) := inferInstanceAs (Decidable (_ ∨ _))

instance (w : World) : (m : Move) → Decidable (w.Apart m)
  | .provide q _ =>
    inferInstanceAs (Decidable (∀ p ∈ w.providers q, ∀ i ∈ p.pc.locks, w.directory.Undisturbed i))
  | .read a _ _ =>
    inferInstanceAs (Decidable (∀ r ∈ w.readers a, ∀ i ∈ r.pc.locks, w.directory.Undisturbed i))
  | .start _ _ _ | .drop _ | .crash _ | .ask _ _ | .abort _ => inferInstanceAs (Decidable True)

variable (allowed : World → Move → Prop) [∀ w m, Decidable (allowed w m)]

def Move.starts : Move → Bool
  | .start _ _ _ => true
  | _ => false

/-- Make the moves one after the other, while they are allowed and start no provider. -/
def World.replay (past : List World) (w : World) : List Move → Option (List World × World)
  | [] => some (past, w)
  | m :: moves =>
    if m.starts = false ∧ allowed w m then
      (w.step m).bind fun w' => World.replay (w :: past) w' moves
    else none

variable {allowed}

theorem Run.replay {past : List World} {w : World} (run : Run allowed past w) :
    ∀ {moves : List Move} {end' : List World × World}, w.replay allowed past moves = some end' →
      Run allowed end'.1 end'.2 := by
  intro moves
  induction moves generalizing past w with
  | nil =>
    intro end' h
    obtain rfl := Option.some.inj h
    exact run
  | cons m moves ih =>
    intro end' h
    unfold World.replay at h
    split_ifs at h with hm
    obtain ⟨w', hstep, hrest⟩ := Option.bind_eq_some_iff.mp h
    refine ih (Run.move run m ?_ hm.2 hstep) hrest
    cases m with
    | start => cases hm.1
    | _ => trivial

end Replay

/-- One provider has started, with an empty policy. -/
def started : World :=
  World.initial.setProvider 0 ⟨7, by decide, ⟨[], [], by decide⟩, .ensureDirectory⟩

theorem run_started {allowed : World → Move → Prop}
    (h : allowed .initial (.start 0 7 ⟨[], [], by decide⟩)) : Run allowed [.initial] started :=
  Run.move Run.init (.start 0 7 ⟨[], [], by decide⟩) (fun _ _ hq => by cases hq) h rfl

/-- Seven system calls from the start to a provider that runs. -/
def publishing : List Move := List.replicate 7 (.provide 0 100)

/-- A call by reader `a`, up to and with the attempt to lock the one marker. -/
def trying (a : Nat) : List Move :=
  [.ask a ⟨[], [], by decide⟩, .read a none 0, .read a (some 7) 0, .read a none 0, .read a none 0,
    .read a none 0]

/-- The rest of a call that did not get the lock. -/
def counting (a : Nat) : List Move := [.read a none 100, .read a none 100, .read a none 0]

theorem alone_evidence_live : ∃ past w, Run World.Apart past w ∧
    (w.readers 0).map Reader.pc = some (.returned (.matching 7)) ∧ EvidenceLive past w := by
  have hrun : Run World.Apart _ _ := run_started trivial
  have heval : ((started.replay World.Apart [.initial] (publishing ++ trying 0 ++ counting 0)).map
      fun run => (run.2.readers 0).map Reader.pc) = some (some (.returned (.matching 7))) := by
    decide +kernel
  obtain ⟨⟨past, w⟩, hreplay, hpc⟩ := Option.map_eq_some_iff.mp heval
  exact ⟨past, w, hrun.replay hreplay, hpc, apart_evidence_live (hrun.replay hreplay)⟩

/-- No provider holds a marker of its own. -/
def World.Unheld (w : World) : Prop :=
  ∀ i < w.directory.next,
    (w.directory.files i).lock ≠ some (.provider (w.directory.files i).maker)

instance (w : World) : Decidable w.Unheld := inferInstanceAs (Decidable (∀ i < _, _))

theorem World.Unheld.not_holding {w : World} (h : w.Unheld) (q : Nat) (p : Provider) :
    ¬ w.Holding q p := by
  rintro ⟨-, -, i, hi, rfl, hlock⟩
  exact h i hi hlock

/-- The reader's call is not under way, or nobody holds a marker. -/
def unheldDuring (a : Nat) (v : World) : Bool :=
  !((v.readers a).any Reader.asking) || decide v.Unheld

/-- A provider dies; one reader has its lock for a moment, and a second one reports the dead provider
    as running. And a reader that looks at a marker just made keeps its provider from starting. -/
theorem probe_taken_for_provider :
    (∃ past w, Run (fun _ _ => True) past w ∧
      (w.readers 1).map Reader.pc = some (.returned (.matching 7)) ∧
      (∀ v ∈ past, (∃ r, v.readers 1 = some r ∧ r.asking = true) → ∀ q p, ¬ v.Holding q p) ∧
      ¬ EvidenceLive past w) ∧
    ∃ past w, Run (fun _ _ => True) past w ∧
      (w.providers 0).map Provider.pc = some (.failed .locked) := by
  have hrun : Run (fun _ _ => True) _ _ := run_started trivial
  refine ⟨?_, ?_⟩
  · have heval : ((started.replay (fun _ _ => True) [.initial]
        (publishing ++ [.crash 0] ++ trying 0 ++ trying 1 ++ counting 1)).map
        fun run => ((run.2.readers 1).map Reader.pc, (run.2.readers 1).map Reader.records,
          run.1.all (unheldDuring 1))) =
        some (some (.returned (.matching 7)), some [(7, true)], true) := by
      decide +kernel
    obtain ⟨⟨past, w⟩, hreplay, hend⟩ := Option.map_eq_some_iff.mp heval
    obtain ⟨hpc, hend⟩ := Prod.mk.inj hend
    obtain ⟨hrecords, hunheld⟩ := Prod.mk.inj hend
    have hdead : ∀ v ∈ past, (∃ r, v.readers 1 = some r ∧ r.asking = true) →
        ∀ q p, ¬ v.Holding q p := by
      rintro v hv ⟨r, hr, hasking⟩
      have hv := List.all_eq_true.mp hunheld v hv
      unfold unheldDuring at hv
      rw [hr] at hv
      have hv : v.Unheld := by simpa [hasking] using hv
      exact hv.not_holding
    refine ⟨past, w, hrun.replay hreplay, hpc, hdead, fun hlive => ?_⟩
    obtain ⟨r, hr, hpc⟩ := Option.map_eq_some_iff.mp hpc
    rw [hr] at hrecords
    have hmem : (7, true) ∈ r.records := by
      rw [Option.some.inj hrecords]
      exact List.mem_singleton_self _
    obtain ⟨v, hv, hasking, q, p, hholding, -⟩ := hlive.records 1 r _ hr hpc _ hmem
    exact hdead v hv hasking q p hholding
  · have heval : ((started.replay (fun _ _ => True) [.initial]
        (List.replicate 3 (.provide 0 0) ++ trying 0 ++ List.replicate 3 (.provide 0 0))).map
        fun run => (run.2.providers 0).map Provider.pc) = some (some (.failed .locked)) := by
      decide +kernel
    obtain ⟨⟨past, w⟩, hreplay, hpc⟩ := Option.map_eq_some_iff.mp heval
    exact ⟨past, w, hrun.replay hreplay, hpc⟩

end AgentSeat.Active
