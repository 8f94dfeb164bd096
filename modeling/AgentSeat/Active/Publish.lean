/-
  What running providers keep true of the marker directory.

  Every file belongs to the provider that made it: only that provider writes to it, its bytes are the
  beginning of that provider's marker, and only a provider that is still there holds a lock. A step
  of one provider changes nothing another one relies on (`Frame`), and a reader changes nothing at
  all but a lock (`Still`). Together they carry the invariant `Inv` over every step in which a
  provider finds the lock it tries undisturbed.
-/
import AgentSeat.Active.Marker
import Mathlib.Tactic.Common

namespace AgentSeat.Active

/-! ## Bytes -/

section Bytes

variable {pid : Nat} {snapshot : PolicySnapshot} {seen : List UInt8}

@[simp]
theorem toLeBytes_length (n : Nat) : (toLeBytes n).length = 4 := rfl

theorem readU32_toLeBytes {n offset : Nat} (hn : n < 2 ^ 32) (before after : List UInt8)
    (hoffset : before.length = offset) :
    readU32 (before ++ (toLeBytes n ++ after)) offset = some n := by
  unfold readU32
  rw [← hoffset, List.drop_left', List.take_left' (toLeBytes_length n)]
  · show some _ = some n
    simp only [UInt8.toNat_ofNat']
    congr 1
    omega
  · rfl

/-- The three numbers at the head of a marker. -/
def header (pid : Nat) (snapshot : PolicySnapshot) : List UInt8 :=
  magic ++ (toLeBytes pid ++ (toLeBytes snapshot.path.length ++ toLeBytes snapshot.source.length))

theorem header_length (pid : Nat) (snapshot : PolicySnapshot) :
    (header pid snapshot).length = headerBytes := rfl

theorem markerBytes_eq (pid : Nat) (snapshot : PolicySnapshot) :
    markerBytes pid snapshot = header pid snapshot ++ (snapshot.path ++ snapshot.source) := by
  simp [markerBytes, header]

theorem markerBytes_length (pid : Nat) (snapshot : PolicySnapshot) :
    (markerBytes pid snapshot).length =
      headerBytes + (snapshot.path.length + snapshot.source.length) := by
  rw [markerBytes_eq, List.length_append, List.length_append, header_length]

/-- What a reader has seen of a marker is the whole of it, or is malformed. -/
theorem readMarker_of_prefix {marker : Marker} (hpid : pid < 2 ^ 32)
    (hpath : snapshot.path.length ≤ maxPolicyPathBytes)
    (hseen : seen <+: markerBytes pid snapshot) (h : readMarker seen = some marker) :
    marker = ⟨pid, snapshot.path, snapshot.source⟩ := by
  have hsource := snapshot.bounded
  unfold maxPolicyPathBytes at hpath
  unfold maxConfigBytes at hsource
  unfold readMarker at h
  split_ifs at h with hmalformed
  simp only [not_or, Nat.not_lt] at hmalformed
  obtain ⟨-, hlong, -⟩ := hmalformed
  -- the head is there in full, so the lengths are those of the whole marker
  obtain ⟨missing, hmissing⟩ := hseen
  rw [markerBytes_eq] at hmissing
  obtain ⟨rest, hrest, htail⟩ : ∃ rest, seen = header pid snapshot ++ rest ∧
      snapshot.path ++ snapshot.source = rest ++ missing := by
    rcases List.append_eq_append_iff.mp hmissing with ⟨short, hshort, hmore⟩ | ⟨rest, hrest, htail⟩
    · have hlength := congrArg List.length hshort
      rw [List.length_append, header_length] at hlength
      have hnil : short = [] := List.eq_nil_of_length_eq_zero (by omega)
      subst hnil
      exact ⟨[], by simpa using hshort.symm, by simpa using hmore.symm⟩
    · exact ⟨rest, hrest, htail⟩
  subst hrest
  have hreadPid : readU32 (header pid snapshot ++ rest) magic.length = some pid := by
    have := readU32_toLeBytes hpid magic (toLeBytes snapshot.path.length ++
      toLeBytes snapshot.source.length ++ rest) rfl
    simpa [header] using this
  have hreadPath : readU32 (header pid snapshot ++ rest) (magic.length + 4) =
      some snapshot.path.length := by
    have := readU32_toLeBytes (show snapshot.path.length < 2 ^ 32 by omega)
      (magic ++ toLeBytes pid) (toLeBytes snapshot.source.length ++ rest) rfl
    simpa [header] using this
  have hreadSource : readU32 (header pid snapshot ++ rest) (magic.length + 8) =
      some snapshot.source.length := by
    have := readU32_toLeBytes (show snapshot.source.length < 2 ^ 32 by omega)
      (magic ++ toLeBytes pid ++ toLeBytes snapshot.path.length) rest rfl
    simpa [header] using this
  rw [hreadPid, hreadPath, hreadSource] at h
  dsimp only [bind, Option.bind] at h
  split_ifs at h with hlengths
  simp only [not_or, not_not] at hlengths
  obtain ⟨-, -, htotal⟩ := hlengths
  rw [List.length_append, header_length] at htotal
  have hall := congrArg List.length htail
  rw [List.length_append, List.length_append] at hall
  have hnil : missing = [] := List.eq_nil_of_length_eq_zero (by omega)
  rw [hnil, List.append_nil] at htail
  subst htail
  obtain rfl := Option.some.inj h
  have hdrop : (header pid snapshot ++ (snapshot.path ++ snapshot.source)).drop headerBytes =
      snapshot.path ++ snapshot.source := List.drop_left' (header_length pid snapshot)
  rw [← List.drop_drop, hdrop, List.take_left' rfl, List.drop_left' rfl]

end Bytes

/-! ## What one process sees of the steps of the others -/

/-- The files a provider may have locked at a point of its program. -/
def ProviderPc.Holds : ProviderPc → Nat → Prop
  | .comparePrior i, j | .removePrior i, j | .closePrior i, j | .prepareBody i, j
  | .writeBody i _, j | .running i, j | .dropCompare i, j | .dropRemove i, j | .dropClose i, j
  | .abandonClose i _, j => i = j
  | _, _ => False

/-- The provider has made no file yet. -/
def Fresh (q : Nat) (d : Directory) : Prop := ∀ i < d.next, (d.files i).maker ≠ q

def Own (q i : Nat) (d : Directory) : Prop := i < d.next ∧ (d.files i).maker = q

/-- What holds at each point of a provider's program. -/
def PcInv (q : Nat) (p : Provider) (d : Directory) : Prop :=
  match p.pc with
  | .ensureDirectory | .pathExists => Fresh q d
  | .openPrior => Fresh q d ∧ d.names p.pid ≠ none
  | .validatePrior i | .lockPrior i | .comparePrior i | .removePrior i =>
    Fresh q d ∧ d.names p.pid = some i
  | .closePrior _ | .createMarker => Fresh q d ∧ d.names p.pid = none
  | .lockMarker i => Own q i d ∧ (d.files i).content = [] ∧ (d.files i).lock ≠ some (.provider q)
  | .prepareBody i => Own q i d ∧ (d.files i).content = []
  | .writeBody i rest => Own q i d ∧ (d.files i).content ++ rest = markerBytes p.pid p.snapshot ∧
      p.snapshot.path.length ≤ maxPolicyPathBytes
  | .running i | .dropCompare i | .dropRemove i | .dropClose i => Own q i d
  | .abandonClose i error => Own q i d ∧ error = .pathTooLong
  | .abandonRemove error | .failed error => error = .pathTooLong
  | .gone => True

/-- Nothing the provider relies on has changed. -/
structure Unmoved (q pid : Nat) (d d' : Directory) : Prop where
  name : d'.names pid = d.names pid
  next : d.next ≤ d'.next
  makers : ∀ i < d.next, (d'.files i).maker = (d.files i).maker
  others : ∀ i, d.next ≤ i → i < d'.next → (d'.files i).maker ≠ q
  contents : ∀ i < d.next, (d.files i).maker = q → (d'.files i).content = (d.files i).content
  locks : ∀ i, (d'.files i).lock = some (.provider q) → (d.files i).lock = some (.provider q)

theorem Unmoved.fresh {q pid : Nat} {d d' : Directory} (h : Unmoved q pid d d') (hfresh : Fresh q d) :
    Fresh q d' := by
  intro i hi
  by_cases hold : i < d.next
  · rw [h.makers i hold]
    exact hfresh i hold
  · exact h.others i (by omega) hi

theorem Unmoved.own {q pid i : Nat} {d d' : Directory} (h : Unmoved q pid d d') (hown : Own q i d) :
    Own q i d' := by
  refine ⟨Nat.lt_of_lt_of_le hown.1 h.next, ?_⟩
  rw [h.makers i hown.1]
  exact hown.2

theorem PcInv.unmoved {q : Nat} {p : Provider} {d d' : Directory} (h : Unmoved q p.pid d d')
    (hpc : PcInv q p d) : PcInv q p d' := by
  unfold PcInv at hpc ⊢
  cases hp : p.pc with
  | ensureDirectory => rw [hp] at hpc; exact h.fresh hpc
  | pathExists => rw [hp] at hpc; exact h.fresh hpc
  | openPrior => rw [hp] at hpc; exact ⟨h.fresh hpc.1, h.name ▸ hpc.2⟩
  | validatePrior i => rw [hp] at hpc; exact ⟨h.fresh hpc.1, h.name ▸ hpc.2⟩
  | lockPrior i => rw [hp] at hpc; exact ⟨h.fresh hpc.1, h.name ▸ hpc.2⟩
  | comparePrior i => rw [hp] at hpc; exact ⟨h.fresh hpc.1, h.name ▸ hpc.2⟩
  | removePrior i => rw [hp] at hpc; exact ⟨h.fresh hpc.1, h.name ▸ hpc.2⟩
  | closePrior i => rw [hp] at hpc; exact ⟨h.fresh hpc.1, h.name ▸ hpc.2⟩
  | createMarker => rw [hp] at hpc; exact ⟨h.fresh hpc.1, h.name ▸ hpc.2⟩
  | lockMarker i =>
    rw [hp] at hpc
    obtain ⟨hown, hempty, hfree⟩ := hpc
    refine ⟨h.own hown, ?_, fun hlock => hfree (h.locks i hlock)⟩
    rw [h.contents i hown.1 hown.2]
    exact hempty
  | prepareBody i =>
    rw [hp] at hpc
    obtain ⟨hown, hempty⟩ := hpc
    refine ⟨h.own hown, ?_⟩
    rw [h.contents i hown.1 hown.2]
    exact hempty
  | writeBody i rest =>
    rw [hp] at hpc
    obtain ⟨hown, hbody, hpath⟩ := hpc
    refine ⟨h.own hown, ?_, hpath⟩
    rw [h.contents i hown.1 hown.2]
    exact hbody
  | running i => rw [hp] at hpc; exact h.own hpc
  | dropCompare i => rw [hp] at hpc; exact h.own hpc
  | dropRemove i => rw [hp] at hpc; exact h.own hpc
  | dropClose i => rw [hp] at hpc; exact h.own hpc
  | abandonClose i error => rw [hp] at hpc; exact ⟨h.own hpc.1, hpc.2⟩
  | abandonRemove error => rw [hp] at hpc; exact hpc
  | failed error => rw [hp] at hpc; exact hpc
  | gone => trivial

/-- What a provider's own step may change. -/
structure Frame (q pid : Nat) (d d' : Directory) : Prop where
  names : ∀ pid', pid' ≠ pid → d'.names pid' = d.names pid'
  next : d.next ≤ d'.next
  makers : ∀ i < d.next, (d'.files i).maker = (d.files i).maker
  created : ∀ i, d.next ≤ i → i < d'.next → (d'.files i).maker = q
  contents : ∀ i < d.next, (d.files i).maker ≠ q → (d'.files i).content = (d.files i).content
  grows : ∀ i < d.next, (d.files i).content <+: (d'.files i).content
  locks : ∀ i q', q' ≠ q → (d'.files i).lock = some (.provider q') →
    (d.files i).lock = some (.provider q')

theorem Frame.unmoved {q q' pid pid' : Nat} {d d' : Directory} (h : Frame q pid d d') (hq : q' ≠ q)
    (hpid : pid' ≠ pid) : Unmoved q' pid' d d' where
  name := h.names pid' hpid
  next := h.next
  makers := h.makers
  others i hi hi' := fun hmaker => hq (hmaker.symm.trans (h.created i hi hi'))
  contents i hi hmaker := h.contents i hi fun hmaker' => hq (hmaker.symm.trans hmaker')
  locks i := h.locks i q' hq

/-- A step that only takes or drops a lock, and not for a provider. -/
structure Still (d d' : Directory) : Prop where
  names : d'.names = d.names
  next : d'.next = d.next
  makers : ∀ i, (d'.files i).maker = (d.files i).maker
  contents : ∀ i, (d'.files i).content = (d.files i).content
  locks : ∀ i q, (d'.files i).lock = some (.provider q) → (d.files i).lock = some (.provider q)

theorem Still.unmoved {d d' : Directory} (h : Still d d') (q pid : Nat) : Unmoved q pid d d' where
  name := congrFun h.names pid
  next := Nat.le_of_eq h.next.symm
  makers i _ := h.makers i
  others i hi hi' := by
    have := h.next
    omega
  contents i _ _ := h.contents i
  locks i := h.locks i q

theorem Still.refl (d : Directory) : Still d d := ⟨rfl, rfl, fun _ => rfl, fun _ => rfl, fun _ _ h => h⟩

section SetFile

variable {d : Directory} {i : Nat} {f : File}

theorem setFile_maker (h : f.maker = (d.files i).maker) (j : Nat) :
    ((d.setFile i f).files j).maker = (d.files j).maker := by
  show (if j = i then f else d.files j).maker = _
  split_ifs with hj
  · rw [hj, h]
  · rfl

theorem setFile_content (h : f.content = (d.files i).content) (j : Nat) :
    ((d.setFile i f).files j).content = (d.files j).content := by
  show (if j = i then f else d.files j).content = _
  split_ifs with hj
  · rw [hj, h]
  · rfl

/-- A lock is the one that was there, or the one of the new file. -/
theorem setFile_lock {j : Nat} {holder : Holder}
    (h : ((d.setFile i f).files j).lock = some holder) :
    (j = i ∧ f.lock = some holder) ∨ (j ≠ i ∧ (d.files j).lock = some holder) := by
  have hlock : (if j = i then f else d.files j).lock = some holder := h
  split_ifs at hlock with hj
  · exact .inl ⟨hj, hlock⟩
  · exact .inr ⟨hj, hlock⟩

theorem lock_maker (d : Directory) (i : Nat) (holder : Holder) (j : Nat) :
    ((d.lock i holder).files j).maker = (d.files j).maker := setFile_maker (by rfl) j

theorem lock_content (d : Directory) (i : Nat) (holder : Holder) (j : Nat) :
    ((d.lock i holder).files j).content = (d.files j).content := setFile_content (by rfl) j

theorem append_maker (d : Directory) (i : Nat) (bytes : List UInt8) (j : Nat) :
    ((d.append i bytes).files j).maker = (d.files j).maker := setFile_maker (by rfl) j

theorem append_content (d : Directory) (i : Nat) (bytes : List UInt8) (j : Nat) :
    ((d.append i bytes).files j).content =
      if j = i then (d.files i).content ++ bytes else (d.files j).content := by
  show (if j = i then _ else _ : File).content = _
  split_ifs with hj
  · rfl
  · rfl

theorem create_files (d : Directory) (q pid j : Nat) :
    (d.create pid q).files j = if j = d.next then ⟨[], none, q⟩ else d.files j := rfl

end SetFile

theorem Still.close (d : Directory) (i : Nat) (holder : Holder) : Still d (d.close i holder) := by
  unfold Directory.close
  split_ifs with hheld
  · refine ⟨rfl, rfl, setFile_maker rfl, setFile_content rfl, fun j q hlock => ?_⟩
    obtain ⟨-, hlock⟩ | ⟨-, hlock⟩ := setFile_lock hlock
    · simp at hlock
    · exact hlock
  · exact Still.refl d

theorem Still.closeAll (d : Directory) (holder : Holder) : Still d (d.closeAll holder) := by
  refine ⟨rfl, rfl, fun j => ?_, fun j => ?_, fun j q hlock => ?_⟩
  · show (if _ then _ else _ : File).maker = _
    split_ifs <;> rfl
  · show (if _ then _ else _ : File).content = _
    split_ifs <;> rfl
  · have hlock : (if (d.files j).lock = some holder then { d.files j with lock := none }
        else d.files j : File).lock = some (.provider q) := hlock
    split_ifs at hlock
    exact hlock

theorem Still.lock (d : Directory) (i a : Nat) : Still d (d.lock i (.reader a)) := by
  refine ⟨rfl, rfl, lock_maker d i _, lock_content d i _, fun j q hlock => ?_⟩
  obtain ⟨-, hlock⟩ | ⟨-, hlock⟩ := setFile_lock hlock
  · simp at hlock
  · exact hlock

/-- A step without a trace in the directory is within every frame. -/
theorem Still.frame {d d' : Directory} (h : Still d d') (q pid : Nat) : Frame q pid d d' where
  names pid' _ := congrFun h.names pid'
  next := Nat.le_of_eq h.next.symm
  makers i _ := h.makers i
  created i hi hi' := by
    have := h.next
    omega
  contents i _ _ := h.contents i
  grows i _ := (h.contents i).symm ▸ List.prefix_rfl
  locks i q' _ := h.locks i q'

theorem Frame.lock (d : Directory) (q pid i : Nat) : Frame q pid d (d.lock i (.provider q)) := by
  refine ⟨fun _ _ => rfl, Nat.le_refl _, fun j _ => lock_maker d i _ j,
    fun j hj hj' => absurd hj' (Nat.not_lt_of_le hj), fun j _ _ => lock_content d i _ j,
    fun j _ => ?_, fun j q' hq hlock => ?_⟩
  · exact (lock_content d i _ j).symm ▸ List.prefix_rfl
  · obtain ⟨-, hlock⟩ | ⟨-, hlock⟩ := setFile_lock hlock
    · exact absurd (Holder.provider.inj (Option.some.inj hlock)).symm hq
    · exact hlock

theorem Frame.setName (d : Directory) (q pid : Nat) (entry : Option Nat) :
    Frame q pid d (d.setName pid entry) where
  names _ hne := if_neg hne
  next := Nat.le_refl _
  makers _ _ := rfl
  created _ hi hi' := absurd hi' (Nat.not_lt_of_le hi)
  contents _ _ _ := rfl
  grows _ _ := List.prefix_rfl
  locks _ _ _ h := h

theorem Frame.append {d : Directory} {q i : Nat} (pid : Nat) (hown : Own q i d) (bytes : List UInt8) :
    Frame q pid d (d.append i bytes) := by
  refine ⟨fun _ _ => rfl, Nat.le_refl _, fun j _ => append_maker d i bytes j,
    fun j hj hj' => absurd hj' (Nat.not_lt_of_le hj), fun j _ hmaker => ?_, fun j _ => ?_,
    fun j q' _ hlock => ?_⟩
  · rw [append_content, if_neg]
    intro hj
    exact hmaker (hj ▸ hown.2)
  · rw [append_content]
    split_ifs with hj
    · rw [hj]
      exact List.prefix_append _ _
    · exact List.prefix_rfl
  · obtain ⟨hj, hlock⟩ | ⟨-, hlock⟩ := setFile_lock hlock
    · rw [hj]
      exact hlock
    · exact hlock

theorem Frame.create (d : Directory) (q pid : Nat) : Frame q pid d (d.create pid q) := by
  have hold (j : Nat) (hj : j < d.next) : (d.create pid q).files j = d.files j :=
    if_neg (Nat.ne_of_lt hj)
  refine ⟨fun pid' hne => if_neg hne, Nat.le_succ _, fun j hj => ?_, fun j hj hj' => ?_,
    fun j hj _ => ?_, fun j hj => ?_, fun j q' _ hlock => ?_⟩
  · rw [hold j hj]
  · have hnew : j = d.next := Nat.le_antisymm (Nat.lt_succ_iff.mp hj') hj
    rw [create_files, if_pos hnew]
  · rw [hold j hj]
  · exact (hold j hj).symm ▸ List.prefix_rfl
  · rw [create_files] at hlock
    split_ifs at hlock with hj
    exact hlock

/-! ## The invariant of all providers -/

theorem ProviderPc.Holds.alive {pc : ProviderPc} {i : Nat} (h : pc.Holds i) : pc.alive = true := by
  cases pc <;> first | rfl | exact h.elim

/-- What the bytes of a file say about the provider that made it: they are the beginning of its
    marker, and nothing is written for a path that is too long. -/
def Provider.Wrote (p : Provider) (content : List UInt8) : Prop :=
  content <+: markerBytes p.pid p.snapshot ∧
    (content = [] ∨ p.snapshot.path.length ≤ maxPolicyPathBytes)

structure Inv (w : World) : Prop where
  unique : ∀ q q' p p', w.providers q = some p → w.providers q' = some p' → p.pc.alive = true →
    p'.pc.alive = true → p.pid = p'.pid → q = q'
  pcs : ∀ q p, w.providers q = some p → PcInv q p w.directory
  named : ∀ pid i, w.directory.names pid = some i → i < w.directory.next ∧
    ∃ p, w.providers (w.directory.files i).maker = some p ∧ p.pid = pid
  made : ∀ i < w.directory.next, ∃ p, w.providers (w.directory.files i).maker = some p ∧
    p.Wrote (w.directory.files i).content
  locked : ∀ i q, (w.directory.files i).lock = some (.provider q) →
    ∃ p, w.providers q = some p ∧ p.pc.Holds i

/-- A step of a living provider, with what it leaves behind. -/
structure Stepped (q : Nat) (p p' : Provider) (d d' : Directory) : Prop where
  pid : p'.pid = p.pid
  snapshot : p'.snapshot = p.snapshot
  frame : Frame q p.pid d d'
  pc : PcInv q p' d'
  name : ∀ i, d'.names p.pid = some i →
    d.names p.pid = some i ∨ (i < d'.next ∧ (d'.files i).maker = q)
  own : ∀ i < d'.next, (d'.files i).maker = q → p.Wrote (d'.files i).content
  locks : ∀ i, (d'.files i).lock = some (.provider q) → p'.pc.Holds i

/-- At the ends of its program a provider relies on nothing. -/
theorem PcInv.dead {q : Nat} {p : Provider} {d : Directory} (h : PcInv q p d)
    (hdead : p.pc.alive = false) (d' : Directory) : PcInv q p d' := by
  unfold PcInv at h ⊢
  cases hp : p.pc with
  | failed error => rw [hp] at h; exact h
  | gone => trivial
  | _ => rw [hp] at hdead; cases hdead

section Inv

variable {w : World} {q : Nat} {p p' : Provider} {d' : Directory}

theorem Inv.stepped (h : Inv w) (hp : w.providers q = some p) (halive : p.pc.alive = true)
    (hs : Stepped q p p' w.directory d') :
    Inv ({ w with directory := d' }.setProvider q p') := by
  have hset (k : Nat) : ({ w with directory := d' }.setProvider q p').providers k =
      if k = q then some p' else w.providers k := rfl
  refine ⟨?_, ?_, ?_, ?_, ?_⟩
  · -- whoever has a process ID now had it before
    have hbefore : ∀ k s, ({ w with directory := d' }.setProvider q p').providers k = some s →
        s.pc.alive = true → ∃ s₀, w.providers k = some s₀ ∧ s₀.pc.alive = true ∧ s.pid = s₀.pid := by
      intro k s hk hs'
      rw [hset] at hk
      split_ifs at hk with hkq
      · obtain rfl := Option.some.inj hk
        exact ⟨p, hkq ▸ hp, halive, hs.pid⟩
      · exact ⟨s, hk, hs', rfl⟩
    intro k k' s s' hk hk' hs₁ hs₂ hpid
    obtain ⟨s₀, h₀, ha, he⟩ := hbefore k s hk hs₁
    obtain ⟨s₀', h₀', ha', he'⟩ := hbefore k' s' hk' hs₂
    exact h.unique k k' s₀ s₀' h₀ h₀' ha ha' (he.symm.trans (hpid.trans he'))
  · intro k s hk
    rw [hset] at hk
    split_ifs at hk with hkq
    · obtain rfl := Option.some.inj hk
      rw [hkq]
      exact hs.pc
    · cases hlive : s.pc.alive with
      | false => exact (h.pcs k s hk).dead hlive d'
      | true =>
        refine (h.pcs k s hk).unmoved (hs.frame.unmoved hkq fun hpid => ?_)
        exact hkq (h.unique k q s p hk hp hlive halive hpid)
  · intro pid i hname
    have hname : d'.names pid = some i := hname
    have hkeep : w.directory.names pid = some i → i < d'.next ∧
        ∃ s, ({ w with directory := d' }.setProvider q p').providers (d'.files i).maker = some s ∧
          s.pid = pid := by
      intro hold
      obtain ⟨hlt, s, hmaker, hpid⟩ := h.named pid i hold
      refine ⟨Nat.lt_of_lt_of_le hlt hs.frame.next, ?_⟩
      rw [hset, hs.frame.makers i hlt]
      split_ifs with hkq
      · rw [hkq, hp] at hmaker
        obtain rfl := Option.some.inj hmaker
        exact ⟨p', rfl, hs.pid.trans hpid⟩
      · exact ⟨s, hmaker, hpid⟩
    by_cases hpid : pid = p.pid
    · subst hpid
      obtain hold | ⟨hlt, hmaker⟩ := hs.name i hname
      · exact hkeep hold
      · refine ⟨hlt, p', ?_, hs.pid⟩
        show ({ w with directory := d' }.setProvider q p').providers (d'.files i).maker = some p'
        rw [hset, if_pos hmaker]
    · exact hkeep (by rw [← hs.frame.names pid hpid]; exact hname)
  · intro i hi
    have hi : i < d'.next := hi
    show ∃ s, ({ w with directory := d' }.setProvider q p').providers (d'.files i).maker = some s ∧
      s.Wrote (d'.files i).content
    by_cases hmaker : (d'.files i).maker = q
    · refine ⟨p', by rw [hset, if_pos hmaker], ?_⟩
      have hwrote := hs.own i hi hmaker
      unfold Provider.Wrote at hwrote ⊢
      rw [hs.pid, hs.snapshot]
      exact hwrote
    · have hold : i < w.directory.next := by
        by_contra hnew
        exact hmaker (hs.frame.created i (Nat.le_of_not_lt hnew) hi)
      have hsame := hs.frame.makers i hold
      obtain ⟨s, hs', hwrote⟩ := h.made i hold
      rw [hset, if_neg hmaker, hsame]
      refine ⟨s, hs', ?_⟩
      rw [hs.frame.contents i hold (hsame ▸ hmaker)]
      exact hwrote
  · intro i k hlock
    have hlock : (d'.files i).lock = some (.provider k) := hlock
    rw [hset]
    split_ifs with hkq
    · exact ⟨p', rfl, hs.locks i (hkq ▸ hlock)⟩
    · exact h.locked i k (hs.frame.locks i k hkq hlock)

/-- Readers only take and drop locks of their own. -/
theorem Inv.still (h : Inv w) (hs : Still w.directory d') (readers : Nat → Option Reader) :
    Inv ⟨d', w.providers, readers⟩ := by
  refine ⟨h.unique, fun k s hk => (h.pcs k s hk).unmoved (hs.unmoved k s.pid), ?_, ?_, ?_⟩
  · intro pid i hname
    have hname : w.directory.names pid = some i := by
      rw [← hs.names]
      exact hname
    show i < d'.next ∧ ∃ s, w.providers (d'.files i).maker = some s ∧ s.pid = pid
    rw [hs.next, hs.makers]
    exact h.named pid i hname
  · intro i hi
    show ∃ s, w.providers (d'.files i).maker = some s ∧ s.Wrote (d'.files i).content
    rw [hs.makers, hs.contents]
    exact h.made i (hs.next ▸ hi)
  · exact fun i k hlock => h.locked i k (hs.locks i k hlock)

theorem Inv.holds (h : Inv w) (hp : w.providers q = some p) (i : Nat)
    (hlock : (w.directory.files i).lock = some (.provider q)) : p.pc.Holds i := by
  obtain ⟨s, hs, hholds⟩ := h.locked i q hlock
  rw [hp] at hs
  obtain rfl := Option.some.inj hs
  exact hholds

theorem Inv.wrote (h : Inv w) (hp : w.providers q = some p) {i : Nat} (hown : Own q i w.directory) :
    p.Wrote (w.directory.files i).content := by
  obtain ⟨s, hs, hwrote⟩ := h.made i hown.1
  rw [hown.2, hp] at hs
  obtain rfl := Option.some.inj hs
  exact hwrote

/-- A marker is never longer than a reader accepts. -/
theorem Inv.content_le (h : Inv w) {i : Nat} (hi : i < w.directory.next) :
    (w.directory.files i).content.length ≤ maxMarkerBytes := by
  obtain ⟨s, -, hbegins, hempty | hpath⟩ := h.made i hi
  · rw [hempty]
    exact Nat.zero_le _
  · have hlength := hbegins.length_le
    have hbounded := s.snapshot.bounded
    rw [markerBytes_length] at hlength
    unfold maxMarkerBytes
    omega

/-! ## The steps of a provider -/

/-- A step that makes no file and writes nothing. -/
theorem Inv.framed (h : Inv w) (hp : w.providers q = some p) {pc : ProviderPc}
    (hframe : Frame q p.pid w.directory d') (hpc : PcInv q (p.at pc) d')
    (hname : d'.names p.pid = w.directory.names p.pid ∨ d'.names p.pid = none)
    (hnext : d'.next = w.directory.next)
    (hcontents : ∀ i, (d'.files i).content = (w.directory.files i).content)
    (hlocks : ∀ i, (d'.files i).lock = some (.provider q) → pc.Holds i) :
    Stepped q p (p.at pc) w.directory d' where
  pid := rfl
  snapshot := rfl
  frame := hframe
  pc := hpc
  name i hi := by
    obtain hsame | hnone := hname
    · exact .inl (hsame ▸ hi)
    · rw [hnone] at hi
      cases hi
  own i hi hmaker := by
    rw [hnext] at hi
    rw [hframe.makers i hi] at hmaker
    rw [hcontents]
    exact h.wrote hp ⟨hi, hmaker⟩
  locks := hlocks

theorem Inv.stilled (h : Inv w) (hp : w.providers q = some p) {pc : ProviderPc}
    (hs : Still w.directory d') (hpc : PcInv q (p.at pc) d')
    (hlocks : ∀ i, (d'.files i).lock = some (.provider q) → pc.Holds i) :
    Stepped q p (p.at pc) w.directory d' :=
  h.framed hp (hs.frame q p.pid) hpc (.inl (congrFun hs.names p.pid)) hs.next hs.contents hlocks

theorem Inv.unnamed (h : Inv w) (hp : w.providers q = some p) {pc : ProviderPc}
    (hpc : PcInv q (p.at pc) (w.directory.setName p.pid none))
    (hlocks : ∀ i, (w.directory.files i).lock = some (.provider q) → pc.Holds i) :
    Stepped q p (p.at pc) w.directory (w.directory.setName p.pid none) :=
  h.framed hp (Frame.setName _ _ _ _) hpc (.inr (if_pos rfl)) rfl (fun _ => rfl) hlocks

/-- A provider that holds nothing takes a lock. -/
theorem Inv.took (h : Inv w) (hp : w.providers q = some p) {pc : ProviderPc} {i : Nat}
    (hpc : PcInv q (p.at pc) (w.directory.lock i (.provider q)))
    (hnothing : ∀ j, ¬ p.pc.Holds j) (hholds : pc.Holds i) :
    Stepped q p (p.at pc) w.directory (w.directory.lock i (.provider q)) := by
  refine h.framed hp (Frame.lock _ _ _ _) hpc (.inl rfl) rfl (lock_content _ _ _) fun j hlock => ?_
  obtain ⟨hj, -⟩ | ⟨-, hlock⟩ := setFile_lock hlock
  · rw [hj]
    exact hholds
  · exact absurd (h.holds hp j hlock) (hnothing j)

theorem close_lock {d : Directory} {i j : Nat} {holder : Holder}
    (h : ((d.close i holder).files j).lock = some holder) : j ≠ i ∧ (d.files j).lock = some holder := by
  unfold Directory.close at h
  split_ifs at h with hheld
  · obtain ⟨-, hlock⟩ | hkept := setFile_lock h
    · simp at hlock
    · exact hkept
  · exact ⟨fun hj => hheld (hj ▸ h), h⟩

/-- A provider closes the one file it may have locked. -/
theorem Inv.closed (h : Inv w) (hp : w.providers q = some p) {pc : ProviderPc} {i : Nat}
    (hpc : PcInv q (p.at pc) (w.directory.close i (.provider q)))
    (honly : ∀ j, p.pc.Holds j → j = i) :
    Stepped q p (p.at pc) w.directory (w.directory.close i (.provider q)) := by
  refine h.stilled hp (Still.close _ _ _) hpc fun j hlock => ?_
  obtain ⟨hj, hlock⟩ := close_lock hlock
  exact absurd (honly j (h.holds hp j hlock)) hj

theorem Fresh.still {d : Directory} (h : Fresh q d) (hs : Still d d') : Fresh q d' :=
  (hs.unmoved q 0).fresh h

theorem Own.still {d : Directory} {i : Nat} (h : Own q i d) (hs : Still d d') : Own q i d' :=
  (hs.unmoved q 0).own h

/-- A new marker is empty, and nobody has locked it. -/
theorem Inv.created (h : Inv w) (hp : w.providers q = some p) (hfresh : Fresh q w.directory)
    (hnothing : ∀ j, ¬ p.pc.Holds j) :
    Stepped q p (p.at (.lockMarker w.directory.next)) w.directory (w.directory.create p.pid q) where
  pid := rfl
  snapshot := rfl
  frame := Frame.create _ _ _
  pc := by
    show Own q w.directory.next (w.directory.create p.pid q) ∧
      ((w.directory.create p.pid q).files w.directory.next).content = [] ∧
      ((w.directory.create p.pid q).files w.directory.next).lock ≠ some (.provider q)
    unfold Own
    rw [create_files, if_pos rfl]
    exact ⟨⟨Nat.lt_succ_self _, rfl⟩, rfl, by simp⟩
  name i hi := by
    have hi : some w.directory.next = some i := (if_pos rfl).symm.trans hi
    obtain rfl := Option.some.inj hi
    refine .inr ⟨Nat.lt_succ_self _, ?_⟩
    rw [create_files, if_pos rfl]
  own i hi hmaker := by
    rw [create_files] at hmaker ⊢
    split_ifs at hmaker ⊢ with hnew
    · exact ⟨List.nil_prefix, .inl rfl⟩
    · have hlt : i < w.directory.next := Nat.lt_of_le_of_ne (Nat.lt_succ_iff.mp hi) hnew
      exact absurd hmaker (hfresh i hlt)
  locks i hlock := by
    rw [create_files] at hlock
    split_ifs at hlock with hnew
    exact absurd (h.holds hp i hlock) (hnothing i)

/-- What is written goes on with the body. -/
theorem Inv.appended (h : Inv w) (hp : w.providers q = some p) {i : Nat} {now rest : List UInt8}
    (hown : Own q i w.directory)
    (hbody : (w.directory.files i).content ++ (now ++ rest) = markerBytes p.pid p.snapshot)
    (hpath : p.snapshot.path.length ≤ maxPolicyPathBytes) (honly : ∀ j, p.pc.Holds j → i = j) :
    Stepped q p (p.at (.writeBody i rest)) w.directory (w.directory.append i now) where
  pid := rfl
  snapshot := rfl
  frame := Frame.append p.pid hown now
  pc := by
    show Own q i (w.directory.append i now) ∧
      ((w.directory.append i now).files i).content ++ rest = markerBytes p.pid p.snapshot ∧ _
    unfold Own
    rw [append_maker, append_content, if_pos rfl, List.append_assoc]
    exact ⟨hown, hbody, hpath⟩
  name i hi := .inl hi
  own j hj hmaker := by
    rw [append_maker] at hmaker
    rw [append_content]
    split_ifs with hji
    · rw [← List.append_assoc] at hbody
      exact ⟨⟨rest, hbody⟩, .inr hpath⟩
    · exact h.wrote hp ⟨hj, hmaker⟩
  locks j hlock := by
    have hlock : (w.directory.files j).lock = some (.provider q) := by
      obtain ⟨hj, hlock⟩ | ⟨-, hlock⟩ := setFile_lock hlock
      · rw [hj]
        exact hlock
      · exact hlock
    exact honly j (h.holds hp j hlock)

/-- The lock is free, or with the provider that made the file. -/
def Directory.Undisturbed (d : Directory) (i : Nat) : Prop :=
  (d.files i).lock = none ∨ (d.files i).lock = some (.provider (d.files i).maker)

/-- The maker of a file under one's own name is no longer there, so its lock is free. -/
theorem Inv.prior_free (h : Inv w) (hp : w.providers q = some p) (halive : p.pc.alive = true) {i : Nat}
    (hfresh : Fresh q w.directory) (hname : w.directory.names p.pid = some i)
    (hun : w.directory.Undisturbed i) : (w.directory.files i).lock = none := by
  obtain hfree | hheld := hun
  · exact hfree
  · obtain ⟨hi, s, hs, hpid⟩ := h.named p.pid i hname
    obtain ⟨s', hs', hholds⟩ := h.locked i _ hheld
    rw [hs] at hs'
    obtain rfl := Option.some.inj hs'
    exact absurd (h.unique _ q s p hs hp hholds.alive halive hpid) (hfresh i hi)

/-- The one system call that can find its file locked. -/
def ProviderPc.locks : ProviderPc → Option Nat
  | .lockPrior i | .lockMarker i => some i
  | _ => none

/-- One step of a provider, whatever it is about to do. -/
theorem Inv.provider_step (h : Inv w) (hp : w.providers q = some p) {n : Nat}
    (hapart : ∀ i, p.pc.locks = some i → w.directory.Undisturbed i)
    (hstep : p.step q n w.directory = some (p', d')) :
    p.pc.alive = true ∧ Stepped q p p' w.directory d' := by
  have hinv := h.pcs q p hp
  have hheld := h.holds hp
  unfold PcInv at hinv
  unfold Provider.step at hstep
  cases hpc : p.pc with
  | ensureDirectory =>
    rw [hpc] at hinv hstep hheld
    obtain ⟨rfl, rfl⟩ := hstep
    exact ⟨rfl, h.stilled hp ⟨rfl, rfl, fun _ => rfl, fun _ => rfl, fun _ _ h => h⟩ hinv hheld⟩
  | pathExists =>
    rw [hpc] at hinv hstep hheld
    obtain ⟨rfl, rfl⟩ := hstep
    refine ⟨rfl, h.stilled hp (Still.refl _) ?_ fun i hlock => (hheld i hlock).elim⟩
    cases hname : w.directory.names p.pid with
    | none => exact ⟨hinv, hname⟩
    | some i => exact ⟨hinv, fun hnone => absurd (hname.symm.trans hnone) (by simp)⟩
  | openPrior =>
    rw [hpc] at hinv hstep hheld
    cases hname : w.directory.names p.pid with
    | none => exact absurd hname hinv.2
    | some i =>
      rw [hname] at hstep
      obtain ⟨rfl, rfl⟩ := hstep
      exact ⟨rfl, h.stilled hp (Still.refl _) ⟨hinv.1, hname⟩ hheld⟩
  | validatePrior i =>
    rw [hpc] at hinv hstep hheld
    have hlength := h.content_le (h.named p.pid i hinv.2).1
    dsimp only at hstep
    rw [if_neg (Nat.not_lt_of_le hlength)] at hstep
    obtain ⟨rfl, rfl⟩ := hstep
    exact ⟨rfl, h.stilled hp (Still.refl _) hinv hheld⟩
  | lockPrior i =>
    have hfree := h.prior_free hp (by rw [hpc]; rfl) (by rw [hpc] at hinv; exact hinv.1)
      (by rw [hpc] at hinv; exact hinv.2) (hapart i (by rw [hpc]; rfl))
    rw [hpc] at hinv hstep
    dsimp only at hstep
    rw [hfree] at hstep
    obtain ⟨rfl, rfl⟩ := hstep
    refine ⟨rfl, h.took hp ?_ (fun j => by rw [hpc]; exact id) rfl⟩
    refine ⟨fun j hj => ?_, hinv.2⟩
    rw [lock_maker]
    exact hinv.1 j hj
  | comparePrior i =>
    rw [hpc] at hinv hstep hheld
    dsimp only at hstep
    rw [if_pos hinv.2] at hstep
    obtain ⟨rfl, rfl⟩ := hstep
    exact ⟨rfl, h.stilled hp (Still.refl _) hinv hheld⟩
  | removePrior i =>
    rw [hpc] at hinv hstep hheld
    obtain ⟨rfl, rfl⟩ := hstep
    exact ⟨rfl, h.unnamed hp ⟨hinv.1, if_pos rfl⟩ hheld⟩
  | closePrior i =>
    rw [hpc] at hinv hstep
    obtain ⟨rfl, rfl⟩ := hstep
    refine ⟨rfl, h.closed hp ?_ fun j hj => ?_⟩
    · have hclose := Still.close w.directory i (.provider q)
      exact ⟨hinv.1.still hclose, (congrFun hclose.names p.pid).trans hinv.2⟩
    · rw [hpc] at hj
      exact hj.symm
  | createMarker =>
    rw [hpc] at hinv hstep
    dsimp only at hstep
    rw [hinv.2] at hstep
    obtain ⟨rfl, rfl⟩ := hstep
    exact ⟨rfl, h.created hp hinv.1 fun j => by rw [hpc]; exact id⟩
  | lockMarker i =>
    have hun := hapart i (by rw [hpc]; rfl)
    rw [hpc] at hinv hstep
    obtain ⟨hown, hempty, hnot⟩ := hinv
    have hfree : (w.directory.files i).lock = none := by
      obtain hfree | hheld := hun
      · exact hfree
      · rw [hown.2] at hheld
        exact absurd hheld hnot
    dsimp only at hstep
    rw [hfree] at hstep
    obtain ⟨rfl, rfl⟩ := hstep
    refine ⟨rfl, h.took hp ⟨⟨hown.1, ?_⟩, ?_⟩ (fun j => by rw [hpc]; exact id) rfl⟩
    · rw [lock_maker]
      exact hown.2
    · rw [lock_content]
      exact hempty
  | prepareBody i =>
    rw [hpc] at hinv hstep hheld
    dsimp only [markerBody] at hstep
    split_ifs at hstep with hpath
    · obtain ⟨rfl, rfl⟩ := hstep
      exact ⟨rfl, h.stilled hp (Still.refl _) ⟨hinv.1, rfl⟩ hheld⟩
    · obtain ⟨rfl, rfl⟩ := hstep
      refine ⟨rfl, h.stilled hp (Still.refl _) ⟨hinv.1, ?_, Nat.le_of_not_lt hpath⟩ hheld⟩
      rw [hinv.2]
      rfl
  | writeBody i rest =>
    rw [hpc] at hinv hstep hheld
    obtain ⟨hown, hbody, hpath⟩ := hinv
    dsimp only at hstep
    split_ifs at hstep with hrest
    · obtain ⟨rfl, rfl⟩ := hstep
      exact ⟨rfl, h.stilled hp (Still.refl _) hown hheld⟩
    · obtain ⟨rfl, rfl⟩ := hstep
      refine ⟨rfl, h.appended hp hown ?_ hpath fun j hj => by rw [hpc] at hj; exact hj⟩
      rw [List.take_append_drop]
      exact hbody
  | running i => rw [hpc] at hstep; cases hstep
  | dropCompare i =>
    rw [hpc] at hinv hstep hheld
    obtain ⟨rfl, rfl⟩ := hstep
    split_ifs
    · exact ⟨rfl, h.stilled hp (Still.refl _) hinv hheld⟩
    · exact ⟨rfl, h.stilled hp (Still.refl _) hinv hheld⟩
  | dropRemove i =>
    rw [hpc] at hinv hstep hheld
    obtain ⟨rfl, rfl⟩ := hstep
    exact ⟨rfl, h.unnamed hp hinv hheld⟩
  | dropClose i =>
    rw [hpc] at hinv hstep
    obtain ⟨rfl, rfl⟩ := hstep
    exact ⟨rfl, h.closed hp trivial fun j hj => by rw [hpc] at hj; exact hj.symm⟩
  | abandonClose i error =>
    rw [hpc] at hinv hstep
    obtain ⟨rfl, rfl⟩ := hstep
    exact ⟨rfl, h.closed hp hinv.2 fun j hj => by rw [hpc] at hj; exact hj.symm⟩
  | abandonRemove error =>
    rw [hpc] at hinv hstep hheld
    obtain ⟨rfl, rfl⟩ := hstep
    exact ⟨rfl, h.unnamed hp hinv hheld⟩
  | failed error => rw [hpc] at hstep; cases hstep
  | gone => rw [hpc] at hstep; cases hstep

/-- A process that dies leaves its files and loses its locks. -/
theorem Inv.crash_step (h : Inv w) (hp : w.providers q = some p) :
    Stepped q p (p.at .gone) w.directory (w.directory.closeAll (.provider q)) := by
  refine h.stilled hp (Still.closeAll _ _) trivial fun i hlock => ?_
  have hlock : (if (w.directory.files i).lock = some (.provider q)
      then { w.directory.files i with lock := none } else w.directory.files i : File).lock =
        some (.provider q) := hlock
  split_ifs at hlock with hheld
  exact absurd hlock hheld

theorem Inv.drop_step (h : Inv w) (hp : w.providers q = some p) {i : Nat} (hpc : p.pc = .running i) :
    Stepped q p (p.at (.dropCompare i)) w.directory w.directory := by
  have hinv := h.pcs q p hp
  have hheld := h.holds hp
  unfold PcInv at hinv
  rw [hpc] at hinv hheld
  exact h.stilled hp (Still.refl _) hinv hheld

theorem Inv.fresh_of_none (h : Inv w) (hq : w.providers q = none) : Fresh q w.directory := by
  intro i hi hmaker
  obtain ⟨s, hs, -⟩ := h.made i hi
  rw [hmaker, hq] at hs
  cases hs

theorem Inv.start_step (h : Inv w) {pid : Nat} {snapshot : PolicySnapshot} (hlt : pid < 2 ^ 32)
    (hq : w.providers q = none)
    (hkernel : ∀ q p, w.providers q = some p → p.pid = pid → p.pc.alive = false) :
    Inv (w.setProvider q ⟨pid, hlt, snapshot, .ensureDirectory⟩) := by
  have hset (k : Nat) : (w.setProvider q ⟨pid, hlt, snapshot, .ensureDirectory⟩).providers k =
      if k = q then some ⟨pid, hlt, snapshot, .ensureDirectory⟩ else w.providers k := rfl
  have hother {k : Nat} {s : Provider} (hs : w.providers k = some s) :
      (w.setProvider q ⟨pid, hlt, snapshot, .ensureDirectory⟩).providers k = some s := by
    rw [hset, if_neg]
    · exact hs
    · rintro rfl
      rw [hq] at hs
      cases hs
  refine ⟨?_, ?_, ?_, ?_, ?_⟩
  · intro k k' s s' hk hk' halive halive' hpid
    rw [hset] at hk hk'
    split_ifs at hk hk' with hkq hkq' hkq'
    · exact hkq.trans hkq'.symm
    · obtain rfl := Option.some.inj hk
      rw [hkernel k' s' hk' hpid.symm] at halive'
      cases halive'
    · obtain rfl := Option.some.inj hk'
      rw [hkernel k s hk hpid] at halive
      cases halive
    · exact h.unique k k' s s' hk hk' halive halive' hpid
  · intro k s hk
    rw [hset] at hk
    split_ifs at hk with hkq
    · obtain rfl := Option.some.inj hk
      rw [hkq]
      exact h.fresh_of_none hq
    · exact h.pcs k s hk
  · intro pid' i hname
    obtain ⟨hi, s, hs, hpid⟩ := h.named pid' i hname
    exact ⟨hi, s, hother hs, hpid⟩
  · intro i hi
    obtain ⟨s, hs, hwrote⟩ := h.made i hi
    exact ⟨s, hother hs, hwrote⟩
  · intro i k hlock
    obtain ⟨s, hs, hholds⟩ := h.locked i k hlock
    exact ⟨s, hother hs, hholds⟩

end Inv

end AgentSeat.Active
