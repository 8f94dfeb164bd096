/-
  The pathname socket of a provider: `ListenerGuard::bind`, the recovery of a socket that was left
  behind, and the destructor that removes it (`runtime.rs`).

  Every system call is one step of one provider, and providers interleave freely. A `bind` makes the
  file and opens the listener of it at once, and fails while the path exists. A connection reaches
  the listener whose file is at the path; when that listener is gone it is refused. Only providers
  change the path, and what lies there at the beginning has no listener. A provider is numbered and
  binds once; an inode is not used again while its listener is open, and stands for the pair of
  device and inode, the device of a directory being one.
-/
import AgentSeat.Lib.Runs

namespace AgentSeat.Runtime

open AgentSeat.Lib

/-! ## The path -/

structure File where
  inode : Nat
  isSocket : Bool
  uid : Nat
  mode : Nat

/-- `is_owned_socket`, for a provider of the effective UID `euid`. -/
def isOwnedSocket (euid : Nat) (f : File) : Bool := f.isSocket && f.uid == euid

/-- The call that failed, or what it found. -/
inductive BindError where
  | cannotBind
  | liveProvider
  | cannotEstablish
  | cannotInspectStale
  | notOwnedSocket
  | cannotRemoveStale
  | cannotBindRecovered
  | cannotProtect
  | cannotMakeNonblocking
  | cannotInspectBound
  deriving DecidableEq

/-- The text of an error; `cause` is the error of the system call where there is one. -/
def BindError.message (path cause : String) : BindError → String
  | .cannotBind => s!"cannot bind socket {path}: {cause}"
  | .liveProvider => s!"a live provider socket already exists at {path}"
  | .cannotEstablish => s!"cannot establish whether {path} is stale: {cause}"
  | .cannotInspectStale => s!"cannot inspect stale socket {path}: {cause}"
  | .notOwnedSocket => s!"refusing to replace non-socket or foreign path {path}"
  | .cannotRemoveStale => s!"cannot remove stale socket {path}: {cause}"
  | .cannotBindRecovered => s!"cannot bind recovered socket {path}: {cause}"
  | .cannotProtect => s!"cannot protect socket {path}: {cause}"
  | .cannotMakeNonblocking => s!"cannot make listener nonblocking: {cause}"
  | .cannotInspectBound => s!"cannot inspect bound socket {path}: {cause}"

/-- The system call a provider is about to make. `own` is the inode its listener was bound to,
    `recorded` the one the guard keeps. -/
inductive Phase where
  | absent
  | binding
  | connecting
  | inspecting
  | removing
  | rebinding
  | protecting (own : Nat)
  | unblocking (own : Nat)
  | recording (own : Nat)
  | holding (own recorded : Nat)
  | comparing (own recorded : Nat)
  | unlinking (own : Nat)
  | closing (own : Nat)
  | abandoning (own : Nat) (error : BindError)
  | failed (error : BindError)
  | gone
  deriving DecidableEq

namespace Phase

/-- The inode of the listener the provider has open. -/
def own : Phase → Option Nat
  | .protecting i | .unblocking i | .recording i | .holding i _ | .comparing i _ | .unlinking i
  | .closing i | .abandoning i _ => some i
  | _ => none

/-- Between a probe that was refused, or found nothing, and the removal it leads to. -/
def recovers : Phase → Bool
  | .inspecting | .removing => true
  | _ => false

def binds : Phase → Bool
  | .binding | .rebinding => true
  | _ => false

/-- The provider has bound and not yet removed its file. -/
def shows : Phase → Bool
  | .protecting _ | .unblocking _ | .recording _ | .holding _ _ | .comparing _ _ | .unlinking _
  | .abandoning _ _ => true
  | _ => false

/-- The provider has a guard, or its destructor is still to remove the file. -/
def guards : Phase → Bool
  | .holding _ _ | .comparing _ _ | .unlinking _ => true
  | _ => false

/-- The process is there. -/
def alive : Phase → Bool
  | .absent | .failed _ | .gone => false
  | _ => true

theorem shows_of_guards {phase : Phase} (h : phase.guards = true) : phase.shows = true := by
  cases phase <;> first | rfl | cases h

theorem own_of_shows {phase : Phase} (h : phase.shows = true) : ∃ i, phase.own = some i := by
  cases phase <;> first | exact ⟨_, rfl⟩ | cases h

end Phase

/-! ## The steps -/

/-- The file at the path, the provider whose listener is bound to an inode, and where each provider
    is. -/
structure World where
  path : Option File
  listening : Nat → Option Nat
  phase : Nat → Phase

/-- Nobody is there; the path may hold anything. -/
def World.initial (path : Option File) : World := ⟨path, fun _ => none, fun _ => .absent⟩

inductive Move where
  | start (p : Nat)
  | call (p : Nat) (fault : Bool) (inode mode : Nat)
  | drop (p : Nat)
  | crash (p : Nat)

def Move.provider : Move → Nat
  | .start p | .call p _ _ _ | .drop p | .crash p => p

namespace World

variable (w : World)

/-- The inode at the path. -/
def inode : Option Nat := w.path.map File.inode

/-- The provider that a connection to the path reaches. -/
def reaches : Option Nat := w.inode.bind w.listening

def goto (p : Nat) (phase : Phase) : World :=
  { w with phase := fun q => if q = p then phase else w.phase q }

def setPath (path : Option File) : World := { w with path := path }

def close (i : Nat) : World :=
  { w with listening := fun j => if j = i then none else w.listening j }

/-- `UnixListener::bind` on a path that is free; `mode` is what the umask leaves. -/
def bind (euid p inode mode : Nat) : Option World :=
  if w.listening inode = none then
    some ({ w with
      path := some ⟨inode, true, euid, mode⟩
      listening := fun j => if j = inode then some p else w.listening j }.goto p (.protecting inode))
  else none

/-- One system call of a provider. With `fault` it fails for a reason of its own; `inode` and `mode`
    are those of a file that it makes. -/
def call (euid p : Nat) (fault : Bool) (inode mode : Nat) : Option World :=
  match w.phase p with
  | .binding =>
    if fault then some (w.goto p (.failed .cannotBind))
    else
      match w.path with
      | some _ => some (w.goto p .connecting)
      | none => w.bind euid p inode mode
  | .connecting =>
    if fault then some (w.goto p (.failed .cannotEstablish))
    else
      match w.reaches with
      | some _ => some (w.goto p (.failed .liveProvider))
      | none => some (w.goto p .inspecting)
  | .inspecting =>
    match w.path, fault with
    | some f, false =>
      some (w.goto p (if isOwnedSocket euid f then .removing else .failed .notOwnedSocket))
    | _, _ => some (w.goto p (.failed .cannotInspectStale))
  | .removing =>
    match w.path, fault with
    | some _, false => some ((w.setPath none).goto p .rebinding)
    | _, _ => some (w.goto p (.failed .cannotRemoveStale))
  | .rebinding =>
    match w.path, fault with
    | none, false => w.bind euid p inode mode
    | _, _ => some (w.goto p (.failed .cannotBindRecovered))
  | .protecting i =>
    match w.path, fault with
    | some f, false => some ((w.setPath (some { f with mode := 0o600 })).goto p (.unblocking i))
    | _, _ => some (w.goto p (.abandoning i .cannotProtect))
  | .unblocking i =>
    some (w.goto p (if fault then .abandoning i .cannotMakeNonblocking else .recording i))
  | .recording i =>
    match w.path, fault with
    | some f, false => some (w.goto p (.holding i f.inode))
    | _, _ => some (w.goto p (.abandoning i .cannotInspectBound))
  | .comparing i recorded =>
    match w.path, fault with
    | some f, false => some (w.goto p (if f.inode = recorded then .unlinking i else .closing i))
    | _, _ => some (w.goto p (.closing i))
  | .unlinking i => some ((if fault then w else w.setPath none).goto p (.closing i))
  | .closing i => some ((w.close i).goto p .gone)
  | .abandoning i error => some ((w.close i).goto p (.failed error))
  | .absent | .holding _ _ | .failed _ | .gone => none

/-- A process that dies has its listener closed. -/
def step (euid : Nat) : Move → Option World
  | .start p => if w.phase p = .absent then some (w.goto p .binding) else none
  | .call p fault inode mode => w.call euid p fault inode mode
  | .drop p =>
    match w.phase p with
    | .holding i recorded => some (w.goto p (.comparing i recorded))
    | _ => none
  | .crash p =>
    if (w.phase p).alive then
      match (w.phase p).own with
      | some i => some ((w.close i).goto p .gone)
      | none => some (w.goto p .gone)
    else none

@[simp]
theorem goto_path (p : Nat) (phase : Phase) : (w.goto p phase).path = w.path := rfl

@[simp]
theorem goto_inode (p : Nat) (phase : Phase) : (w.goto p phase).inode = w.inode := rfl

@[simp]
theorem goto_listening (p : Nat) (phase : Phase) : (w.goto p phase).listening = w.listening := rfl

@[simp]
theorem goto_reaches (p : Nat) (phase : Phase) : (w.goto p phase).reaches = w.reaches := rfl

@[simp]
theorem goto_phase_self (p : Nat) (phase : Phase) : (w.goto p phase).phase p = phase := if_pos rfl

theorem goto_phase_of_ne {p q : Nat} (phase : Phase) (h : q ≠ p) :
    (w.goto p phase).phase q = w.phase q := if_neg h

end World

/-! ## What a step does -/

/-- What a step of the provider does to the path, to the listeners and to where it is itself. -/
inductive Effect (w : World) (m : Move) : World → Prop
  | stays (path : Option File) (phase : Phase) (hpath : path.map File.inode = w.inode)
      (hown : phase.own = (w.phase m.provider).own)
      (hshows : phase.shows = true → (w.phase m.provider).shows = true)
      (hrecovers : phase.recovers = true →
        (w.phase m.provider).recovers = true ∨ w.reaches = none) :
      Effect w m ((w.setPath path).goto m.provider phase)
  | opens (p euid inode mode : Nat) (hm : m = .call p false inode mode)
      (hbinds : (w.phase p).binds = true) (hfree : w.path = none) (w' : World)
      (hbind : w.bind euid p inode mode = some w') : Effect w m w'
  | takes (phase : Phase) (hphase : (w.phase m.provider).recovers = true) (hown : phase.own = none)
      (hrecovers : phase.recovers = false) : Effect w m ((w.setPath none).goto m.provider phase)
  | unlinks (i : Nat) (hphase : w.phase m.provider = .unlinking i) :
      Effect w m ((w.setPath none).goto m.provider (.closing i))
  | closes (i : Nat) (phase : Phase) (hphase : (w.phase m.provider).own = some i)
      (hown : phase.own = none) (hrecovers : phase.recovers = false) :
      Effect w m ((w.close i).goto m.provider phase)

namespace World

variable {euid : Nat} {w w' : World} {m : Move}

theorem effect_goto {phase : Phase} (hown : phase.own = (w.phase m.provider).own)
    (hshows : phase.shows = true → (w.phase m.provider).shows = true)
    (hrecovers : phase.recovers = true → (w.phase m.provider).recovers = true ∨ w.reaches = none) :
    Effect w m (w.goto m.provider phase) :=
  .stays w.path phase rfl hown hshows hrecovers

theorem call_effect {p inode mode : Nat} {fault : Bool}
    (h : w.call euid p fault inode mode = some w') : Effect w (.call p fault inode mode) w' := by
  -- the provider only goes on
  have onward : ∀ {phase : Phase}, some (w.goto p phase) = some w' →
      phase.own = (w.phase p).own → (phase.shows = true → (w.phase p).shows = true) →
      (phase.recovers = true → (w.phase p).recovers = true ∨ w.reaches = none) →
      Effect w (.call p fault inode mode) w' := by
    intro phase h hown hshows hrecovers
    obtain rfl := Option.some.inj h
    exact effect_goto hown hshows hrecovers
  unfold call at h
  cases hphase : w.phase p with
  | binding =>
    simp only [hphase] at h
    split_ifs at h with hfault
    · apply onward h <;> simp [hphase, Phase.own, Phase.shows, Phase.recovers]
    · split at h
      · apply onward h <;> simp [hphase, Phase.own, Phase.shows, Phase.recovers]
      · rename_i hpath
        have hbinds : (w.phase p).binds = true := by rw [hphase]; rfl
        exact .opens p euid inode mode (by simp [hfault]) hbinds hpath w' h
  | connecting =>
    simp only [hphase] at h
    split_ifs at h
    · apply onward h <;> simp [hphase, Phase.own, Phase.shows, Phase.recovers]
    · split at h
      · apply onward h <;> simp [hphase, Phase.own, Phase.shows, Phase.recovers]
      · rename_i hreaches
        apply onward h <;> simp [hphase, Phase.own, Phase.shows, hreaches]
  | inspecting =>
    simp only [hphase] at h
    split at h
    · apply onward h <;> split_ifs <;> simp [hphase, Phase.own, Phase.shows, Phase.recovers]
    · apply onward h <;> simp [hphase, Phase.own, Phase.shows, Phase.recovers]
  | removing =>
    simp only [hphase] at h
    split at h
    · obtain rfl := Option.some.inj h
      exact .takes _ (by rw [Move.provider, hphase]; rfl) rfl rfl
    · apply onward h <;> simp [hphase, Phase.own, Phase.shows, Phase.recovers]
  | rebinding =>
    simp only [hphase] at h
    split at h
    · rename_i hpath
      have hbinds : (w.phase p).binds = true := by rw [hphase]; rfl
      exact .opens p euid inode mode rfl hbinds hpath w' h
    · apply onward h <;> simp [hphase, Phase.own, Phase.shows, Phase.recovers]
  | protecting i =>
    simp only [hphase] at h
    split at h
    · rename_i hpath
      obtain rfl := Option.some.inj h
      -- the mode changes and the inode does not
      apply Effect.stays <;>
        simp [Move.provider, hphase, hpath, World.inode, Phase.own, Phase.shows, Phase.recovers]
    · apply onward h <;> simp [hphase, Phase.own, Phase.shows, Phase.recovers]
  | unblocking i =>
    simp only [hphase] at h
    apply onward h <;> split_ifs <;> simp [hphase, Phase.own, Phase.shows, Phase.recovers]
  | recording i =>
    simp only [hphase] at h
    split at h <;> apply onward h <;> simp [hphase, Phase.own, Phase.shows, Phase.recovers]
  | comparing i recorded =>
    simp only [hphase] at h
    split at h
    · apply onward h <;> split_ifs <;> simp [hphase, Phase.own, Phase.shows, Phase.recovers]
    · apply onward h <;> simp [hphase, Phase.own, Phase.shows, Phase.recovers]
  | unlinking i =>
    simp only [hphase] at h
    split_ifs at h
    · apply onward h <;> simp [hphase, Phase.own, Phase.shows, Phase.recovers]
    · obtain rfl := Option.some.inj h
      exact .unlinks i hphase
  | closing i =>
    simp only [hphase] at h
    obtain rfl := Option.some.inj h
    exact .closes i .gone (by rw [Move.provider, hphase]; rfl) rfl rfl
  | abandoning i error =>
    simp only [hphase] at h
    obtain rfl := Option.some.inj h
    exact .closes i (.failed error) (by rw [Move.provider, hphase]; rfl) rfl rfl
  | absent | holding i recorded | failed error | gone =>
    rw [hphase] at h
    cases h

theorem step_effect (h : w.step euid m = some w') : Effect w m w' := by
  unfold step at h
  cases m with
  | start p =>
    dsimp only at h
    split_ifs at h with hphase
    obtain rfl := Option.some.inj h
    apply effect_goto <;> simp [Move.provider, hphase, Phase.own, Phase.shows, Phase.recovers]
  | call p fault inode mode => exact call_effect h
  | drop p =>
    dsimp only at h
    split at h
    · rename_i i recorded hphase
      obtain rfl := Option.some.inj h
      apply effect_goto <;> simp [Move.provider, hphase, Phase.own, Phase.shows, Phase.recovers]
    · cases h
  | crash p =>
    dsimp only at h
    split_ifs at h
    split at h
    · rename_i i hown
      obtain rfl := Option.some.inj h
      exact .closes i .gone hown rfl rfl
    · rename_i hown
      obtain rfl := Option.some.inj h
      exact effect_goto hown.symm (fun h => by cases h) (fun h => by cases h)

end World

/-! ## What stays true -/

namespace World

/-- What providers keep true of the path. -/
structure Inv (w : World) : Prop where
  owns : ∀ i p, w.listening i = some p ↔ (w.phase p).own = some i
  shown : ∀ p i, (w.phase p).own = some i → (w.phase p).shows = true → w.inode = some i
  recovering : ∀ p, (w.phase p).recovers = true → w.reaches = none

/-- No bind succeeds while a provider is between its failed probe and its removal. -/
def Undisturbed (w : World) : Move → Prop
  | .call p fault _ _ => (w.phase p).binds = true → fault = false → w.path = none →
      ∀ q, (w.phase q).recovers = false
  | _ => True

variable {euid : Nat} {w w' : World} {m : Move}

theorem inv_initial (path : Option File) : (initial path).Inv where
  owns i p := by
    constructor <;> intro h <;> cases h
  shown _ _ h := by cases h
  recovering _ h := by cases h

/-- The path leads to whoever has bound it and not yet removed it. -/
theorem Inv.reaches_of_shows (hw : w.Inv) {p : Nat} (h : (w.phase p).shows = true) :
    w.reaches = some p := by
  obtain ⟨i, hi⟩ := Phase.own_of_shows h
  show w.inode.bind w.listening = some p
  rw [hw.shown p i hi h]
  exact (hw.owns i p).mpr hi

/-- Nobody recovers a path that leads to a listener. -/
theorem Inv.not_recovers (hw : w.Inv) {p q : Nat} (h : (w.phase p).shows = true)
    (hq : (w.phase q).recovers = true) : False := by
  have hnone := hw.recovering q hq
  rw [hw.reaches_of_shows h] at hnone
  cases hnone

/-- It is enough to look at the provider that moves, and at what the others rely on. -/
theorem Inv.moved (hw : w.Inv) {v : World} (p : Nat) (phase : Phase)
    (hphase : v.phase = (w.goto p phase).phase)
    (howns : ∀ i, v.listening i = some p ↔ phase.own = some i)
    (hlistening : ∀ i q, q ≠ p → (v.listening i = some q ↔ w.listening i = some q))
    (hshown : ∀ i, phase.own = some i → phase.shows = true → v.inode = some i)
    (hinode : ∀ q, q ≠ p → (w.phase q).shows = true → v.inode = w.inode)
    (hrecovers : phase.recovers = true → v.reaches = none)
    (hothers : ∀ q, q ≠ p → (w.phase q).recovers = true → v.reaches = none) : v.Inv := by
  have hself : v.phase p = phase := by rw [hphase, goto_phase_self]
  have hother : ∀ q, q ≠ p → v.phase q = w.phase q := by
    intro q hq
    rw [hphase, goto_phase_of_ne _ _ hq]
  refine ⟨fun i q => ?_, fun q i hi hq => ?_, fun q hq => ?_⟩
  · by_cases hqp : q = p
    · subst hqp
      rw [hself]
      exact howns i
    · rw [hother q hqp, hlistening i q hqp]
      exact hw.owns i q
  · by_cases hqp : q = p
    · subst hqp
      rw [hself] at hi hq
      exact hshown i hi hq
    · rw [hother q hqp] at hi hq
      rw [hinode q hqp hq]
      exact hw.shown q i hi hq
  · by_cases hqp : q = p
    · subst hqp
      rw [hself] at hq
      exact hrecovers hq
    · rw [hother q hqp] at hq
      exact hothers q hqp hq

theorem inv_step (hw : w.Inv) (hm : w.Undisturbed m) (h : w.step euid m = some w') : w'.Inv := by
  cases step_effect h with
  | stays path phase hpath hown hshows hrecovers =>
    have hreaches : ((w.setPath path).goto m.provider phase).reaches = w.reaches := by
      show (path.map File.inode).bind w.listening = w.inode.bind w.listening
      rw [hpath]
    refine hw.moved m.provider phase rfl ?_ ?_ ?_ ?_ ?_ ?_
    · intro i
      rw [hown]
      exact hw.owns i m.provider
    · exact fun i q _ => Iff.rfl
    · intro i hi hshow
      show path.map File.inode = some i
      rw [hpath]
      exact hw.shown m.provider i (hown ▸ hi) (hshows hshow)
    · exact fun q _ _ => hpath
    · intro hrec
      rw [hreaches]
      exact (hrecovers hrec).elim (hw.recovering m.provider) id
    · intro q _ hq
      rw [hreaches]
      exact hw.recovering q hq
  | opens p euid inode mode hmove hbinds hfree _ hbind =>
    subst hmove
    have hcalm := hm hbinds rfl hfree
    unfold World.bind at hbind
    split_ifs at hbind with hnew
    obtain rfl := Option.some.inj hbind
    have hown : (w.phase p).own = none := by
      cases hphase : w.phase p <;> rw [hphase] at hbinds <;> first | rfl | cases hbinds
    refine hw.moved p (.protecting inode) rfl ?_ ?_ ?_ ?_ ?_ ?_
    · intro i
      show (if i = inode then some p else w.listening i) = some p ↔ some inode = some i
      by_cases hi : i = inode
      · simp [hi]
      · have hclosed : w.listening i ≠ some p := by
          rw [Ne, hw.owns, hown]
          exact fun h => by cases h
        simp [hi, hclosed, Ne.symm hi]
    · intro i q hq
      show (if i = inode then some p else w.listening i) = some q ↔ w.listening i = some q
      by_cases hi : i = inode
      · simp [hi, hnew, Ne.symm hq]
      · rw [if_neg hi]
    · intro i hi _
      exact hi
    · intro q _ hq
      obtain ⟨i, hi⟩ := Phase.own_of_shows hq
      have hpath := hw.shown q i hi hq
      rw [World.inode, hfree] at hpath
      cases hpath
    · exact fun h => by cases h
    · intro q _ hq
      rw [hcalm q] at hq
      cases hq
  | takes phase hphase hown hrecovers =>
    have hlistens : (w.phase m.provider).own = none := by
      cases hp : w.phase m.provider <;> rw [hp] at hphase <;> first | rfl | cases hphase
    refine hw.moved m.provider phase rfl ?_ ?_ ?_ ?_ ?_ ?_
    · intro i
      rw [hown, ← hlistens]
      exact hw.owns i m.provider
    · exact fun i q _ => Iff.rfl
    · intro i hi _
      rw [hown] at hi
      cases hi
    · exact fun q _ hq => (hw.not_recovers hq hphase).elim
    · exact fun _ => rfl
    · exact fun _ _ _ => rfl
  | unlinks i hphase =>
    have hshows : (w.phase m.provider).shows = true := by rw [hphase]; rfl
    refine hw.moved m.provider (.closing i) rfl ?_ ?_ ?_ ?_ ?_ ?_
    · intro j
      have howns := hw.owns j m.provider
      rw [hphase] at howns
      exact howns
    · exact fun j q _ => Iff.rfl
    · exact fun j _ h => by cases h
    · intro q hq hother
      have hsame := (hw.reaches_of_shows hother).symm.trans (hw.reaches_of_shows hshows)
      exact absurd (Option.some.inj hsame) hq
    · exact fun _ => rfl
    · exact fun _ _ _ => rfl
  | closes i phase hphase hown hrecovers =>
    have hlistens := (hw.owns i m.provider).mpr hphase
    have hreaches : w.reaches = none → ((w.close i).goto m.provider phase).reaches = none := by
      intro h
      show w.inode.bind (fun j => if j = i then none else w.listening j) = none
      cases hinode : w.inode with
      | none => rfl
      | some j =>
        show (if j = i then none else w.listening j) = none
        split_ifs
        · rfl
        · rw [World.reaches, hinode] at h
          exact h
    refine hw.moved m.provider phase rfl ?_ ?_ ?_ ?_ ?_ ?_
    · intro j
      show (if j = i then none else w.listening j) = some m.provider ↔ phase.own = some j
      rw [hown]
      by_cases hj : j = i
      · simp [hj]
      · have hclosed : w.listening j ≠ some m.provider := by
          rw [Ne, hw.owns, hphase]
          exact fun h => hj (Option.some.inj h).symm
        simp [hj, hclosed]
    · intro j q hq
      show (if j = i then none else w.listening j) = some q ↔ w.listening j = some q
      by_cases hj : j = i
      · simp [hj, hlistens, Ne.symm hq]
      · rw [if_neg hj]
    · intro j hj _
      rw [hown] at hj
      cases hj
    · exact fun _ _ _ => rfl
    · intro hrec
      rw [hrecovers] at hrec
      cases hrec
    · exact fun q _ hq => hreaches (hw.recovering q hq)

/-- Two providers whose guards are there, or who are on the way to one, are the same. -/
theorem Inv.shows_unique (hw : w.Inv) {p q : Nat} (hp : (w.phase p).shows = true)
    (hq : (w.phase q).shows = true) : p = q :=
  Option.some.inj ((hw.reaches_of_shows hp).symm.trans (hw.reaches_of_shows hq))

/-- The file at the path is only removed by the provider it belongs to, or when it has no listener. -/
theorem Inv.unlinked (hw : w.Inv) {f : File} {q : Nat} (h : w.step euid m = some w')
    (hpath : w.path = some f) (hgone : w'.inode ≠ some f.inode)
    (hlisten : w.listening f.inode = some q) : q = m.provider := by
  have hinode : w.inode = some f.inode := by rw [World.inode, hpath]; rfl
  have hreaches : w.reaches = some q := by
    show w.inode.bind w.listening = some q
    rw [hinode]
    exact hlisten
  cases step_effect h with
  | stays path phase hsame => exact absurd (hsame.trans hinode) hgone
  | opens p euid inode mode hmove hbinds hfree =>
    rw [hfree] at hpath
    cases hpath
  | takes phase hphase =>
    rw [hw.recovering m.provider hphase] at hreaches
    cases hreaches
  | unlinks i hphase =>
    have hshows : (w.phase m.provider).shows = true := by rw [hphase]; rfl
    exact Option.some.inj (hreaches.symm.trans (hw.reaches_of_shows hshows))
  | closes i phase => exact absurd hinode hgone

end World

/-! ## Runs -/

/-- The runs of any number of providers on one path whose moves satisfy `allowed`. -/
def PathRun (euid : Nat) (allowed : World → Move → Prop) : List (World × Move) → World → Prop :=
  Run (fun w => ∃ path, w = World.initial path) (fun w m => w.step euid m) allowed

/-- The path belongs to the listener it leads to: no step of another provider takes it away, it leads
    to whoever has bound it until the file is removed, and one provider has a guard for it. -/
structure PathKept (euid : Nat) (w : World) : Prop where
  unlinked : ∀ m w' f q, w.step euid m = some w' → w.path = some f → w'.inode ≠ some f.inode →
    w.listening f.inode = some q → q = m.provider
  reached : ∀ p, (w.phase p).shows = true → w.reaches = some p
  held : ∀ p q, (w.phase p).guards = true → (w.phase q).guards = true → p = q

section Runs

variable {euid : Nat} {past : List (World × Move)} {w : World}

theorem PathRun.inv (run : PathRun euid World.Undisturbed past w) : w.Inv := by
  apply Run.invariant run
  · rintro w ⟨path, rfl⟩
    exact World.inv_initial path
  · exact fun w m w' hw hm h => World.inv_step hw hm h

/-- In a run in which no bind succeeds while a provider is between its failed probe and its removal,
    a live socket is never taken. -/
theorem live_socket_kept (run : PathRun euid World.Undisturbed past w) : PathKept euid w where
  unlinked _ _ _ _ h hpath hgone hlisten := run.inv.unlinked h hpath hgone hlisten
  reached _ h := run.inv.reaches_of_shows h
  held _ _ hp hq :=
    run.inv.shows_unique (Phase.shows_of_guards hp) (Phase.shows_of_guards hq)

end Runs

/-- A provider has bound a path that was free. -/
theorem live_socket_kept_bound : ∃ past w, PathRun 7 World.Undisturbed past w ∧
    w.phase 0 = .protecting 1 ∧ PathKept 7 w := by
  have hidle : PathRun 7 World.Undisturbed [] (World.initial none) := Run.start ⟨none, rfl⟩
  have hstart : PathRun 7 World.Undisturbed _ ((World.initial none).goto 0 .binding) :=
    Run.step hidle (.start 0) trivial rfl
  have hcalm : ((World.initial none).goto 0 .binding).Undisturbed (.call 0 false 1 0o755) := by
    intro _ _ _ q
    by_cases hq : q = 0
    · rw [hq]
      rfl
    · rw [World.goto_phase_of_ne _ _ hq]
      rfl
  have hbound : PathRun 7 World.Undisturbed _ _ :=
    Run.step hstart (.call 0 false 1 0o755) hcalm rfl
  exact ⟨_, _, hbound, rfl, live_socket_kept hbound⟩

/-- The socket of a provider that died. -/
def stale : World := World.initial (some ⟨1, true, 7, 0o600⟩)

/-- Two providers find it dead and may remove it; the second one does, and binds. -/
def recovering : List Move :=
  [.start 0, .start 1, .call 0 false 0 0, .call 1 false 0 0, .call 0 false 0 0, .call 1 false 0 0,
    .call 0 false 0 0, .call 1 false 0 0, .call 1 false 0 0, .call 1 false 2 0o755]

/-- The second one finishes its guard. Then the first one removes the file, and binds as well. -/
def overtaking : List Move :=
  List.replicate 3 (.call 1 false 0 0) ++ .call 0 false 0 0 :: .call 0 false 3 0o755 ::
    List.replicate 3 (.call 0 false 0 0)

/-- Two providers recover one socket: the first one removes the file of the second one, whose listener
    is open, and in the end both have a guard and the path leads to the first. -/
theorem two_recoveries :
    (∃ past w f w', PathRun 7 (fun _ _ => True) past w ∧ w.path = some f ∧
      w.listening f.inode = some 1 ∧ w.step 7 (.call 0 false 0 0) = some w' ∧ w'.path = none) ∧
    ∃ past w, PathRun 7 (fun _ _ => True) past w ∧ w.phase 0 = .holding 3 3 ∧
      w.phase 1 = .holding 2 2 ∧ w.reaches = some 0 ∧ ¬ PathKept 7 w := by
  have hstale : PathRun 7 (fun _ _ => True) [] stale := Run.start ⟨_, rfl⟩
  refine ⟨?_, ?_⟩
  · have heval : ((replay (fun w m => World.step w 7 m) (fun _ _ => True) [] stale recovering).map
        fun run => (run.2.path.map File.inode, run.2.listening 2,
          (run.2.step 7 (.call 0 false 0 0)).map fun w' => w'.path.isNone)) =
        some (some 2, some 1, some true) := by decide +kernel
    obtain ⟨⟨past, w⟩, hreplay, hend⟩ := Option.map_eq_some_iff.mp heval
    obtain ⟨hpath, hend⟩ := Prod.mk.inj hend
    obtain ⟨hlisten, hend⟩ := Prod.mk.inj hend
    obtain ⟨f, hpath, hinode⟩ := Option.map_eq_some_iff.mp hpath
    obtain ⟨w', hstep, hnone⟩ := Option.map_eq_some_iff.mp hend
    exact ⟨past, w, f, w', hstale.replay hreplay, hpath, hinode ▸ hlisten, hstep,
      Option.isNone_iff_eq_none.mp hnone⟩
  · have heval : ((replay (fun w m => World.step w 7 m) (fun _ _ => True) [] stale
        (recovering ++ overtaking)).map
        fun run => (run.2.phase 0, run.2.phase 1, run.2.reaches)) =
        some (.holding 3 3, .holding 2 2, some 0) := by decide +kernel
    obtain ⟨⟨past, w⟩, hreplay, hend⟩ := Option.map_eq_some_iff.mp heval
    obtain ⟨hfirst, hend⟩ := Prod.mk.inj hend
    obtain ⟨hsecond, hreaches⟩ := Prod.mk.inj hend
    refine ⟨past, w, hstale.replay hreplay, hfirst, hsecond, hreaches, fun hkept => ?_⟩
    have hsame := hkept.held 0 1 (by rw [hfirst]; rfl) (by rw [hsecond]; rfl)
    exact absurd hsame (by decide)

end AgentSeat.Runtime
