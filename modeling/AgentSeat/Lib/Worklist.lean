/-
  Walks over a tree with a stack.

  A node holds things in order: a find, a further node, or nothing of interest. A walk takes a node
  from its stack, meets what that holds one after the other, and gives up when it has met more than
  its bound. Whatever order the stack makes of it, a walk that comes to its end has found exactly
  what lies under the nodes it began with (`Walk.mem_run`), and it comes to its end exactly if these
  hold no more than the bound (`Walk.run_isSome`).
-/
import Mathlib.Data.List.Basic

namespace AgentSeat.Lib

inductive Held (ν α : Type) where
  | nothing
  | found (a : α)
  | below (n : ν)

structure Walk (ν α : Type) where
  found : List α
  pending : List ν
  met : Nat

section Walk

variable {ν α : Type}

def Walk.meetOne (w : Walk ν α) : Held ν α → Walk ν α
  | .nothing => { w with met := w.met + 1 }
  | .found a => { w with met := w.met + 1, found := w.found ++ [a] }
  | .below n => { w with met := w.met + 1, pending := n :: w.pending }

/-- Meet what a node holds. -/
def Walk.meet (bound : Nat) (w : Walk ν α) : List (Held ν α) → Option (Walk ν α)
  | [] => some w
  | held :: rest => if w.met + 1 > bound then none else (w.meetOne held).meet bound rest

/-- Walk on, for at most `fuel` nodes, until the stack is empty. -/
def Walk.run (bound : Nat) (hold : ν → List (Held ν α)) : Nat → Walk ν α → Option (List α)
  | 0, w => if w.pending.isEmpty then some w.found else none
  | fuel + 1, w =>
    match w.pending with
    | [] => some w.found
    | n :: pending =>
      ((Walk.mk w.found pending w.met).meet bound (hold n)).bind (Walk.run bound hold fuel)

variable {hold : ν → List (Held ν α)} {bound : Nat}

/-! ## What a walk finds -/

variable (hold) in
/-- `a` lies somewhere under a node. -/
inductive Under : ν → α → Prop
  | here {n : ν} {a : α} (h : .found a ∈ hold n) : Under n a
  | deeper {n m : ν} {a : α} (h : .below m ∈ hold n) (under : Under m a) : Under n a

theorem under_iff {n : ν} {a : α} :
    Under hold n a ↔ .found a ∈ hold n ∨ ∃ m, .below m ∈ hold n ∧ Under hold m a := by
  constructor
  · intro h
    cases h with
    | here h => exact .inl h
    | deeper h under => exact .inr ⟨_, h, under⟩
  · rintro (h | ⟨m, h, under⟩)
    · exact .here h
    · exact .deeper h under

variable (hold) in
/-- `a` is found, or lies under a node that is still to come. -/
def Walk.Covers (w : Walk ν α) (a : α) : Prop :=
  a ∈ w.found ∨ ∃ n ∈ w.pending, Under hold n a

theorem Walk.covers_meetOne (w : Walk ν α) (held : Held ν α) (a : α) :
    (w.meetOne held).Covers hold a ↔ w.Covers hold a ∨ held = .found a ∨
      ∃ m, held = .below m ∧ Under hold m a := by
  cases held with
  | nothing => simp [meetOne, Covers]
  | found b => simp [meetOne, Covers, eq_comm, or_assoc, or_comm]
  | below n => simp [meetOne, Covers, or_left_comm, or_comm]

theorem Walk.covers_meet {w w' : Walk ν α} {helds : List (Held ν α)}
    (h : w.meet bound helds = some w') (a : α) :
    w'.Covers hold a ↔ w.Covers hold a ∨ .found a ∈ helds ∨
      ∃ m, .below m ∈ helds ∧ Under hold m a := by
  induction helds generalizing w with
  | nil =>
    rw [← Option.some.inj h]
    simp
  | cons held rest ih =>
    rw [meet] at h
    split at h
    · simp at h
    · rw [ih h, covers_meetOne]
      constructor
      · rintro ((hw | rfl | ⟨m, rfl, hm⟩) | hrest | ⟨m, hmem, hm⟩)
        · exact .inl hw
        · exact .inr (.inl List.mem_cons_self)
        · exact .inr (.inr ⟨m, List.mem_cons_self, hm⟩)
        · exact .inr (.inl (List.mem_cons_of_mem _ hrest))
        · exact .inr (.inr ⟨m, List.mem_cons_of_mem _ hmem, hm⟩)
      · rintro (hw | hfound | ⟨m, hmem, hm⟩)
        · exact .inl (.inl hw)
        · rcases List.mem_cons.mp hfound with rfl | hfound
          · exact .inl (.inr (.inl rfl))
          · exact .inr (.inl hfound)
        · rcases List.mem_cons.mp hmem with rfl | hmem
          · exact .inl (.inr (.inr ⟨m, rfl, hm⟩))
          · exact .inr (.inr ⟨m, hmem, hm⟩)

/-- Taking a node off the stack and meeting what it holds covers the same. -/
theorem Walk.covers_pop {found : List α} {n : ν} {pending : List ν} {met : Nat} {w' : Walk ν α}
    (h : (Walk.mk found pending met).meet bound (hold n) = some w') (a : α) :
    w'.Covers hold a ↔ (Walk.mk found (n :: pending) met).Covers hold a := by
  rw [covers_meet h, ← under_iff]
  simp [Covers, or_left_comm, or_comm]

/-- A walk that came to its end found what it covered. -/
theorem Walk.mem_run {fuel : Nat} {w : Walk ν α} {found : List α}
    (h : w.run bound hold fuel = some found) (a : α) : a ∈ found ↔ w.Covers hold a := by
  induction fuel generalizing w with
  | zero =>
    rw [run] at h
    split at h
    · next hempty =>
      rw [← Option.some.inj h, Covers, List.isEmpty_iff.mp hempty]
      simp
    · simp at h
  | succ fuel ih =>
    rw [run] at h
    obtain ⟨started, pending, met⟩ := w
    cases pending with
    | nil =>
      rw [← Option.some.inj h]
      simp [Covers]
    | cons n pending =>
      obtain ⟨w', hmeet, hrun⟩ := Option.bind_eq_some_iff.mp h
      rw [ih hrun, covers_pop hmeet]

/-! ## When a walk comes to its end -/

/-- How much a list of things held brings with it, itself included, if a node weighs `weight`. -/
def heldWeight (weight : ν → Nat) : List (Held ν α) → Nat
  | [] => 0
  | .below n :: rest => 1 + weight n + heldWeight weight rest
  | _ :: rest => 1 + heldWeight weight rest

def pendingWeight (weight : ν → Nat) : List ν → Nat
  | [] => 0
  | n :: rest => weight n + pendingWeight weight rest

theorem Walk.meet_length {w w' : Walk ν α} {helds : List (Held ν α)}
    (h : w.meet bound helds = some w') : w'.met = w.met + helds.length := by
  induction helds generalizing w with
  | nil =>
    rw [← Option.some.inj h]
    rfl
  | cons held rest ih =>
    rw [meet] at h
    split at h
    · simp at h
    · have hone : (w.meetOne held).met = w.met + 1 := by cases held <;> rfl
      rw [ih h, hone, List.length_cons]
      omega

/-- What a walk has met and has yet to meet stays the same. -/
theorem Walk.meet_weight (weight : ν → Nat) {w w' : Walk ν α} {helds : List (Held ν α)}
    (h : w.meet bound helds = some w') :
    w'.met + pendingWeight weight w'.pending =
      w.met + pendingWeight weight w.pending + heldWeight weight helds := by
  induction helds generalizing w with
  | nil =>
    rw [← Option.some.inj h]
    rfl
  | cons held rest ih =>
    rw [meet] at h
    split at h
    · simp at h
    · rw [ih h]
      cases held with
      | nothing | found a =>
        simp only [meetOne, heldWeight]
        omega
      | below n =>
        simp only [meetOne, heldWeight, pendingWeight]
        omega

/-- Every node on the stack was met, so the stack grows no faster than the count. -/
theorem Walk.meet_pending {w w' : Walk ν α} {helds : List (Held ν α)}
    (h : w.meet bound helds = some w') :
    w'.pending.length + w.met ≤ w.pending.length + w'.met := by
  induction helds generalizing w with
  | nil =>
    have hw : w = w' := Option.some.inj h
    exact Nat.le_of_eq (by rw [hw])
  | cons held rest ih =>
    rw [meet] at h
    split at h
    · simp at h
    · have := ih h
      cases held with
      | nothing | found a =>
        simp only [meetOne] at this
        omega
      | below n =>
        simp only [meetOne, List.length_cons] at this
        omega

theorem Walk.meet_isSome {w : Walk ν α} {helds : List (Held ν α)} (hmet : w.met ≤ bound) :
    (w.meet bound helds).isSome ↔ w.met + helds.length ≤ bound := by
  induction helds generalizing w with
  | nil => simpa [meet] using hmet
  | cons held rest ih =>
    have hone : (w.meetOne held).met = w.met + 1 := by cases held <;> rfl
    rw [meet, List.length_cons]
    by_cases hfull : w.met + 1 > bound
    · rw [if_pos hfull]
      simp only [Option.isSome_none, Bool.false_eq_true, false_iff]
      omega
    · rw [if_neg hfull, ih (by omega), hone]
      omega

theorem length_le_heldWeight (weight : ν → Nat) (helds : List (Held ν α)) :
    helds.length ≤ heldWeight weight helds := by
  induction helds with
  | nil => exact Nat.le_refl 0
  | cons held rest ih =>
    cases held with
    | nothing | found a =>
      simp only [List.length_cons, heldWeight]
      omega
    | below n =>
      simp only [List.length_cons, heldWeight]
      omega

/-- With fuel for the stack and all it may still meet, a walk comes to its end exactly if that is
    within the bound. -/
theorem Walk.run_isSome {weight : ν → Nat} (weighs : ∀ n, weight n = heldWeight weight (hold n))
    {fuel : Nat} {w : Walk ν α} (hmet : w.met ≤ bound)
    (enough : w.pending.length + (bound - w.met) ≤ fuel) :
    (w.run bound hold fuel).isSome ↔ w.met + pendingWeight weight w.pending ≤ bound := by
  induction fuel generalizing w with
  | zero =>
    have hempty : w.pending = [] := List.eq_nil_of_length_eq_zero (by omega)
    rw [run, hempty]
    simpa [pendingWeight] using hmet
  | succ fuel ih =>
    obtain ⟨started, pending, met⟩ := w
    dsimp only at hmet enough ⊢
    rw [run]
    cases pending with
    | nil => simpa [pendingWeight] using hmet
    | cons n pending =>
      dsimp only
      have hlength := length_le_heldWeight weight (hold n)
      have hn := weighs n
      have hfits := @Walk.meet_isSome ν α bound ⟨started, pending, met⟩ (hold n) hmet
      dsimp only at hfits
      cases hmeet : (Walk.mk started pending met).meet bound (hold n) with
      | none =>
        have hover := hfits.not.mp (by rw [hmeet]; simp)
        simp only [Option.bind_none, Option.isSome_none, Bool.false_eq_true, false_iff, pendingWeight]
        omega
      | some w' =>
        have hcount := meet_length hmeet
        have hweight := meet_weight weight hmeet
        have hgrowth := meet_pending hmeet
        have hwithin := hfits.mp (by rw [hmeet]; rfl)
        dsimp only at hcount hweight hgrowth
        rw [List.length_cons] at enough
        rw [Option.bind_some, ih (by omega) (by omega), pendingWeight]
        omega

end Walk

end AgentSeat.Lib
