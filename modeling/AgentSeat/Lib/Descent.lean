/-
  Descending a tree along a choice of one child at each node.

  `select` picks at most one child of a node, and `descend` follows it until there is nothing to
  pick. The node it ends at stands below a node `t` exactly if the descent came through `t`
  (`below_descend`), and it came through `t` exactly if every node on the way from the root down to
  `t` was picked by its parent (`selected_iff`).
-/
import Mathlib.Logic.Relation

namespace AgentSeat.Lib

open Relation

section Descent

variable {α : Type} (select : α → Option α)

def Selects (p c : α) : Prop := select p = some c

/-- Follow the choice, at most `fuel` times. -/
def descend : Nat → α → α
  | 0, w => w
  | fuel + 1, w =>
    match select w with
    | some c => descend fuel c
    | none => w

variable {select}

theorem selects_descend (fuel : Nat) (w : α) :
    ReflTransGen (Selects select) w (descend select fuel w) := by
  induction fuel generalizing w with
  | zero => exact .refl
  | succ fuel ih =>
    unfold descend
    cases hw : select w with
    | none => exact .refl
    | some c => exact .head hw (ih c)

/-- With fuel for the height of a node the descent from it stops only where nothing is picked. -/
theorem select_descend {height : α → Nat} (hlt : ∀ p c, select p = some c → height c < height p)
    (fuel : Nat) (w : α) (hfuel : height w ≤ fuel) : select (descend select fuel w) = none := by
  induction fuel generalizing w with
  | zero =>
    show select w = none
    cases hw : select w with
    | none => rfl
    | some c =>
      have := hlt w c hw
      omega
  | succ fuel ih =>
    unfold descend
    cases hw : select w with
    | none => exact hw
    | some c =>
      have := hlt w c hw
      exact ih c (by omega)

variable {child : α → α → Prop} {root : α} (parent : ∀ p q c, child p c → child q c → p = q)
  (top : ∀ p, ¬ child p root) (sub : ∀ p c, select p = some c → child p c)

include parent top sub

/-- Whatever stands above a node the descent came through, the descent came through as well. -/
theorem selected_above {t w : α} (hw : ReflTransGen (Selects select) root w)
    (h : ReflTransGen child t w) : ReflTransGen (Selects select) root t := by
  induction hw with
  | refl =>
    rcases ReflTransGen.cases_tail h with rfl | ⟨p, -, hp⟩
    · exact .refl
    · exact absurd hp (top p)
  | @tail b w hb hselect ih =>
    rcases ReflTransGen.cases_tail h with rfl | ⟨p, htp, hp⟩
    · exact .tail hb hselect
    · obtain rfl := parent _ _ _ hp (sub _ _ hselect)
      exact ih htp

/-- The descent ends below `t` exactly if it came through `t`. -/
theorem below_descend {height : α → Nat} (hlt : ∀ p c, select p = some c → height c < height p)
    {fuel : Nat} (hfuel : height root ≤ fuel) (t : α) :
    ReflTransGen child t (descend select fuel root) ↔ ReflTransGen (Selects select) root t := by
  have hreach : ReflTransGen (Selects select) root (descend select fuel root) :=
    selects_descend fuel root
  have hstop := select_descend hlt fuel root hfuel
  constructor
  · exact selected_above parent top sub hreach
  · intro ht
    have hunique : Relator.RightUnique (Selects select) := by
      intro p c c' hc hc'
      exact Option.some.inj (hc.symm.trans hc')
    rcases ReflTransGen.total_of_right_unique hunique ht hreach with h | h
    · exact ReflTransGen.mono (fun p c hs => sub p c hs) _ _ h
    · -- nothing is picked where the descent ended
      rcases ReflTransGen.cases_head h with heq | ⟨c, hc, -⟩
      · rw [heq]
      · exact absurd (hstop.symm.trans hc) nofun

/-- Below the picked child `c` of the root, the descent comes through `t` exactly if all nodes from
    there down to `t` are picked by their parents. -/
theorem selected_iff {c t : α} (hc : select root = some c) (ht : ReflTransGen child c t) :
    ReflTransGen (Selects select) root t ↔
      ∀ p a, ReflTransGen child a t → child p a → p ≠ root → select p = some a := by
  constructor
  · intro h p a hat hpa hp
    have ha := selected_above parent top sub h hat
    rcases ReflTransGen.cases_tail ha with rfl | ⟨q, -, hq⟩
    · exact absurd hpa (top p)
    · obtain rfl := parent _ _ _ hpa (sub _ _ hq)
      exact hq
  · intro h
    have hroot : ReflTransGen (Selects select) root c := .single hc
    have hbelow : ∃ q, child q c := ⟨root, sub _ _ hc⟩
    clear hc
    induction ht using ReflTransGen.head_induction_on with
    | refl => exact hroot
    | @head b d hbd hdt ih =>
      -- a node with a parent is not the root
      have hb : b ≠ root := by
        rintro rfl
        exact hbelow.elim top
      exact ih (hroot.tail (h b d hdt hbd hb)) ⟨b, hbd⟩

end Descent

end AgentSeat.Lib
