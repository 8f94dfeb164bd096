/-
  The pointer hit test against the window tree of the server.

  A `WindowTree` is what the server knows: parents, children from bottom to top, map states, places
  and input regions. The window a click is delivered to is found from the root by the topmost
  matching child at each level (`hit`). The code looks at the children of the root only and then
  asks whether the child it found is the target or stands above it. So a successful test says where
  the descent starts, and the click reaches the target exactly if the rest of the way down to it is
  clear as well (`Clear`): inside a frame nothing is tested.
-/
import AgentSeat.Lib.Descent
import AgentSeat.Provider.Evidence
import AgentSeat.Session.Plain

namespace AgentSeat.Provider

open AgentSeat.Lib AgentSeat.Proto AgentSeat.X11 Relation

/-! ## The tree -/

structure WindowTree where
  root : Window
  parent : Window → Window
  children : Window → List Window
  viewable : Window → Bool
  origin : Window → Int × Int
  inputShape : Window → List Rectangle
  height : Window → Nat
  child_parent : ∀ p c, c ∈ children p → parent c = p
  parent_child : ∀ c, parent c ≠ none32 → c ∈ children (parent c)
  root_parent : parent root = none32
  none_child : ∀ p, none32 ∉ children p
  none_children : children none32 = []
  height_lt : ∀ p c, c ∈ children p → height c < height p
  root_origin : origin root = (0, 0)

namespace WindowTree

variable (T : WindowTree)

def Child (p c : Window) : Prop := c ∈ T.children p

/-- `w` is `t` or one of its descendants. -/
def Below (t w : Window) : Prop := ReflTransGen T.Child t w

/-- A viewable window whose input region contains the root point. -/
def contains (x y : Int) (w : Window) : Bool :=
  T.viewable w &&
    (T.inputShape w).any fun r => rectangleContains r (x - (T.origin w).1) (y - (T.origin w).2)

/-- The topmost child that contains the point. -/
def topmostAt (x y : Int) (w : Window) : Option Window :=
  (T.children w).reverse.find? (T.contains x y)

/-- Where the server delivers a click at the root point. -/
def hit (x y : Int) : Window := descend (T.topmostAt x y) (T.height T.root) T.root

/-- From the child of the top-level window down to the target, every window is the topmost one of
    its siblings at the point. -/
def Clear (t : Window) (x y : Int) : Prop :=
  ∀ p a, T.Below a t → T.Child p a → p ≠ T.root → T.topmostAt x y p = some a

variable {T}

theorem child_unique (p q c : Window) (hp : T.Child p c) (hq : T.Child q c) : p = q :=
  (T.child_parent p c hp).symm.trans (T.child_parent q c hq)

theorem root_not_child (p : Window) : ¬ T.Child p T.root := by
  intro h
  have hp : p = none32 := (T.child_parent p T.root h).symm.trans T.root_parent
  unfold Child at h
  rw [hp, T.none_children] at h
  exact List.not_mem_nil h

theorem child_of_topmostAt {x y : Int} (p c : Window) (h : T.topmostAt x y p = some c) :
    T.Child p c :=
  List.mem_reverse.mp (List.mem_of_find?_eq_some h)

/-- Once the topmost child of the root is the target or above it, the way below decides. -/
theorem below_hit {t c : Window} {x y : Int} (htop : T.topmostAt x y T.root = some c)
    (hct : T.Below c t) : T.Below t (T.hit x y) ↔ T.Clear t x y := by
  have hlt (p c : Window) (h : T.topmostAt x y p = some c) : T.height c < T.height p :=
    T.height_lt p c (child_of_topmostAt p c h)
  have hthrough := below_descend child_unique root_not_child child_of_topmostAt hlt
    (Nat.le_refl (T.height T.root)) t
  exact hthrough.trans
    (selected_iff child_unique root_not_child child_of_topmostAt htop hct)

end WindowTree

/-! ## A server that shows the tree -/

/-- Every reply is the tree's; any request may fail instead. -/
structure Shows (env : Outside) (T : WindowTree) : Prop where
  queryTree : ∀ trace w tree, env trace (.queryTree w) = .ok tree →
    tree.parent = T.parent w ∧ tree.children = T.children w
  getWindowAttributes : ∀ trace w viewable, env trace (.getWindowAttributes w) = .ok viewable →
    viewable = T.viewable w
  translateCoordinates : ∀ trace source destination x y place,
    env trace (.translateCoordinates source destination x y) = .ok place →
      place = (x + (T.origin source).1 - (T.origin destination).1,
        y + (T.origin source).2 - (T.origin destination).2)
  shapeGetRectangles : ∀ trace w rectangles, env trace (.shapeGetRectangles w) = .ok rectangles →
    rectangles = T.inputShape w

section Runs

variable {env : Outside} {T : WindowTree}

/-- A question moves no state. -/
theorem ask_still {q : Question} {w w' : World} {a : q.Answer}
    (h : (Dialogue.ask env q : XM q.Answer) w = (.ok a, w')) :
    env w.trace q = a ∧ w'.state = w.state := by
  obtain ⟨ha, rfl⟩ := ask_ok h
  exact ⟨ha, rfl⟩

/-- The hit test over a list of windows finds the first that contains the point. -/
theorem topmost_ok (shows : Shows env T) {x y : Int} {windows : List Window} {w w' : World}
    {found : Option Window} (h : topmost env T.root x y windows w = (.ok found, w')) :
    found = windows.find? (T.contains x y) ∧ w'.state = w.state := by
  induction windows generalizing w with
  | nil =>
    obtain ⟨hfound, hw⟩ := Prod.mk.inj h
    exact ⟨(Except.ok.inj hfound).symm, hw ▸ rfl⟩
  | cons child rest ih =>
    obtain ⟨viewable, w₁, hasked, h⟩ := Prog.of_bind_ok h
    obtain ⟨hsaid, hw₁⟩ := ask_still (reply_ok hasked)
    have hviewable := shows.getWindowAttributes _ _ _ hsaid
    cases viewable with
    | false =>
      obtain ⟨hfound, hw⟩ := ih h
      rw [List.find?_cons_of_neg (by simp [WindowTree.contains, ← hviewable])]
      exact ⟨hfound, hw.trans hw₁⟩
    | true =>
      obtain ⟨place, w₂, htranslated, h⟩ := Prog.of_bind_ok h
      obtain ⟨hplaced, hw₂⟩ := ask_still (reply_ok htranslated)
      obtain ⟨input, w₃, hshaped, h⟩ := Prog.of_bind_ok h
      obtain ⟨hshape, hw₃⟩ := ask_still (reply_ok hshaped)
      obtain ⟨u, w₄, hbound, h⟩ := Prog.of_bind_ok h
      have hw₄ := (lift_refuseIf_ok hbound).2
      have hplace := shows.translateCoordinates _ _ _ _ _ _ hplaced
      have hinput := shows.shapeGetRectangles _ _ _ hshape
      rw [T.root_origin, Int.add_zero, Int.add_zero] at hplace
      have hstate : w₄.state = w.state := by rw [hw₄, hw₃, hw₂, hw₁]
      subst hplace hinput
      have hcontains : T.contains x y child = (T.inputShape child).any fun r =>
          rectangleContains r (x - (T.origin child).1) (y - (T.origin child).2) := by
        simp [WindowTree.contains, ← hviewable]
      dsimp only at h
      rw [← hcontains] at h
      by_cases hin : T.contains x y child = true
      · rw [if_pos hin] at h
        obtain ⟨hfound, hw⟩ := Prod.mk.inj h
        rw [List.find?_cons_of_pos hin]
        exact ⟨(Except.ok.inj hfound).symm, hw ▸ hstate⟩
      · rw [if_neg hin] at h
        obtain ⟨hfound, hw⟩ := ih h
        rw [List.find?_cons_of_neg (by simpa using hin)]
        exact ⟨hfound, hw.trans hstate⟩

/-- A candidate the ancestry accepts is the window or above it. -/
theorem frameAncestry_ok (shows : Shows env T) {candidate : Window}
    (hchild : T.Child T.root candidate) {fuel : Nat} {window : Window} {w w' : World}
    (h : frameAncestry env T.root candidate fuel window w = (.ok true, w')) :
    T.Below candidate window := by
  induction fuel generalizing window w with
  | zero => exact absurd (Prod.mk.inj h).1 nofun
  | succ fuel ih =>
    unfold frameAncestry at h
    split_ifs at h with hsame
    · exact hsame ▸ .refl
    · obtain ⟨tree, w₁, htree, h⟩ := Prog.of_bind_ok h
      obtain ⟨hparent, -⟩ := shows.queryTree _ _ _ (ask_still (reply_ok htree)).1
      split_ifs at h with hend
      · -- the walk ends at the root or at no window, neither of which is a child of the root
        have hcandidate : tree.parent = candidate :=
          of_decide_eq_true (Except.ok.inj (Prod.mk.inj h).1)
        rw [hcandidate] at hend
        rcases hend with hnone | hroot
        · exact absurd (hnone ▸ hchild) (T.none_child T.root)
        · exact absurd (hroot ▸ hchild) (WindowTree.root_not_child T.root)
      · have hup : tree.parent ≠ none32 := fun hnone => hend (.inl hnone)
        rw [hparent] at hup
        have hstep : T.Child tree.parent window := by
          rw [hparent]
          exact T.parent_child window hup
        exact (ih h).tail hstep

/-- A destination that passes: the topmost child of the root at the point is the target or stands
    above it. -/
theorem requirePointOwnedBy_ok (shows : Shows env T) {t : Window} {x y : Int} {w w' : World}
    (hroot : w.state.observer.root = T.root)
    (h : requirePointOwnedBy env t x y w = (.ok (), w')) :
    ∃ c, T.topmostAt x y T.root = some c ∧ T.Below c t := by
  have h : (do
      let tree ← reply "cannot hit-test pointer destination" "cannot hit-test pointer destination"
        (Dialogue.ask env (.queryTree w.state.observer.root))
      Prog.lift (refuseIf (tree.children.length > maxHitTestChildren)
        (Failure.unavailable "pointer hit-test exceeds the window bound"))
      let destination ← topmost env w.state.observer.root x y tree.children.reverse
      requireFrame env destination t : XM Unit) w = (.ok (), w') := h
  rw [hroot] at h
  obtain ⟨tree, w₁, hasked, h⟩ := Prog.of_bind_ok h
  obtain ⟨hsaid, hw₁⟩ := ask_still (reply_ok hasked)
  obtain ⟨u, w₂, hbound, h⟩ := Prog.of_bind_ok h
  have hw₂ := (lift_refuseIf_ok hbound).2
  obtain ⟨destination, w₃, htested, h⟩ := Prog.of_bind_ok h
  obtain ⟨hfound, hw₃⟩ := topmost_ok shows htested
  rw [(shows.queryTree _ _ _ hsaid).2] at hfound
  cases destination with
  | none => exact absurd (Prod.mk.inj h).1 nofun
  | some c =>
    have htop : T.topmostAt x y T.root = some c := hfound.symm
    obtain ⟨owned, w₄, howned, h⟩ := Prog.of_bind_ok h
    obtain ⟨howns, -⟩ := lift_refuseIf_ok h
    have hframe : frameAncestry env w₃.state.observer.root c maxWindowAncestors t w₃ =
        (.ok true, w₄) := by
      rw [Bool.not_eq_false] at howns
      exact howns ▸ howned
    rw [hw₃, hw₂, hw₁, hroot] at hframe
    exact ⟨c, htop, frameAncestry_ok shows (WindowTree.child_of_topmostAt _ _ htop) hframe⟩

/-- What a returned destination means for the tree: the point is the client-relative one, and the
    topmost child of the root there is the target or stands above it. -/
theorem pointerDestination_ok (shows : Shows env T) {request : TargetRequest} {x y : Nat}
    {w w' : World} {t : Window} {rootX rootY : Int} (hroot : w.state.observer.root = T.root)
    (h : pointerDestination env request x y w = (.ok (t, rootX, rootY), w')) :
    (rootX, rootY) = ((T.origin t).1 + x, (T.origin t).2 + y) ∧
      ∃ c, T.topmostAt rootX rootY T.root = some c ∧ T.Below c t := by
  obtain ⟨target, w₁, hfresh, h⟩ := Prog.of_bind_ok h
  have hmoves : Moves w.state w₁.state := by
    obtain ⟨-, -, -, hmoves, -⟩ := freshTarget_finds request w trivial
    rw [hfresh] at hmoves
    exact hmoves
  have hroot₁ : w₁.state.observer.root = T.root :=
    (congrArg Settings.root hmoves.settings).trans hroot
  obtain ⟨geometry, w₂, hgeometry, h⟩ := Prog.of_bind_ok h
  obtain ⟨-, hw₂⟩ := ask_still (reply_ok hgeometry)
  obtain ⟨u, w₃, hinside, h⟩ := Prog.of_bind_ok h
  have hw₃ := (lift_refuseIf_ok hinside).2
  have hroot₃ : w₃.state.observer.root = T.root := by rw [hw₃, hw₂, hroot₁]
  obtain ⟨root, w₄, hread, h⟩ := Prog.of_bind_ok h
  obtain ⟨hvalue, hw₄⟩ := Prod.mk.inj hread
  obtain rfl : root = T.root := (Except.ok.inj hvalue).symm.trans hroot₃
  obtain ⟨origin, w₅, htranslated, h⟩ := Prog.of_bind_ok h
  obtain ⟨hplaced, hw₅⟩ := ask_still (reply_ok htranslated)
  have horigin := shows.translateCoordinates _ _ _ _ _ _ hplaced
  rw [T.root_origin, Int.zero_add, Int.zero_add, Int.sub_zero, Int.sub_zero] at horigin
  obtain ⟨X, w₆, hX, h⟩ := Prog.of_bind_ok h
  obtain ⟨hrootX, rfl⟩ := Prod.mk.inj hX
  obtain ⟨Y, w₇, hY, h⟩ := Prog.of_bind_ok h
  obtain ⟨hrootY, rfl⟩ := Prod.mk.inj hY
  obtain ⟨v, w₈, howned, h⟩ := Prog.of_bind_ok h
  have hresult := Except.ok.inj (Prod.mk.inj h).1
  obtain ⟨rfl, hpoint⟩ := Prod.mk.inj hresult
  obtain ⟨rfl, rfl⟩ := Prod.mk.inj hpoint
  refine ⟨?_, requirePointOwnedBy_ok shows ?_ howned⟩
  · rw [checkedRootCoordinate_ok hrootX, checkedRootCoordinate_ok hrootY, horigin]
  · rw [hw₅, ← hw₄]
    exact hroot₃

end Runs

/-! ## A frame with a helper window -/

/-- A client 7 in the frame 9, with or without a helper window 8 stacked over it. -/
def framedTree (covered : Bool) : WindowTree where
  root := plainRoot
  parent w := if w = 9 then plainRoot else if w = 7 ∨ w = 8 ∧ covered then 9 else none32
  children w := if w = plainRoot then [9] else if w = 9 then if covered then [7, 8] else [7] else []
  viewable _ := true
  origin _ := (0, 0)
  inputShape _ := [⟨0, 0, 20, 10⟩]
  height w := if w = plainRoot then 2 else if w = 9 then 1 else 0
  child_parent p c h := by
    split_ifs at h with hp hp' hc <;> simp at h
    · simp [h, hp]
    · rcases h with rfl | rfl <;> simp [hp', hc]
    · simp [h, hp']
  parent_child c h := by
    split_ifs at h ⊢ <;> simp_all [plainRoot, none32]
  root_parent := rfl
  none_child p := by
    split_ifs <;> simp [none32]
  none_children := rfl
  height_lt p c h := by
    split_ifs at h with hp hp' hc <;> simp at h
    · simp [h, hp, plainRoot]
    · rcases h with rfl | rfl <;> simp [hp', plainRoot]
    · simp [h, hp', plainRoot]
  root_origin := rfl

/-- The server behind the tree; everything else is plain. -/
def treeOutside (T : WindowTree) : Outside := fun trace question =>
  match question with
  | .queryTree w => .ok ⟨T.parent w, T.children w⟩
  | .getWindowAttributes w => .ok (T.viewable w)
  | .translateCoordinates source destination x y =>
    .ok (x + (T.origin source).1 - (T.origin destination).1,
      y + (T.origin source).2 - (T.origin destination).2)
  | .shapeGetRectangles w => .ok (T.inputShape w)
  | question => Session.plainOutside 1 (fun _ => ⟨0, [⟨7, 0, 20⟩], 7⟩) trace question

theorem treeOutside_shows (T : WindowTree) : Shows (treeOutside T) T where
  queryTree _ _ _ h := Except.ok.inj h ▸ ⟨rfl, rfl⟩
  getWindowAttributes _ _ _ h := (Except.ok.inj h).symm
  translateCoordinates _ _ _ _ _ _ h := (Except.ok.inj h).symm
  shapeGetRectangles _ _ _ h := (Except.ok.inj h).symm

def unseen : World := ⟨⟨connected plainRoot plainAtoms .allWorkspaces false false, []⟩, []⟩

/-- The client as the refresh of the run sees it. -/
def framedClient : TargetRequest := ⟨⟨1, Nat.one_ne_zero⟩, 0⟩

theorem framed_destination (covered : Bool) :
    ∃ w', pointerDestination (treeOutside (framedTree covered)) framedClient 5 5 unseen =
      (.ok (7, 5, 5), w') := by
  have hfresh : ∃ target w₁, freshTarget (treeOutside (framedTree covered)) framedClient unseen =
      (.ok target, w₁) ∧ target.xid = 7 ∧ w₁.state.observer.root = plainRoot :=
    ⟨_, _, rfl, rfl, rfl⟩
  obtain ⟨target, ⟨⟨o, notes⟩, trace⟩, hrun, hxid, hroot⟩ := hfresh
  unfold pointerDestination
  rw [Prog.bind_ok hrun, hxid]
  cases o
  dsimp only at hroot
  subst hroot
  cases covered with
  | false => exact ⟨_, rfl⟩
  | true => exact ⟨_, rfl⟩

end AgentSeat.Provider
