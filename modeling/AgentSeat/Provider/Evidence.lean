/-
  What the checks before an action have seen, stated over the entries of a grab, and what the
  emitting programs emit.

  Each fact names answers that stand in the given entries: a refresh with the requested record, an
  ancestry from the focused window to the target, a hit test, a keyboard map that gives the stroke,
  a load of the gate word that accepts the permit. All of them survive when entries are added.
-/
import AgentSeat.Provider.Input

namespace AgentSeat.Provider

open AgentSeat.Lib AgentSeat.Proto AgentSeat.X11 AgentSeat.Seat

/-! ## Facts -/

/-- A refresh among the entries put in a model that lists `xid` under the requested id and
    generation. -/
def Fresh (request : TargetRequest) (xid : Window) (entries : List Step) : Prop :=
  ∃ n m record, .mark (.refreshed n m) ∈ entries ∧ record ∈ m.clients ∧
    record.descriptor.id = request.client ∧
    record.descriptor.generation = request.generation ∧ record.xid = xid

/-- By the window trees among the entries, `ancestor` is the window itself or above it. -/
inductive Below (entries : List Step) : Window → Window → Prop
  | self (window : Window) : Below entries window window
  | parent {window ancestor : Window} {tree : Tree}
      (seen : .said (.queryTree window) (.ok tree) ∈ entries)
      (above : Below entries tree.parent ancestor) : Below entries window ancestor

/-- The input focus is the target or a window below it. -/
def FocusOwned (xid : Window) (entries : List Step) : Prop :=
  ∃ focus, .said .getInputFocus (.ok focus) ∈ entries ∧ focus ≠ none32 ∧
    focus ≠ pointerRootFocus ∧ Below entries focus xid

/-- The input region of a viewable child contains the point. -/
def Covers (root : Window) (x y : Int) (entries : List Step) (child : Window) : Prop :=
  ∃ translated rectangles, .said (.getWindowAttributes child) (.ok true) ∈ entries ∧
    .said (.translateCoordinates root child x y) (.ok translated) ∈ entries ∧
    .said (.shapeGetRectangles child) (.ok rectangles) ∈ entries ∧
    ∃ r ∈ rectangles, rectangleContains r translated.1 translated.2 = true

/-- A child that is not viewable, or whose input region does not contain the point. -/
def Misses (root : Window) (x y : Int) (entries : List Step) (child : Window) : Prop :=
  .said (.getWindowAttributes child) (.ok false) ∈ entries ∨
    ∃ translated rectangles, .said (.translateCoordinates root child x y) (.ok translated) ∈
        entries ∧ .said (.shapeGetRectangles child) (.ok rectangles) ∈ entries ∧
      ∀ r ∈ rectangles, rectangleContains r translated.1 translated.2 = false

/-- The topmost top-level window at the point is the target or a window above it. -/
def HitTest (xid : Window) (x y : Int) (entries : List Step) : Prop :=
  ∃ root tree above destination below, .said (.queryTree root) (.ok tree) ∈ entries ∧
    tree.children.reverse = above ++ destination :: below ∧
    (∀ child ∈ above, Misses root x y entries child) ∧ Covers root x y entries destination ∧
    Below entries xid destination

/-- The root position stands for a point inside the target and passed the hit test. -/
def PointOwned (xid : Window) (x y : Nat) (rootX rootY : Int) (entries : List Step) : Prop :=
  (∃ geometry, .said (.getGeometry xid) (.ok geometry) ∈ entries ∧ x < geometry.width ∧
    y < geometry.height) ∧
  (∃ root origin, .said (.translateCoordinates xid root 0 0) (.ok origin) ∈ entries ∧
    rootX = origin.1 + x ∧ rootY = origin.2 + y) ∧
  HitTest xid rootX rootY entries

/-- A keyboard map read among the entries. -/
def MapRead (map : KeyboardMap) (entries : List Step) : Prop :=
  ∃ state answer, .said .xkbGetState (.ok state) ∈ entries ∧
    .said .xkbGetMap (.ok answer) ∈ entries ∧ KeyboardMap.fromReply answer state = .ok map

/-- The stroke is what a map read among the entries gives for the symbol. -/
def Resolved (symbol : Nat) (modifiers : List KeyboardModifier) (stroke : KeyStroke)
    (entries : List Step) : Prop :=
  ∃ map, MapRead map entries ∧ map.resolveWithModifiers symbol modifiers = .ok stroke

/-- The gate accepted the permit. -/
def Accepted (permit : SeatPermit) (entries : List Step) : Prop :=
  ∃ raw, .said .seatLoad raw ∈ entries ∧ Seat.accepts raw permit = true

section Mono

variable {entries entries' : List Step}

theorem Fresh.mono {request : TargetRequest} {xid : Window} (h : Fresh request xid entries)
    (hsub : entries ⊆ entries') : Fresh request xid entries' := by
  obtain ⟨n, m, record, hmark, hrecord⟩ := h
  exact ⟨n, m, record, hsub hmark, hrecord⟩

theorem Below.mono {window ancestor : Window} (h : Below entries window ancestor)
    (hsub : entries ⊆ entries') : Below entries' window ancestor := by
  induction h with
  | self window => exact .self window
  | parent seen _ ih => exact .parent (hsub seen) ih

theorem FocusOwned.mono {xid : Window} (h : FocusOwned xid entries) (hsub : entries ⊆ entries') :
    FocusOwned xid entries' := by
  obtain ⟨focus, hfocus, hnone, hroot, hbelow⟩ := h
  exact ⟨focus, hsub hfocus, hnone, hroot, hbelow.mono hsub⟩

theorem Covers.mono {root : Window} {x y : Int} {child : Window}
    (h : Covers root x y entries child) (hsub : entries ⊆ entries') :
    Covers root x y entries' child := by
  obtain ⟨translated, rectangles, hview, htrans, hshape, hcontains⟩ := h
  exact ⟨translated, rectangles, hsub hview, hsub htrans, hsub hshape, hcontains⟩

theorem Misses.mono {root : Window} {x y : Int} {child : Window}
    (h : Misses root x y entries child) (hsub : entries ⊆ entries') :
    Misses root x y entries' child := by
  rcases h with hview | ⟨translated, rectangles, htrans, hshape, hcontains⟩
  · exact .inl (hsub hview)
  · exact .inr ⟨translated, rectangles, hsub htrans, hsub hshape, hcontains⟩

theorem HitTest.mono {xid : Window} {x y : Int} (h : HitTest xid x y entries)
    (hsub : entries ⊆ entries') : HitTest xid x y entries' := by
  obtain ⟨root, tree, above, destination, below, htree, hsplit, hmiss, hcover, hbelow⟩ := h
  exact ⟨root, tree, above, destination, below, hsub htree, hsplit,
    fun child hc => (hmiss child hc).mono hsub, hcover.mono hsub, hbelow.mono hsub⟩

theorem PointOwned.mono {xid : Window} {x y : Nat} {rootX rootY : Int}
    (h : PointOwned xid x y rootX rootY entries) (hsub : entries ⊆ entries') :
    PointOwned xid x y rootX rootY entries' := by
  obtain ⟨⟨geometry, hgeometry, hin⟩, ⟨root, origin, horigin, hpoint⟩, hhit⟩ := h
  exact ⟨⟨geometry, hsub hgeometry, hin⟩, ⟨root, origin, hsub horigin, hpoint⟩, hhit.mono hsub⟩

theorem MapRead.mono {map : KeyboardMap} (h : MapRead map entries) (hsub : entries ⊆ entries') :
    MapRead map entries' := by
  obtain ⟨state, answer, hstate, hanswer, hmap⟩ := h
  exact ⟨state, answer, hsub hstate, hsub hanswer, hmap⟩

theorem Resolved.mono {symbol : Nat} {modifiers : List KeyboardModifier} {stroke : KeyStroke}
    (h : Resolved symbol modifiers stroke entries) (hsub : entries ⊆ entries') :
    Resolved symbol modifiers stroke entries' := by
  obtain ⟨map, hmap, hstroke⟩ := h
  exact ⟨map, hmap.mono hsub, hstroke⟩

theorem Accepted.mono {permit : SeatPermit} (h : Accepted permit entries)
    (hsub : entries ⊆ entries') : Accepted permit entries' := by
  obtain ⟨raw, hraw, hyes⟩ := h
  exact ⟨raw, hsub hraw, hyes⟩

end Mono

/-! ## What the checks learn -/

/-- A quiet program and what its entries say if it succeeds. -/
def Finds {α : Type} (m : XM α) (F : α → List Step → Prop) : Prop :=
  Learns (fun _ => True) m fun a added _ => F a added

/-- The entry of a question, as a function of its answer. -/
abbrev asked (q : Question) : q.Answer → Step := Entry.said q

section Checks

variable {env : Outside} {α β : Type}

theorem Finds.weaken {m : XM α} {F G : α → List Step → Prop} (h : Finds m F)
    (hG : ∀ a added, F a added → G a added) : Finds m G :=
  Learns.weaken h fun a added _ => hG a added

/-- One program after another: what the first found is at hand for the second. -/
theorem Finds.bind {m : XM α} {f : α → XM β} {F : α → List Step → Prop}
    {G : β → List Step → Prop} (hm : Finds m F)
    (hf : ∀ a added, F a added → Finds (f a) fun b more => G b (added ++ more)) :
    Finds (m >>= f) G := by
  refine Learns.bind hm fun a added => ?_
  intro w hw
  exact hf a added hw w trivial

theorem Finds.pure (a : α) : Finds (Pure.pure a : XM α) fun b _ => b = a :=
  Learns.weaken Learns.pure fun _ _ _ h => h.1

theorem Finds.fail {e : Failure} {F : α → List Step → Prop} : Finds (Prog.fail e : XM α) F :=
  Learns.fail

theorem Finds.lift (r : Except Failure α) : Finds (Prog.lift r : XM α) fun a _ => r = .ok a :=
  Learns.weaken Learns.lift fun _ _ _ h => h.1

theorem Finds.this (f : Observer → α) : Finds (this f) fun _ _ => True :=
  Learns.weaken Learns.this fun _ _ _ _ => trivial

theorem Finds.of_utters {m : XM α} (h : Utters Moves Quiet m) : Finds m fun _ _ => True :=
  Learns.of_utters h

theorem Finds.refuseIf {bad : Prop} [Decidable bad] {failure : Failure} :
    Finds (Prog.lift (refuseIf bad failure) : XM Unit) fun _ _ => ¬ bad :=
  Finds.weaken (Finds.lift _) fun _ _ h => refuseIf_ok h

theorem Finds.ask {q : Question} (hquiet : ∀ a, Quiet (asked q a)) :
    Finds (Dialogue.ask env q) fun a added => asked q a ∈ added := by
  unfold Finds Learns
  refine Tells.ask hquiet ?_
  intro a _ _ b hb
  rw [Except.ok.injEq] at hb
  simp [hb]

/-- A request whose answer is a reply or a fault. -/
theorem Finds.reply (said : Except XFault α → Step) {request : XM (Except XFault α)}
    (hquiet : ∀ a, Quiet (said a))
    (hrun : ∀ w : World, ∃ a, request w = (.ok a, ⟨w.state, w.trace ++ [said a]⟩))
    (onSend onReply : String) :
    Finds (reply onSend onReply request) fun a added => said (.ok a) ∈ added := by
  refine Learns.weaken (Learns.reply said (P := fun _ => True) (fun w _ => ?_)
    onSend onReply) fun a added _ h => by simp [h.1]
  obtain ⟨a, ha⟩ := hrun w
  rw [ha]
  exact ⟨[said a], rfl, by simpa using hquiet a, .refl, a, rfl, rfl, trivial⟩

theorem freshTarget_finds (request : TargetRequest) :
    Finds (freshTarget env request) fun t added => Fresh request t.xid added := by
  unfold freshTarget target
  refine Learns.bind (refresh_learns env) fun _ added => ?_
  refine Learns.bind Learns.this fun o _ => Learns.weaken Learns.lift ?_
  rintro t _ s ⟨ht, rfl, rfl, rfl, m, hm, hmark⟩
  obtain ⟨model, record, hmodel, hmem, hid, hgen, hxid, -⟩ := Observer.target_ok ht
  rw [id, hm, Option.some.injEq] at hmodel
  subst hmodel
  exact ⟨_, _, record, by simpa using hmark, hmem, hid, hgen, hxid.symm⟩

theorem accepts_finds (permit : SeatPermit) :
    Finds (accepts env permit) fun yes added => yes = true → Accepted permit added := by
  unfold accepts
  refine Finds.bind (Finds.ask fun _ => trivial) fun raw added hraw => ?_
  refine Finds.weaken (Finds.pure _) fun yes more hyes hacc => ?_
  exact ⟨raw, List.mem_append_left _ hraw, hyes ▸ hacc⟩

theorem focusAncestry_finds (root targetXid : Window) (fuel : Nat) (window : Window) :
    Finds (focusAncestry env root targetXid fuel window) fun _ added =>
      Below added window targetXid := by
  induction fuel generalizing window with
  | zero => exact Finds.fail
  | succ fuel ih =>
    unfold focusAncestry
    split
    · next h =>
      subst h
      exact Finds.weaken (Finds.pure _) fun _ _ _ => .self _
    · refine Finds.bind (Finds.reply (asked (.queryTree window)) (fun _ => trivial)
        (fun _ => ⟨_, rfl⟩) _ _) fun tree added hseen => ?_
      split
      · exact Finds.fail
      · exact Finds.weaken (ih tree.parent) fun _ more hbelow =>
          .parent (List.mem_append_left _ hseen) (hbelow.mono (List.subset_append_right _ _))

theorem requireFocusOwnedBy_finds (targetXid : Window) :
    Finds (requireFocusOwnedBy env targetXid) fun _ added => FocusOwned targetXid added := by
  unfold requireFocusOwnedBy
  refine Finds.bind (Finds.reply (asked .getInputFocus) (fun _ => trivial)
    (fun _ => ⟨_, rfl⟩) _ _) fun focus added hfocus => ?_
  refine Finds.bind Finds.refuseIf fun _ _ hok => Finds.bind (Finds.this _) fun root _ _ => ?_
  refine Finds.weaken (focusAncestry_finds root targetXid _ focus) fun _ more hbelow => ?_
  rw [not_or] at hok
  refine ⟨focus, List.mem_append_left _ hfocus, hok.1, hok.2, hbelow.mono fun e he => ?_⟩
  simp [he]

/-- What the search found is the first of the list that covers the point. -/
def Hit (root : Window) (x y : Int) (children : List Window) (destination : Option Window)
    (entries : List Step) : Prop :=
  ∀ d, destination = some d → ∃ above below, children = above ++ d :: below ∧
    (∀ child ∈ above, Misses root x y entries child) ∧ Covers root x y entries d

/-- A child that misses is passed over. -/
theorem Hit.pass {root child : Window} {x y : Int} {rest : List Window}
    {destination : Option Window} {entries entries' : List Step}
    (h : Hit root x y rest destination entries) (hsub : entries ⊆ entries')
    (hmiss : Misses root x y entries' child) :
    Hit root x y (child :: rest) destination entries' := by
  intro d hd
  obtain ⟨above, below, hsplit, habove, hcover⟩ := h d hd
  refine ⟨child :: above, below, by rw [hsplit]; rfl, fun c hc => ?_, hcover.mono hsub⟩
  rcases List.mem_cons.mp hc with rfl | hc
  · exact hmiss
  · exact (habove c hc).mono hsub

theorem topmost_finds (root : Window) (x y : Int) (children : List Window) :
    Finds (topmost env root x y children) fun destination added =>
      Hit root x y children destination added := by
  induction children with
  | nil => exact Finds.weaken (Finds.pure _) fun _ _ h d hd => by simp [h] at hd
  | cons child rest ih =>
    unfold topmost
    refine Finds.bind (Finds.reply (asked (.getWindowAttributes child))
      (fun _ => trivial) (fun _ => ⟨_, rfl⟩) _ _) fun viewable added hview => ?_
    split
    · next hhidden =>
      subst hhidden
      exact Finds.weaken ih fun _ more h =>
        h.pass (List.subset_append_right _ _) (.inl (List.mem_append_left _ hview))
    · next hshown =>
      rw [Bool.not_eq_false] at hshown
      subst hshown
      refine Finds.bind (Finds.reply (asked (.translateCoordinates root child x y))
        (fun _ => trivial) (fun _ => ⟨_, rfl⟩) _ _) fun translated added₁ htrans => ?_
      refine Finds.bind (Finds.reply (asked (.shapeGetRectangles child))
        (fun _ => trivial) (fun _ => ⟨_, rfl⟩) _ _) fun rectangles added₂ hshape => ?_
      refine Finds.bind Finds.refuseIf fun _ added₃ _ => ?_
      split
      · next hany =>
        refine Finds.weaken (Finds.pure _) fun destination more hd d hsome => ?_
        obtain rfl := Option.some.inj (hd.symm.trans hsome)
        refine ⟨[], rest, rfl, by simp, translated, rectangles, ?_, ?_, ?_, by simpa using hany⟩
        all_goals simp only [List.mem_append]
        · exact .inl hview
        · exact .inr (.inl htrans)
        · exact .inr (.inr (.inl hshape))
      · next hany =>
        refine Finds.weaken ih fun _ more h => h.pass (fun e he => by simp [he])
          (.inr ⟨translated, rectangles, ?_, ?_, by simpa using hany⟩)
        all_goals simp only [List.mem_append]
        · exact .inr (.inl htrans)
        · exact .inr (.inr (.inl hshape))

theorem frameAncestry_finds (root candidate : Window) (fuel : Nat) (window : Window) :
    Finds (frameAncestry env root candidate fuel window) fun owned added =>
      owned = true → Below added window candidate := by
  induction fuel generalizing window with
  | zero => exact Finds.fail
  | succ fuel ih =>
    unfold frameAncestry
    split
    · next h =>
      subst h
      exact Finds.weaken (Finds.pure _) fun _ _ _ _ => .self _
    · refine Finds.bind (Finds.reply (asked (.queryTree window)) (fun _ => trivial)
        (fun _ => ⟨_, rfl⟩) _ _) fun tree added hseen => ?_
      split
      · refine Finds.weaken (Finds.pure _) fun owned more howned hyes => ?_
        have hparent : tree.parent = candidate := by simpa [hyes] using howned.symm
        exact .parent (List.mem_append_left _ hseen) (hparent ▸ .self _)
      · exact Finds.weaken (ih tree.parent) fun owned more hbelow hyes =>
          .parent (List.mem_append_left _ hseen)
            ((hbelow hyes).mono (List.subset_append_right _ _))

theorem requireFrame_finds (destination : Option Window) (targetXid : Window) :
    Finds (requireFrame env destination targetXid) fun _ added =>
      ∃ d, destination = some d ∧ Below added targetXid d := by
  unfold requireFrame isTargetOrReparentingFrame
  cases destination with
  | none => exact Finds.fail
  | some d =>
    refine Finds.bind (F := fun owned added => owned = true → Below added targetXid d) ?_
      fun owned added howned => ?_
    · refine Finds.bind (Finds.this _) fun root added _ => ?_
      exact Finds.weaken (frameAncestry_finds root d _ targetXid) fun owned more h hyes =>
        (h hyes).mono (List.subset_append_right _ _)
    · refine Finds.weaken Finds.refuseIf fun _ more hok => ⟨d, rfl, ?_⟩
      exact (howned (by simpa using hok)).mono (List.subset_append_left _ _)

theorem requirePointOwnedBy_finds (targetXid : Window) (x y : Int) :
    Finds (requirePointOwnedBy env targetXid x y) fun _ added => HitTest targetXid x y added := by
  unfold requirePointOwnedBy
  refine Finds.bind (Finds.this _) fun root _ _ => ?_
  refine Finds.bind (Finds.reply (asked (.queryTree root)) (fun _ => trivial)
    (fun _ => ⟨_, rfl⟩) _ _) fun tree added htree => ?_
  refine Finds.bind Finds.refuseIf fun _ _ _ => ?_
  refine Finds.bind (topmost_finds root x y _) fun destination added₁ hhit => ?_
  refine Finds.weaken (requireFrame_finds destination targetXid) fun _ more h => ?_
  obtain ⟨d, hd, hbelow⟩ := h
  obtain ⟨above, below, hsplit, hmiss, hcover⟩ := hhit d hd
  refine ⟨root, tree, above, d, below, ?_, hsplit, fun c hc => (hmiss c hc).mono ?_,
    hcover.mono ?_, hbelow.mono ?_⟩
  · simp only [List.mem_append]
    exact .inr (.inl htree)
  all_goals
    intro e he
    simp [he]

theorem checkedRootCoordinate_ok {origin value : Int} {offset : Nat}
    (h : checkedRootCoordinate origin offset = .ok value) : value = origin + offset := by
  unfold checkedRootCoordinate at h
  split at h
  · exact (Except.ok.inj h).symm
  · simp at h

theorem pointerDestination_finds (request : TargetRequest) (x y : Nat) :
    Finds (pointerDestination env request x y) fun d added =>
      Fresh request d.1 added ∧ PointOwned d.1 x y d.2.1 d.2.2 added := by
  unfold pointerDestination
  refine Finds.bind (freshTarget_finds request) fun target added hfresh => ?_
  refine Finds.bind (Finds.reply (asked (.getGeometry target.xid)) (fun _ => trivial)
    (fun _ => ⟨_, rfl⟩) _ _) fun geometry added₁ hgeometry => ?_
  refine Finds.bind Finds.refuseIf fun _ added₂ hinside => ?_
  refine Finds.bind (Finds.this _) fun root added₃ _ => ?_
  refine Finds.bind (Finds.reply (asked (.translateCoordinates target.xid root 0 0))
    (fun _ => trivial) (fun _ => ⟨_, rfl⟩) _ _) fun origin added₄ horigin => ?_
  refine Finds.bind (Finds.lift _) fun rootX added₅ hx => ?_
  refine Finds.bind (Finds.lift _) fun rootY added₆ hy => ?_
  refine Finds.bind (requirePointOwnedBy_finds target.xid rootX rootY) fun _ added₇ hhit => ?_
  refine Finds.weaken (Finds.pure _) fun d more hd => ?_
  subst hd
  rw [not_or, Nat.not_le, Nat.not_le] at hinside
  refine ⟨hfresh.mono (List.subset_append_left _ _), ⟨geometry, ?_, hinside⟩,
    ⟨root, origin, ?_, checkedRootCoordinate_ok hx, checkedRootCoordinate_ok hy⟩, hhit.mono ?_⟩
  · simp only [List.mem_append]
    exact .inr (.inl hgeometry)
  · simp only [List.mem_append]
    exact .inr (.inr (.inr (.inr (.inl horigin))))
  · intro e he
    simp [he]

theorem read_finds :
    Finds (KeyboardMap.read env) fun map added => MapRead map added := by
  unfold KeyboardMap.read
  refine Finds.bind (Finds.reply (asked .xkbUseExtension) (fun _ => trivial)
    (fun _ => ⟨_, rfl⟩) _ _) fun _ _ _ => Finds.bind Finds.refuseIf fun _ _ _ => ?_
  refine Finds.bind (Finds.reply (asked .xkbGetState) (fun _ => trivial)
    (fun _ => ⟨_, rfl⟩) _ _) fun state added₂ hstate => ?_
  refine Finds.bind (Finds.reply (asked .xkbGetMap) (fun _ => trivial)
    (fun _ => ⟨_, rfl⟩) _ _) fun answer added₃ hanswer => ?_
  refine Finds.weaken (Finds.lift _) fun map more hmap => ⟨state, answer, ?_, ?_, hmap⟩
  all_goals simp only [List.mem_append]
  · exact .inr (.inr (.inl hstate))
  · exact .inr (.inr (.inr (.inl hanswer)))

theorem resolveKey_finds (key : KeyboardKey) (modifiers : List KeyboardModifier) :
    Finds (resolveKey env key modifiers) fun stroke added =>
      Resolved (keysymForKey key) modifiers stroke added := by
  unfold resolveKey
  refine Finds.bind read_finds fun map added hmap => ?_
  exact Finds.weaken (Finds.lift _) fun stroke more hstroke =>
    ⟨map, hmap.mono (List.subset_append_left _ _), hstroke⟩

theorem resolveCharacter_finds (character : Char) (position : Nat) :
    Finds (resolveCharacter env character position) fun stroke added =>
      Resolved (keysymForCharacter character) [] stroke added := by
  unfold resolveCharacter
  refine Finds.bind read_finds fun map added hmap => ?_
  exact Finds.weaken (Finds.lift _) fun stroke more hstroke =>
    ⟨map, hmap.mono (List.subset_append_left _ _), KeyboardMap.resolveAt_ok hstroke⟩

/-- Every character of the text has a stroke in one map read among the entries. -/
def TextResolved (text : List Char) (entries : List Step) : Prop :=
  ∃ map strokes, MapRead map entries ∧ map.resolveAll text = .ok strokes

theorem TextResolved.mono {text : List Char} {entries entries' : List Step}
    (h : TextResolved text entries) (hsub : entries ⊆ entries') : TextResolved text entries' := by
  obtain ⟨map, strokes, hmap, hall⟩ := h
  exact ⟨map, strokes, hmap.mono hsub, hall⟩

theorem resolveText_finds (text : List Char) :
    Finds (resolveText env text) fun _ added => TextResolved text added := by
  unfold resolveText
  refine Finds.bind read_finds fun map added hmap => ?_
  exact Finds.weaken (Finds.lift _) fun strokes more hall =>
    ⟨map, strokes, hmap.mono (List.subset_append_left _ _), hall⟩

end Checks

end AgentSeat.Provider
