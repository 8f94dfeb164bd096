/-
  Paths as the system has them: bytes, with slashes between the names.
-/
import AgentSeat.Lib.Text
import Mathlib.Data.List.Basic

namespace AgentSeat.Lib.Paths

abbrev Bytes := List UInt8

inductive Component where
  | rootDir
  | curDir
  | parentDir
  | normal (name : Bytes)
  deriving DecidableEq

/-- The components of a path: empty pieces and dots say nothing, but for a dot in front. -/
def components (path : Bytes) : List Component :=
  let pieces := path.splitOn 47
  (if path.head? = some 47 then [.rootDir] else if pieces.head? = some [46] then [.curDir] else []) ++
    (pieces.filter fun piece => piece ≠ [] ∧ piece ≠ [46]).map fun piece =>
      if piece = [46, 46] then .parentDir else .normal piece

theorem normal_mem_components {path name : Bytes} : Component.normal name ∈ components path ↔
    name ∈ path.splitOn 47 ∧ name ≠ [] ∧ name ≠ [46] ∧ name ≠ [46, 46] := by
  have hfront : Component.normal name ∉ (if path.head? = some 47 then [Component.rootDir]
      else if (path.splitOn 47).head? = some [46] then [.curDir] else []) := by
    split_ifs <;> simp
  unfold components
  rw [List.mem_append, or_iff_right hfront, List.mem_map]
  constructor
  · intro h
    obtain ⟨piece, hpiece, hname⟩ := h
    rw [List.mem_filter, decide_eq_true_eq] at hpiece
    split_ifs at hname with hup
    obtain rfl := Component.normal.inj hname
    exact ⟨hpiece.1, hpiece.2.1, hpiece.2.2, hup⟩
  · intro h
    obtain ⟨hmem, hne, hdot, hup⟩ := h
    exact ⟨name, List.mem_filter.mpr ⟨hmem, decide_eq_true ⟨hne, hdot⟩⟩, if_neg hup⟩

theorem head?_of_rootDir {path : Bytes} (h : Component.rootDir ∈ components path) :
    path.head? = some 47 := by
  by_contra hhead
  unfold components at h
  dsimp only at h
  rw [if_neg hhead] at h
  rcases List.mem_append.mp h with h | h
  · split_ifs at h <;> simp at h
  · obtain ⟨piece, -, hpiece⟩ := List.mem_map.mp h
    split_ifs at hpiece

/-- Equality of two paths. -/
def SamePath (path other : Bytes) : Prop := components path = components other

instance (path other : Bytes) : Decidable (SamePath path other) :=
  inferInstanceAs (Decidable (_ = _))

def isAbsolute (path : Bytes) : Bool := path.head? = some 47

def fileName (path : Bytes) : Option Bytes :=
  match (components path).getLast? with
  | some (.normal name) => some name
  | _ => none

/-- From the root, and never up. -/
def isSafeAbsolute (path : Bytes) : Bool :=
  (components path).all fun
    | .rootDir | .normal _ => true
    | _ => false

def startsWith (path base : Bytes) : Bool := (components base).isPrefixOf (components path)

/-- What starts like an absolute path is one. -/
theorem head?_of_startsWith {path base : Bytes} (hbase : base.head? = some 47)
    (h : startsWith path base = true) : path.head? = some 47 := by
  obtain ⟨rest, hrest⟩ := List.isPrefixOf_iff_prefix.mp h
  refine head?_of_rootDir ?_
  rw [← hrest]
  refine List.mem_append_left _ (List.mem_append_left _ ?_)
  rw [if_pos hbase]
  exact List.mem_singleton_self _

/-- A path below a directory; an absolute one stands for itself. -/
def join (directory path : Bytes) : Bytes :=
  if isAbsolute path then path
  else if directory = [] ∨ directory.getLast? = some 47 then directory ++ path
  else directory ++ 47 :: path

/-! ## Spellings

Two spellings of an absolute path are equal paths when they differ only in pieces that say nothing.
Without such pieces a path has one spelling. -/

/-- An absolute path, name by name. -/
def spell (names : List Bytes) : Bytes := names.flatMap (47 :: ·)

/-- No two slashes in a row, none at the end, and no dot between slashes. -/
def spelledOut (path : Bytes) : Bool :=
  (path.splitOn 47).tail.all fun piece => piece ≠ [] && piece ≠ [46]

/-- From the root, name by name: nothing empty, no dots, no slash at the end. -/
def Normalized (names : List Bytes) (path : Bytes) : Prop :=
  path = spell names ∧ ∀ name ∈ names, name ≠ [] ∧ name ≠ [46] ∧ name ≠ [46, 46] ∧ 47 ∉ name

theorem spell_eq (names : List Bytes) : spell names = [47].intercalate ([] :: names) := by
  induction names with
  | nil => rfl
  | cons name names ih =>
    unfold spell at ih ⊢
    rw [List.flatMap_cons, ih, List.intercalate_cons_cons]
    cases names with
    | nil => simp
    | cons next rest => rw [List.intercalate_cons_cons, List.intercalate_cons_cons]; simp

theorem splitOn_spell {names : List Bytes} (h : ∀ name ∈ names, 47 ∉ name) :
    (spell names).splitOn 47 = [] :: names := by
  rw [spell_eq]
  refine List.splitOn_intercalate 47 (fun name hname => ?_) (List.cons_ne_nil _ _)
  rcases List.mem_cons.mp hname with rfl | hname
  · exact List.not_mem_nil
  · exact h name hname

/-- The pieces of an absolute path. -/
theorem splitOn_of_isAbsolute {path : Bytes} (h : path.head? = some 47) :
    ∃ names, path.splitOn 47 = [] :: names ∧ path = spell names := by
  obtain ⟨rest, rfl⟩ := List.head?_eq_some_iff.mp h
  have hsplit : (47 :: rest).splitOn 47 = [] :: rest.splitOn 47 :=
    List.splitOn_append_cons_self [] rest
  refine ⟨_, hsplit, ?_⟩
  rw [spell_eq, ← hsplit, List.intercalate_splitOn]

/-- What a piece that says something stands for. -/
def componentOf (piece : Bytes) : Component := if piece = [46, 46] then .parentDir else .normal piece

theorem componentOf_injective {piece other : Bytes} (h : componentOf piece = componentOf other) :
    piece = other := by
  unfold componentOf at h
  split_ifs at h with hpiece hother
  · exact hpiece.trans hother.symm
  · exact Component.normal.inj h

theorem components_spelledOut {path : Bytes} (habsolute : path.head? = some 47)
    (h : spelledOut path = true) :
    components path = .rootDir :: (path.splitOn 47).tail.map componentOf := by
  obtain ⟨names, hsplit, -⟩ := splitOn_of_isAbsolute habsolute
  unfold spelledOut at h
  unfold components
  rw [hsplit] at h ⊢
  dsimp only
  rw [if_pos habsolute, List.filter_cons_of_neg (by simp), List.filter_eq_self.mpr fun name hname => ?_]
  · rfl
  · simpa using List.all_eq_true.mp h name hname

/-- Two spellings of one path that leave nothing out and put nothing in are the same. -/
theorem eq_of_samePath {path other : Bytes} (habsolute : path.head? = some 47)
    (hother : other.head? = some 47) (h : spelledOut path = true) (h' : spelledOut other = true)
    (hsame : SamePath path other) : path = other := by
  have hcomponents : components path = components other := hsame
  rw [components_spelledOut habsolute h, components_spelledOut hother h'] at hcomponents
  obtain ⟨names, hsplit, hpath⟩ := splitOn_of_isAbsolute habsolute
  obtain ⟨names', hsplit', hpath'⟩ := splitOn_of_isAbsolute hother
  rw [hsplit, hsplit'] at hcomponents
  have hnames : names = names' :=
    List.map_injective_iff.mpr (fun _ _ => componentOf_injective) (List.cons.inj hcomponents).2
  rw [hpath, hpath', hnames]

theorem Normalized.spelledOut {names : List Bytes} {path : Bytes} (h : Normalized names path) :
    Paths.spelledOut path = true := by
  obtain ⟨rfl, hnames⟩ := h
  unfold Paths.spelledOut
  rw [splitOn_spell fun name hname => (hnames name hname).2.2.2]
  exact List.all_eq_true.mpr fun name hname => by simp [(hnames name hname).1, (hnames name hname).2.1]

/-- A safe path with this last component is normalized when it is spelled out. -/
theorem normalized_of_spelledOut {path name : Bytes} (habsolute : path.head? = some 47)
    (hsafe : isSafeAbsolute path = true) (hname : fileName path = some name)
    (h : Paths.spelledOut path = true) :
    ∃ names, Normalized names path ∧ names.getLast? = some name := by
  obtain ⟨names, hsplit, hpath⟩ := splitOn_of_isAbsolute habsolute
  have hcomponents := components_spelledOut habsolute h
  unfold Paths.spelledOut at h
  unfold isSafeAbsolute at hsafe
  unfold fileName at hname
  rw [hcomponents, hsplit] at hsafe hname
  rw [hsplit] at h
  refine ⟨names, ⟨hpath, fun piece hpiece => ?_⟩, ?_⟩
  · have hall := List.all_eq_true.mp h piece hpiece
    simp only [Bool.and_eq_true, decide_eq_true_eq, ne_eq] at hall
    refine ⟨hall.1, hall.2, fun hup => ?_, ?_⟩
    · have hsafe := List.all_eq_true.mp hsafe (componentOf piece)
        (List.mem_cons_of_mem _ (List.mem_map_of_mem hpiece))
      simp [componentOf, hup] at hsafe
    · have hin : piece ∈ path.splitOn 47 := by
        rw [hsplit]
        exact List.mem_cons_of_mem _ hpiece
      exact Text.not_mem_of_mem_splitOn hin
  · rcases List.eq_nil_or_concat names with rfl | ⟨init, last, rfl⟩
    · simp at hname
    · rw [List.concat_eq_append] at hname ⊢
      rw [List.tail_cons, List.map_append, List.map_singleton, ← List.cons_append,
        List.getLast?_concat] at hname
      rw [List.getLast?_concat]
      by_cases hup : last = [46, 46]
      · simp [componentOf, hup] at hname
      · simpa [componentOf, hup] using hname

end AgentSeat.Lib.Paths
