/-
  Starting an application directly, and through the user's service manager (`direct_command` and
  `delegated_command` of `launch.rs`).

  `Manager` is what is known of the other side: `systemd-run` passes the words after `--` on, and the
  manager puts values in place of the variables in them, as the manual of service units documents:
  `${NAME}` anywhere, `$NAME` as a word of its own, which becomes none or several, and `$$` for a
  dollar. Whether it also reads `$NAME` inside a word is left open (`inner`). Standard input and
  outputs are closed either way.
-/
import AgentSeat.Launch.Catalog
import AgentSeat.Lib.Expansion
import Mathlib

namespace AgentSeat.Launch

open Lib Lib.Json Lib.Paths Lib.Expansion Lib.Text Proto

/-! ## The commands -/

structure Command where
  program : Bytes
  args : List Bytes
  env : List (Bytes × Bytes)
  currentDir : Option Bytes
  deriving DecidableEq

def directCommand (entry : CatalogEntry) (startupId : Bytes) : Command :=
  ⟨entry.program, entry.arguments.map strBytes, [(ascii "DESKTOP_STARTUP_ID", startupId)],
    entry.workingDirectory⟩

def systemdRun : Bytes := ascii "/usr/bin/systemd-run"

def maxDelegatedEnvironmentBytes : Nat := 4096

def delegatedNames : List String :=
  ["DISPLAY", "XAUTHORITY", "WAYLAND_DISPLAY", "XDG_RUNTIME_DIR", "XDG_CURRENT_DESKTOP",
    "XDG_SESSION_DESKTOP", "DBUS_SESSION_BUS_ADDRESS", "HOME", "USER", "LOGNAME", "LANG", "LC_ALL",
    "LC_MESSAGES"]

/-- The loop over the variables that are passed on; `bytes` is what they take up so far. -/
def delegatedEnvironment (vars : String → Option Bytes) (bytes : Nat) :
    List String → Except Failure (List Bytes)
  | [] => .ok []
  | name :: rest =>
    match vars name with
    | none => delegatedEnvironment vars bytes rest
    | some value =>
      if bytes + name.utf8ByteSize + value.length > maxDelegatedEnvironmentBytes then
        .error (Failure.tooLarge "delegated application environment exceeds its bound")
      else do
        let more ← delegatedEnvironment vars (bytes + name.utf8ByteSize + value.length) rest
        return (ascii "--setenv=" ++ (ascii name ++ ascii "=" ++ value)) :: more

def separator : Bytes := ascii "--"

/-- The options in front of the command. -/
def delegatedOptions (entry : CatalogEntry) (startupId unitStem : Bytes) (numeric : Nat)
    (environment : List Bytes) : List Bytes :=
  ["--user", "--wait", "--collect", "--quiet", "--service-type=exec"].map ascii ++
    [ascii "--unit=" ++ (unitStem ++ ascii "-" ++ digits numeric ++ ascii ".service"),
      ascii "--setenv=" ++ (ascii "DESKTOP_STARTUP_ID=" ++ startupId)] ++ environment ++
    (entry.workingDirectory.map fun directory => ascii "--working-directory=" ++ directory).toList

def delegatedCommand (fs : FileSystem) (vars : String → Option Bytes) (entry : CatalogEntry)
    (startupId unitStem : Bytes) (numeric : Nat) : Except Failure Command :=
  if fs.executableFile systemdRun then do
    let environment ← delegatedEnvironment vars startupId.length delegatedNames
    return ⟨systemdRun, delegatedOptions entry startupId unitStem numeric environment ++
      separator :: entry.program :: entry.arguments.map strBytes, [], none⟩
  else .error (Failure.unavailable "systemd launch delegation is unavailable")

/-! ## What is run -/

structure Executed where
  program : Bytes
  arguments : List Bytes
  workingDirectory : Bytes
  deriving DecidableEq

/-- A command that is spawned by a process in `cwd`. -/
def Command.spawned (cwd : Bytes) (command : Command) : Executed :=
  ⟨command.program, command.args, command.currentDir.getD cwd⟩

def nameStart (b : UInt8) : Bool := within 65 90 b || within 97 122 b || b == 95
def nameByte (b : UInt8) : Bool := nameStart b || within 48 57 b

def isName (name : Bytes) : Bool := name.head?.any nameStart && name.all nameByte

inductive Reference where
  | dollar
  | variable (name : Bytes)
  deriving DecidableEq

/-- The reference a text begins with, and the bytes it takes up. -/
def referenceAt (inner : Bool) : Bytes → Option (Reference × Nat)
  | 36 :: 36 :: _ => some (.dollar, 2)
  | 36 :: 123 :: rest =>
    let name := rest.takeWhile nameByte
    if isName name ∧ rest[name.length]? = some 125 then some (.variable name, name.length + 3)
    else none
  | 36 :: rest =>
    let name := rest.takeWhile nameByte
    if inner ∧ isName name then some (.variable name, name.length + 1) else none
  | _ => none

def Reference.value (environment : Bytes → Option Bytes) : Reference → Bytes
  | .dollar => [36]
  | .variable name => (environment name).getD []

/-- The variable that a word is nothing but. -/
def wholeVariable : Bytes → Option Bytes
  | 36 :: name => if isName name then some name else none
  | _ => none

def isBlank (b : UInt8) : Bool := b == 32 || b == 9 || b == 10 || b == 13

def substituteWord (inner : Bool) (environment : Bytes → Option Bytes) (word : Bytes) : List Bytes :=
  match wholeVariable word with
  | some name => (((environment name).getD []).splitOnP isBlank).filter fun piece => !piece.isEmpty
  | none => [expand (referenceAt inner) (Reference.value environment) 0 word]

/-- The service manager: its variables, how it reads them, and where a unit runs that names no
    directory. -/
structure Manager where
  environment : Bytes → Option Bytes
  inner : Bool
  home : Bytes

/-- The first word is the program; without one nothing runs. -/
def executed (words : List Bytes) (directory : Bytes) : Option Executed :=
  words.head?.map fun program => ⟨program, words.tail, directory⟩

def Manager.run (manager : Manager) (args : List Bytes) : Option Executed :=
  let options := args.takeWhile fun word => word ≠ separator
  let words := (args.dropWhile fun word => word ≠ separator).drop 1
  let directory := options.findSome? fun word => (ascii "--working-directory=").isPrefixOf? word
  executed (words.flatMap (substituteWord manager.inner manager.environment))
    (directory.getD manager.home)

/-! ## What the manager is passed -/

theorem mem_delegatedEnvironment {vars : String → Option Bytes} {option : Bytes} :
    ∀ {names : List String} {bytes : Nat} {environment : List Bytes},
      delegatedEnvironment vars bytes names = .ok environment → option ∈ environment →
        ∃ assignment, option = ascii "--setenv=" ++ assignment
  | [], _, environment, h, hmem => by
    obtain rfl := Except.ok.inj h
    cases hmem
  | name :: rest, bytes, environment, h, hmem => by
    unfold delegatedEnvironment at h
    split at h
    · exact mem_delegatedEnvironment h hmem
    · split_ifs at h
      obtain ⟨more, hmore, hmade⟩ := except_bind_ok h
      obtain rfl := Except.ok.inj hmade
      rcases List.mem_cons.mp hmem with rfl | hmem
      · exact ⟨_, rfl⟩
      · exact mem_delegatedEnvironment hmore hmem

/-- An option that is not about the directory. -/
def Ordinary (option : Bytes) : Prop :=
  option ≠ separator ∧ (ascii "--working-directory=").isPrefixOf? option = none

theorem ordinary_of_start {start : Bytes} (rest : Bytes) (h : 4 ≤ start.length)
    (hstart : start.take 4 ≠ (ascii "--working-directory=").take 4) : Ordinary (start ++ rest) := by
  constructor
  · intro heq
    have hlength := congrArg List.length heq
    rw [List.length_append] at hlength
    have hseparator : separator.length = 2 := rfl
    omega
  · cases hprefix : (ascii "--working-directory=").isPrefixOf? (start ++ rest) with
    | none => rfl
    | some after =>
      have htake := congrArg (List.take 4) (eq_of_isPrefixOf? hprefix)
      rw [List.take_append_of_le_length h, List.take_append_of_le_length (by decide)] at htake
      exact absurd htake hstart

theorem ordinary_ascii {option : String} (h : 4 ≤ (ascii option).length)
    (hstart : (ascii option).take 4 ≠ (ascii "--working-directory=").take 4) :
    Ordinary (ascii option) := by
  have := ordinary_of_start [] h hstart
  rwa [List.append_nil] at this

section Passing

variable {fs : FileSystem} {vars : String → Option Bytes} {entry : CatalogEntry}
  {startupId unitStem : Bytes} {numeric : Nat} {command : Command}

/-- The options before the one for the directory, and the command. -/
theorem delegatedCommand_args
    (h : delegatedCommand fs vars entry startupId unitStem numeric = .ok command) :
    ∃ options : List Bytes, (∀ option ∈ options, Ordinary option) ∧ command.args =
      options ++ (entry.workingDirectory.map fun directory =>
        ascii "--working-directory=" ++ directory).toList ++
          separator :: entry.program :: entry.arguments.map strBytes := by
  unfold delegatedCommand at h
  split_ifs at h
  obtain ⟨environment, henvironment, hmade⟩ := except_bind_ok h
  obtain rfl := Except.ok.inj hmade
  refine ⟨["--user", "--wait", "--collect", "--quiet", "--service-type=exec"].map ascii ++
    [ascii "--unit=" ++ (unitStem ++ ascii "-" ++ digits numeric ++ ascii ".service"),
      ascii "--setenv=" ++ (ascii "DESKTOP_STARTUP_ID=" ++ startupId)] ++ environment, ?_, rfl⟩
  intro option hoption
  rcases List.mem_append.mp hoption with hoption | hoption
  · rcases List.mem_append.mp hoption with hoption | hoption
    · obtain ⟨literal, hliteral, rfl⟩ := List.mem_map.mp hoption
      simp only [List.mem_cons, List.not_mem_nil, or_false] at hliteral
      rcases hliteral with rfl | rfl | rfl | rfl | rfl <;>
        exact ordinary_ascii (by decide) (by decide)
    · simp only [List.mem_cons, List.not_mem_nil, or_false] at hoption
      rcases hoption with rfl | rfl <;> exact ordinary_of_start _ (by decide) (by decide)
  · obtain ⟨assignment, rfl⟩ := mem_delegatedEnvironment henvironment hoption
    exact ordinary_of_start _ (by decide) (by decide)

/-- The manager gets the words of the direct command, and the directory it names. -/
theorem run_delegated (h : delegatedCommand fs vars entry startupId unitStem numeric = .ok command)
    (manager : Manager) : manager.run command.args =
      executed ((entry.program :: entry.arguments.map strBytes).flatMap
        (substituteWord manager.inner manager.environment))
        (entry.workingDirectory.getD manager.home) := by
  obtain ⟨options, hordinary, hargs⟩ := delegatedCommand_args h
  have hpassed : ∀ option ∈ options ++ (entry.workingDirectory.map fun directory =>
      ascii "--working-directory=" ++ directory).toList, decide (option ≠ separator) = true := by
    intro option hoption
    rw [decide_eq_true_iff]
    rcases List.mem_append.mp hoption with hoption | hoption
    · exact (hordinary option hoption).1
    · rw [Option.mem_toList] at hoption
      obtain ⟨directory, -, rfl⟩ := Option.map_eq_some_iff.mp hoption
      intro heq
      have hlength := congrArg List.length heq
      have hstart : (ascii "--working-directory=").length = 20 := by decide
      have hseparator : separator.length = 2 := by decide
      rw [List.length_append] at hlength
      omega
  have hnone : options.findSome? (fun word =>
      (ascii "--working-directory=").isPrefixOf? word) = none :=
    List.findSome?_eq_none_iff.mpr fun option hoption => (hordinary option hoption).2
  unfold Manager.run
  rw [hargs, List.takeWhile_append_of_pos hpassed, List.dropWhile_append_of_pos hpassed,
    List.takeWhile_cons_of_neg (by simp), List.dropWhile_cons_of_neg (by simp), List.append_nil]
  dsimp only
  rw [List.findSome?_append, hnone]
  cases hdirectory : entry.workingDirectory with
  | none => rfl
  | some directory =>
    have hfound : (ascii "--working-directory=").isPrefixOf?
        (ascii "--working-directory=" ++ directory) = some directory := isPrefixOf?_append _ _
    have hone : [ascii "--working-directory=" ++ directory].findSome? (fun word =>
        (ascii "--working-directory=").isPrefixOf? word) = some directory := by
      rw [List.findSome?_cons, hfound]
    show executed _ (([ascii "--working-directory=" ++ directory].findSome? fun word =>
      (ascii "--working-directory=").isPrefixOf? word).getD manager.home) = _
    rw [hone]
    rfl

end Passing

/-! ## What the manager makes of a word -/

/-- Nothing in the word is a reference. -/
def Plain (inner : Bool) (word : Bytes) : Prop :=
  wholeVariable word = none ∧ Literal (referenceAt inner) word

instance (inner : Bool) (word : Bytes) : Decidable (Plain inner word) :=
  inferInstanceAs (Decidable (_ ∧ _))

/-- No variable has a value. -/
def unset : Bytes → Option Bytes := fun _ => none

section Words

variable {inner : Bool} {word : Bytes}

theorem substituteWord_plain (h : Plain inner word) (environment : Bytes → Option Bytes) :
    substituteWord inner environment word = [word] := by
  unfold substituteWord
  rw [h.1, expand_literal h.2]

theorem referenceAt_shortens : Shortens (referenceAt inner) (Reference.value unset) := by
  intro text reference taken h
  unfold referenceAt at h
  split at h
  · obtain ⟨rfl, rfl⟩ := Prod.mk.inj (Option.some.inj h)
    simp [Reference.value]
  · rename_i rest
    dsimp only at h
    split_ifs at h with hname
    obtain ⟨rfl, rfl⟩ := Prod.mk.inj (Option.some.inj h)
    obtain ⟨hclosed, -⟩ := List.getElem?_eq_some_iff.mp hname.2
    simp only [Reference.value, unset, Option.getD_none, List.length_nil, List.length_cons]
    omega
  · rename_i rest _ _
    dsimp only at h
    split_ifs at h with hname
    obtain ⟨rfl, rfl⟩ := Prod.mk.inj (Option.some.inj h)
    have := (List.takeWhile_prefix nameByte (l := rest)).length_le
    simp only [Reference.value, unset, Option.getD_none, List.length_nil, List.length_cons]
    omega
  · cases h

/-- The bytes of a list of words, and one more for each. -/
def weight (words : List Bytes) : Nat := (words.map fun word => word.length + 1).sum

theorem weight_append (words more : List Bytes) :
    weight (words ++ more) = weight words + weight more := by
  rw [weight, List.map_append, List.sum_append]
  rfl

/-- A word that is not plain loses by being read where nothing is set. -/
theorem weight_substituteWord (h : ¬ Plain inner word) :
    weight (substituteWord inner unset word) < word.length + 1 := by
  unfold substituteWord
  cases hwhole : wholeVariable word with
  | some name => exact Nat.succ_pos _
  | none =>
    have hshorter := expand_shorter (@referenceAt_shortens inner) fun hliteral => h ⟨hwhole, hliteral⟩
    show (expand _ _ 0 word).length + 1 + 0 < word.length + 1
    omega

theorem weight_words (words : List Bytes) :
    weight (words.flatMap (substituteWord inner unset)) ≤ weight words ∧
      (weight (words.flatMap (substituteWord inner unset)) = weight words →
        ∀ word ∈ words, Plain inner word) := by
  induction words with
  | nil => exact ⟨Nat.le_refl _, fun _ _ hmem => by cases hmem⟩
  | cons word words ih =>
    obtain ⟨hle, hplain⟩ := ih
    rw [List.flatMap_cons, weight_append]
    have hcons : weight (word :: words) = word.length + 1 + weight words := rfl
    by_cases hword : Plain inner word
    · have hone : weight (substituteWord inner unset word) = word.length + 1 := by
        rw [substituteWord_plain hword]
        rfl
      rw [hone, hcons]
      refine ⟨by omega, fun heq => ?_⟩
      have hrest := hplain (by omega)
      exact List.forall_mem_cons.mpr ⟨hword, hrest⟩
    · have hless := weight_substituteWord hword
      rw [hcons]
      exact ⟨by omega, fun heq => by omega⟩

theorem executed_eq_some {words arguments : List Bytes} {program directory directory' : Bytes} :
    executed words directory = some ⟨program, arguments, directory'⟩ ↔
      words = program :: arguments ∧ directory = directory' := by
  cases words with
  | nil => simp [executed]
  | cons first rest => simp [executed, and_assoc]

/-- Words come through every environment exactly when none of them has a reference in it. -/
theorem words_unchanged_iff (words : List Bytes) :
    (∀ environment, words.flatMap (substituteWord inner environment) = words) ↔
      ∀ word ∈ words, Plain inner word := by
  constructor
  · intro h
    exact (weight_words words).2 (congrArg weight (h unset))
  · intro h environment
    induction words with
    | nil => rfl
    | cons word words ih =>
      obtain ⟨hword, hwords⟩ := List.forall_mem_cons.mp h
      rw [List.flatMap_cons, substituteWord_plain hword, ih hwords]
      rfl

end Words

/-- An application that is started through the manager runs the command that would be run directly,
    whatever the manager's variables are, exactly when there is no reference in the words of the
    command, and the entry names a directory if the two processes have different ones. -/
theorem delegated_same_iff {fs : FileSystem} {vars : String → Option Bytes} {entry : CatalogEntry}
    {startupId unitStem : Bytes} {numeric : Nat} {command : Command}
    (h : delegatedCommand fs vars entry startupId unitStem numeric = .ok command) (inner : Bool)
    (cwd home : Bytes) :
    (∀ environment, (⟨environment, inner, home⟩ : Manager).run command.args =
        some ((directCommand entry startupId).spawned cwd)) ↔
      (∀ word ∈ entry.program :: entry.arguments.map strBytes, Plain inner word) ∧
        (entry.workingDirectory = none → home = cwd) := by
  have hrun (environment : Bytes → Option Bytes) :
      (⟨environment, inner, home⟩ : Manager).run command.args =
          some ((directCommand entry startupId).spawned cwd) ↔
        (entry.program :: entry.arguments.map strBytes).flatMap (substituteWord inner environment) =
            entry.program :: entry.arguments.map strBytes ∧
          (entry.workingDirectory = none → home = cwd) := by
    rw [run_delegated h, Command.spawned, directCommand, executed_eq_some]
    refine and_congr_right fun _ => ?_
    cases entry.workingDirectory <;> simp
  rw [forall_congr' hrun, forall_and, words_unchanged_iff]
  exact and_congr_right fun _ => ⟨fun hall => hall unset, fun hall _ => hall⟩

/-- A file system that has nothing but two programs and a directory. -/
def launchFs : FileSystem where
  symlinkMetadata _ := none
  metadata path :=
    if path = ascii "/bin/echo" ∨ path = systemdRun then some ⟨.file, 0o755, 0, 0, 0⟩
    else if path = ascii "/tmp" then some ⟨.dir, 0o755, 0, 0, 0⟩
    else none
  readDir _ := none
  openFile _ := none

def launchHost : Host := ⟨⟨none, none, none, none, none, ⟨none, none, none⟩⟩, launchFs⟩

/-- The entry that a file with this `Exec` line makes. -/
def echoEntry (line : String) : Option CatalogEntry := do
  let values ← (parseDesktop ("[Desktop Entry]\nType=Application\nName=Echo\nPath=/tmp\nExec=" ++
    line ++ "\n").toList).toOption
  let id ← (BoundedText.new "echo.desktop").toOption
  entryOf launchHost (ascii "/echo.desktop") id false [] values

/-- The command that the manager is passed for it. -/
def echoCommand (entry : CatalogEntry) : Except Failure Command :=
  delegatedCommand launchFs (fun _ => none) entry (ascii "id") (ascii "unit") 1

theorem delegated_same_plain : ∃ entry command, echoEntry "/bin/echo hi" = some entry ∧
    echoCommand entry = .ok command ∧
    ∀ environment, (⟨environment, true, ascii "/root"⟩ : Manager).run command.args =
      some ((directCommand entry (ascii "id")).spawned (ascii "/")) := by
  have hparse : (echoEntry "/bin/echo hi").map (fun entry => (entry.program,
      entry.arguments.map strBytes, entry.workingDirectory, (echoCommand entry).toOption.isSome)) =
        some (ascii "/bin/echo", [ascii "hi"], some (ascii "/tmp"), true) := by decide +kernel
  obtain ⟨entry, hentry, hfields⟩ := Option.map_eq_some_iff.mp hparse
  obtain ⟨hprogram, hfields⟩ := Prod.mk.inj hfields
  obtain ⟨harguments, hfields⟩ := Prod.mk.inj hfields
  obtain ⟨hdirectory, hmade⟩ := Prod.mk.inj hfields
  obtain ⟨command, hcommand⟩ : ∃ command, echoCommand entry = .ok command := by
    cases hcommand : echoCommand entry with
    | ok command => exact ⟨command, rfl⟩
    | error failure =>
      rw [hcommand] at hmade
      cases hmade
  refine ⟨entry, command, hentry, hcommand, (delegated_same_iff hcommand true (ascii "/")
    (ascii "/root")).mpr ⟨?_, fun hnone => ?_⟩⟩
  · rw [hprogram, harguments]
    decide +kernel
  · rw [hdirectory] at hnone
    cases hnone

/-- The variable that a quoted dollar starts is put in by the manager, and one that is not set leaves
    no argument at all. -/
theorem dollar_substituted : ∃ entry command, echoEntry "/bin/echo \"\\\\$HOME\"" = some entry ∧
    echoCommand entry = .ok command ∧
    (directCommand entry (ascii "id")).spawned (ascii "/") =
      ⟨ascii "/bin/echo", [ascii "$HOME"], ascii "/tmp"⟩ ∧
    (⟨fun _ => some (ascii "/root"), false, ascii "/"⟩ : Manager).run command.args =
      some ⟨ascii "/bin/echo", [ascii "/root"], ascii "/tmp"⟩ ∧
    (⟨unset, false, ascii "/"⟩ : Manager).run command.args =
      some ⟨ascii "/bin/echo", [], ascii "/tmp"⟩ := by
  have hparse : (echoEntry "/bin/echo \"\\\\$HOME\"").map (fun entry =>
      ((directCommand entry (ascii "id")).spawned (ascii "/"), (echoCommand entry).toOption.map
        fun command =>
          ((⟨fun _ => some (ascii "/root"), false, ascii "/"⟩ : Manager).run command.args,
            (⟨unset, false, ascii "/"⟩ : Manager).run command.args))) =
        some (⟨ascii "/bin/echo", [ascii "$HOME"], ascii "/tmp"⟩,
          some (some ⟨ascii "/bin/echo", [ascii "/root"], ascii "/tmp"⟩,
            some ⟨ascii "/bin/echo", [], ascii "/tmp"⟩)) := by decide +kernel
  obtain ⟨entry, hentry, hfields⟩ := Option.map_eq_some_iff.mp hparse
  obtain ⟨hdirect, hfields⟩ := Prod.mk.inj hfields
  obtain ⟨command, hcommand, hfields⟩ := Option.map_eq_some_iff.mp hfields
  obtain ⟨hset, hunset⟩ := Prod.mk.inj hfields
  refine ⟨entry, command, hentry, ?_, hdirect, hset, hunset⟩
  cases hresult : echoCommand entry with
  | ok made =>
    rw [hresult] at hcommand
    rw [Option.some.inj hcommand]
  | error failure =>
    rw [hresult] at hcommand
    cases hcommand

end AgentSeat.Launch
