/-
  The catalog of applications (`discover_all`, `discover` and `read_entry` of `launch.rs`).

  `discoverAll` goes through the data roots in order, and through the desktop files of each in the
  order of their paths. The first file with an id decides about that id, before anything in it is
  read: `Winner` says which file that is in terms of the trees alone, and `discoverAll_spec` that an
  entry is in the catalog exactly if the winner of its id is read to be it.
-/
import AgentSeat.Launch.Tree
import AgentSeat.Lib.Firsts
import AgentSeat.Proto.Validate
import AgentSeat.Session.Policy
import Mathlib.Data.Char

namespace AgentSeat.Launch

open Lib Lib.Paths Lib.Chars Lib.Text Proto Session

/-! ## The surroundings of a provider -/

/-- The environment variables discovery reads. -/
structure Environment where
  xdgDataHome : Option Bytes
  home : Option Bytes
  xdgDataDirs : Option Bytes
  xdgCurrentDesktop : Option Str
  path : Option Bytes
  locale : LocaleEnv

structure Host where
  env : Environment
  fs : FileSystem

def Host.programs (host : Host) : Programs := ⟨host.env.path, host.fs.executableFile⟩

structure DataRoot where
  applications : Bytes
  userEntry : Bool
  deriving DecidableEq

def maxDataRoots : Nat := 32
def maxCurrentDesktopBytes : Nat := 4096

def ascii (literal : String) : Bytes := strBytes literal.toList

def absolutePath (value : Bytes) (refusal : String) : Except Failure Bytes :=
  if isAbsolute value then .ok value else .error (Failure.unavailable refusal)

def userData (env : Environment) : Except Failure Bytes :=
  match env.xdgDataHome.filter fun value => !value.isEmpty with
  | some value => absolutePath value "XDG_DATA_HOME is not absolute"
  | none =>
    match env.home with
    | none => .error (Failure.unavailable "HOME is unavailable for XDG discovery")
    | some home =>
      (absolutePath home "HOME is not absolute").map fun home => join home (ascii ".local/share")

/-- The loop over the system's data directories. -/
def addRoots (roots : List DataRoot) : List Bytes → Except Failure (List DataRoot)
  | [] => .ok roots
  | value :: rest =>
    if roots.length = maxDataRoots then
      .error (Failure.tooLarge "XDG data root count exceeds its bound")
    else if isAbsolute value = false then
      .error (Failure.unavailable "XDG_DATA_DIRS contains a relative path")
    else
      let applications := join value (ascii "applications")
      if roots.any fun root => SamePath root.applications applications then addRoots roots rest
      else addRoots (roots ++ [⟨applications, false⟩]) rest

def dataRoots (env : Environment) : Except Failure (List DataRoot) := do
  let user ← userData env
  let system := (env.xdgDataDirs.filter fun value => !value.isEmpty).getD
    (ascii "/usr/local/share:/usr/share")
  addRoots [⟨join user (ascii "applications"), true⟩] (system.splitOn 58)

def currentDesktops (env : Environment) : Except Failure (List Str) :=
  let value := env.xdgCurrentDesktop.getD []
  if utf8Len value > maxCurrentDesktopBytes then
    .error (Failure.tooLarge "XDG_CURRENT_DESKTOP exceeds its bound")
  else
    let desktops := (value.splitOn ':').filter fun desktop => !desktop.isEmpty
    if desktops.length > maxDataRoots then
      .error (Failure.tooLarge "XDG_CURRENT_DESKTOP exceeds its item bound")
    else .ok desktops

/-! ## One entry -/

structure CatalogEntry where
  descriptor : ApplicationDescriptor
  program : Bytes
  arguments : List Str
  workingDirectory : Option Bytes

def maxDesktopBytes : Nat := 64 * 1024

def boolean (values : Values) (key : String) : Option Bool :=
  match values.lookup key.toList with
  | none => some false
  | some value =>
    if value = "false".toList then some false
    else if value = "true".toList then some true
    else none

def parseList (value : Str) : Option (List Str) := (splitTerminator ';' value).mapM decodeString

def visibleOnDesktop (values : Values) (current : List Str) : Bool :=
  let only := (values.lookup "OnlyShowIn".toList).map parseList
  let hidden := (values.lookup "NotShowIn".toList).map parseList
  match only, hidden with
  | some none, _ | _, some none => false
  | only, hidden =>
    let only := only.bind id
    let hidden := hidden.bind id
    if only.any fun only => current.all fun desktop => !only.contains desktop then false
    else !hidden.any fun hidden => current.any fun desktop => hidden.contains desktop

/-- The file at a path, if it is one that may be read in full. -/
def readSource (fs : FileSystem) (path : Bytes) : Option Str := do
  let pathMetadata ← fs.symlinkMetadata path
  guard (pathMetadata.fileType = .file ∨ pathMetadata.fileType = .symlink)
  let opened ← fs.openFile path
  let metadata ← opened.metadata
  guard (metadata.fileType = .file ∧ metadata.len ≤ maxDesktopBytes)
  -- a regular file is the one that was looked at
  guard (pathMetadata.fileType = .file →
    metadata.dev = pathMetadata.dev ∧ metadata.ino = pathMetadata.ino)
  let content ← opened.content
  let bytes := content.take (maxDesktopBytes + 1)
  guard (bytes.length ≤ maxDesktopBytes)
  text bytes

/-- What `Path` asks for; an empty one is as good as none. -/
def workingDirectory (fs : FileSystem) (values : Values) : Option (Option Bytes) :=
  match values.lookup "Path".toList with
  | none => some none
  | some value => do
    let directory ← decodeString value
    if directory.isEmpty then some none
    else do
      guard (isAbsolute (strBytes directory) = true ∧ fs.isDir (strBytes directory) = true)
      return some (strBytes directory)

def tryExec (programs : Programs) (values : Values) : Option Unit :=
  match values.lookup "TryExec".toList with
  | none => some ()
  | some value => do
    let value ← decodeString value
    let _ ← resolveProgram programs value
    return ()

/-- An application that is neither hidden, nor run in a terminal, nor meant for other desktops. -/
def launchable (values : Values) (desktops : List Str) : Option Unit := do
  guard (values.lookup "Type".toList = some "Application".toList)
  let hidden ← boolean values "Hidden"
  guard (hidden = false)
  let noDisplay ← boolean values "NoDisplay"
  guard (noDisplay = false)
  let terminal ← boolean values "Terminal"
  guard (terminal = false)
  guard (visibleOnDesktop values desktops = true)

/-- The entry that the members of a file make. -/
def entryOf (host : Host) (path : Bytes) (id : ApplicationId) (userEntry : Bool)
    (desktops : List Str) (values : Values) : Option CatalogEntry := do
  launchable values desktops
  let name ← localizedName values host.env.locale
  let icon := values.lookup "Icon".toList
  let exec ← values.lookup "Exec".toList
  let (program, arguments) ← parseExec host.programs exec ⟨name, text path, icon⟩
  tryExec host.programs values
  let directory ← workingDirectory host.fs values
  let name ← (BoundedText.new (String.ofList name)).toOption
  return ⟨⟨id, name, userEntry⟩, program, arguments, directory⟩

def readEntry (host : Host) (path : Bytes) (id : ApplicationId) (userEntry : Bool)
    (desktops : List Str) : Option CatalogEntry := do
  let source ← readSource host.fs path
  let values ← (parseDesktop source).toOption
  entryOf host path id userEntry desktops values

/-! ## Ids -/

/-- The loop of `desktop_id`. -/
def joinNames (id : Str) : List Bytes → Option Str
  | [] => some id
  | component :: rest => do
    let component ← text component
    joinNames ((if id.isEmpty then id else id ++ ['-']) ++ component) rest

def desktopId (relative : List Bytes) : Option ApplicationId := do
  let id ← joinNames [] relative
  if id.isEmpty ∨ desktopSuffix.isSuffixOf id = false then none
  else (BoundedText.new (String.ofList id)).toOption

/-! ## Discovery -/

def maxInstalledApplications : Nat := 4096

/-- The order of paths: name by name, byte by byte. -/
def pathKey (file : DesktopFile) : List (List Nat) := file.relative.map fun name => name.map UInt8.toNat

/-- The order of ids. -/
def idKey (id : ApplicationId) : List Char := id.asStr.toList

structure Discovery where
  catalog : List CatalogEntry
  seen : List ApplicationId

def scanPaths (host : Host) (desktops : List Str) (root : DataRoot) (d : Discovery) :
    List DesktopFile → Except Failure Discovery
  | [] => .ok d
  | file :: rest =>
    match desktopId file.relative with
    | none => scanPaths host desktops root d rest
    | some id =>
      if d.seen.contains id then scanPaths host desktops root d rest
      else if d.catalog.length = maxInstalledApplications then
        .error (Failure.tooLarge "application catalog exceeds its bound")
      else
        let entry := readEntry host file.path id root.userEntry desktops
        scanPaths host desktops root ⟨d.catalog ++ entry.toList, id :: d.seen⟩ rest

def scanRoots (host : Host) (desktops : List Str) (d : Discovery) :
    List DataRoot → Except Failure Discovery
  | [] => .ok d
  | root :: rest => do
    let paths ← desktopPaths host.fs root.applications
    let d ← scanPaths host desktops root d (sortBy pathKey paths)
    scanRoots host desktops d rest

def discoverAll (host : Host) : Except Failure (List CatalogEntry) := do
  let desktops ← currentDesktops host.env
  let roots ← dataRoots host.env
  let d ← scanRoots host desktops ⟨[], []⟩ roots
  return sortBy (fun entry => idKey entry.descriptor.id) d.catalog

def discover (host : Host) (policy : LaunchPolicy) : Except Failure (List CatalogEntry) :=
  if policy.allowsAny then
    (discoverAll host).map fun catalog => catalog.filter fun entry =>
      policy.permits entry.descriptor.id entry.descriptor.userEntry
  else .ok []

/-! ## The file that decides about an id -/

/-- The first file with an id under one root. -/
structure Leads (fs : FileSystem) (root : DataRoot) (id : ApplicationId) (file : DesktopFile) :
    Prop where
  contained : Contains fs root.applications file
  named : desktopId file.relative = some id
  least : ∀ other, Contains fs root.applications other → desktopId other.relative = some id →
    pathKey file ≤ pathKey other

/-- No file under a root has the id. -/
def Lacks (fs : FileSystem) (root : DataRoot) (id : ApplicationId) : Prop :=
  ∀ other, Contains fs root.applications other → desktopId other.relative ≠ some id

/-- The first file with an id under the first root that contains one. -/
def Winner (fs : FileSystem) (roots : List DataRoot) (id : ApplicationId) (root : DataRoot)
    (file : DesktopFile) : Prop :=
  ∃ before after, roots = before ++ root :: after ∧ (∀ earlier ∈ before, Lacks fs earlier id) ∧
    Leads fs root id file

theorem winner_cons {fs : FileSystem} {first : DataRoot} {rest : List DataRoot}
    {id : ApplicationId} {root : DataRoot} {file : DesktopFile} :
    Winner fs (first :: rest) id root file ↔
      (root = first ∧ Leads fs first id file) ∨ (Lacks fs first id ∧ Winner fs rest id root file) := by
  constructor
  · rintro ⟨before, after, hsplit, hlacks, hleads⟩
    cases before with
    | nil =>
      obtain ⟨rfl, -⟩ := List.cons.inj hsplit
      exact .inl ⟨rfl, hleads⟩
    | cons earlier before =>
      obtain ⟨rfl, hrest⟩ := List.cons.inj hsplit
      refine .inr ⟨hlacks _ List.mem_cons_self, before, after, hrest, fun r hr => ?_, hleads⟩
      exact hlacks r (List.mem_cons_of_mem _ hr)
  · rintro (⟨rfl, hleads⟩ | ⟨hlacks, before, after, rfl, hbefore, hleads⟩)
    · exact ⟨[], rest, rfl, fun r hr => absurd hr List.not_mem_nil, hleads⟩
    · refine ⟨first :: before, after, rfl, fun r hr => ?_, hleads⟩
      rcases List.mem_cons.mp hr with rfl | hr
      · exact hlacks
      · exact hbefore r hr

/-! ### Places in a tree -/

/-- A file lies where the names on its way lead. -/
theorem under_place {fs : FileSystem} {directory : Directory} {file : DesktopFile}
    (h : Under (entries fs) directory file) :
    ∃ names : List FileName,
      file.relative = directory.relative ++ names.map FileName.bytes ∧
      file.path = (names.map FileName.bytes).foldl join directory.path := by
  have hentry : ∀ {d : Directory} {held : Held Directory DesktopFile}, held ∈ entries fs d →
      ∃ name, classify fs d name = held := by
    intro d held hheld
    unfold entries at hheld
    split at hheld
    · simp at hheld
    · obtain ⟨name, -, hname⟩ := List.mem_map.mp hheld
      exact ⟨name, hname⟩
  have hplace : ∀ {d : Directory} {name : FileName},
      (∀ f, classify fs d name = .found f →
        f = ⟨join d.path name.bytes, d.relative ++ [name.bytes]⟩) ∧
      ∀ sub, classify fs d name = .below sub →
        sub.path = join d.path name.bytes ∧ sub.relative = d.relative ++ [name.bytes] := by
    intro d name
    unfold classify
    dsimp only
    split
    · simp
    · split
      · simp
      · split
        · simp
        · split
          · refine ⟨fun f hf => by simp at hf, fun sub hsub => ?_⟩
            rw [← Held.below.inj hsub]
            exact ⟨rfl, rfl⟩
          · split
            · refine ⟨fun f hf => (Held.found.inj hf).symm, fun sub hsub => by simp at hsub⟩
            · simp
  induction h with
  | here hheld =>
    obtain ⟨name, hname⟩ := hentry hheld
    rw [hplace.1 _ hname]
    exact ⟨[name], rfl, rfl⟩
  | deeper hheld _ ih =>
    obtain ⟨name, hname⟩ := hentry hheld
    obtain ⟨hpath, hrelative⟩ := hplace.2 _ hname
    obtain ⟨names, hnames, hfile⟩ := ih
    refine ⟨name :: names, ?_, ?_⟩
    · rw [hnames, hrelative, List.map_cons, List.append_assoc, List.singleton_append]
    · rw [hfile, hpath, List.map_cons, List.foldl_cons]

theorem pathKey_injective {fs : FileSystem} {root : Bytes} {file other : DesktopFile}
    (h : Contains fs root file) (h' : Contains fs root other) (same : pathKey file = pathKey other) :
    file = other := by
  obtain ⟨names, hrelative, hpath⟩ := under_place h.2
  obtain ⟨names', hrelative', hpath'⟩ := under_place h'.2
  have hbytes : Function.Injective fun name : Bytes => name.map UInt8.toNat :=
    List.map_injective_iff.mpr fun _ _ => UInt8.toNat_inj.mp
  have heq : file.relative = other.relative := List.map_injective_iff.mpr hbytes same
  obtain ⟨path, relative⟩ := file
  obtain ⟨path', relative'⟩ := other
  dsimp only at heq hrelative hrelative' hpath hpath'
  subst heq
  have hnames : names.map FileName.bytes = names'.map FileName.bytes :=
    List.append_cancel_left (hrelative.symm.trans hrelative')
  rw [hpath, hpath', hnames]

/-! ## What discovery goes through -/

def pathsOf (fs : FileSystem) (root : Bytes) : List DesktopFile :=
  match desktopPaths fs root with
  | .ok paths => paths
  | .error _ => []

/-- A root and a file under it. -/
abbrev Offer := DataRoot × DesktopFile

/-- The desktop files of all roots, in the order of the scan. -/
def offers (fs : FileSystem) (roots : List DataRoot) : List Offer :=
  roots.flatMap fun root => (sortBy pathKey (pathsOf fs root.applications)).map fun file => (root, file)

def offeredId (offer : Offer) : Option ApplicationId := desktopId offer.2.relative

/-- The files that decide about an id, in the order of the scan. -/
def decisive (fs : FileSystem) (roots : List DataRoot) : List (ApplicationId × Offer) :=
  firsts offeredId [] (offers fs roots)

/-- The entry a file makes under an id. -/
def entryAt (host : Host) (desktops : List Str) (offer : ApplicationId × Offer) :
    Option CatalogEntry :=
  readEntry host offer.2.2.path offer.1 offer.2.1.userEntry desktops

/-- Each new id comes up while the catalog is not full; `n` entries are in it. -/
def HasRoom (host : Host) (desktops : List Str) : Nat → List (ApplicationId × Offer) → Prop
  | _, [] => True
  | n, offer :: rest => n ≠ maxInstalledApplications ∧
    HasRoom host desktops (n + (entryAt host desktops offer).toList.length) rest

/-- The surroundings are sound and no bound is met. -/
structure Within (host : Host) (desktops : List Str) (roots : List DataRoot) : Prop where
  current : currentDesktops host.env = .ok desktops
  rooted : dataRoots host.env = .ok roots
  scans : ∀ root ∈ roots, scanCount host.fs root.applications ≤ maxScannedPaths
  room : HasRoom host desktops 0 (decisive host.fs roots)

section Order

variable {fs : FileSystem} {roots : List DataRoot}

theorem leads_iff {root : DataRoot} {id : ApplicationId} {file : DesktopFile}
    (scans : scanCount fs root.applications ≤ maxScannedPaths) :
    (sortBy pathKey (pathsOf fs root.applications)).find?
        (fun file => desktopId file.relative = some id) = some file ↔ Leads fs root id file := by
  obtain ⟨paths, hpaths⟩ := (desktopPaths_ok fs root.applications).mpr scans
  have hmem : ∀ f, f ∈ pathsOf fs root.applications ↔ Contains fs root.applications f := by
    intro f
    rw [pathsOf, hpaths]
    exact mem_desktopPaths hpaths f
  rw [find?_sortBy fun a ha b hb => pathKey_injective ((hmem a).mp ha) ((hmem b).mp hb)]
  simp only [hmem, decide_eq_true_eq]
  exact ⟨fun h => ⟨h.1, h.2.1, h.2.2⟩, fun h => ⟨h.contained, h.named, h.least⟩⟩

theorem lacks_iff {root : DataRoot} {id : ApplicationId}
    (scans : scanCount fs root.applications ≤ maxScannedPaths) :
    (sortBy pathKey (pathsOf fs root.applications)).find?
        (fun file => desktopId file.relative = some id) = none ↔ Lacks fs root id := by
  obtain ⟨paths, hpaths⟩ := (desktopPaths_ok fs root.applications).mpr scans
  have hmem : ∀ f, f ∈ pathsOf fs root.applications ↔ Contains fs root.applications f := by
    intro f
    rw [pathsOf, hpaths]
    exact mem_desktopPaths hpaths f
  simp only [List.find?_eq_none, mem_sortBy, hmem, decide_eq_true_eq]
  exact Iff.rfl

/-- The file found first with an id is the one that wins it. -/
theorem winner_iff (scans : ∀ root ∈ roots, scanCount fs root.applications ≤ maxScannedPaths)
    {id : ApplicationId} {root : DataRoot} {file : DesktopFile} :
    (offers fs roots).find? (fun offer => offeredId offer = some id) = some (root, file) ↔
      Winner fs roots id root file := by
  induction roots with
  | nil => simp [offers, Winner]
  | cons first rest ih =>
    have hfirst := scans first List.mem_cons_self
    have hrest := ih fun r hr => scans r (List.mem_cons_of_mem _ hr)
    have hhere : ((sortBy pathKey (pathsOf fs first.applications)).map fun file =>
        (first, file)).find? (fun offer => offeredId offer = some id) =
        ((sortBy pathKey (pathsOf fs first.applications)).find?
          fun file => desktopId file.relative = some id).map fun file => (first, file) := by
      rw [List.find?_map]
      rfl
    rw [winner_cons, ← hrest, ← lacks_iff hfirst, ← leads_iff hfirst, offers, List.flatMap_cons,
      List.find?_append, hhere]
    cases (sortBy pathKey (pathsOf fs first.applications)).find?
      fun file => desktopId file.relative = some id with
    | none => simp [offers]
    | some found =>
      simp only [Option.map_some, Option.some_or, Option.some.injEq, Prod.mk.injEq, reduceCtorEq,
        false_and, or_false]
      exact and_congr_left' eq_comm

theorem mem_decisive (scans : ∀ root ∈ roots, scanCount fs root.applications ≤ maxScannedPaths)
    {id : ApplicationId} {root : DataRoot} {file : DesktopFile} :
    (id, root, file) ∈ decisive fs roots ↔ Winner fs roots id root file := by
  rw [decisive, mem_firsts, winner_iff scans]
  exact and_iff_right List.not_mem_nil

end Order

/-! ## Discovery finds the winners -/

section Discovery

variable {host : Host} {desktops : List Str}

/-- The inner loop, over the files of any roots. -/
def scanOffers (host : Host) (desktops : List Str) (d : Discovery) :
    List Offer → Except Failure Discovery
  | [] => .ok d
  | offer :: rest => do
    let d ← scanPaths host desktops offer.1 d [offer.2]
    scanOffers host desktops d rest

theorem scanPaths_cons (root : DataRoot) (d : Discovery) (file : DesktopFile)
    (rest : List DesktopFile) :
    scanPaths host desktops root d (file :: rest) =
      (scanPaths host desktops root d [file]).bind fun d => scanPaths host desktops root d rest := by
  simp only [scanPaths]
  split
  · rfl
  · split
    · rfl
    · split <;> rfl

theorem scanOffers_append (d : Discovery) (os os' : List Offer) :
    scanOffers host desktops d (os ++ os') =
      (scanOffers host desktops d os).bind fun d => scanOffers host desktops d os' := by
  induction os generalizing d with
  | nil => rfl
  | cons offer rest ih =>
    show (scanPaths host desktops offer.1 d [offer.2] >>= fun d =>
      scanOffers host desktops d (rest ++ os')) = _
    cases h : scanPaths host desktops offer.1 d [offer.2] with
    | error e =>
      rw [scanOffers, h]
      rfl
    | ok d' =>
      rw [scanOffers, h]
      exact ih d'

theorem scanPaths_offers (root : DataRoot) (d : Discovery) (files : List DesktopFile) :
    scanPaths host desktops root d files =
      scanOffers host desktops d (files.map fun file => (root, file)) := by
  induction files generalizing d with
  | nil => rfl
  | cons file rest ih =>
    rw [scanPaths_cons, List.map_cons, scanOffers]
    cases scanPaths host desktops root d [file] with
    | error e => rfl
    | ok d' => exact ih d'

theorem scanRoots_offers {roots : List DataRoot} (d : Discovery)
    (scans : ∀ root ∈ roots, scanCount host.fs root.applications ≤ maxScannedPaths) :
    scanRoots host desktops d roots = scanOffers host desktops d (offers host.fs roots) := by
  induction roots generalizing d with
  | nil => rfl
  | cons root rest ih =>
    obtain ⟨paths, hpaths⟩ :=
      (desktopPaths_ok host.fs root.applications).mpr (scans root List.mem_cons_self)
    have hof : pathsOf host.fs root.applications = paths := by rw [pathsOf, hpaths]
    rw [offers, List.flatMap_cons, scanOffers_append, ← scanPaths_offers, hof, scanRoots, hpaths]
    show (scanPaths host desktops root d (sortBy pathKey paths)).bind _ = _
    cases scanPaths host desktops root d (sortBy pathKey paths) with
    | error e => rfl
    | ok d' => exact ih d' fun r hr => scans r (List.mem_cons_of_mem _ hr)

/-- What the loop adds: the entries of the files whose ids are new, in the order they come. -/
def Discovery.extend (host : Host) (desktops : List Str) (d : Discovery)
    (offers : List (ApplicationId × Offer)) : Discovery where
  catalog := d.catalog ++ offers.filterMap (entryAt host desktops)
  seen := (offers.map Prod.fst).reverse ++ d.seen

theorem scanOffers_spec (d : Discovery) (os : List Offer) :
    (HasRoom host desktops d.catalog.length (firsts offeredId d.seen os) ∧
      scanOffers host desktops d os =
        .ok (d.extend host desktops (firsts offeredId d.seen os))) ∨
    (¬ HasRoom host desktops d.catalog.length (firsts offeredId d.seen os) ∧
      ∃ e, scanOffers host desktops d os = .error e) := by
  induction os generalizing d with
  | nil => exact .inl ⟨trivial, by simp [scanOffers, firsts, Discovery.extend]⟩
  | cons offer rest ih =>
    obtain ⟨root, file⟩ := offer
    rw [firsts, scanOffers, scanPaths]
    dsimp only [offeredId]
    cases hid : desktopId file.relative with
    | none => exact ih d
    | some id =>
      dsimp only
      by_cases hseen : d.seen.contains id = true
      · rw [if_pos hseen, if_pos hseen]
        exact ih d
      · rw [if_neg hseen, if_neg hseen, HasRoom]
        by_cases hfull : d.catalog.length = maxInstalledApplications
        · rw [if_pos hfull]
          exact .inr ⟨fun h => h.1 hfull, _, rfl⟩
        · rw [if_neg hfull]
          have hnext := ih ⟨d.catalog ++ (entryAt host desktops (id, root, file)).toList, id :: d.seen⟩
          have hextend : Discovery.extend host desktops
              ⟨d.catalog ++ (entryAt host desktops (id, root, file)).toList, id :: d.seen⟩
                (firsts offeredId (id :: d.seen) rest) =
              d.extend host desktops ((id, root, file) :: firsts offeredId (id :: d.seen) rest) := by
            have hcatalog : (entryAt host desktops (id, root, file)).toList ++
                (firsts offeredId (id :: d.seen) rest).filterMap (entryAt host desktops) =
                ((id, root, file) :: firsts offeredId (id :: d.seen) rest).filterMap
                  (entryAt host desktops) := by
              rw [List.filterMap_cons]
              cases entryAt host desktops (id, root, file) <;> rfl
            simp only [Discovery.extend, List.append_assoc, hcatalog, List.map_cons,
              List.reverse_cons, List.singleton_append]
          dsimp only at hnext
          rw [hextend, List.length_append] at hnext
          exact hnext.imp (fun h => ⟨⟨hfull, h.1⟩, h.2⟩) fun h => ⟨fun hroom => h.1 hroom.2, h.2⟩

/-- The entries of the winners, in the order of their ids. -/
def catalogOf (host : Host) (desktops : List Str) (roots : List DataRoot) : List CatalogEntry :=
  sortBy (fun entry => idKey entry.descriptor.id)
    ((decisive host.fs roots).filterMap (entryAt host desktops))

theorem discoverAll_within {roots : List DataRoot} (within : Within host desktops roots) :
    discoverAll host = .ok (catalogOf host desktops roots) := by
  rw [discoverAll, within.current, within.rooted]
  show (scanRoots host desktops ⟨[], []⟩ roots >>= fun d =>
    pure (sortBy (fun entry => idKey entry.descriptor.id) d.catalog)) = _
  rw [scanRoots_offers _ within.scans]
  rcases @scanOffers_spec host desktops ⟨[], []⟩ (offers host.fs roots) with
    ⟨-, h⟩ | ⟨h, -⟩
  · rw [h]
    rfl
  · exact absurd within.room h

theorem scans_of_scanRoots {roots : List DataRoot} {d d' : Discovery}
    (h : scanRoots host desktops d roots = .ok d') :
    ∀ root ∈ roots, scanCount host.fs root.applications ≤ maxScannedPaths := by
  induction roots generalizing d with
  | nil => exact fun root hroot => absurd hroot List.not_mem_nil
  | cons first rest ih =>
    obtain ⟨paths, hpaths, h⟩ := Lib.except_bind_ok h
    obtain ⟨d₁, -, h⟩ := Lib.except_bind_ok h
    intro root hroot
    rcases List.mem_cons.mp hroot with rfl | hroot
    · exact (desktopPaths_ok host.fs root.applications).mp ⟨paths, hpaths⟩
    · exact ih h root hroot

/-- Discovery succeeds in no other surroundings. -/
theorem within_of_discoverAll {catalog : List CatalogEntry} (h : discoverAll host = .ok catalog) :
    ∃ desktops roots, Within host desktops roots := by
  obtain ⟨desktops, hdesktops, h⟩ := Lib.except_bind_ok h
  obtain ⟨roots, hroots, h⟩ := Lib.except_bind_ok h
  obtain ⟨d, hd, -⟩ := Lib.except_bind_ok h
  have hscans := scans_of_scanRoots hd
  refine ⟨desktops, roots, hdesktops, hroots, hscans, ?_⟩
  rw [scanRoots_offers _ hscans] at hd
  rcases @scanOffers_spec host desktops ⟨[], []⟩ (offers host.fs roots) with ⟨hroom, -⟩ | ⟨-, e, he⟩
  · exact hroom
  · rw [he] at hd
    simp at hd

/-! ## The catalog -/

theorem readEntry_descriptor {path : Bytes} {id : ApplicationId} {userEntry : Bool}
    {entry : CatalogEntry} (h : readEntry host path id userEntry desktops = some entry) :
    entry.descriptor.id = id ∧ entry.descriptor.userEntry = userEntry := by
  obtain ⟨source, -, h⟩ := Option.bind_eq_some_iff.mp h
  obtain ⟨values, -, h⟩ := Option.bind_eq_some_iff.mp h
  unfold entryOf at h
  simp only [Option.bind_eq_bind, Option.bind_eq_some_iff] at h
  obtain ⟨-, -, name, -, exec, -, ⟨program, arguments⟩, -, -, -, directory, -, name', -, h⟩ := h
  rw [← Option.some.inj h]
  exact ⟨rfl, rfl⟩

theorem entryAt_id {offer : ApplicationId × Offer} {entry : CatalogEntry}
    (h : entryAt host desktops offer = some entry) : entry.descriptor.id = offer.1 :=
  (readEntry_descriptor h).1

/-- An entry is in the catalog exactly if the winner of its id is read to be it. -/
theorem mem_catalogOf {roots : List DataRoot} (within : Within host desktops roots)
    (entry : CatalogEntry) :
    entry ∈ catalogOf host desktops roots ↔ ∃ root file,
      Winner host.fs roots entry.descriptor.id root file ∧
      readEntry host file.path entry.descriptor.id root.userEntry desktops = some entry := by
  rw [catalogOf, mem_sortBy, List.mem_filterMap]
  constructor
  · rintro ⟨⟨id, root, file⟩, hmem, hentry⟩
    have hid : entry.descriptor.id = id := entryAt_id hentry
    subst hid
    exact ⟨root, file, (mem_decisive within.scans).mp hmem, hentry⟩
  · rintro ⟨root, file, hwins, hentry⟩
    exact ⟨(entry.descriptor.id, root, file), (mem_decisive within.scans).mpr hwins, hentry⟩

theorem idKey_injective : Function.Injective idKey := by
  intro id id' h
  obtain ⟨str, bound⟩ := id
  obtain ⟨str', bound'⟩ := id'
  have hstr : str = str' := String.toList_inj.mp h
  subst hstr
  rfl

/-- The ids of the catalog increase. -/
theorem catalogOf_increasing (host : Host) (desktops : List Str) (roots : List DataRoot) :
    ((catalogOf host desktops roots).map fun entry => idKey entry.descriptor.id).Pairwise (· < ·) := by
  refine sortBy_strict ?_
  have hids : ((decisive host.fs roots).filterMap (entryAt host desktops)).map
      (fun entry => entry.descriptor.id) |>.Sublist ((decisive host.fs roots).map Prod.fst) := by
    induction decisive host.fs roots with
    | nil => exact List.Sublist.slnil
    | cons offer rest ih =>
      rw [List.filterMap_cons, List.map_cons]
      cases hentry : entryAt host desktops offer with
      | none => exact ih.cons _
      | some entry =>
        rw [List.map_cons, entryAt_id hentry]
        exact ih.cons_cons _
  have hnodup := (firsts_nodup [] (offers host.fs roots)).sublist hids
  rw [show (fun entry : CatalogEntry => idKey entry.descriptor.id) =
    idKey ∘ fun entry => entry.descriptor.id from rfl, ← List.map_map]
  exact hnodup.map idKey_injective

/-- The winner of an id is one file under one root. -/
theorem Winner.unique {fs : FileSystem} {roots : List DataRoot} {id : ApplicationId}
    {root root' : DataRoot} {file file' : DesktopFile} (h : Winner fs roots id root file)
    (h' : Winner fs roots id root' file') : root = root' ∧ file = file' := by
  induction roots with
  | nil =>
    obtain ⟨before, after, hsplit, -⟩ := h
    simp at hsplit
  | cons first rest ih =>
    rcases winner_cons.mp h with ⟨rfl, hleads⟩ | ⟨hlacks, hrest⟩
    · rcases winner_cons.mp h' with ⟨rfl, hleads'⟩ | ⟨hlacks', -⟩
      · refine ⟨rfl, pathKey_injective hleads.contained hleads'.contained ?_⟩
        exact le_antisymm (hleads.least _ hleads'.contained hleads'.named)
          (hleads'.least _ hleads.contained hleads.named)
      · exact absurd hleads.named (hlacks' _ hleads.contained)
    · rcases winner_cons.mp h' with ⟨rfl, hleads'⟩ | ⟨-, hrest'⟩
      · exact absurd hleads'.named (hlacks _ hleads'.contained)
      · exact ih hrest hrest'

/-- An id whose winner makes no entry is absent, whatever the other files with it would make. -/
theorem absent_of_winner {roots : List DataRoot} (within : Within host desktops roots)
    {id : ApplicationId} {root : DataRoot} {file : DesktopFile}
    (wins : Winner host.fs roots id root file)
    (unreadable : readEntry host file.path id root.userEntry desktops = none) :
    ∀ entry ∈ catalogOf host desktops roots, entry.descriptor.id ≠ id := by
  rintro entry hentry rfl
  obtain ⟨root', file', hwins, hread⟩ := (mem_catalogOf within entry).mp hentry
  obtain ⟨rfl, rfl⟩ := wins.unique hwins
  rw [unreadable] at hread
  simp at hread

end Discovery

/-! ### Ids -/

/-- The characters of an id are dashes and those of the names it is made of. -/
theorem mem_joinNames {id str : Str} {names : List Bytes} (h : joinNames id names = some str)
    {c : Char} (hc : c ∈ str) :
    c ∈ id ∨ c = '-' ∨ ∃ name ∈ names, ∃ part, text name = some part ∧ c ∈ part := by
  induction names generalizing id with
  | nil =>
    rw [Option.some.inj h]
    exact .inl hc
  | cons name rest ih =>
    obtain ⟨part, hpart, h⟩ := Option.bind_eq_some_iff.mp h
    rcases ih h with hmem | rfl | ⟨name', hname', part', hpart', hmem⟩
    · rcases List.mem_append.mp hmem with hmem | hmem
      · split at hmem
        · exact .inl hmem
        · rcases List.mem_append.mp hmem with hmem | hmem
          · exact .inl hmem
          · exact .inr (.inl (List.mem_singleton.mp hmem))
      · exact .inr (.inr ⟨name, List.mem_cons_self, part, hpart, hmem⟩)
    · exact .inr (.inl rfl)
    · exact .inr (.inr ⟨name', List.mem_cons_of_mem _ hname', part', hpart', hmem⟩)

/-- The id of a file under a root can be asked for. -/
theorem valid_of_contains {fs : FileSystem} {root : Bytes} {file : DesktopFile} {id : ApplicationId}
    (contained : Contains fs root file) (named : desktopId file.relative = some id) :
    ApplicationLaunchRequest.validate ⟨id⟩ = .ok () := by
  obtain ⟨names, hrelative, -⟩ := under_place contained.2
  rw [show file.relative = names.map FileName.bytes from hrelative] at named
  obtain ⟨str, hjoin, named⟩ := Option.bind_eq_some_iff.mp named
  split at named
  · simp at named
  · next hshape =>
    rw [not_or, Bool.not_eq_false] at hshape
    have hid : id.asStr = String.ofList str := by
      unfold BoundedText.new at named
      split at named
      · rw [← Option.some.inj named]
      · simp [Except.toOption] at named
    have hlist : id.asStr.toList = str := by rw [hid, String.toList_ofList]
    have hplain : ∀ c ∈ str, c ≠ '/' ∧ c ≠ '\x00' := by
      have hname : ∀ {c : Char} {b : UInt8}, String.utf8EncodeChar c = [b] →
          c ∈ str → c ≠ '-' → ∃ name : FileName, b ∈ name.bytes := by
        intro c b hencode hc hdash
        rcases mem_joinNames hjoin hc with hmem | hmem | ⟨bytes, hbytes, part, hpart, hmem⟩
        · exact absurd hmem List.not_mem_nil
        · exact absurd hmem hdash
        · obtain ⟨name, -, rfl⟩ := List.mem_map.mp hbytes
          exact ⟨name, mem_of_text hpart hmem (by rw [hencode]; exact List.mem_singleton_self b)⟩
      intro c hc
      constructor
      · rintro rfl
        obtain ⟨name, hmem⟩ := @hname '/' 47 (by decide) hc (by decide)
        exact name.noSlash hmem
      · rintro rfl
        obtain ⟨name, hmem⟩ := @hname '\x00' 0 (by decide) hc (by decide)
        exact name.noNul hmem
    have hne : id.asStr ≠ "" := by
      intro hempty
      rw [hempty] at hlist
      exact hshape.1 (by rw [← hlist]; rfl)
    simp only [ApplicationLaunchRequest.validate, ensure_eq_ok, Bool.and_eq_true, endsWith, hlist,
      BoundedText.isEmpty, Bool.not_eq_true', decide_eq_false_iff_not, List.any_eq_false,
      Bool.or_eq_true, beq_iff_eq, not_or]
    exact ⟨⟨hne, hshape.2⟩, hplain⟩

end AgentSeat.Launch
