/-
  The catalog of a session (`SessionCatalog` of `launch.rs`) and what a launch finds in it.

  A request with cursor zero discovers the applications anew and keeps their descriptions; every
  other request cuts a page out of what was kept. So a client that follows the cursors sees the
  catalog of its first request once, in order (`follow_pages`), whatever else the session is asked
  and whatever becomes of the files meanwhile. A launch discovers again.
-/
import AgentSeat.Launch.Catalog

namespace AgentSeat.Launch

open Lib Lib.Paths Proto Session

/-! ## Pages -/

structure SessionCatalog where
  cached : Option (List ApplicationDescriptor)

def SessionCatalog.new : SessionCatalog := ⟨none⟩

/-- The page at a cursor. -/
def page (catalog : List ApplicationDescriptor) (request : ApplicationListRequest) :
    Except Failure ApplicationPage := do
  let start := request.cursor
  if start > catalog.length then
    .error (Failure.invalid "application cursor is outside the catalog")
  else do
    let stop := min (start + request.limit) catalog.length
    let nextCursor ← if stop < catalog.length then
        if stop ≤ X11.u32Max then .ok (some stop)
        else .error (Failure.internal "application cursor space is exhausted")
      else .ok none
    match BoundedList.new ((catalog.take stop).drop start) with
    | .ok applications => .ok ⟨applications, nextCursor⟩
    | .error _ => .error (Failure.internal "application page exceeded its public bound")

def SessionCatalog.list (host : Host) (policy : LaunchPolicy) (request : ApplicationListRequest) :
    Prog SessionCatalog Failure ApplicationPage := do
  Prog.onlyIf (request.cursor = 0) do
    let found ← Prog.lift (discover host policy)
    Prog.update fun _ => ⟨some (found.map CatalogEntry.descriptor)⟩
  let cached ← Prog.read SessionCatalog.cached
  match cached with
  | some catalog => Prog.lift (page catalog request)
  | none => Prog.fail (Failure.invalid "application cursor has no session catalog")

def findEntry (application : ApplicationId) (catalog : List CatalogEntry) :
    Except Failure CatalogEntry :=
  match catalog.find? fun entry => entry.descriptor.id = application with
  | some entry => .ok entry
  | none => .error (Failure.refused "application is not allowed by current policy")

/-- The entry that `launch` looks up before it starts anything. -/
def launchedEntry (host : Host) (policy : LaunchPolicy) (application : ApplicationId) :
    Except Failure CatalogEntry := do
  let catalog ← discover host policy
  findEntry application catalog

/-! ## A client that follows the cursors -/

/-- A client: the limit of each of its requests, what the provider finds around it then, and what
    else the session is asked just before. -/
structure Client where
  limit : Nat → Nat
  host : Nat → Host
  others : Nat → List (Host × ApplicationListRequest)

/-- The session after other requests. -/
def answered (policy : LaunchPolicy) (others : List (Host × ApplicationListRequest))
    (session : SessionCatalog) : SessionCatalog :=
  others.foldl (fun session other => (SessionCatalog.list other.1 policy other.2 session).2) session

/-- Page after page from a cursor, for at most `fuel` requests; `k` were made before. -/
def follow (policy : LaunchPolicy) (client : Client) :
    Nat → Nat → Nat → SessionCatalog → Option (Except Failure (List ApplicationPage))
  | 0, _, _, _ => none
  | fuel + 1, k, cursor, session =>
    match SessionCatalog.list (client.host k) policy ⟨cursor, client.limit k⟩
      (answered policy (client.others k) session) with
    | (.error e, _) => some (.error e)
    | (.ok page, session) =>
      match page.nextCursor with
      | none => some (.ok [page])
      | some next =>
        (follow policy client fuel (k + 1) next session).map fun rest => rest.map (page :: ·)

/-- Every limit is one a request may have, and only the first request has cursor zero. -/
structure Client.Follows (client : Client) : Prop where
  limits : ∀ k, (ApplicationListRequest.mk 0 (client.limit k)).validate = .ok ()
  others : ∀ k, 0 < k → ∀ other ∈ client.others k, other.2.cursor ≠ 0

theorem Client.Follows.limit {client : Client} (follows : client.Follows) (k : Nat) :
    0 < client.limit k ∧ client.limit k ≤ maxApplications := by
  have h := follows.limits k
  simp only [ApplicationListRequest.validate, ensure_eq_ok, Bool.not_eq_true',
    decide_eq_false_iff_not, not_or] at h
  omega

/-- The page at a cursor is the part of the catalog from there on that the limit allows, and the next
    cursor is where it ends, unless that is the end. -/
theorem page_spec {catalog : List ApplicationDescriptor} {cursor limit : Nat}
    (small : catalog.length ≤ X11.u32Max) (start : cursor ≤ catalog.length)
    (fits : limit ≤ maxApplications) :
    ∃ p, page catalog ⟨cursor, limit⟩ = .ok p ∧
      p.applications.asSlice = (catalog.drop cursor).take limit ∧
      p.nextCursor = if cursor + limit < catalog.length then some (cursor + limit) else none := by
  have hslice : (catalog.take (min (cursor + limit) catalog.length)).drop cursor =
      (catalog.drop cursor).take limit := by
    rw [← List.take_eq_take_min, List.drop_take, Nat.add_sub_cancel_left]
  have hbound : ((catalog.drop cursor).take limit).length ≤ maxApplications := by
    rw [List.length_take]
    omega
  have hnew : (BoundedList.new ((catalog.drop cursor).take limit) :
      Except BoundError (BoundedList ApplicationDescriptor maxApplications)) =
        .ok ⟨(catalog.drop cursor).take limit, hbound⟩ := dif_pos hbound
  unfold page
  dsimp only
  rw [if_neg (Nat.not_lt.mpr start), hslice, hnew]
  by_cases hmore : cursor + limit < catalog.length
  · have hmin : min (cursor + limit) catalog.length = cursor + limit := by omega
    have hu32 : cursor + limit ≤ X11.u32Max := by omega
    rw [hmin, if_pos hmore, if_pos hu32, if_pos hmore]
    exact ⟨_, rfl, rfl, rfl⟩
  · have hmin : min (cursor + limit) catalog.length = catalog.length := by omega
    rw [hmin, if_neg (Nat.lt_irrefl _), if_neg hmore]
    exact ⟨_, rfl, rfl, rfl⟩

section Follow

variable {policy : LaunchPolicy} {client : Client} {session : SessionCatalog}

/-- A request with another cursor is answered from what is kept. -/
theorem list_later (host : Host) {request : ApplicationListRequest} (later : request.cursor ≠ 0) :
    SessionCatalog.list host policy request session =
      (match session.cached with
        | some catalog => page catalog request
        | none => .error (Failure.invalid "application cursor has no session catalog"), session) := by
  unfold SessionCatalog.list
  rw [show decide (request.cursor = 0) = false by simpa using later]
  obtain ⟨cached⟩ := session
  cases cached <;> rfl

theorem answered_cached {others : List (Host × ApplicationListRequest)}
    (later : ∀ other ∈ others, other.2.cursor ≠ 0) : answered policy others session = session := by
  induction others generalizing session with
  | nil => rfl
  | cons other rest ih =>
    have hlist : (SessionCatalog.list other.1 policy other.2 session).2 = session := by
      rw [list_later other.1 (later other List.mem_cons_self)]
    rw [answered, List.foldl_cons, hlist]
    exact ih fun o ho => later o (List.mem_cons_of_mem _ ho)

/-- A client that came to its end makes no further request. -/
theorem follow_more {fuel fuel' k cursor : Nat} {seen : Except Failure (List ApplicationPage)}
    (h : follow policy client fuel k cursor session = some seen) (more : fuel ≤ fuel') :
    follow policy client fuel' k cursor session = some seen := by
  induction fuel generalizing fuel' k cursor session seen with
  | zero => simp [follow] at h
  | succ fuel ih =>
    obtain ⟨fuel', rfl⟩ : ∃ n, fuel' = n + 1 := ⟨fuel' - 1, by omega⟩
    rw [follow] at h ⊢
    rcases hlist : SessionCatalog.list (client.host k) policy ⟨cursor, client.limit k⟩
      (answered policy (client.others k) session) with ⟨reply, session'⟩
    rw [hlist] at h
    cases reply with
    | error e => exact h
    | ok p =>
      dsimp only at h ⊢
      cases hnext : p.nextCursor with
      | none => rwa [hnext] at h
      | some next =>
        rw [hnext] at h
        obtain ⟨rest, hrest, hseen⟩ := Option.map_eq_some_iff.mp h
        dsimp only
        rw [ih hrest (by omega), ← hseen]
        rfl

/-- From a later cursor on, a client sees the rest of the kept catalog. -/
theorem follow_rest (follows : client.Follows) {catalog : List ApplicationDescriptor}
    (small : catalog.length ≤ X11.u32Max) (kept : session.cached = some catalog) {k cursor : Nat}
    (later : 0 < k) (positive : 0 < cursor) (start : cursor ≤ catalog.length) {fuel : Nat}
    (enough : catalog.length - cursor < fuel) :
    ∃ pages, follow policy client fuel k cursor session = some (.ok pages) ∧
      pages.flatMap (fun p => p.applications.asSlice) = catalog.drop cursor := by
  induction fuel generalizing k cursor with
  | zero => omega
  | succ fuel ih =>
    obtain ⟨hlimit, hfits⟩ := follows.limit k
    obtain ⟨p, hpage, happs, hnext⟩ := page_spec small start hfits
    have hlist : SessionCatalog.list (client.host k) policy ⟨cursor, client.limit k⟩
        (answered policy (client.others k) session) = (.ok p, session) := by
      rw [answered_cached (follows.others k later), list_later _ (Nat.ne_of_gt positive), kept]
      exact congrArg (·, session) hpage
    rw [follow, hlist]
    dsimp only
    rw [hnext]
    by_cases hmore : cursor + client.limit k < catalog.length
    · rw [if_pos hmore]
      obtain ⟨pages, hpages, hrest⟩ := @ih (k + 1) (cursor + client.limit k) (by omega) (by omega)
        (by omega) (by omega)
      dsimp only
      rw [hpages]
      refine ⟨p :: pages, rfl, ?_⟩
      rw [List.flatMap_cons, hrest, happs, ← List.drop_drop, List.take_append_drop]
    · rw [if_neg hmore]
      refine ⟨[p], rfl, ?_⟩
      rw [List.flatMap_singleton, happs, List.take_of_length_le]
      rw [List.length_drop]
      omega

/-- A client that follows the cursors sees the catalog of its first request once, in order, and comes
    to its end. -/
theorem follow_pages (follows : client.Follows) {found : List CatalogEntry}
    (discovers : discover (client.host 0) policy = .ok found) (small : found.length ≤ X11.u32Max)
    {fuel : Nat} (enough : found.length < fuel) :
    ∃ pages, follow policy client fuel 0 0 session = some (.ok pages) ∧
      pages.flatMap (fun p => p.applications.asSlice) = found.map CatalogEntry.descriptor := by
  obtain ⟨fuel, rfl⟩ : ∃ n, fuel = n + 1 := ⟨fuel - 1, by omega⟩
  obtain ⟨hlimit, hfits⟩ := follows.limit 0
  have hlength : (found.map CatalogEntry.descriptor).length = found.length := List.length_map _
  obtain ⟨p, hpage, happs, hnext⟩ := @page_spec (found.map CatalogEntry.descriptor) 0 (client.limit 0)
    (by omega) (Nat.zero_le _) hfits
  have hlist (s : SessionCatalog) : SessionCatalog.list (client.host 0) policy ⟨0, client.limit 0⟩ s =
      (.ok p, ⟨some (found.map CatalogEntry.descriptor)⟩) := by
    unfold SessionCatalog.list
    rw [discovers]
    exact congrArg (·, SessionCatalog.mk (some (found.map CatalogEntry.descriptor))) hpage
  rw [follow, hlist]
  dsimp only
  rw [List.drop_zero] at happs
  rw [hnext, Nat.zero_add]
  by_cases hmore : client.limit 0 < (found.map CatalogEntry.descriptor).length
  · rw [if_pos hmore]
    obtain ⟨pages, hpages, hrest⟩ := @follow_rest policy client
      ⟨some (found.map CatalogEntry.descriptor)⟩ follows (found.map CatalogEntry.descriptor)
      (by omega) rfl 1 (client.limit 0) Nat.one_pos hlimit (by omega) fuel (by omega)
    dsimp only
    rw [hpages]
    refine ⟨p :: pages, rfl, ?_⟩
    rw [List.flatMap_cons, hrest, happs, List.take_append_drop]
  · rw [if_neg hmore]
    refine ⟨[p], rfl, ?_⟩
    rw [List.flatMap_singleton, happs, List.take_of_length_le (by omega)]

end Follow

/-! ## The catalog as a whole -/

section Catalog

variable {host : Host} {desktops : List Str} {roots : List DataRoot} {policy : LaunchPolicy}

theorem hasRoom_length {n : Nat} {offers : List (ApplicationId × Offer)}
    (room : HasRoom host desktops n offers) (start : n ≤ maxInstalledApplications) :
    n + (offers.filterMap (entryAt host desktops)).length ≤ maxInstalledApplications := by
  induction offers generalizing n with
  | nil => exact start
  | cons offer rest ih =>
    obtain ⟨hnot, hroom⟩ := room
    have hlength : (entryAt host desktops offer).toList.length ≤ 1 := by
      cases entryAt host desktops offer <;> simp
    have hsplit : ((offer :: rest).filterMap (entryAt host desktops)).length =
        (entryAt host desktops offer).toList.length +
          (rest.filterMap (entryAt host desktops)).length := by
      rw [List.filterMap_cons]
      cases entryAt host desktops offer <;> simp [Nat.add_comm]
    have hrest := ih hroom (by omega)
    omega

/-- No more ids than the catalog may have entries leave it room. -/
theorem hasRoom_of_length {n : Nat} {offers : List (ApplicationId × Offer)}
    (few : n + offers.length ≤ maxInstalledApplications) : HasRoom host desktops n offers := by
  induction offers generalizing n with
  | nil => trivial
  | cons offer rest ih =>
    rw [List.length_cons] at few
    have hlength : (entryAt host desktops offer).toList.length ≤ 1 := by
      cases entryAt host desktops offer <;> simp
    exact ⟨by omega, ih (by omega)⟩

theorem catalogOf_length (within : Within host desktops roots) :
    (catalogOf host desktops roots).length ≤ maxInstalledApplications := by
  have h := hasRoom_length within.room (Nat.zero_le _)
  rw [catalogOf, (sortBy_perm _).length_eq]
  omega

/-- What a policy leaves of the catalog. -/
def permitted (policy : LaunchPolicy) (catalog : List CatalogEntry) : List CatalogEntry :=
  catalog.filter fun entry => policy.permits entry.descriptor.id entry.descriptor.userEntry

theorem discover_within (within : Within host desktops roots) :
    discover host policy = .ok (permitted policy (catalogOf host desktops roots)) := by
  unfold discover permitted
  cases hany : policy.allowsAny with
  | true =>
    rw [if_pos rfl, discoverAll_within within]
    rfl
  | false =>
    have hnone : (catalogOf host desktops roots).filter (fun entry =>
        policy.permits entry.descriptor.id entry.descriptor.userEntry) = [] := by
      refine List.filter_eq_nil_iff.mpr fun entry _ h => ?_
      rw [LaunchPolicy.permits_allowsAny h] at hany
      simp at hany
    rw [hnone]
    rfl

/-- A launch finds the entry that is listed under its id. -/
theorem launchedEntry_listed (within : Within host desktops roots) {entry : CatalogEntry}
    (listed : entry ∈ permitted policy (catalogOf host desktops roots)) :
    launchedEntry host policy entry.descriptor.id = .ok entry := by
  have hids : ((catalogOf host desktops roots).map fun e => idKey e.descriptor.id).Nodup :=
    (catalogOf_increasing host desktops roots).imp ne_of_lt
  have hmem : ∀ {e}, e ∈ permitted policy (catalogOf host desktops roots) →
      e ∈ catalogOf host desktops roots := fun h => (List.mem_filter.mp h).1
  unfold launchedEntry
  rw [discover_within within]
  show findEntry entry.descriptor.id (permitted policy (catalogOf host desktops roots)) = _
  unfold findEntry
  cases hfind : (permitted policy (catalogOf host desktops roots)).find?
      fun e => e.descriptor.id = entry.descriptor.id with
  | none =>
    have hno := List.find?_eq_none.mp hfind entry listed
    simp at hno
  | some e =>
    have hid : e.descriptor.id = entry.descriptor.id := by simpa using List.find?_some hfind
    have hsame : e = entry := List.inj_on_of_nodup_map hids (hmem (List.mem_of_find?_eq_some hfind))
      (hmem listed) (congrArg idKey hid)
    rw [hsame]

/-- Every listed id passes the check of a launch request. -/
theorem valid_of_listed (within : Within host desktops roots) {entry : CatalogEntry}
    (listed : entry ∈ catalogOf host desktops roots) :
    ApplicationLaunchRequest.validate ⟨entry.descriptor.id⟩ = .ok () := by
  obtain ⟨root, file, ⟨before, after, -, -, hleads⟩, -⟩ := (mem_catalogOf within entry).mp listed
  exact valid_of_contains hleads.contained hleads.named

end Catalog

/-- Discovery within its bounds: the catalog has strictly increasing ids, and of each id the entry its
    winner is read to be, or none; a policy leaves the part it permits; a client that follows the
    cursors, in a session with any past, sees that part once and in order; and what it sees can be
    launched. -/
theorem catalog_exact (host : Host) (desktops : List Str) (roots : List DataRoot)
    (within : Within host desktops roots) (policy : LaunchPolicy) :
    ∃ catalog, discoverAll host = .ok catalog ∧
      (catalog.map fun entry => idKey entry.descriptor.id).Pairwise (· < ·) ∧
      (∀ entry, entry ∈ catalog ↔ ∃ root file,
        Winner host.fs roots entry.descriptor.id root file ∧
        readEntry host file.path entry.descriptor.id root.userEntry desktops = some entry) ∧
      (∀ id root file, Winner host.fs roots id root file →
        readEntry host file.path id root.userEntry desktops = none →
        ∀ entry ∈ catalog, entry.descriptor.id ≠ id) ∧
      discover host policy = .ok (permitted policy catalog) ∧
      (∀ (client : Client) (session : SessionCatalog), client.Follows → client.host 0 = host →
        ∃ requests pages, (∀ fuel, requests ≤ fuel →
          follow policy client fuel 0 0 session = some (.ok pages)) ∧
          pages.flatMap (fun p => p.applications.asSlice) =
            (permitted policy catalog).map CatalogEntry.descriptor) ∧
      ∀ entry ∈ permitted policy catalog,
        ApplicationLaunchRequest.validate ⟨entry.descriptor.id⟩ = .ok () ∧
        launchedEntry host policy entry.descriptor.id = .ok entry := by
  refine ⟨catalogOf host desktops roots, discoverAll_within within,
    catalogOf_increasing host desktops roots, mem_catalogOf within,
    fun id root file wins unreadable => absent_of_winner within wins unreadable,
    discover_within within, fun client session follows same => ?_, fun entry listed =>
      ⟨valid_of_listed within (List.mem_filter.mp listed).1, launchedEntry_listed within listed⟩⟩
  have hdiscovers : discover (client.host 0) policy =
      .ok (permitted policy (catalogOf host desktops roots)) := by
    rw [same]
    exact discover_within within
  have hlength : (permitted policy (catalogOf host desktops roots)).length ≤
      maxInstalledApplications :=
    (List.length_filter_le _ _).trans (catalogOf_length within)
  have hsmall : maxInstalledApplications ≤ X11.u32Max := by decide
  obtain ⟨pages, hpages, hlisted⟩ := @follow_pages policy client session follows _ hdiscovers
    (by omega) _ (Nat.lt_succ_self _)
  exact ⟨_, pages, fun fuel hfuel => follow_more hpages hfuel, hlisted⟩

/-! ### Two roots -/

def userApplications : Bytes := ascii "/h/.local/share/applications"
def systemApplications : Bytes := ascii "/s/applications"

/-- The user has `a/b.desktop`, which hides what the system has as `a-b.desktop`. -/
def shadowNames (path : Bytes) : Option (List FileName) :=
  let named (names : List String) := some (names.filterMap fun name => FileName.ofBytes (ascii name))
  if path = userApplications then named ["a"]
  else if path = join userApplications (ascii "a") then named ["b.desktop"]
  else if path = systemApplications then named ["c.desktop", "a-b.desktop"]
  else none

def shadowContent (path : Bytes) : Option Bytes :=
  if path = join (join userApplications (ascii "a")) (ascii "b.desktop") then
    some (ascii "[Desktop Entry]\nHidden=true\nType=Application\nName=B\nExec=/x\n")
  else if path = join systemApplications (ascii "a-b.desktop") ∨
      path = join systemApplications (ascii "c.desktop") then
    some (ascii "[Desktop Entry]\nType=Application\nName=C\nExec=/x\n")
  else none

def shadowMetadata (path : Bytes) : Option Metadata :=
  if path = ascii "/x" then some ⟨.file, 0o755, 0, 0, 0⟩
  else if (shadowNames path).isSome then some ⟨.dir, 0o755, 0, 0, 0⟩
  else (shadowContent path).map fun content => ⟨.file, 0o644, 0, 0, content.length⟩

def shadowHost : Host where
  env := ⟨none, some (ascii "/h"), some (ascii "/s"), none, none, ⟨none, none, none⟩⟩
  fs := ⟨shadowMetadata, shadowMetadata, shadowNames, fun path =>
    (shadowContent path).map fun content => ⟨shadowMetadata path, some content⟩⟩

def shadowRoots : List DataRoot := [⟨userApplications, true⟩, ⟨systemApplications, false⟩]

def allowInstalled : LaunchPolicy := ⟨.allowInstalled, .empty, .empty, true⟩

theorem catalog_exact_shadow :
    ∃ catalog, discoverAll shadowHost = .ok catalog ∧
      catalog.map (fun entry => entry.descriptor.id.asStr) = ["c.desktop"] ∧
      ∀ entry ∈ permitted allowInstalled catalog,
        launchedEntry shadowHost allowInstalled entry.descriptor.id = .ok entry := by
  have hscans : ∀ root ∈ shadowRoots, scanCount shadowHost.fs root.applications ≤ maxScannedPaths := by
    decide +kernel
  have hfew : 0 + (decisive shadowHost.fs shadowRoots).length ≤ maxInstalledApplications := by
    decide +kernel
  have within : Within shadowHost [] shadowRoots := ⟨rfl, rfl, hscans, hasRoom_of_length hfew⟩
  have hids : ((discoverAll shadowHost).toOption.map fun catalog =>
      catalog.map fun entry => entry.descriptor.id.asStr) = some ["c.desktop"] := by decide +kernel
  obtain ⟨catalog, hcatalog, -, -, -, -, -, hlaunch⟩ :=
    catalog_exact shadowHost [] shadowRoots within allowInstalled
  rw [hcatalog] at hids
  exact ⟨catalog, hcatalog, Option.some.inj hids, fun entry listed => (hlaunch entry listed).2⟩

end AgentSeat.Launch
