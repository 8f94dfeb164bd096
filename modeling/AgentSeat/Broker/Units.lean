/-
  The four units of an enrollment, and how a service manager reads a unit (`contrib/systemd`).

  A unit is read line by line into headings and assignments; a line that ends with a backslash goes on
  in the next one. Filling in the places of a source changes the value of the assignments they are in
  and nothing else, if no value holds the end of a line (`readUnit_fill`); only a place that is a line
  of its own may stand for several lines.
-/
import AgentSeat.Broker.InputSet
import AgentSeat.Lib.Template

namespace AgentSeat.Broker

open AgentSeat.Lib AgentSeat.Lib.Json AgentSeat.Lib.Paths AgentSeat.Lib.Text AgentSeat.Lib.Template

/-! ## The sources -/

def brokerServiceLines : List Bytes := [
    "# Enrollment renders this source as one uniquely named persistent .service unit.",
    "# It is deliberately not installable or runnable with placeholders intact.",
    "[Unit]",
    "Description=Agent Seat physical-activity broker connection",
    "Documentation=https://github.com/ZaguanLabs/agent-seat-proto",
    "Requires=@SOCKET_UNIT@",
    "Requires=@ELIGIBILITY_SOCKET_UNIT@",
    "After=@SOCKET_UNIT@ @ELIGIBILITY_SOCKET_UNIT@",
    "StartLimitIntervalSec=infinity",
    "StartLimitBurst=1",
    "CollectMode=inactive-or-failed",
    "",
    "[Service]",
    "Type=exec",
    "DynamicUser=yes",
    "StandardInput=file:@ELIGIBILITY_PATH@",
    "StandardOutput=socket",
    "StandardError=journal",
    "ExecStart=@BROKER_EXEC@ --uid @PROVIDER_UID@",
    "OpenFile=@DEVICE_SET_PATH@:enrolled-device-set:read-only",
    "@EVENT_OPEN_FILES@",
    "",
    "# Passed descriptors are usable, but the process cannot open devices or sockets.",
    "DevicePolicy=strict",
    "@EVENT_DEVICE_ALLOW@",
    "PrivateDevices=yes",
    "PrivateNetwork=yes",
    "RestrictAddressFamilies=none",
    "SystemCallArchitectures=native",
    "SystemCallFilter=@system-service",
    "SystemCallErrorNumber=EPERM",
    "",
    "# The dedicated account retains no machine-administration authority.",
    "NoNewPrivileges=yes",
    "CapabilityBoundingSet=",
    "AmbientCapabilities=",
    "LockPersonality=yes",
    "MemoryDenyWriteExecute=yes",
    "RestrictNamespaces=yes",
    "RestrictRealtime=yes",
    "RestrictSUIDSGID=yes",
    "RemoveIPC=yes",
    "",
    "# Only the executable, loader, own process descriptors, and inherited FDs are needed.",
    "ProtectSystem=strict",
    "ProtectHome=yes",
    "PrivateTmp=yes",
    "ProtectProc=invisible",
    "ProcSubset=pid",
    "ProtectClock=yes",
    "ProtectControlGroups=yes",
    "ProtectHostname=yes",
    "ProtectKernelLogs=yes",
    "ProtectKernelModules=yes",
    "ProtectKernelTunables=yes",
    "UnsetEnvironment=DISPLAY XAUTHORITY WAYLAND_DISPLAY DBUS_SESSION_BUS_ADDRESS SSH_AUTH_SOCK",
    "TemporaryFileSystem=/run:ro",
    "NoExecPaths=/",
    "ExecPaths=@BROKER_EXEC@ -/usr/lib -/usr/lib64 -/lib -/lib64",
    "",
    "# Bounds are part of the service contract, not tuning suggestions.",
    "UMask=0077",
    "TasksMax=2",
    "LimitNOFILE=64",
    "LimitCORE=0",
    "MemoryMax=32M",
    "CPUQuota=10%",
    "KillMode=mixed",
    "Restart=no"].map ascii

def brokerSocketLines : List Bytes := [
    "# Enrollment renders this source as a uniquely named .socket unit.",
    "# There is intentionally no [Install] section: arming is an explicit start.",
    "[Unit]",
    "Description=Agent Seat physical-activity broker socket",
    "Documentation=https://github.com/ZaguanLabs/agent-seat-proto",
    "",
    "[Socket]",
    "ListenStream=@BROKER_SOCKET@",
    "SocketUser=@PROVIDER_UID@",
    "SocketMode=0600",
    "# Root owns the parent. Execute-only traversal lets the enrolled UID reach the",
    "# exact 0600 socket without listing or replacing entries in the directory.",
    "DirectoryMode=0711",
    "Accept=no",
    "Backlog=1",
    "RemoveOnStop=yes"].map ascii

def guardServiceLines : List Bytes := [
    "# Enrollment renders this source as one uniquely named eligibility service.",
    "# It has logind and input-class metadata visibility but no event-node or display authority.",
    "[Unit]",
    "Description=Agent Seat session-eligibility guard",
    "Documentation=https://github.com/ZaguanLabs/agent-seat-proto",
    "Requires=@ELIGIBILITY_SOCKET_UNIT@",
    "After=@ELIGIBILITY_SOCKET_UNIT@ dbus.socket systemd-logind.service",
    "StartLimitIntervalSec=infinity",
    "StartLimitBurst=1",
    "CollectMode=inactive-or-failed",
    "",
    "[Service]",
    "Type=exec",
    "User=@GUARD_USER@",
    "StandardInput=socket",
    "StandardOutput=journal",
    "StandardError=journal",
    "ExecStart=@GUARD_EXEC@ --session @SESSION_ID@ --uid @PROVIDER_UID@ --seat seat0 --listen-stdin --peer-uid 0",
    "OpenFile=@INPUT_SET_PATH@:initial-input-set:read-only",
    "",
    "DevicePolicy=strict",
    "PrivateDevices=yes",
    "PrivateNetwork=yes",
    "# AF_NETLINK is used only for the kernel kobject-uevent group. PrivateNetwork",
    "# keeps other network-namespace metadata outside the service's view.",
    "RestrictAddressFamilies=AF_UNIX AF_NETLINK",
    "SystemCallArchitectures=native",
    "SystemCallFilter=@system-service",
    "SystemCallErrorNumber=EPERM",
    "",
    "NoNewPrivileges=yes",
    "CapabilityBoundingSet=",
    "AmbientCapabilities=",
    "LockPersonality=yes",
    "MemoryDenyWriteExecute=yes",
    "RestrictNamespaces=yes",
    "RestrictRealtime=yes",
    "RestrictSUIDSGID=yes",
    "RemoveIPC=yes",
    "",
    "ProtectSystem=strict",
    "ProtectHome=yes",
    "PrivateTmp=yes",
    "ProtectProc=invisible",
    "ProcSubset=pid",
    "ProtectClock=yes",
    "ProtectControlGroups=yes",
    "ProtectHostname=yes",
    "ProtectKernelLogs=yes",
    "ProtectKernelModules=yes",
    "ProtectKernelTunables=yes",
    "UnsetEnvironment=DISPLAY XAUTHORITY WAYLAND_DISPLAY DBUS_SESSION_BUS_ADDRESS SSH_AUTH_SOCK",
    "TemporaryFileSystem=/run:ro",
    "BindReadOnlyPaths=/run/dbus/system_bus_socket",
    "NoExecPaths=/",
    "ExecPaths=@GUARD_EXEC@ -/usr/lib -/usr/lib64 -/lib -/lib64",
    "",
    "UMask=0077",
    "TasksMax=2",
    "LimitNOFILE=32",
    "LimitCORE=0",
    "MemoryMax=32M",
    "CPUQuota=10%",
    "KillMode=mixed",
    "Restart=no"].map ascii

def guardSocketLines : List Bytes := [
    "# Enrollment renders this source as a uniquely named .socket unit.",
    "# There is intentionally no [Install] section: arming is an explicit start.",
    "[Unit]",
    "Description=Agent Seat session-eligibility socket",
    "Documentation=https://github.com/ZaguanLabs/agent-seat-proto",
    "",
    "[Socket]",
    "ListenStream=@ELIGIBILITY_SOCKET@",
    "SocketMode=0600",
    "DirectoryMode=0711",
    "Accept=no",
    "Backlog=1",
    "RemoveOnStop=yes",
    "Service=@ELIGIBILITY_SERVICE_UNIT@"].map ascii

/-! ## Reading a unit -/

inductive Entry where
  | heading (line : Bytes)
  | assignment (key value : Bytes)
  | other (line : Bytes)
  deriving DecidableEq

def readLine (line : Bytes) : Option Entry :=
  match line with
  | [] => none
  | first :: _ =>
    if first = 35 ∨ first = 59 then none
    else if first = 91 then some (.heading line)
    else match splitOnce 61 line with
      | some (key, value) => some (.assignment key value)
      | none => some (.other line)

/-- A backslash at the end of a line stands for a blank. -/
def joinContinued : List Bytes → List Bytes
  | [] => []
  | line :: lines =>
    if line.getLast? = some 92 then
      match joinContinued lines with
      | [] => [line.dropLast]
      | next :: rest => (line.dropLast ++ 32 :: next) :: rest
    else line :: joinContinued lines

def readUnit (text : Bytes) : List Entry := (joinContinued (text.splitOn 10)).filterMap readLine

/-- The values of the assignments to a key, in order. -/
def assigned (key : String) (unit : List Entry) : List Bytes :=
  unit.filterMap fun
    | .assignment key' value => if key' = ascii key then some value else none
    | _ => none

/-! ## Places -/

/-- What the name of a place is made of. -/
def isMarkLetter (byte : UInt8) : Bool := within 0x41 0x5a byte || byte = 0x5f

abbrev Values := Bytes → Option Bytes

/-- A text with the values in the places `@NAME@`. -/
abbrev filled (values : Values) (text : Bytes) : Bytes := fillText 64 isMarkLetter values text

/-- An entry of a source with the values in its places: one in an assignment is filled where it is,
    another line is read as what it then says. -/
def Entry.fill (values : Values) : Entry → List Entry
  | .heading line => [.heading line]
  | .assignment key value => [.assignment key (filled values value)]
  | .other line => ((filled values line).splitOn 10).filterMap readLine

/-- A line of a source is one line, and has places only in the value of an assignment, or is no
    assignment at all. The listed places, which may stand for several lines, are not in an
    assignment. -/
def steady (listed : List Bytes) (line : Bytes) : Bool :=
  !line.contains 10 && !line.contains 92 && (!line.contains 64 ||
    match readLine line with
    | some (.assignment key value) => !key.contains 64 &&
        listed.all fun name => !(tokenise 64 isMarkLetter value).contains (.mark name)
    | some (.other _) => true
    | _ => false)

/-- Values that do not disturb a unit. -/
def Harmless (listed : List Bytes) (values : Values) : Prop :=
  ∀ name value, values name = some value → 92 ∉ value ∧ (name ∉ listed → 10 ∉ value)

theorem joinContinued_eq : ∀ {lines : List Bytes}, (∀ line ∈ lines, 92 ∉ line) →
    joinContinued lines = lines
  | [], _ => rfl
  | line :: lines, h => by
    have hline : line.getLast? ≠ some 92 := fun hlast =>
      h line List.mem_cons_self (List.mem_of_getLast? hlast)
    unfold joinContinued
    rw [if_neg hline, joinContinued_eq fun l hl => h l (List.mem_cons_of_mem line hl)]

theorem readUnit_eq {text : Bytes} (h : 92 ∉ text) :
    readUnit text = (text.splitOn 10).filterMap readLine := by
  unfold readUnit
  rw [joinContinued_eq fun line hline hmem => h (mem_of_mem_splitOn hline hmem)]

theorem filled_unlines (values : Values) (lines : List Bytes) :
    filled values (unlines 10 lines) = unlines 10 (lines.map (filled values)) := by
  induction lines with
  | nil => rfl
  | cons line lines ih =>
    show filled values (line ++ [10] ++ unlines 10 lines) = _
    rw [List.append_assoc, List.singleton_append]
    show fillText 64 isMarkLetter values (line ++ 10 :: unlines 10 lines) = _
    rw [fillText_break (by decide) (by decide)]
    show filled values line ++ 10 :: filled values (unlines 10 lines) = _
    rw [ih]
    simp [unlines]

/-- Whether a line is an assignment is decided before its value. -/
theorem readLine_assignment {line key value : Bytes} (h : readLine line = some (.assignment key value)) :
    line = key ++ 61 :: value ∧
      ∀ value', readLine (key ++ 61 :: value') = some (.assignment key value') := by
  unfold readLine at h
  cases line with
  | nil => cases h
  | cons first rest =>
    dsimp only at h
    by_cases hcomment : first = 35 ∨ first = 59
    · rw [if_pos hcomment] at h
      cases h
    rw [if_neg hcomment] at h
    by_cases hheading : first = 91
    · rw [if_pos hheading] at h
      cases h
    rw [if_neg hheading] at h
    cases hsplit : splitOnce 61 (first :: rest) with
    | none => rw [hsplit] at h; cases h
    | some parts =>
      rw [hsplit] at h
      obtain ⟨rfl, rfl⟩ := Entry.assignment.inj (Option.some.inj h)
      obtain ⟨hline, hkey⟩ := splitOnce_some hsplit
      refine ⟨hline, fun value' => ?_⟩
      have hfirst : ∃ tail, parts.1 ++ 61 :: value' = first :: tail := by
        cases hparts : parts.1 with
        | nil =>
          rw [hparts] at hline
          exact ⟨value', by rw [(List.cons.inj hline).1]; rfl⟩
        | cons c key =>
          rw [hparts] at hline
          exact ⟨key ++ 61 :: value', by rw [(List.cons.inj hline).1]; rfl⟩
      obtain ⟨tail, htail⟩ := hfirst
      have hsplit' := splitOnce_append value' hkey
      rw [htail] at hsplit' ⊢
      unfold readLine
      dsimp only
      rw [if_neg hcomment, if_neg hheading, hsplit']

theorem readLine_other {line other : Bytes} (h : readLine line = some (.other other)) :
    other = line := by
  unfold readLine at h
  cases line with
  | nil => cases h
  | cons first rest =>
    dsimp only at h
    split_ifs at h
    · cases h
    · split at h
      · cases h
      · exact (Entry.other.inj (Option.some.inj h)).symm

/-- An entry without places stays what it is. -/
theorem fill_plain {line : Bytes} {entry : Entry} {values : Values} (hplain : 64 ∉ line)
    (hline : 10 ∉ line) (h : readLine line = some entry) : entry.fill values = [entry] := by
  cases entry with
  | heading heading => rfl
  | assignment key value =>
    obtain ⟨rfl, -⟩ := readLine_assignment h
    have hvalue : 64 ∉ value := fun hmem =>
      hplain (List.mem_append_right key (List.mem_cons_of_mem 61 hmem))
    show [Entry.assignment key (fillText 64 isMarkLetter values value)] = _
    rw [fillText_of_not_mem hvalue]
  | other other =>
    obtain rfl := readLine_other h
    show ((fillText 64 isMarkLetter values other).splitOn 10).filterMap readLine = _
    rw [fillText_of_not_mem hplain, List.splitOn_eq_singleton hline]
    simp [h]

/-- One line of a source, filled and read, or read and filled. -/
theorem readLine_fill {listed : List Bytes} {values : Values} {line : Bytes}
    (hsteady : steady listed line = true) (hvalues : Harmless listed values) :
    ((filled values line).splitOn 10).filterMap readLine =
      (readLine line).toList.flatMap (Entry.fill values) := by
  simp only [steady, Bool.and_eq_true, Bool.not_eq_true', List.contains_eq_mem,
    decide_eq_false_iff_not, Bool.or_eq_true] at hsteady
  obtain ⟨⟨hline, -⟩, hplaces⟩ := hsteady
  obtain hplain | hplaces := hplaces
  · show ((fillText 64 isMarkLetter values line).splitOn 10).filterMap readLine = _
    rw [fillText_of_not_mem hplain, List.splitOn_eq_singleton hline]
    cases hentry : readLine line with
    | none => simp [hentry]
    | some entry => simp [hentry, fill_plain hplain hline hentry]
  · cases hentry : readLine line with
    | none => rw [hentry] at hplaces; cases hplaces
    | some entry =>
      rw [hentry] at hplaces
      cases entry with
      | heading heading => cases hplaces
      | other other =>
        obtain rfl := readLine_other hentry
        simp [Entry.fill]
      | assignment key value =>
        simp only [Bool.and_eq_true, Bool.not_eq_true', decide_eq_false_iff_not,
          List.all_eq_true] at hplaces
        obtain ⟨hkey, hlisted⟩ := hplaces
        obtain ⟨rfl, hread⟩ := readLine_assignment hentry
        have hstart : 64 ∉ key ++ [61] := by simpa using hkey
        have hfilled : filled values (key ++ 61 :: value) = key ++ 61 :: filled values value := by
          have happend : fillText 64 isMarkLetter values (key ++ [61] ++ value) =
              key ++ [61] ++ fillText 64 isMarkLetter values value := fillText_append hstart value
          simpa using happend
        have hone : 10 ∉ key ++ 61 :: filled values value := by
          intro hmem
          obtain hmem | hmem := List.mem_append.mp hmem
          · exact hline (List.mem_append_left _ hmem)
          · obtain hmem | hmem := List.mem_cons.mp hmem
            · cases hmem
            · obtain hmem | ⟨name, v, hname, hv, hmem⟩ := mem_fillText hmem
              · exact hline (List.mem_append_right key (List.mem_cons_of_mem 61 hmem))
              · refine (hvalues name v hv).2 (fun hin => ?_) hmem
                exact (hlisted name hin) hname
        rw [hfilled, List.splitOn_eq_singleton hone]
        simp [hread, Entry.fill]

theorem readLines_fill {listed : List Bytes} {values : Values} (hvalues : Harmless listed values) :
    ∀ {lines : List Bytes}, (∀ line ∈ lines, steady listed line = true) →
      ((lines.map (filled values)).flatMap (·.splitOn 10)).filterMap readLine =
        (lines.filterMap readLine).flatMap (Entry.fill values)
  | [], _ => rfl
  | line :: lines, h => by
    have ih := readLines_fill hvalues fun l hl => h l (List.mem_cons_of_mem line hl)
    rw [List.map_cons, List.flatMap_cons, List.filterMap_append,
      readLine_fill (h line List.mem_cons_self) hvalues, ih, List.filterMap_cons]
    cases readLine line with
    | none => rfl
    | some entry => simp

/-- Reading a unit that was filled in is reading its source and filling in the entries. -/
theorem readUnit_fill {listed : List Bytes} {values : Values} {lines : List Bytes}
    (hsteady : lines.all (steady listed) = true) (hvalues : Harmless listed values) :
    readUnit (filled values (unlines 10 lines)) =
      (readUnit (unlines 10 lines)).flatMap (Entry.fill values) := by
  rw [List.all_eq_true] at hsteady
  have hsource : ∀ line ∈ lines, 10 ∉ line ∧ 92 ∉ line := by
    intro line hline
    have h := hsteady line hline
    simp only [steady, Bool.and_eq_true, Bool.not_eq_true', List.contains_eq_mem,
      decide_eq_false_iff_not] at h
    exact h.1
  have hback : 92 ∉ unlines 10 lines := by
    intro hmem
    obtain ⟨line, hline, hmem⟩ := List.mem_flatMap.mp hmem
    obtain hmem | hmem := List.mem_append.mp hmem
    · exact (hsource line hline).2 hmem
    · cases List.mem_singleton.mp hmem
  have hfilled : 92 ∉ filled values (unlines 10 lines) := by
    intro hmem
    obtain hmem | ⟨name, value, -, hvalue, hmem⟩ := mem_fillText hmem
    · exact hback hmem
    · exact (hvalues name value hvalue).1 hmem
  rw [readUnit_eq hfilled, readUnit_eq hback, filled_unlines, splitOn_unlines_flatMap,
    splitOn_unlines fun line hline => (hsource line hline).1]
  rw [List.filterMap_append, List.filterMap_append, List.flatMap_append,
    readLines_fill hvalues hsteady]
  rfl

end AgentSeat.Broker
