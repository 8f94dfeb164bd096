/-
  The two readers of the advertisement: the companion's (`discovery.rs`) and the provider's own, for its
  control commands (`advertised_socket` of `ownership.rs`).

  Both ask the server the same questions, in the same order: the owner of the selection, the property
  of its window and of the root, and the owner once more. What they are answered is a `Replies`. They
  differ in what they make of a discovery that fails, and not in what they find
  (`discovery_agrees`).
-/
import AgentSeat.Proto.Advertisement
import AgentSeat.X11.Desktop

namespace AgentSeat.X11

open AgentSeat.Lib AgentSeat.Lib.Text AgentSeat.Proto

/-! ## What is asked -/

/-- The window or atom that is none. -/
def noneId : Nat := 0

/-- The answers to one discovery, and the environment it is made in. A property that is not there has
    the type `noneId`. -/
structure Replies where
  display : Option (List UInt8)
  root : Except String (Option Window)
  selection : Except String Atom
  owner : Except String Window
  property : Except String Atom
  utf8 : Except String Atom
  ownerProperty : Except String PropertyReply
  rootProperty : Except String PropertyReply
  currentOwner : Except String Window

/-- The reply is a whole text within its bound. -/
def PropertyReply.isText (reply : PropertyReply) (utf8 : Atom) : Bool :=
  reply.type = utf8 && reply.format = 8 && reply.bytesAfter = 0 &&
    reply.value.length ≤ maxAdvertisementBytes

/-! ## The provider's reader -/

def x11Error {α : Type} : Except String α → Except String α
  | .ok a => .ok a
  | .error error => .error s!"X11 provider ownership failed: {error}"

def readAdvertisement (reply : Except String PropertyReply) (utf8 : Nat) :
    Except String (List UInt8) := do
  let reply ← x11Error reply
  if reply.isText utf8 then return reply.value
  else .error "the X11 Agent Seat advertisement has invalid type, format, or size"

def selectedRoot : Except String (Option Nat) → Except String Nat
  | .error error => .error s!"cannot inspect X11 Agent Seat discovery: {error}"
  | .ok none => .error "cannot inspect X11 Agent Seat discovery: selected screen is absent"
  | .ok (some root) => .ok root

/-- What is made of two equal properties of an owner that has not changed. -/
def encodedSocket (value : List UInt8) : Except String (List UInt8) :=
  if validUtf8 value = false then .error "the X11 Agent Seat advertisement is not UTF-8"
  else
    match Advertisement.parse value with
    | .error error => .error s!"invalid X11 Agent Seat advertisement: {error.text}"
    | .ok advertisement => .ok advertisement.socket

def advertisedSocket (r : Replies) : Except String (List UInt8) := do
  let _ ← selectedRoot r.root
  let selection ← x11Error r.selection
  if selection = noneId then
    .error "no Agent Seat provider is advertised on the selected X11 screen"
  else do
    let owner ← x11Error r.owner
    if owner = noneId then .error "no Agent Seat provider is advertised on the selected X11 screen"
    else do
      let property ← x11Error r.property
      let utf8 ← x11Error r.utf8
      if property = noneId ∨ utf8 = noneId then
        .error "the selected X11 screen has no Agent Seat advertisement atoms"
      else do
        let ownerValue ← readAdvertisement r.ownerProperty utf8
        let rootValue ← readAdvertisement r.rootProperty utf8
        if ownerValue ≠ rootValue then .error "the X11 Agent Seat advertisements do not match"
        else do
          let currentOwner ← x11Error r.currentOwner
          if currentOwner ≠ owner then
            .error "the X11 Agent Seat provider changed during discovery"
          else encodedSocket rootValue

/-! ## The companion's reader -/

inductive DiscoveryError where
  | invalidPath (source : String)
  | x11 (error : String)
  | advertisement (error : AdvertisementError)
  | advertisementShape (error : String)
  | advertisementUtf8

namespace DiscoveryError

def code : DiscoveryError → String
  | .invalidPath _ => "invalid_argument"
  | .advertisement .revision => "incompatible_revision"
  | .x11 _ => "unavailable"
  | .advertisement _ => "malformed"
  | .advertisementShape _ => "malformed"
  | .advertisementUtf8 => "malformed"

def retry : DiscoveryError → String
  | .invalidPath _ => "never"
  | .advertisement .revision => "never"
  | _ => "reconnect"

def text : DiscoveryError → String
  | .invalidPath source => s!"{source} is not a bounded absolute socket path"
  | .x11 error => s!"cannot inspect X11 Agent Seat discovery: {error}"
  | .advertisement error => s!"invalid Agent Seat advertisement: {error.text}"
  | .advertisementShape error => s!"invalid Agent Seat advertisement: {error}"
  | .advertisementUtf8 => "invalid Agent Seat advertisement: property is not UTF-8"

end DiscoveryError

def maxSocketPathBytes : Nat := 107

def validatePath (path : List UInt8) (source : String) : Except DiscoveryError (List UInt8) :=
  if path = [] ∨ path.head? ≠ some 47 ∨ 0 ∈ path ∨ path.length > maxSocketPathBytes then
    .error (.invalidPath source)
  else .ok path

def x11 {α : Type} : Except String α → Except DiscoveryError α
  | .ok a => .ok a
  | .error error => .error (.x11 error)

def readProperty (reply : Except String PropertyReply) (utf8 : Nat) :
    Except DiscoveryError (Option (List UInt8)) := do
  let reply ← x11 reply
  if reply.type = noneId then return none
  else if reply.isText utf8 then return some reply.value
  else .error (.advertisementShape "property type, format, or size is invalid")

def readEncoded (value : List UInt8) : Except DiscoveryError (Option (List UInt8)) :=
  if validUtf8 value = false then .error .advertisementUtf8
  else
    match Advertisement.parse value with
    | .error error => .error (.advertisement error)
    | .ok advertisement => (validatePath advertisement.socket "_AGENT_SEAT").map some

def discoverX11 (r : Replies) : Except DiscoveryError (Option (List UInt8)) :=
  if r.display = none ∨ r.display = some [] then .ok none
  else do
    let root ← x11 r.root
    if root = none then .error (.x11 "selected screen is absent")
    else do
      let selection ← x11 r.selection
      if selection = noneId then return none
      else do
        let owner ← x11 r.owner
        if owner = noneId then return none
        else do
          let property ← x11 r.property
          let utf8 ← x11 r.utf8
          if property = noneId ∨ utf8 = noneId then return none
          else do
            let ownerValue ← readProperty r.ownerProperty utf8
            if ownerValue = none then return none
            else do
              let rootValue ← readProperty r.rootProperty utf8
              match rootValue with
              | none => return none
              | some value =>
                if ownerValue ≠ some value then return none
                else do
                  let currentOwner ← x11 r.currentOwner
                  if currentOwner ≠ owner then return none else readEncoded value

/-- The one source that is used: the argument, the environment, or else the server. -/
def resolve (explicit environment : Option (List UInt8)) (r : Replies) :
    Except DiscoveryError (Option (List UInt8)) :=
  match explicit with
  | some path => (validatePath path "--socket").map some
  | none =>
    match environment with
    | some path => (validatePath path "AGENT_SEAT_SOCKET").map some
    | none => discoverX11 r

/-! ## What a discovery finds -/

/-- The answers that lead to the socket of an advertisement. -/
structure Replies.Finds (r : Replies) (a : Advertisement) : Prop where
  root : ∃ root, r.root = .ok (some root)
  selection : ∃ selection, r.selection = .ok selection ∧ selection ≠ noneId
  owner : ∃ owner, r.owner = .ok owner ∧ owner ≠ noneId ∧ r.currentOwner = .ok owner
  property : ∃ property, r.property = .ok property ∧ property ≠ noneId
  texts : ∃ utf8 first second, r.utf8 = .ok utf8 ∧ utf8 ≠ noneId ∧ r.ownerProperty = .ok first ∧
    r.rootProperty = .ok second ∧ first.isText utf8 = true ∧ second.isText utf8 = true ∧
      first.value = a.encode ∧ second.value = a.encode ∧ validUtf8 a.encode = true

theorem x11Error_ok {α : Type} {x : Except String α} {a : α} (h : x11Error x = .ok a) :
    x = .ok a := by
  cases x with
  | error error => cases h
  | ok b => exact h

theorem x11_ok {α : Type} {x : Except String α} {a : α} (h : x11 x = .ok a) : x = .ok a := by
  cases x with
  | error error => cases h
  | ok b => exact congrArg Except.ok (Except.ok.inj h)

theorem selectedRoot_ok {x : Except String (Option Nat)} {root : Nat}
    (h : selectedRoot x = .ok root) : x = .ok (some root) := by
  unfold selectedRoot at h
  split at h
  · cases h
  · cases h
  · exact congrArg (fun root => Except.ok (some root)) (Except.ok.inj h)

theorem readAdvertisement_ok {reply : Except String PropertyReply} {utf8 : Nat} {value : List UInt8}
    (h : readAdvertisement reply utf8 = .ok value) :
    ∃ found, reply = .ok found ∧ found.isText utf8 = true ∧ found.value = value := by
  obtain ⟨found, hfound, h⟩ := except_bind_ok h
  split_ifs at h with htext
  exact ⟨found, x11Error_ok hfound, htext, Except.ok.inj h⟩

theorem readProperty_some {reply : Except String PropertyReply} {utf8 : Nat} {value : List UInt8}
    (h : readProperty reply utf8 = .ok (some value)) :
    ∃ found, reply = .ok found ∧ found.isText utf8 = true ∧ found.value = value := by
  obtain ⟨found, hfound, h⟩ := except_bind_ok h
  split_ifs at h with hnone htext
  · cases h
  · exact ⟨found, x11_ok hfound, htext, Option.some.inj (Except.ok.inj h)⟩

theorem validatePath_socket (a : Advertisement) (source : String) :
    validatePath a.socket source = .ok a.socket := by
  obtain ⟨hne, hhead, hnul, hlength⟩ := a.socket_plain
  unfold validatePath maxSocketPathBytes
  rw [if_neg]
  simp only [not_or, not_not, Nat.not_lt]
  exact ⟨hne, hhead, hnul, hlength⟩

theorem readEncoded_some {value path : List UInt8} (h : readEncoded value = .ok (some path)) :
    ∃ a, value = Advertisement.encode a ∧ validUtf8 value = true ∧ path = a.socket := by
  unfold readEncoded at h
  split_ifs at h with hutf8
  split at h
  · cases h
  · next a ha =>
    rw [validatePath_socket] at h
    exact ⟨a, Advertisement.parse_iff.mp ha, Bool.not_eq_false _ ▸ hutf8,
      (Option.some.inj (Except.ok.inj h)).symm⟩

theorem encodedSocket_ok {value path : List UInt8} (h : encodedSocket value = .ok path) :
    ∃ a, value = Advertisement.encode a ∧ validUtf8 value = true ∧ path = a.socket := by
  unfold encodedSocket at h
  split_ifs at h with hutf8
  split at h
  · cases h
  · next a ha =>
    exact ⟨a, Advertisement.parse_iff.mp ha, Bool.not_eq_false _ ▸ hutf8, (Except.ok.inj h).symm⟩

theorem advertisedSocket_ok {r : Replies} {path : List UInt8} (h : advertisedSocket r = .ok path) :
    ∃ a, r.Finds a ∧ path = a.socket := by
  obtain ⟨root, hroot, h⟩ := except_bind_ok h
  obtain ⟨selection, hselection, h⟩ := except_bind_ok h
  split_ifs at h with hnone
  obtain ⟨owner, howner, h⟩ := except_bind_ok h
  split_ifs at h with hunowned
  obtain ⟨property, hproperty, h⟩ := except_bind_ok h
  obtain ⟨utf8, hutf8, h⟩ := except_bind_ok h
  split_ifs at h with hatoms
  obtain ⟨ownerValue, hfirst, h⟩ := except_bind_ok h
  obtain ⟨rootValue, hsecond, h⟩ := except_bind_ok h
  split_ifs at h with hmatch
  obtain ⟨currentOwner, hcurrent, h⟩ := except_bind_ok h
  split_ifs at h with hchanged
  obtain ⟨a, hvalue, hencoding, hpath⟩ := encodedSocket_ok h
  obtain rfl := not_not.mp hmatch
  obtain rfl := not_not.mp hchanged
  simp only [not_or] at hatoms
  obtain ⟨first, hfirst, htext, hsame⟩ := readAdvertisement_ok hfirst
  obtain ⟨second, hsecond, htext', hsame'⟩ := readAdvertisement_ok hsecond
  exact ⟨a, ⟨⟨root, selectedRoot_ok hroot⟩, ⟨selection, x11Error_ok hselection, hnone⟩,
    ⟨currentOwner, x11Error_ok howner, hunowned, x11Error_ok hcurrent⟩,
    ⟨property, x11Error_ok hproperty, hatoms.1⟩,
    ⟨utf8, first, second, x11Error_ok hutf8, hatoms.2, hfirst, hsecond, htext, htext',
      hsame.trans hvalue, hsame'.trans hvalue, hvalue ▸ hencoding⟩⟩, hpath⟩

theorem discoverX11_some {r : Replies} {path : List UInt8} (h : discoverX11 r = .ok (some path)) :
    (∃ byte rest, r.display = some (byte :: rest)) ∧ ∃ a, r.Finds a ∧ path = a.socket := by
  unfold discoverX11 at h
  split_ifs at h with hdisplay
  · cases h
  simp only [not_or] at hdisplay
  refine ⟨?_, ?_⟩
  · obtain ⟨display, hsome⟩ := Option.ne_none_iff_exists'.mp hdisplay.1
    cases display with
    | nil => exact absurd hsome hdisplay.2
    | cons byte rest => exact ⟨byte, rest, hsome⟩
  obtain ⟨root, hroot, h⟩ := except_bind_ok h
  split_ifs at h with habsent
  obtain ⟨selection, hselection, h⟩ := except_bind_ok h
  split_ifs at h with hnone
  · cases h
  obtain ⟨owner, howner, h⟩ := except_bind_ok h
  split_ifs at h with hunowned
  · cases h
  obtain ⟨property, hproperty, h⟩ := except_bind_ok h
  obtain ⟨utf8, hutf8, h⟩ := except_bind_ok h
  split_ifs at h with hatoms
  · cases h
  obtain ⟨ownerValue, hfirst, h⟩ := except_bind_ok h
  split_ifs at h with hempty
  · cases h
  obtain ⟨rootValue, hsecond, h⟩ := except_bind_ok h
  split at h
  · cases h
  · next value =>
    split_ifs at h with hmatch
    · cases h
    obtain ⟨currentOwner, hcurrent, h⟩ := except_bind_ok h
    split_ifs at h with hchanged
    · cases h
    obtain ⟨a, hvalue, hencoding, hpath⟩ := readEncoded_some h
    obtain rfl := not_not.mp hmatch
    obtain rfl := not_not.mp hchanged
    simp only [not_or] at hatoms
    obtain ⟨root, rfl⟩ := Option.ne_none_iff_exists'.mp habsent
    obtain ⟨first, hfirst, htext, hsame⟩ := readProperty_some hfirst
    obtain ⟨second, hsecond, htext', hsame'⟩ := readProperty_some hsecond
    exact ⟨a, ⟨⟨root, x11_ok hroot⟩, ⟨selection, x11_ok hselection, hnone⟩,
      ⟨currentOwner, x11_ok howner, hunowned, x11_ok hcurrent⟩,
      ⟨property, x11_ok hproperty, hatoms.1⟩,
      ⟨utf8, first, second, x11_ok hutf8, hatoms.2, hfirst, hsecond, htext, htext',
        hsame.trans hvalue, hsame'.trans hvalue, hvalue ▸ hencoding⟩⟩, hpath⟩

/-! ## What is found by both -/

theorem PropertyReply.isText_type {reply : PropertyReply} {utf8 : Nat}
    (h : reply.isText utf8 = true) : reply.type = utf8 := by
  unfold PropertyReply.isText at h
  simp only [Bool.and_eq_true, decide_eq_true_eq] at h
  exact h.1.1.1

theorem Replies.Finds.advertisedSocket {r : Replies} {a : Advertisement} (h : r.Finds a) :
    advertisedSocket r = .ok a.socket := by
  obtain ⟨⟨root, hroot⟩, ⟨selection, hselection, hnone⟩, ⟨owner, howner, hunowned, hcurrent⟩,
    ⟨property, hproperty, hatom⟩, utf8, first, second, hutf8, hatom', hfirst, hsecond, htext, htext',
    hvalue, hvalue', hencoding⟩ := h
  have hatoms : ¬ (property = noneId ∨ utf8 = noneId) := not_or.mpr ⟨hatom, hatom'⟩
  have hread {reply : PropertyReply} (h : reply.isText utf8 = true) (h' : reply.value = a.encode) :
      readAdvertisement (.ok reply) utf8 = .ok a.encode := by
    show (if reply.isText utf8 = true then _ else _) = _
    rw [if_pos h, h']
    rfl
  have hsocket : encodedSocket a.encode = .ok a.socket := by
    unfold encodedSocket
    rw [hencoding, Advertisement.parse_encode]
    rfl
  unfold X11.advertisedSocket
  simp only [hroot, hselection, howner, hcurrent, hproperty, hutf8, hfirst, hsecond, hread htext hvalue,
    hread htext' hvalue', selectedRoot, x11Error, bind, Except.bind, hnone, hunowned, hatoms, ne_eq,
    not_true_eq_false, if_false, hsocket]

theorem Replies.Finds.discoverX11 {r : Replies} {a : Advertisement} (h : r.Finds a)
    (hdisplay : ¬ (r.display = none ∨ r.display = some [])) :
    discoverX11 r = .ok (some a.socket) := by
  obtain ⟨⟨root, hroot⟩, ⟨selection, hselection, hnone⟩, ⟨owner, howner, hunowned, hcurrent⟩,
    ⟨property, hproperty, hatom⟩, utf8, first, second, hutf8, hatom', hfirst, hsecond, htext, htext',
    hvalue, hvalue', hencoding⟩ := h
  have hatoms : ¬ (property = noneId ∨ utf8 = noneId) := not_or.mpr ⟨hatom, hatom'⟩
  have hread {reply : PropertyReply} (h : reply.isText utf8 = true) (h' : reply.value = a.encode) :
      readProperty (.ok reply) utf8 = .ok (some a.encode) := by
    have htype : reply.type ≠ noneId := PropertyReply.isText_type h ▸ hatom'
    show (if reply.type = noneId then _ else if reply.isText utf8 = true then _ else _) = _
    rw [if_neg htype, if_pos h, h']
    rfl
  have hsocket : readEncoded a.encode = .ok (some a.socket) := by
    unfold readEncoded
    rw [hencoding, Advertisement.parse_encode]
    show (validatePath a.socket _).map some = _
    rw [validatePath_socket]
    rfl
  unfold X11.discoverX11
  rw [if_neg hdisplay]
  simp only [hroot, hselection, howner, hcurrent, hproperty, hutf8, hfirst, hsecond, hread htext hvalue,
    hread htext' hvalue', x11, bind, Except.bind, hnone, hunowned, hatoms, ne_eq, reduceCtorEq,
    not_true_eq_false, if_false, hsocket]

/-- On the same answers both readers find the same socket, and nothing else ends with one: all of the
    questions were answered, the owner was there and has not changed, and both properties are how one
    advertisement is written. -/
theorem discovery_agrees (r : Replies) (path : List UInt8)
    (hdisplay : ∃ byte rest, r.display = some (byte :: rest)) :
    (discoverX11 r = .ok (some path) ↔ advertisedSocket r = .ok path) ∧
      (advertisedSocket r = .ok path ↔ ∃ a, r.Finds a ∧ path = a.socket) := by
  have hnot : ¬ (r.display = none ∨ r.display = some []) := by
    obtain ⟨byte, rest, hsome⟩ := hdisplay
    simp [hsome]
  have hprovider : advertisedSocket r = .ok path ↔ ∃ a, r.Finds a ∧ path = a.socket := by
    refine ⟨advertisedSocket_ok, ?_⟩
    rintro ⟨a, hfinds, rfl⟩
    exact hfinds.advertisedSocket
  refine ⟨?_, hprovider⟩
  rw [hprovider]
  refine ⟨fun h => (discoverX11_some h).2, ?_⟩
  rintro ⟨a, hfinds, rfl⟩
  exact hfinds.discoverX11 hnot

end AgentSeat.X11
