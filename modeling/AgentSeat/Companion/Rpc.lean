/-
  The JSON-RPC surface of the companion (`mcp.rs`): how a line's value becomes a request, how the
  parameters of the methods are read, and what a response line looks like.

  A value is what a JSON reader collects: an object is a map, so its members are in the order of
  their keys and no key occurs twice. The records read here refuse undeclared members; like every
  derived reader they also take an array with the members in declared order (`record`).
-/
import AgentSeat.Lib.Assoc
import AgentSeat.Lib.Record
import AgentSeat.Proto.Schema

namespace AgentSeat.Companion

open AgentSeat.Lib AgentSeat.Proto

/-! ## Values -/

/-- `Value::get` and indexing by a name. -/
def get (key : String) : Json → Option Json
  | .obj members => members.lookup key
  | _ => none

def asObject : Json → Option (List (String × Json))
  | .obj members => some members
  | _ => none

def asStr : Json → Option String
  | .str text => some text
  | _ => none

def isNull : Json → Bool
  | .null => true
  | _ => false

def isObject (value : Json) : Bool := (asObject value).isSome

mutual

/-- `to_value`: the objects become maps. -/
def toValue : Json → Json
  | .arr items => .arr (toValues items)
  | .obj members => .obj (Assoc.ofList (toValueMembers members))
  | value => value

def toValues : List Json → List Json
  | [] => []
  | value :: rest => toValue value :: toValues rest

def toValueMembers : List (String × Json) → List (String × Json)
  | [] => []
  | (key, value) :: rest => (key, toValue value) :: toValueMembers rest

end

/-- A map as it is written in the source. -/
def object (members : List (String × Json)) : Json := .obj (Assoc.ofList members)

/-! ## Records -/

/-- The members of a record with the declared keys, by name or by position. -/
def record (keys : List String) : Json → Option Look
  | .obj members =>
    if members.all fun member => keys.contains member.1 then some (find members) else none
  | .arr items =>
    if items.length ≤ keys.length then some fun key => (keys.zip items).lookup key else none
  | _ => none

/-- A member of type `Option<Value>` with a default. -/
def optionalValue (look : Look) (key : String) : Option Json :=
  match look key with
  | some .null | none => none
  | some value => some value

structure RpcRequest where
  jsonrpc : String
  id : Option Json
  method : String
  params : Json

def RpcRequest.read (value : Json) : Option RpcRequest := do
  let look ← record ["jsonrpc", "id", "method", "params"] value
  let jsonrpc ← (look "jsonrpc").bind asStr
  let method ← (look "method").bind asStr
  some ⟨jsonrpc, optionalValue look "id", method, (look "params").getD .null⟩

structure InitializeParams where
  protocolVersion : String
  capabilities : Json
  clientInfo : Json

def InitializeParams.read (value : Json) : Option InitializeParams := do
  let look ← record ["protocolVersion", "capabilities", "clientInfo", "_meta"] value
  let protocolVersion ← (look "protocolVersion").bind asStr
  let capabilities ← look "capabilities"
  let clientInfo ← look "clientInfo"
  some ⟨protocolVersion, capabilities, clientInfo⟩

/-- `DiscoverParams`, which keeps nothing that is used. -/
def discoverParamsRead (value : Json) : Option Unit := do
  let look ← record ["_meta"] value
  let _ ← look "_meta"
  some ()

/-- `ListToolsParams`: its cursor. -/
def listToolsParamsRead (value : Json) : Option (Option String) := do
  let look ← record ["cursor", "_meta"] value
  match optionalValue look "cursor" with
  | none => some none
  | some cursor => (asStr cursor).map some

structure CallToolParams where
  name : String
  arguments : Option Json

def CallToolParams.read (value : Json) : Option CallToolParams := do
  let look ← record ["name", "arguments", "_meta"] value
  let name ← (look "name").bind asStr
  some ⟨name, optionalValue look "arguments"⟩

/-! ## Checks -/

def i64Min : Int := -2 ^ 63

/-- `Number::as_i64` or `Number::as_u64` gives a number. -/
def isInteger : Json → Bool
  | .num n => i64Min ≤ n ∧ n ≤ u64Max
  | _ => false

def validId : Option Json → Bool
  | none => true
  | some (.str _) => true
  | some id => isInteger id

def maxMethodBytes : Nat := 128

def validImplementation (value : Json) : Bool :=
  ["name", "version"].all fun field =>
    ((get field value).bind asStr).any fun text => text ≠ "" ∧ text.utf8ByteSize ≤ 128

def modernMcpVersion : String := "2026-07-28"
def legacyMcpVersion : String := "2025-11-25"
def supportedMcpVersions : List String := [modernMcpVersion, legacyMcpVersion]
def modernProtocolVersion : String := "io.modelcontextprotocol/protocolVersion"
def modernClientInfo : String := "io.modelcontextprotocol/clientInfo"
def modernClientCapabilities : String := "io.modelcontextprotocol/clientCapabilities"

def metadataOf (params : Json) : Option (List (String × Json)) := (get "_meta" params).bind asObject

def hasModernVersion (params : Json) : Bool :=
  (metadataOf params).any fun metadata => (metadata.lookup modernProtocolVersion).isSome

inductive ModernMetadataError where
  | invalid
  | unsupported (requested : String)

def validateModernMetadata (params : Json) : Except ModernMetadataError Unit :=
  match metadataOf params with
  | none => .error .invalid
  | some metadata =>
    match (metadata.lookup modernProtocolVersion).bind asStr with
    | none => .error .invalid
    | some requested =>
      if requested ≠ modernMcpVersion then .error (.unsupported requested)
      else if !((metadata.lookup modernClientCapabilities).any isObject) then .error .invalid
      else if (metadata.lookup modernClientInfo).any fun client => !validImplementation client then
        .error .invalid
      else .ok ()

/-- The context of a modern call, and the arguments without it. -/
def takeContext (arguments : Option Json) : Except String (Option Nat × Option Json) :=
  match arguments with
  | none => .ok (none, some (.obj []))
  | some (.obj members) =>
    match members.lookup "context" with
    | none => .ok (none, some (.obj members))
    | some (.num n) =>
      if 0 < n ∧ n ≤ u64Max then .ok (some n.toNat, some (.obj (Assoc.erase "context" members)))
      else .error "context must be a positive integer"
    | some _ => .error "context must be a positive integer"
  | some _ => .error "tool arguments must be an object"

/-! ## Response lines -/

def resultLine (id result : Json) : Json :=
  .obj [("jsonrpc", .str "2.0"), ("id", id), ("result", result)]

def errorLineWith (id : Json) (code : Int) (message : String) (data : List (String × Json)) : Json :=
  .obj [("jsonrpc", .str "2.0"), ("id", id),
    ("error", .obj ([("code", .num code), ("message", .str message)] ++ data))]

def errorLine (id : Json) (code : Int) (message : String) : Json := errorLineWith id code message []

end AgentSeat.Companion
