import All4One.Membership.Join

open Foundation

namespace All4One

structure NodeConfig where
  tier              : UInt8
  availability      : String
  quorumParticipant : Bool
  dataDir           : String
  deriving DecidableEq, Repr

structure RolesConfig where
  executor : Bool
  storage  : Bool
  deriving DecidableEq, Repr

structure CapabilitiesConfig where
  docker     : Bool
  java       : Option String
  python     : Option String
  wasm       : Bool
  gpuEnabled : Bool
  deriving DecidableEq, Repr

structure Config where
  node         : NodeConfig
  roles        : RolesConfig
  security     : Membership.SecurityConfig
  capabilities : CapabilitiesConfig
  deriving DecidableEq, Repr

namespace Toml

-- A document is looked into as far as its tables and strings go.
inductive Value
  | string (s : String)
  | table (entries : List (String × Value))
  | other

namespace Value

-- `value.get(part)`
def get (part : String) : Value → Option Value
  | table entries => entries.lookup part
  | _             => none

def isBlank : Value → Bool
  | string s => Text.isBlank s
  | _        => false

end Value

-- How a text is read as a document, and as a configuration.
structure Reader where
  parse   : String → Except String Value
  fromStr : String → Except String Config

end Toml

namespace Config

def ensureRequired (value : Toml.Value) (keyPath : String) : Except String Unit := do
  let cursor ← (Text.split '.' keyPath).foldlM
    (fun cursor part => (cursor.get part).elim (.error s!"{keyPath} is required") .ok) value
  if cursor.isBlank then
    .error s!"{keyPath} is required"
  else
    .ok ()

-- The last checks of `load`.
def check (parsed : Config) : Except String Config :=
  if parsed.node.tier > 2 then
    .error "node.tier must be 0, 1, or 2"
  else if parsed.security.mode ≠ "shared-secret" ∧ parsed.security.mode ≠ "ca" then
    .error "security.mode must be 'shared-secret' or 'ca'"
  else
    .ok parsed

-- There is no text where the file can not be read.
def load (toml : Toml.Reader) (path : String) (text : Option String) : Except String Config := do
  let raw ← text.elim (.error s!"cannot read config file: {path}") .ok
  let value ← (toml.parse raw).mapError fun e => s!"invalid TOML in {path}: {e}"
  ensureRequired value "node.tier"
  ensureRequired value "node.availability"
  ensureRequired value "node.data_dir"
  ensureRequired value "security.mode"
  let parsed ← (toml.fromStr raw).mapError fun e => s!"invalid config schema in {path}: {e}"
  parsed.check

-- What a node is, from its configuration and what it finds of its machine.
def profile (config : Config) (id : NodeId) (cpuCores memoryMb : UInt32) : NodeProfile where
  id                := id
  tier              := config.node.tier
  availability      := config.node.availability
  quorumParticipant := config.node.quorumParticipant
  resources         := { cpuCores, memoryMb, diskMb := none }
  capabilities      := {
    docker      := config.capabilities.docker
    python      := config.capabilities.python
    java        := config.capabilities.java
    wasm        := config.capabilities.wasm
    gpuEnabled  := config.capabilities.gpuEnabled
    storageNode := config.roles.storage
  }

variable {toml : Toml.Reader} {path : String} {text : Option String} {config : Config}

theorem check_ok {parsed : Config} (h : parsed.check = .ok config) :
    parsed = config ∧ config.node.tier ≤ 2 := by
  rw [check] at h
  split at h
  case isTrue => cases h
  case isFalse ht =>
    split at h
    case isTrue  => cases h
    case isFalse => cases h; exact ⟨rfl, UInt8.not_lt.mp ht⟩

-- The tier of a configuration that is accepted is one of the three.
theorem tier_le_of_load (h : load toml path text = .ok config) : config.node.tier ≤ 2 := by
  simp only [load, Prog.except_bind_eq_ok] at h
  obtain ⟨_, -, _, -, _, -, _, -, _, -, _, -, parsed, -, h⟩ := h
  exact (check_ok h).2

end Config

end All4One
