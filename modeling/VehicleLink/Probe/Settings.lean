import VehicleLink.Config.Environment
import VehicleLink.Config.Json
import VehicleLink.Config.Selector
import VehicleLink.Config.Toml
import VehicleLink.FileTree
import VehicleLink.LinkSettings
import VehicleLink.Text.Blank
import VehicleLink.Text.Utf8

/-!
# Settings of the probe

Settings come from the environment, from a file and from the defaults, the first of them that has
a setting deciding it; a table counts by its members, so an empty one decides nothing. A value that
cannot be read as what its setting wants is an error.
-/

namespace VehicleLink.Probe

/-- What can be configured about the probe. -/
structure Settings where
  /-- The address to insist on; not looked at before the link is made. -/
  address : Option String
  storePath : String
  deviceName : String
  automaticScan : Bool
  writeDelay : Nanos
  scanWindow : Nanos
  pollInterval : Nanos
  fastPollInterval : Nanos
  tickInterval : Nanos
  /-- How long the probe runs; without end if nothing is said. -/
  runFor : Option Nanos
  /-- How many bytes are read at once. -/
  readChunk : Nat
  /-- The messages that are written once each time the link becomes ready. -/
  commands : List String

/-- Why there are no settings. -/
inductive SettingsError where
  | fileNotFound (name : String)
  | unknownFormat (name : String)
  | malformed (name : String)
  /-- The setting is missing or holds what it cannot. -/
  | invalid (setting : String)
  deriving DecidableEq

def SettingsError.message : SettingsError → String
  | .fileNotFound name => "configuration file \"" ++ name ++ "\" not found"
  | .unknownFormat name => "configuration file \"" ++ name ++ "\" is of no known format"
  | .malformed name => "configuration file \"" ++ name ++ "\" cannot be read"
  | .invalid setting => "invalid value for " ++ setting

open Config

/-! ## Values of settings -/

/-- A list of commands: texts as they are, or one text in which semicolons stand between commands
and the space around them and empty ones do not count. -/
def commands? : Value → Option (List String)
  | .text s =>
    let pieces := (s.toList.splitOn ';').map Text.trim
    some ((pieces.filter fun piece => !piece.isEmpty).map String.ofList)
  | .list items => items.mapM Value.asText?
  | _ => none

/-- A setting that may be null. -/
def optional {β : Type} (read : Value → Option β) : Value → Option (Option β)
  | .null => some none
  | v => (read v).map some

/-- The settings that have a value when none is given. -/
def defaults : Table :=
  [ ("address", .null),
    ("store_path", .text "data/openxc-ble-devices.cbor"),
    ("device_name_prefix", .text "OpenXC"),
    ("automatic_scan", .bool true),
    ("inter_write_delay", .text "50ms"),
    ("scan_window", .text "10s"),
    ("poll_interval", .text "5s"),
    ("fast_poll_interval", .text "1s"),
    ("tick_interval", .text "100ms"),
    ("read_chunk", .int 512),
    ("commands", .list [.text "\x7b\"command\":\"version\"\x7d"]) ]

def names : List String := defaults.map (·.1) ++ ["run_for"]

/-- One setting of a table; one that is not there is null. -/
def field {β : Type} (t : Table) (name : String) (read : Value → Option β) :
    Except SettingsError β :=
  match read ((Named.get? name t).getD .null) with
  | some v => .ok v
  | none => .error (.invalid name)

def ofTable (t : Table) : Except SettingsError Settings := do
  let address ← field t "address" (optional Value.asText?)
  let storePath ← field t "store_path" Value.asText?
  let deviceName ← field t "device_name_prefix" Value.asText?
  let automaticScan ← field t "automatic_scan" Value.asBool?
  let writeDelay ← field t "inter_write_delay" Value.asDuration?
  let scanWindow ← field t "scan_window" Value.asDuration?
  let pollInterval ← field t "poll_interval" Value.asDuration?
  let fastPollInterval ← field t "fast_poll_interval" Value.asDuration?
  let tickInterval ← field t "tick_interval" Value.asDuration?
  let runFor ← field t "run_for" (optional Value.asDuration?)
  let readChunk ← field t "read_chunk" Value.asNat?
  let commands ← field t "commands" commands?
  return { address, storePath, deviceName, automaticScan, writeDelay, scanWindow, pollInterval
           fastPollInterval, tickInterval, runFor, readChunk, commands }

def Settings.link (s : Settings) : LinkSettings :=
  { deviceName := s.deviceName
    writeDelay := s.writeDelay
    scanWindow := s.scanWindow
    pollInterval := s.pollInterval
    fastPollInterval := s.fastPollInterval
    automaticScan := s.automaticScan }

/-! ## Files -/

/-- The formats of settings files by the endings of their names. -/
def formats : List (String × (String → Option Table)) :=
  [("toml", Toml.parse?), ("json", Json.parse?)]

/-- What stands behind the last point of a name; a point at the front does not count. -/
def ending (name : String) : String :=
  let s := name.toList
  let stem := Path.stem s
  String.ofList (s.drop (stem.length + 1))

/-- The endings that a path is tried with if it names no file itself. -/
def endings : List String := formats.map (·.1)

/-- The path with an ending behind its last name; one that ends in no name stays as it is. -/
def extended (p : Path) (e : String) : Path :=
  match p.name? with
  | some name => { steps := p.steps.dropLast ++ [name ++ "." ++ e] }
  | none => p

/-- The paths of the files that a path may stand for. -/
def candidates (p : Path) : List Path := p :: endings.map (extended p)

/-- What a program sees of the machine it runs on. -/
structure Surroundings where
  environment : List (String × String) := []
  /-- The directory in which relative paths begin. -/
  directory : Path := {}
  tree : FileTree := []

/-- The settings in a file. -/
def readFile (name : String) (s : Surroundings) : Except SettingsError Table :=
  match (candidates (Path.within s.directory name)).find? s.tree.isFile with
  | none => .error (.fileNotFound name)
  | some found =>
    match formats.find? (·.1 == ending (found.name?.getD "")) with
    | none => .error (.unknownFormat name)
    | some (_, parse) =>
      match s.tree.read found with
      | .error _ => .error (.fileNotFound name)
      | .ok bytes =>
        match ((Utf8.decode? bytes).map String.ofList).bind parse with
        | none => .error (.malformed name)
        | some t => .ok t

/-- The settings from a file, if one is named, and from the variables of the environment. -/
def load (file : Option String) (s : Surroundings) : Except SettingsError Settings := do
  let fromFile ← match file with
    | none => pure []
    | some name => readFile name s
  let given := Table.setAll (Environment.settings s.environment) (Table.setAll fromFile [])
  ofTable (Table.setAll given defaults)

end VehicleLink.Probe
