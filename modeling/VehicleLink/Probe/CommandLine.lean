/-!
# The command line of the probe

Options are read from left to right and the first that ends the reading decides: a request for the
help or the version, or a mistake. An option is given at most once and there is nothing but
options.
-/

namespace VehicleLink.Probe

/-- What the command line sets. -/
structure Options where
  config : Option String := none
  /-- The address to insist on. -/
  address : Option String := none
  store : Option String := none
  deriving DecidableEq

/-- What the command line asks for. -/
inductive Invocation where
  | run (o : Options)
  | help
  | version
  /-- It cannot be understood. -/
  | mistaken
  deriving DecidableEq

namespace CommandLine

/-- The options that take a value. -/
inductive Setting where
  | config
  | address
  | store
  deriving DecidableEq

/-- What an option stands for. -/
inductive Meaning where
  | setting (s : Setting)
  | help
  | version

/-- The meaning of a long option. -/
def ofLong? (name : List Char) : Option Meaning :=
  if name = "config".toList then some (.setting .config)
  else if name = "address".toList then some (.setting .address)
  else if name = "store".toList then some (.setting .store)
  else if name = "help".toList then some .help
  else if name = "version".toList then some .version
  else none

/-- The meaning of a short option. -/
def ofShort? : Char → Option Meaning
  | 'c' => some (.setting .config)
  | 'a' => some (.setting .address)
  | 'h' => some .help
  | 'V' => some .version
  | _ => none

/-- Takes the value of an option that was not given before. A place in the file system has a
name. -/
def assign (s : Setting) (value : List Char) (o : Options) : Option Options :=
  let text := String.ofList value
  match s with
  | .config =>
    if o.config.isSome || value.isEmpty then none else some { o with config := some text }
  | .address => if o.address.isSome then none else some { o with address := some text }
  | .store =>
    if o.store.isSome || value.isEmpty then none else some { o with store := some text }

/-- An argument, taken apart. -/
inductive Argument where
  /-- A long option with what stands behind an equals sign. -/
  | long (name : List Char) (value : Option (List Char))
  /-- A short option with what stands behind its letter. -/
  | short (letter : Char) (rest : List Char)
  /-- The mark after which only other arguments follow. -/
  | separator
  | other

/-- Takes an argument apart. -/
def Argument.ofText (s : List Char) : Argument :=
  match s with
  | ['-', '-'] => .separator
  | '-' :: '-' :: rest =>
    let name := rest.takeWhile (· ≠ '=')
    match rest.drop name.length with
    | _ :: value => .long name (some value)
    | [] => .long name none
  | '-' :: letter :: rest => .short letter rest
  | _ => .other

/-- Whether an argument can be the value of the option before it. -/
def isValue (s : List Char) : Bool :=
  match Argument.ofText s with
  | .other => true
  | _ => false

/-- Reads the arguments from left to right. -/
def read : List (List Char) → Options → Invocation
  | [], o => .run o
  | arg :: rest, o =>
    let attached (s : Setting) (value : List Char) : Invocation :=
      match assign s value o with
      | some o => read rest o
      | none => .mistaken
    let separate (s : Setting) : Invocation :=
      match rest with
      | value :: rest =>
        if isValue value then
          match assign s value o with
          | some o => read rest o
          | none => .mistaken
        else .mistaken
      | [] => .mistaken
    match Argument.ofText arg with
    | .long name value =>
      match ofLong? name, value with
      | some (.setting s), some value => attached s value
      | some (.setting s), none => separate s
      | some .help, none => .help
      | some .version, none => .version
      | _, _ => .mistaken
    | .short letter value =>
      match ofShort? letter, value with
      | some (.setting s), [] => separate s
      | some (.setting s), '=' :: value => attached s value
      | some (.setting s), value => attached s value
      | some .help, _ => .help
      | some .version, _ => .version
      | none, _ => .mistaken
    | .separator => if rest.isEmpty then .run o else .mistaken
    | .other => .mistaken

end CommandLine

/-- What the arguments ask for. -/
def Invocation.ofArguments (arguments : List String) : Invocation :=
  CommandLine.read (arguments.map String.toList) {}

def versionText : String := "openxc-ble-probe 0.1.0\n"

/-- The answer to a request for help, by lines. -/
def helpLines : List String :=
  [ "Connects to an OpenXC vehicle interface over BLE, sends commands, and prints whatever the "
      ++ "interface streams back",
    "",
    "Usage: openxc-ble-probe [OPTIONS]",
    "",
    "Options:",
    "  -c, --config <CONFIG>    Path to configuration file",
    "  -a, --address <ADDRESS>  Vehicle interface address, e.g. 00:11:22:33:44:55",
    "      --store <STORE>      Where remembered devices are stored",
    "  -h, --help               Print help",
    "  -V, --version            Print version" ]

def helpText : String := String.join (helpLines.map (· ++ "\n"))

end VehicleLink.Probe
