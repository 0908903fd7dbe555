import VehicleLink.Probe.Run

/-!
# The probe program

Reads the command line, the environment and the files it needs, makes the turns of the probe against
the clock, stops its transport at the end, and writes remembered devices back.
-/

namespace VehicleLink.Probe.Program

/-- The text of a path on the disk: a relative one stays relative. -/
def diskName (name : String) (p : Path) : String :=
  (if name.startsWith "/" then "/" else "") ++ "/".intercalate p.steps

/-- A file of the disk in a tree, under its own path, if it is there. -/
def fetch (name : String) (tree : FileTree) : IO FileTree := do
  try
    let bytes ← IO.FS.readBinFile name
    let path := Path.ofString name
    let (_, tree) := tree.makeDirectories path.parent
    match tree.write path bytes.toList with
    | .ok tree => return tree
    | .error _ => return tree
  catch _ => return tree

/-- The variables in the bytes of an environment, of which each ends with a null byte. One that is
no text is left out. -/
def variablesIn (bytes : List UInt8) : List (String × String) :=
  (bytes.splitOn 0).filterMap fun entry => do
    let text ← Utf8.decode? entry
    let name := text.takeWhile (· ≠ '=')
    match text.drop name.length with
    | _ :: value => some (String.ofList name, String.ofList value)
    | [] => none

/-- The variables of the environment. Where a system does not list them, the settings are looked up
in upper case. -/
def environment : IO (List (String × String)) := do
  try
    return variablesIn (← IO.FS.readBinFile "/proc/self/environ").toList
  catch _ =>
    let mut found := []
    for name in names do
      let key := "OPENXC_BLE_" ++ name.toUpper
      match ← IO.getEnv key with
      | some value => found := found ++ [(key, value)]
      | none => pure ()
    return found

/-- Writes the remembered devices to the disk, if they changed. -/
def keep (s : Settings) (before after : DeviceSet) : IO Unit := do
  if before ≠ after then
    try
      let path := Path.ofString s.storePath
      let directory := diskName s.storePath path.parent
      if directory ≠ "" then IO.FS.createDirAll directory
      let draft := diskName s.storePath (Store.File.draft path)
      IO.FS.writeBinFile draft ⟨(DeviceFile.encode after).toArray⟩
      IO.FS.rename draft s.storePath
    catch e => IO.eprintln s!"unable to persist remembered devices: {e}"

/-- The longest sleep, in milliseconds. -/
def longestSleep : Nat := 4294967295

/-- Turns against the clock until the time is over. Gives the transport as it is then. -/
partial def loop (s : Settings) (begun : Nat) (sent : Bool)
    (w : Endpoint Radio.Simulated Store.File) : IO (Endpoint Radio.Simulated Store.File) := do
  let elapsed := (← IO.monoNanosNow) - begun
  if s.runFor.any (· ≤ elapsed) then return w
  let (lines, sent, after) := turn s sent { w with now := elapsed }
  keep s w.transport.devices after.transport.devices
  for line in lines do
    IO.println line
  IO.sleep (UInt32.ofNat (min (s.tickInterval / 1000000) longestSleep))
  loop s begun sent after

/-- Runs the probe with options. -/
def start (o : Options) : IO UInt32 := do
  let mut tree : FileTree := []
  if let some name := o.config then
    tree ← fetch name tree
    for candidate in endings.map (extended (Path.ofString name)) do
      tree ← fetch (diskName name candidate) tree
  match load o.config { environment := ← environment, tree } with
  | .error e =>
    IO.eprintln ("invalid configuration: " ++ e.message)
    return 1
  | .ok s =>
    let s := s.override o
    match s.open { tree := ← fetch s.storePath [] } with
    | .error e =>
      IO.eprintln ("unable to create vehicle interface: " ++ e.message)
      return 1
    | .ok w =>
      let last ← loop s (← IO.monoNanosNow) false w
      let stopped := last.stop
      keep s last.transport.devices stopped.transport.devices
      return 0

end VehicleLink.Probe.Program

open VehicleLink.Probe in
/-- Does what the arguments ask for. -/
def main (arguments : List String) : IO UInt32 :=
  match Invocation.ofArguments arguments with
  | .help => do
    IO.print helpText
    return 0
  | .version => do
    IO.print versionText
    return 0
  | .mistaken => do
    IO.eprintln "unexpected arguments; try --help"
    return 2
  | .run o => Program.start o
