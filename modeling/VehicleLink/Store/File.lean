import VehicleLink.Cbor.DeviceFile
import VehicleLink.FileTree
import VehicleLink.Store

/-!
# The file store

Devices in one file of a tree. A save writes a sibling first and then moves it over the file, so
the file holds either the old devices or the new ones. A file that is not there stands for no
devices.
-/

namespace VehicleLink.Store

/-- Devices in a file. -/
structure File where
  path : Path
  tree : FileTree := []

namespace File

/-- The sibling that a save writes first. -/
def draft (path : Path) : Path := path.withExtension "tmp"

/-- The devices in the file. -/
def load (s : File) : Except StoreError DeviceSet :=
  if s.tree.contains s.path then
    match s.tree.read s.path with
    | .ok bytes => DeviceFile.decode bytes
    | .error e => .error (.read e.message)
  else .ok {}

/-- Writes the devices beside the file and moves them over it. A failed step leaves what the
steps before it did. -/
def save (devices : DeviceSet) (s : File) : Except StoreError Unit × File :=
  let (made, tree) := s.tree.makeDirectories s.path.parent
  let s := { s with tree }
  match made with
  | .error e => (.error (.write e.message), s)
  | .ok () =>
    match s.tree.write (draft s.path) (DeviceFile.encode devices) with
    | .error e => (.error (.write e.message), s)
    | .ok tree =>
      let s := { s with tree }
      match s.tree.rename (draft s.path) s.path with
      | .error e => (.error (.write e.message), s)
      | .ok tree => (.ok (), { s with tree })

instance : DeviceStore File := ⟨load, save⟩

end File

end VehicleLink.Store
