import VehicleLink.DeviceSet
import VehicleLink.Error

/-!
# Stores

Where remembered devices outlive a run: anything that can be loaded and saved. Two of them are
here, the contents of memory and a store that can be told to fail.
-/

namespace VehicleLink

/-- A place that keeps a set of devices. -/
class DeviceStore (σ : Type) where
  /-- The devices that are kept. -/
  load : σ → Except StoreError DeviceSet
  /-- Keeps other devices, or fails. -/
  save : DeviceSet → σ → Except StoreError Unit × σ

namespace Store

/-- A store in memory. -/
structure Memory where
  devices : DeviceSet := {}

instance : DeviceStore Memory where
  load s := .ok s.devices
  save devices _ := (.ok (), ⟨devices⟩)

/-- A store whose loads and saves can be made to fail, and that counts the saves asked of it. -/
structure Fallible (σ : Type) where
  store : σ
  failLoad : Bool := false
  failSave : Bool := false
  /-- How many saves were asked for, failed ones included. -/
  saves : Nat := 0

instance {σ : Type} [DeviceStore σ] : DeviceStore (Fallible σ) where
  load s := if s.failLoad then .error (.read "load refused") else DeviceStore.load s.store
  save devices s :=
    let s := { s with saves := s.saves + 1 }
    if s.failSave then (.error (.write "save refused"), s)
    else
      let (result, store) := DeviceStore.save devices s.store
      (result, { s with store })

end Store

end VehicleLink
