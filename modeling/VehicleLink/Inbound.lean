/-!
# Inbound bytes

Fragments are joined to one stream of bytes in the order in which they arrive; where a message
ends is up to whoever reads them.
-/

namespace VehicleLink

/-- Bytes received and not read yet. -/
structure Inbound where
  bytes : List UInt8 := []
  received : Nat := 0

namespace Inbound

/-- Joins a fragment to the stream. -/
def receive (fragment : List UInt8) (b : Inbound) : Inbound :=
  ⟨b.bytes ++ fragment, b.received + fragment.length⟩

/-- Takes at most `n` bytes from the front. -/
def read (n : Nat) (b : Inbound) : List UInt8 × Inbound :=
  (b.bytes.take n, { b with bytes := b.bytes.drop n })

def available (b : Inbound) : Nat := b.bytes.length

def hasData (b : Inbound) : Bool := !b.bytes.isEmpty

/-- Drops what was not read. -/
def clear (b : Inbound) : Inbound := { b with bytes := [] }

end Inbound

end VehicleLink
