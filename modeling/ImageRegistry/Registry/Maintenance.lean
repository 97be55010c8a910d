/-! Maintenance: collecting garbage waits until nobody writes. -/

namespace ImageRegistry

/-- Who is at work in a registry. -/
structure Maintenance where
  /-- The number of writers. -/
  writers : Nat := 0
  deriving DecidableEq, Repr

namespace Maintenance

def enter (m : Maintenance) : Maintenance := ⟨m.writers + 1⟩

def leave (m : Maintenance) : Maintenance := ⟨m.writers - 1⟩

def mustWait (m : Maintenance) : Bool := m.writers != 0

end Maintenance
end ImageRegistry
