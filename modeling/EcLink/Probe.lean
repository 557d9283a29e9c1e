import EcLink.Host

/-!
# Probes

A probe is a peripheral that makes at most one request when it is brought up and remembers
whether it was answered, and every event that it was handed. Probes write their numbers into an
order list as they are brought up: either into one that they share, or each into its own.
-/

namespace EcLink

/-- One probe and what it remembers. -/
structure Probe where
  id : UInt8
  request : Option (List UInt8)
  /-- The probe's own order list, if it does not use the shared one. -/
  ownOrder : Option (List UInt8)
  results : List Bool
  events : List (List UInt8)
  deriving DecidableEq, Repr

/-- Probes by position, with the order list that they share. -/
structure ProbeRow where
  probes : List Probe
  order : List UInt8
  deriving DecidableEq, Repr

namespace Probe

def fresh (id : UInt8) (request : Option (List UInt8)) (ownOrder : Bool) : Probe :=
  { id, request, ownOrder := if ownOrder then some [] else none, results := [], events := [] }

end Probe

namespace ProbeRow

def orderOf (row : ProbeRow) (probe : Probe) : List UInt8 := probe.ownOrder.getD row.order

def modify (position : Nat) (change : Probe → Probe) (row : ProbeRow) : ProbeRow :=
  { row with probes := row.probes.modify position change }

def enlist (position : Nat) (probe : Probe) (row : ProbeRow) : ProbeRow :=
  match probe.ownOrder with
  | some order =>
      row.modify position fun probe => { probe with ownOrder := some (order ++ [probe.id]) }
  | none => { row with order := row.order ++ [probe.id] }

def bringUp (position : Nat) (row : ProbeRow) : Dialogue ProbeRow :=
  match row.probes[position]? with
  | none => return row
  | some probe =>
      let row := row.enlist position probe
      match probe.request with
      | none => return row
      | some bytes => do
          let result ← Dialogue.ask bytes
          return row.modify position fun probe =>
            { probe with results := probe.results ++ [result.isOk] }

def handle (position : Nat) (event : Event) (row : ProbeRow) : ProbeRow × List Notice :=
  (row.modify position fun probe => { probe with events := probe.events ++ [event.bytes] }, [])

instance : Peripherals ProbeRow Nat where
  bringUp := bringUp
  handle := handle

end ProbeRow

end EcLink
