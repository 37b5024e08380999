import Jmdn.DBOPs.Accounts
import Jmdn.DBOPs.Markers
import Jmdn.DBOPs.SyncAnchor

/-!
# Database state

The keys that block application reads and writes: the accounts, the two kinds of
processed markers, the applied anchor, the next unassigned identity ordinal and
the stored blocks.  The advisory `tx_processing:` keys are left out: what they hold
decides no step of block application, and only the lookup of a receipt reads it.
-/

namespace Jmdn.DBOPs

open Config

/-- Both databases of a node. -/
structure DB where
  accounts : Accounts := Accounts.empty
  txProcessed : Markers := {}
  blockProcessed : Markers := {}
  appliedAnchor : Option UInt64 := none
  artOrdinalNext : Option UInt64 := none
  blocks : UInt64 → Option ZKBlock := fun _ => none

/-- Every block is stored under its own number. -/
def Keyed (stored : UInt64 → Option ZKBlock) : Prop :=
  ∀ number block, stored number = some block → block.blockNumber = number

/-- Whether the `tx_processed` marker of a transaction says applied. -/
def DB.txApplied (db : DB) (hash : Hash) : Bool :=
  db.txProcessed.isApplied hash

/-- Largest number of entries one `ExecAll` takes. -/
def maxExecAllEntries : Nat := 1024

/-- `int64(time.Second)`. -/
def nanosPerSecond : Int64 := 1000000000

/-- Exclusive upper bound of the sequencer-assigned ordinals. -/
def artOrdinalMax : UInt64 := 1099511627776

/-- `readARTOrdinalNext`: ordinals start at one. -/
def readARTOrdinalNext (db : DB) : UInt64 :=
  match db.artOrdinalNext with
  | none => 1
  | some next => if next = 0 then 1 else next

/-- `BumpARTOrdinalFloor`. -/
def bumpARTOrdinalFloor (writeOk : Bool) (db : DB) (floor : UInt64) : DB :=
  if floor = 0 ∨ floor ≥ artOrdinalMax then db
  else if floor ≤ readARTOrdinalNext db then db
  else if writeOk then { db with artOrdinalNext := some floor }
  else db

end Jmdn.DBOPs
