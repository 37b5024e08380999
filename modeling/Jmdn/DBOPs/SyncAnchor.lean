import Mathlib.Data.UInt
import Jmdn.Config.Types

/-!
# The accounts-applied anchor

The decision rules and the locked read-decide-write cycle of
`DB_OPs/sync_anchor.go`.  An absent key reads as zero.  The arithmetic is that
of `uint64`.
-/

namespace Jmdn.DBOPs

/-- `NextLiveAnchor`: only the block after the anchor moves it. -/
def nextLiveAnchor (current block : UInt64) : UInt64 × Bool :=
  if block = current + 1 then (block, true) else (current, false)

/-- `NextReconAnchor`: monotonic maximum. -/
def nextReconAnchor (current target : UInt64) : UInt64 × Bool :=
  if target > current then (target, true) else (current, false)

/-- `ShouldAdvanceReconAnchor`. -/
def shouldAdvanceReconAnchor (reconFailed : Bool) (failedAccounts : Nat) (verifyPassed : Bool) :
    Bool :=
  !reconFailed && failedAccounts == 0 && verifyPassed

/-- `CapAnchorTarget`. -/
def capAnchorTarget (target tip : UInt64) : UInt64 :=
  if target > tip then tip else target

/-- `advanceAnchor`: the anchor afterwards as the caller sees it, whether it
moved, and the stored key.  `none` as first component is a failed write, which
returns no anchor and leaves the key as it was. -/
def advanceAnchor (writeOk : Bool) (stored : Option UInt64) (target : UInt64)
    (contiguous : Bool) : Option (UInt64 × Bool) × Option UInt64 :=
  let current := stored.getD 0
  let decision :=
    if contiguous then nextLiveAnchor current target else nextReconAnchor current target
  if decision.2 then
    if writeOk then (some (decision.1, true), some decision.1) else (none, stored)
  else
    (some (current, false), stored)

/-- `AdvanceAppliedAnchorContiguous`. -/
def advanceAppliedAnchorContiguous (writeOk : Bool) (stored : Option UInt64) (block : UInt64) :
    Option (UInt64 × Bool) × Option UInt64 :=
  advanceAnchor writeOk stored block true

/-- `AdvanceAppliedAnchorTo`. -/
def advanceAppliedAnchorTo (writeOk : Bool) (stored : Option UInt64) (target : UInt64) :
    Option (UInt64 × Bool) × Option UInt64 :=
  advanceAnchor writeOk stored target false

/-- `SeedAppliedAnchor`: only an absent key is seeded, and never with zero. -/
def seedAppliedAnchor (writeOk : Bool) (stored : Option UInt64) (legacy : UInt64) :
    Option UInt64 :=
  if legacy = 0 then stored
  else
    match stored with
    | some _ => stored
    | none => if writeOk then some legacy else none

/-- The key stays as it is or takes the target, which a rule has to allow. -/
theorem advanceAnchor_stored (writeOk : Bool) (stored : Option UInt64) (target : UInt64)
    (contiguous : Bool) :
    (advanceAnchor writeOk stored target contiguous).2 = stored ∨
      (if contiguous then target = stored.getD 0 + 1 else stored.getD 0 < target) ∧
        (advanceAnchor writeOk stored target contiguous).2 = some target := by
  cases contiguous <;> cases writeOk <;>
    simp only [advanceAnchor, nextLiveAnchor, nextReconAnchor] <;> grind

end Jmdn.DBOPs
