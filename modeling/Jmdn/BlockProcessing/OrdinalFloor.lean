import Jmdn.BlockProcessing.Outcome
import Jmdn.DBOPs.ReconGroups

/-!
# The ordinal counter of a node

What the two ways of applying a block do to the counter of identity ordinals:
live application raises it past the ordinals the block carries, reconciliation
leaves it alone.
-/

namespace Jmdn.BlockProcessing

open Config DBOPs Go List UInt64

variable {db : DB} {env : Env} {block : ZKBlock} {order : MapOrder Address}

/-! ## Raising the floor -/

theorem readARTOrdinalNext_congr {first second : DB}
    (same : first.artOrdinalNext = second.artOrdinalNext) :
    readARTOrdinalNext first = readARTOrdinalNext second := by
  unfold readARTOrdinalNext
  rw [same]

theorem le_bumpARTOrdinalFloor (writeOk : Bool) (db : DB) (floor : UInt64) :
    readARTOrdinalNext db ≤ readARTOrdinalNext (bumpARTOrdinalFloor writeOk db floor) := by
  unfold bumpARTOrdinalFloor
  split_ifs with outside reached written
  · exact UInt64.le_refl _
  · exact UInt64.le_refl _
  · have nonzero : floor ≠ 0 := fun zero => outside (.inl zero)
    simp only [readARTOrdinalNext, if_neg nonzero]
    exact UInt64.le_of_lt (UInt64.not_le.mp reached)
  · exact UInt64.le_refl _

/-- A floor in the ordinal space is reached. -/
theorem floor_le_bumpARTOrdinalFloor {floor : UInt64} (nonzero : floor ≠ 0)
    (inside : floor < artOrdinalMax) :
    floor ≤ readARTOrdinalNext (bumpARTOrdinalFloor true db floor) := by
  unfold bumpARTOrdinalFloor
  rw [if_neg (not_or.mpr ⟨nonzero, UInt64.not_le.mpr inside⟩)]
  split
  · assumption
  · simp only [if_true, readARTOrdinalNext, if_neg nonzero]
    exact UInt64.le_refl _

/-- The greatest carried ordinal bounds the carried ones and is one of them,
unless there is none. -/
theorem maxCarriedOrdinal_spec (block : ZKBlock) :
    (∀ entry ∈ block.accountNonces, entry.nonce < artOrdinalMax →
      entry.nonce ≤ maxCarriedOrdinal block) ∧
    (maxCarriedOrdinal block = 0 ∨ ∃ entry ∈ block.accountNonces,
      entry.nonce = maxCarriedOrdinal block ∧ entry.nonce < artOrdinalMax) := by
  unfold maxCarriedOrdinal
  -- over the entries from the first one on
  induction block.accountNonces using List.reverseRecOn with
  | nil => simp
  | append_singleton entries last ih =>
    obtain ⟨bounds, attained⟩ := ih
    rw [foldl_append, foldl_cons, foldl_nil]
    simp only [mem_append, mem_singleton]
    split
    · next raised =>
      refine ⟨fun entry mem ordinal => ?_, .inr ⟨last, .inr rfl, rfl, raised.1⟩⟩
      rcases mem with mem | rfl
      · exact UInt64.le_trans (bounds entry mem ordinal) (UInt64.le_of_lt raised.2)
      · exact UInt64.le_refl _
    · next kept =>
      refine ⟨fun entry mem ordinal => ?_, attained.imp_right ?_⟩
      · rcases mem with mem | rfl
        · exact bounds entry mem ordinal
        · exact UInt64.not_lt.mp fun above => kept ⟨ordinal, above⟩
      · rintro ⟨entry, mem, found⟩
        exact ⟨entry, .inl mem, found⟩

theorem le_bumpCarriedOrdinals (env : Env) (block : ZKBlock) (db : DB) :
    readARTOrdinalNext db ≤ readARTOrdinalNext (bumpCarriedOrdinals env block db) := by
  unfold bumpCarriedOrdinals
  split
  · exact le_bumpARTOrdinalFloor env.ordinalOk db (maxCarriedOrdinal block + 1)
  · exact UInt64.le_refl _

/-- The largest ordinal: the floor above it is outside of the ordinal space. -/
def topOrdinal : UInt64 := artOrdinalMax - 1

/-- A carried ordinal is below the counter after the bump, unless the block
carries the largest one. -/
theorem lt_bumpCarriedOrdinals {entry : AccountNonce} (ok : env.ordinalOk = true)
    (below : ∀ other ∈ block.accountNonces, other.nonce ≠ topOrdinal)
    (listed : entry ∈ block.accountNonces) (pos : 0 < entry.nonce)
    (ordinal : entry.nonce < artOrdinalMax) :
    entry.nonce < readARTOrdinalNext (bumpCarriedOrdinals env block db) := by
  obtain ⟨bounds, attained⟩ := maxCarriedOrdinal_spec block
  have bounded := bounds entry listed ordinal
  have limit : artOrdinalMax.toNat = 1099511627776 := rfl
  have top : topOrdinal.toNat = 1099511627775 := rfl
  have raised : maxCarriedOrdinal block > 0 := UInt64.lt_of_lt_of_le pos bounded
  have inside : maxCarriedOrdinal block < topOrdinal := by
    rcases attained with zero | ⟨greatest, mem, same, space⟩
    · rw [zero] at raised
      exact absurd raised (UInt64.lt_irrefl 0)
    have apart := below greatest mem
    rw [same] at apart space
    rw [lt_iff_toNat_lt] at space ⊢
    have different : (maxCarriedOrdinal block).toNat ≠ topOrdinal.toNat := fun equal =>
      apart (UInt64.toNat_inj.mp equal)
    omega
  have successor : (maxCarriedOrdinal block + 1).toNat = (maxCarriedOrdinal block).toNat + 1 := by
    rw [lt_iff_toNat_lt] at inside
    rw [UInt64.toNat_add, toNat_one]
    omega
  have reached : maxCarriedOrdinal block + 1 ≤
      readARTOrdinalNext (bumpCarriedOrdinals env block db) := by
    rw [bumpCarriedOrdinals, if_pos raised, ok]
    apply floor_le_bumpARTOrdinalFloor
    · intro zero
      rw [zero] at successor
      cases successor
    · rw [lt_iff_toNat_lt] at inside ⊢
      omega
  rw [lt_iff_toNat_lt]
  rw [le_iff_toNat_le] at bounded reached
  omega

/-! ## Everything else leaves the counter -/

/-- Live application of a block that is not marked yet raises the floor. -/
theorem processBlockTransactions_artOrdinalNext
    (unmarked : db.blockProcessed.isApplied block.blockHash = false) :
    (processBlockTransactions env order block db).2.artOrdinalNext =
      (bumpCarriedOrdinals env block db).artOrdinalNext := by
  rcases processBlockTransactions_cases env block db with ⟨marked, -⟩ | ⟨-, -, called⟩ |
    ⟨-, -, called⟩ | ⟨-, affected, coinbase, zkvm, -, pays,
      ⟨successful, final, run, called⟩ | ⟨position, hash, cause, reached, run, -, called⟩⟩
  · rw [unmarked] at marked
    cases marked
  · rw [called]
  · rw [called]
  · rw [called, finishBlock_others, (run.executes pays).others]
  · rw [called, endBlock, failBlock_others, (run.executes pays).others]

theorem processBlockTransactions_artOrdinalNext_marked
    (marked : db.blockProcessed.isApplied block.blockHash = true) :
    (processBlockTransactions env order block db).2.artOrdinalNext = db.artOrdinalNext := by
  unfold processBlockTransactions
  rw [if_pos marked]
  rfl

theorem le_processBlockTransactions (env : Env) (order : MapOrder Address) (block : ZKBlock)
    (db : DB) :
    readARTOrdinalNext db ≤
      readARTOrdinalNext (processBlockTransactions env order block db).2 := by
  cases marked : db.blockProcessed.isApplied block.blockHash with
  | true =>
    rw [readARTOrdinalNext_congr (processBlockTransactions_artOrdinalNext_marked marked)]
    exact UInt64.le_refl _
  | false =>
    rw [readARTOrdinalNext_congr (processBlockTransactions_artOrdinalNext marked)]
    exact le_bumpCarriedOrdinals env block db

end Jmdn.BlockProcessing
