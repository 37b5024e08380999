import Jmdn.BlockProcessing.View
import Jmdn.Messaging.Admission

/-!
# What a block hash binds

The block hash and the committee's votes commit to the transactions of a block.
Its execution also reads the coinbase, the zkvm address, the timestamp, the
carried identity nonces, and which of a transaction's fee fields are present.
Two accepted blocks with one hash that agree on these have one outcome.
-/

namespace Jmdn.Messaging

open BlockProcessing Config DBOPs Go List Security

/-- Lists whose entries have equal keys and equal prices, position by position,
have equal images under a function these determine. -/
theorem map_eq_of_map_eq {α β γ δ : Type} {key : α → β} {price : α → γ} {image : α → δ} :
    ∀ {first second : List α}, first.map key = second.map key →
      first.map price = second.map price →
      (∀ one ∈ first, ∀ two ∈ second, key one = key two → price one = price two →
        image one = image two) →
      first.map image = second.map image := by
  intro first
  induction first with
  | nil =>
    intro second keys _ _
    rw [map_nil, eq_comm, map_eq_nil_iff] at keys
    rw [keys]
  | cons one rest ih =>
    intro second keys prices determined
    cases second with
    | nil => cases keys
    | cons two others =>
      rw [map_cons, map_cons, List.cons.injEq] at keys prices ⊢
      exact ⟨determined one mem_cons_self two mem_cons_self keys.1 prices.1,
        ih keys.2 prices.2 fun left mem right other =>
          determined left (mem_cons_of_mem _ mem) right
            (mem_cons_of_mem _ other)⟩

/-- The parts of two blocks that execution reads and no gate binds. -/
structure SameUnbound (first second : ZKBlock) : Prop where
  coinbaseAddr : first.coinbaseAddr = second.coinbaseAddr
  zkvmAddr : first.zkvmAddr = second.zkvmAddr
  timestamp : first.timestamp = second.timestamp
  accountNonces : first.accountNonces = second.accountNonces
  prices : first.transactions.map effectivePrice = second.transactions.map effectivePrice

theorem executedTransaction_eq {crypto : Crypto} {txs : List Transaction}
    {first second : Transaction} (collisionFree : CollisionFree crypto txs)
    (one : Checked crypto first) (mem : first ∈ txs)
    (two : Checked crypto second) (other : second ∈ txs) (hash : first.hash = second.hash)
    (price : effectivePrice first = effectivePrice second) :
    executedTransaction first = executedTransaction second := by
  obtain ⟨content, sender⟩ := Checked.same_of_hash_eq collisionFree one mem two other hash
  obtain ⟨nonce, recipient, value, gasLimit⟩ := fields_of_ethTxFromConfig_eq content
  simp only [executedTransaction, hash, sender, recipient, value, nonce, gasLimit, price]

/-- Two accepted blocks with the same hash and number that agree on what no gate
binds leave the same account documents. -/
theorem accepted_blocks_agree {node : Node} {first second : BlockMessage} {one two : ZKBlock}
    (acceptedFirst : Accepts node first) (carriesOne : first.block = some one)
    (acceptedSecond : Accepts node second) (carriesTwo : second.block = some two)
    (sameHash : one.blockHash = two.blockHash) (sameNumber : one.blockNumber = two.blockNumber)
    (binding : node.enforceBodyBinding = true)
    (keccak : node.crypto.keccak256 (txHashes one) = node.crypto.keccak256 (txHashes two) →
      txHashes one = txHashes two)
    (collisionFree : CollisionFree node.crypto (one.transactions ++ two.transactions))
    (sameUnbound : SameUnbound one two) (env : Env) (order : MapOrder Address) (db : DB)
    (address : Address) :
    (processBlockTransactions env order one db).2.accounts.get address =
      (processBlockTransactions env order two db).2.accounts.get address := by
  have admittedOne := acceptedFirst.admitted carriesOne
  have admittedTwo := acceptedSecond.admitted carriesTwo
  have hashes : txHashes one = txHashes two := by
    apply keccak
    rw [← admittedOne.bound binding, ← admittedTwo.bound binding, sameHash]
  have transactions : one.transactions.map executedTransaction =
      two.transactions.map executedTransaction := by
    apply map_eq_of_map_eq hashes sameUnbound.prices
    intro left member right other hash price
    exact executedTransaction_eq collisionFree
      (admittedOne.checked left member) (mem_append_left _ member)
      (admittedTwo.checked right other) (mem_append_right _ other) hash price
  have view : executedBlock one = executedBlock two := by
    simp only [executedBlock, transactions, sameHash, sameNumber, admittedOne.feeRecipients,
      admittedTwo.feeRecipients, sameUnbound.coinbaseAddr, sameUnbound.zkvmAddr,
      sameUnbound.timestamp, sameUnbound.accountNonces]
  rw [← processBlockTransactions_executedBlock env order one,
    ← processBlockTransactions_executedBlock env order two, view]

/-- Two blocks are accepted under one hash and number, and leave different
documents at an address. -/
abbrev DivergesAt (one two : ZKBlock) (address : Address) : Prop :=
  Accepts sampleNode (certified one) ∧ Accepts sampleNode (certified two) ∧
    one.blockHash = two.blockHash ∧ one.blockNumber = two.blockNumber ∧
    (processBlockTransactions {} MapOrder.listed one
        { accounts := fundedStore }).2.accounts.get address ≠
      (processBlockTransactions {} MapOrder.listed two
        { accounts := fundedStore }).2.accounts.get address

/-- A transfer whose gas price may be absent; absent and zero have one content. -/
def unpricedTransfer (gasPrice : Option Int) : Transaction :=
  { signedTransfer 0 with gasPrice }

/-- A relay may change the coinbase, the zkvm address, the timestamp, the carried
nonces or the presence of the gas price of a certified block. -/
theorem accepted_blocks_diverge :
    let block := sampleBlock [signedTransfer 0] (some 3)
    DivergesAt block { block with coinbaseAddr := some 5 } 3 ∧
    DivergesAt block { block with zkvmAddr := some 5 } 4 ∧
    DivergesAt block { block with timestamp := 1 } 1 ∧
    DivergesAt block { block with accountNonces := [⟨2, 9⟩] } 2 ∧
    DivergesAt (sampleBlock [unpricedTransfer none] (some 3))
      (sampleBlock [unpricedTransfer (some 0)] (some 3)) 1 := by
  decide +kernel

theorem accepted_blocks_agree_up_to_extra_data :
    let block := sampleBlock [signedTransfer 0] (some 3)
    Accepts sampleNode (certified block) ∧
    Accepts sampleNode (certified { block with extraData := "relayed" }) ∧
    (processBlockTransactions {} MapOrder.listed block
        { accounts := fundedStore }).2.accounts.get 2 =
      (processBlockTransactions {} MapOrder.listed { block with extraData := "relayed" }
        { accounts := fundedStore }).2.accounts.get 2 := by
  intro block
  have first : Accepts sampleNode (certified block) := by decide +kernel
  have second : Accepts sampleNode (certified { block with extraData := "relayed" }) := by
    decide +kernel
  exact ⟨first, second, accepted_blocks_agree first rfl second rfl rfl rfl rfl (fun _ => rfl)
    (sampleCrypto_collisionFree (by decide +kernel)) ⟨rfl, rfl, rfl, rfl, rfl⟩ {} MapOrder.listed _ 2⟩

end Jmdn.Messaging
