import Jmdn.DBOPs.Accounts

/-!
# The transaction stage

`txStage` collects the account documents one transaction changes, so that they
can be committed together.  Reads go through the stage to the store below it.
`overlay` is the store as the transaction sees it; committing the stage turns
the store into exactly that view.
-/

namespace Jmdn.BlockProcessing

open Config DBOPs

/-- Staged documents in first-touch order. -/
structure TxStage where
  docs : Address → Option Account
  order : List Address
  keyed : ∀ address doc, docs address = some doc → doc.address = address
  listed : ∀ address, address ∈ order ↔ (docs address).isSome
  nodup : order.Nodup

namespace TxStage

/-- `newTxStage`. -/
def new : TxStage where
  docs _ := none
  order := []
  keyed := Accounts.empty.keyed
  listed := by simp
  nodup := List.nodup_nil

/-- The staged document, falling back to the committed store. -/
def get (stage : TxStage) (store : Accounts) (address : Address) : Option Account :=
  match stage.docs address with
  | some doc => some doc
  | none => store.get address

/-- Stage a document; nothing is written to the store. -/
def put (stage : TxStage) (doc : Account) : TxStage where
  docs := Function.update stage.docs doc.address (some doc)
  order :=
    if (stage.docs doc.address).isSome then stage.order else stage.order ++ [doc.address]
  keyed := by
    intro address found staged
    by_cases same : address = doc.address
    · subst same
      rw [Function.update_self] at staged
      rw [Option.some.inj staged]
    · rw [Function.update_of_ne same] at staged
      exact stage.keyed address found staged
  listed := by
    intro address
    by_cases same : address = doc.address
    · subst same
      by_cases known : (stage.docs doc.address).isSome
      · simp [known, (stage.listed doc.address).mpr known]
      · simp [known]
    · by_cases known : (stage.docs doc.address).isSome <;>
        simp [known, same, stage.listed address]
  nodup := by
    by_cases known : (stage.docs doc.address).isSome
    · simpa [known] using stage.nodup
    have fresh : doc.address ∉ stage.order := fun member =>
      known ((stage.listed doc.address).mp member)
    simp [known, List.nodup_append, stage.nodup]
    rintro address member rfl
    exact fresh member

/-- The documents for the atomic commit, in first-touch order. -/
def staged (stage : TxStage) : List Account :=
  stage.order.filterMap stage.docs

/-- The store as the transaction sees it. -/
def overlay (stage : TxStage) (store : Accounts) : Accounts where
  get := stage.get store
  keyed := by
    intro address doc found
    unfold get at found
    split at found
    · next staged equal =>
      rw [← Option.some.inj found]
      exact stage.keyed address staged equal
    · exact store.keyed address doc found

@[simp]
theorem overlay_get (stage : TxStage) (store : Accounts) (addr : Address) :
    (stage.overlay store).get addr = stage.get store addr :=
  rfl

@[simp]
theorem overlay_new (store : Accounts) : new.overlay store = store :=
  Accounts.ext fun _ => rfl

@[simp]
theorem overlay_put (stage : TxStage) (store : Accounts) (doc : Account) :
    (stage.put doc).overlay store = (stage.overlay store).put doc := by
  apply Accounts.ext
  intro addr
  rw [Accounts.put_get]
  by_cases same : addr = doc.address
  · subst same
    simp [get, put]
  · simp [get, put, same]

/-- Committing the staged documents yields the transaction's own view. -/
theorem foldl_put_staged (stage : TxStage) (store : Accounts) :
    stage.staged.foldl Accounts.put store = stage.overlay store := by
  apply Accounts.ext
  intro addr
  rw [staged, Accounts.foldl_put_get stage.docs stage.keyed]
  have listed := stage.listed addr
  cases docs : stage.docs addr <;> simp [get, docs, listed]

end TxStage

end Jmdn.BlockProcessing
