import Jmdn.Nodeinfo.Enumeration

/-!
# Loops over the batches of a range

The loop `for { batch, err := iter.Next(); … }` that the sync uses to scan a range
of stored blocks.  It leaves at an error or at the first empty batch, so it runs
through the whole range, stored or not.
-/

namespace Jmdn.Nodeinfo

open Config FastsyncV2 List Transition

variable {σ : Type}

/-- Which calls of a loop succeed, by their number: the reads of the iterator, and
those of the body. -/
structure ScanCalls where
  nextOk : Nat → Bool := fun _ => true
  bodyOk : Nat → Bool := fun _ => true

/-- No call fails. -/
structure ScanCalls.Answers (env : ScanCalls) : Prop where
  next : ∀ call, env.nextOk call = true
  body : ∀ call, env.bodyOk call = true

/-- A loop with the number of calls of `Next` so far. -/
structure BatchLoop (σ : Type) where
  iter : DbBlockIterator
  acc : σ
  calls : Nat := 0

/-- One round.  The loop leaves with what it has gathered or, after an error,
without, and with the number of calls. -/
def batchRound (stored : UInt64 → Option ZKBlock) (env : ScanCalls)
    (body : σ → List (Option ZKBlock) → σ) (state : BatchLoop σ) :
    (Option σ × Nat) ⊕ BatchLoop σ :=
  match state.iter.next stored (env.nextOk state.calls) with
  | (.fails, _) => .inl (none, state.calls + 1)
  -- a call that does not come back
  | (.hangs, _) => .inr state
  | (.blocks [], _) => .inl (some state.acc, state.calls + 1)
  | (.blocks (first :: rest), iter) =>
    if env.bodyOk state.calls then
      .inr { iter, acc := body state.acc (first :: rest), calls := state.calls + 1 }
    else .inl (none, state.calls + 1)

section

variable {store : BlockStore} {env : ScanCalls} {body : σ → List (Option ZKBlock) → σ}
  {state : BatchLoop σ} {result : Option σ × Nat}

theorem length_positions (store : BlockStore) (first last : UInt64) :
    (store.positions first last).length = last.toNat + 1 - first.toNat := by
  rw [BlockStore.positions, length_map, length_blockNumbers]

theorem positions_ne_nil (store : BlockStore) {first last : UInt64} (ordered : first ≤ last) :
    store.positions first last ≠ [] := by
  have order := UInt64.le_iff_toNat_le.mp ordered
  rw [← length_pos_iff, length_positions]
  omega

section

variable (answers : env.Answers)
include answers

theorem batchRound_blocks {batch : List (Option ZKBlock)}
    {next : DbBlockIterator} (nonempty : batch ≠ [])
    (call : state.iter.next store.blocks true = (.blocks batch, next)) :
    batchRound store.blocks env body state =
      .inr { iter := next, acc := body state.acc batch, calls := state.calls + 1 } := by
  cases batch with
  | nil => exact absurd rfl nonempty
  | cons first rest =>
    unfold batchRound
    rw [answers.next, call]
    exact if_pos (answers.body state.calls)

theorem batchRound_fails {next : DbBlockIterator}
    (call : state.iter.next store.blocks true = (.fails, next)) :
    batchRound store.blocks env body state = .inl (none, state.calls + 1) := by
  unfold batchRound
  rw [answers.next, call]

theorem batchRound_done {next : DbBlockIterator}
    (call : state.iter.next store.blocks true = (.blocks [], next)) :
    batchRound store.blocks env body state = .inl (some state.acc, state.calls + 1) := by
  unfold batchRound
  rw [answers.next, call]

/-- A call that does not come back keeps the loop from leaving. -/
theorem not_returns_of_hangs {next : DbBlockIterator}
    (call : state.iter.next store.blocks true = (.hangs, next)) :
    ¬ Returns (batchRound store.blocks env body) state result := by
  have stays : ∀ other, other = state →
      ∃ after, batchRound store.blocks env body other = .inr after ∧ after = state := by
    rintro _ rfl
    refine ⟨_, ?_, rfl⟩
    unfold batchRound
    rw [answers.next, call]
  exact not_returns stays rfl result

/-- The rounds for the windows below the end of the range. -/
theorem returns_windows_iff {iter : DbBlockIterator} {acc : σ}
    {calls count : Nat} (pos : 0 < iter.batchsize.toNat)
    (small : iter.batchsize.toNat < 2 ^ 63)
    (inside : iter.current.toNat + count * iter.batchsize.toNat ≤ iter.end_.toNat) :
    Returns (batchRound store.blocks env body) { iter, acc, calls } result ↔
      Returns (batchRound store.blocks env body)
        { iter := { iter with current := windowStart iter.current iter.batchsize count }
          acc := (store.windows iter.current iter.batchsize count).foldl body acc
          calls := calls + count } result := by
  induction count with
  | zero =>
    have fresh : windowStart iter.current iter.batchsize 0 = iter.current := by
      simp [windowStart]
    rw [fresh]
    rfl
  | succ count ih =>
    have far := windowStart_far pos inside
    have window := farWindow pos far
    rw [Nat.succ_mul] at inside
    have call := @next_far store
      { iter with current := windowStart iter.current iter.batchsize count } pos small far
    have round := @batchRound_blocks σ store env body
      { iter := { iter with current := windowStart iter.current iter.batchsize count }
        acc := (store.windows iter.current iter.batchsize count).foldl body acc
        calls := calls + count }
      answers _ _ (positions_ne_nil store window.lower) call
    rw [ih (by omega), Returns.step_iff round, store.windows_succ, windowStart_succ,
      foldl_append]
    rfl

end

end

/-- The batches of a range. -/
def BlockStore.batches (store : BlockStore) (first last size : UInt64) :
    List (List (Option ZKBlock)) :=
  store.windows first size ((last.toNat - first.toNat) / size.toNat) ++
    [store.positions (lastWindow first last size) last]

theorem BlockStore.flatten_batches (store : BlockStore) {first last size : UInt64}
    (pos : 0 < size.toNat) (ordered : first ≤ last) :
    (store.batches first last size).flatten = store.positions first last := by
  have spec := lastWindow_spec pos ordered
  have lower := UInt64.le_iff_toNat_le.mp spec.lower
  rw [spec.start] at lower
  rw [batches, flatten_append, flatten_singleton]
  exact store.flatten_windows pos lower

/-- What a loop over a range leaves with: an error if its last window passes the
largest number, and otherwise, unless the range ends at it, what it gathered from
all batches. -/
theorem returns_batchLoop_iff {store : BlockStore} {env : ScanCalls} (answers : env.Answers)
    {body : σ → List (Option ZKBlock) → σ} {acc : σ} {first last : UInt64} {batchsize : Int64}
    (pos : 1 ≤ batchsize) (ordered : first ≤ last) {result : Option σ × Nat} :
    Returns (batchRound store.blocks env body)
        { iter := newBlockIterator first last batchsize, acc } result ↔
      if 2 ^ 64 < (lastWindow first last batchsize.toUInt64).toNat + batchsize.toUInt64.toNat then
        result = (none, (last.toNat - first.toNat) / batchsize.toUInt64.toNat + 1)
      else last.toNat + 1 < 2 ^ 64 ∧
        result = (some ((store.batches first last batchsize.toUInt64).foldl body acc),
          (last.toNat - first.toNat) / batchsize.toUInt64.toNat + 2) := by
  obtain ⟨least, most⟩ := toNat_batchsize pos
  have spec := lastWindow_spec least ordered
  have lower := UInt64.le_iff_toNat_le.mp spec.lower
  rw [spec.start] at lower
  have rounds := @returns_windows_iff σ store env body result answers
    (newBlockIterator first last batchsize) acc 0 _ least most lower
  have call : (newBlockIterator first last batchsize).atLast.next store.blocks true =
      if 2 ^ 64 < (lastWindow first last batchsize.toUInt64).toNat +
          batchsize.toUInt64.toNat then
        (.fails, (newBlockIterator first last batchsize).atLast)
      else if last.toNat + 1 < 2 ^ 64 then
        (.blocks (store.positions (lastWindow first last batchsize.toUInt64) last),
          { newBlockIterator first last batchsize with current := last + 1 })
      else (.hangs, (newBlockIterator first last batchsize).atLast) :=
    next_atLast store least most ordered
  rw [rounds, Nat.zero_add]
  split_ifs at call ⊢ with wraps room
  · exact Returns.leave_iff (batchRound_fails answers call)
  · have past : last < last + 1 := by
      rw [UInt64.lt_iff_toNat_lt, toNat_succ room]
      omega
    have finished := @next_done store
      { newBlockIterator first last batchsize with current := last + 1 } true past
    rw [Returns.step_iff (batchRound_blocks answers (positions_ne_nil store spec.lower) call),
      Returns.leave_iff (batchRound_done answers finished), and_iff_right room,
      BlockStore.batches, foldl_append]
    rfl
  · exact iff_of_false (not_returns_of_hangs answers call) fun both => room both.1

/-- Failing calls only keep a loop from its result. -/
theorem returns_answering {stored : UInt64 → Option ZKBlock} {env : ScanCalls}
    {body : σ → List (Option ZKBlock) → σ} {state : BatchLoop σ} {acc : σ} {calls : Nat}
    (returns : Returns (batchRound stored env body) state (some acc, calls)) :
    Returns (batchRound stored {} body) state (some acc, calls) := by
  refine @Returns.of_agrees _ _ _ _ _ _ (fun left => left.1 = none) (fun state => ?_) returns
    (Option.some_ne_none acc)
  unfold batchRound
  cases reads : env.nextOk state.calls with
  | true =>
    rcases state.iter.next stored true with ⟨_ | _ | ⟨_ | ⟨first, rest⟩⟩, iter⟩
    · exact .inl rfl
    · exact .inl rfl
    · exact .inl rfl
    · cases env.bodyOk state.calls with
      | true => exact .inl rfl
      | false => exact .inr ⟨_, rfl, rfl⟩
  | false =>
    unfold DbBlockIterator.next
    by_cases done : state.iter.current > state.iter.end_
    · rw [if_pos done, if_pos done]
      exact .inl rfl
    · rw [if_neg done, if_neg done]
      exact .inr ⟨_, rfl, rfl⟩

end Jmdn.Nodeinfo
