import Mathlib.Data.List.Induction
import Jmdn.Config.ConnectionPool
import Jmdn.Transition.Run

/-!
# Leases of pooled connections

Callers of `GetAccountConnectionandPutBack` and of its counterpart for the main
database.  A lease is returned early by `PutAccountsConnection`, any number of
times, and once more by the goroutine that waits for the context to end.  Neither
looks at who holds the connection by then.
-/

namespace Jmdn.DBOPs

open Config List Transition

variable {index : Nat}

/-- A connection in the hands of a caller; `watched` while a goroutine waits for the
caller's context. -/
structure Lease where
  conn : Nat
  returned : Bool := false
  watched : Bool := false
  deriving DecidableEq, Repr

/-- A pool and the leases given out so far. -/
structure LeasedPool where
  pool : ConnectionPool := {}
  leases : List Lease := []

inductive PoolAction where
  /-- `GetAccountConnectionandPutBack`; a context that cannot end is not watched. -/
  | lease (now : Int) (createOk cancellable : Bool)
  /-- `PutAccountsConnection` by the caller of a lease. -/
  | putBack (index : Nat) (now : Int)
  /-- The context of a lease ends. -/
  | contextEnds (index : Nat) (now : Int)
  | cleanup (now : Int)

variable {leases : List Lease} {action : PoolAction}

section

variable (config : ConnectionPoolConfig)

/-- A lease of the pool goes back. -/
def LeasedPool.putBack (system : LeasedPool) (index : Nat) (lease : Lease) (now : Int) :
    LeasedPool where
  pool := system.pool.put now lease.conn
  leases := system.leases.set index { lease with returned := true }

/-- `Get` by a new caller. -/
def LeasedPool.lease (system : LeasedPool) (now : Int) (createOk cancellable : Bool) :
    LeasedPool :=
  let (result, pool) := system.pool.get config now createOk
  match result with
  | .ok conn => { pool, leases := system.leases ++ [{ conn, watched := cancellable }] }
  | .error _ => { system with pool }

def poolStep : Step LeasedPool PoolAction
  | system, .lease now createOk cancellable =>
    some (system.lease config now createOk cancellable)
  | system, .putBack index now =>
    (system.leases[index]?).map fun lease => system.putBack index lease now
  | system, .contextEnds index now =>
    ((system.leases[index]?).filter Lease.watched).map fun lease =>
      system.putBack index { lease with watched := false } now
  | system, .cleanup now =>
    some { system with pool := system.pool.cleanupIdleConnections config now }

end

/-- No connection is held by two callers that have not returned it. -/
def Unshared (leases : List Lease) : Prop :=
  ∀ (i j : Nat) (first second : Lease), leases[i]? = some first → leases[j]? = some second →
    first.returned = false → second.returned = false → first.conn = second.conn → i = j

/-- A caller that has not returned its connection holds it alone and open, and the
pool keeps its bound. -/
structure Exclusive (config : ConnectionPoolConfig) (system : LeasedPool) : Prop where
  alone : Unshared system.leases
  unclosed : ∀ lease ∈ system.leases, lease.returned = false →
    (system.pool.heap lease.conn).closed = false
  size : system.pool.connections.length ≤ config.maxConnections

/-- A connection is put back by a lease that still has it, or while no other lease
has it. -/
def OwnReturn (system : LeasedPool) : PoolAction → Prop
  | .putBack index _ | .contextEnds index _ =>
    ∀ lease, system.leases[index]? = some lease → lease.returned = true →
      ∀ other ∈ system.leases, other.returned = false → other.conn ≠ lease.conn
  | _ => True

/-- A new lease of a connection that nobody holds. -/
theorem Unshared.snoc {last : Lease} (unshared : Unshared leases)
    (apart : ∀ lease ∈ leases, lease.returned = false → lease.conn ≠ last.conn) :
    Unshared (leases ++ [last]) := by
  have place : ∀ (i : Nat) (lease : Lease), (leases ++ [last])[i]? = some lease →
      leases[i]? = some lease ∨ i = leases.length ∧ lease = last := by
    intro i lease found
    rw [List.getElem?_append] at found
    split at found
    · exact .inl found
    next beyond =>
    rw [List.getElem?_singleton] at found
    split at found
    · cases found
      exact .inr ⟨by omega, rfl⟩
    · cases found
  intro i j first second foundFirst foundSecond heldFirst heldSecond same
  rcases place i first foundFirst with before | ⟨end_, rfl⟩
  · rcases place j second foundSecond with before' | ⟨end', rfl⟩
    · exact unshared i j first second before before' heldFirst heldSecond same
    · exact absurd same (apart first (mem_of_getElem? before) heldFirst)
  · rcases place j second foundSecond with before' | ⟨end', rfl⟩
    · exact absurd same.symm (apart second (mem_of_getElem? before') heldSecond)
    · rw [end_, end']

/-- The leases after one of them is marked as returned. -/
theorem getElem?_set_returned {j : Nat} {lease other : Lease} (marked : lease.returned = true)
    (found : (leases.set index lease)[j]? = some other) (unreturned : other.returned = false) :
    j ≠ index ∧ leases[j]? = some other := by
  by_cases same : index = j
  · subst same
    rw [List.getElem?_set_self'] at found
    obtain ⟨old, -, same⟩ := Option.map_eq_some_iff.mp found
    rw [← same, Function.const_apply, marked] at unreturned
    cases unreturned
  · rw [List.getElem?_set_ne same] at found
    exact ⟨Ne.symm same, found⟩

/-- The invariant of runs in which every return is the caller's own. -/
structure Leased (config : ConnectionPoolConfig) (system : LeasedPool) : Prop where
  sound : system.pool.Sound config
  held : ∀ lease ∈ system.leases, lease.returned = false →
    (system.pool.heap lease.conn).inUse = true
  alone : Unshared system.leases

section

variable {config : ConnectionPoolConfig} {system next : LeasedPool}

theorem Leased.initial : Leased config {} := by
  constructor
  case sound => exact ConnectionPool.Sound.initial config
  case held => simp
  case alone =>
    intro i j first second found
    cases found

section

variable (leased : Leased config system)
include leased

theorem Leased.exclusive : Exclusive config system := by
  constructor
  case alone => exact leased.alone
  case unclosed =>
    intro lease mem unreturned
    have inUse := leased.held lease mem unreturned
    exact leased.sound.live _ (leased.sound.pooled _ inUse)
  case size => exact leased.sound.size

theorem Leased.cleanup (now : Int) :
    Leased config { system with pool := system.pool.cleanupIdleConnections config now } := by
  obtain ⟨sound, used⟩ := leased.sound.cleanup now
  constructor
  case sound => exact sound
  case held =>
    intro lease mem unreturned
    have inUse := leased.held lease mem unreturned
    change ((system.pool.cleanupIdleConnections config now).heap lease.conn).inUse = true
    rw [used _ inUse]
    exact inUse
  case alone => exact leased.alone

theorem Leased.lease (now : Int) (createOk cancellable : Bool) :
    Leased config (system.lease config now createOk cancellable) := by
  obtain ⟨sound, used, handed⟩ := leased.sound.get now createOk
  have held : ∀ lease ∈ system.leases, lease.returned = false →
      ((system.pool.get config now createOk).2.heap lease.conn).inUse = true := by
    intro lease mem unreturned
    have inUse := leased.held lease mem unreturned
    rw [used _ inUse]
    exact inUse
  unfold LeasedPool.lease
  dsimp only
  split
  · next conn result =>
    obtain ⟨idle, inUse⟩ := handed conn result
    have apart : ∀ lease ∈ system.leases, lease.returned = false → lease.conn ≠ conn := by
      rintro lease mem unreturned rfl
      rw [leased.held lease mem unreturned] at idle
      cases idle
    refine ⟨sound, ?_, leased.alone.snoc apart⟩
    rw [forall_mem_append]
    refine ⟨held, fun lease mem unreturned => ?_⟩
    rw [mem_singleton.mp mem]
    exact inUse
  · exact ⟨sound, held, leased.alone⟩

/-- The connection of a lease goes back while no other lease has it. -/
theorem Leased.putBack {lease : Lease} (now : Int)
    (apart : ∀ (j : Nat) (other : Lease), j ≠ index → system.leases[j]? = some other →
      other.returned = false → other.conn ≠ lease.conn) :
    Leased config (system.putBack index lease now) := by
  obtain ⟨sound, -, others, -⟩ := leased.sound.put now lease.conn
  constructor
  case sound => exact sound
  case held =>
    intro other mem unreturned
    obtain ⟨j, found⟩ := mem_iff_getElem?.mp mem
    obtain ⟨elsewhere, before⟩ := getElem?_set_returned rfl found unreturned
    change ((system.pool.put now lease.conn).heap other.conn).inUse = true
    rw [others _ (apart j other elsewhere before unreturned)]
    exact leased.held other (mem_of_getElem? before) unreturned
  case alone =>
    intro i j first second foundFirst foundSecond heldFirst heldSecond same
    exact leased.alone i j first second (getElem?_set_returned rfl foundFirst heldFirst).2
      (getElem?_set_returned rfl foundSecond heldSecond).2 heldFirst heldSecond same

/-- Every operation keeps the leases exclusive if returns are the caller's own. -/
theorem Leased.step (own : OwnReturn system action)
    (taken : poolStep config system action = some next) :
    Leased config next := by
  have apart : ∀ {index : Nat} {lease : Lease}, system.leases[index]? = some lease →
      (lease.returned = true → ∀ other ∈ system.leases, other.returned = false →
        other.conn ≠ lease.conn) →
      ∀ (j : Nat) (other : Lease), j ≠ index → system.leases[j]? = some other →
        other.returned = false → other.conn ≠ lease.conn := by
    intro index lease found own j other elsewhere foundOther unreturned same
    cases returned : lease.returned with
    | true => exact own returned other (mem_of_getElem? foundOther) unreturned same
    | false =>
      exact elsewhere
        (leased.alone j index other lease foundOther found unreturned returned same)
  cases action with
  | lease now createOk cancellable =>
    cases taken
    exact leased.lease now createOk cancellable
  | putBack index now =>
    obtain ⟨lease, found, rfl⟩ := Option.map_eq_some_iff.mp taken
    exact leased.putBack now (apart found (own lease found))
  | contextEnds index now =>
    obtain ⟨lease, watched, rfl⟩ := Option.map_eq_some_iff.mp taken
    have found := (Option.filter_eq_some_iff.mp watched).1
    have separate := apart found (own lease found)
    exact leased.putBack now separate
  | cleanup now =>
    cases taken
    exact leased.cleanup now

end

theorem Leased.of_runs {actions : List PoolAction}
    (runs : Runs (poolStep config) OwnReturn {} actions system) : Leased config system :=
  runs.invariant Leased.initial fun _ _ _ leased own taken => leased.step own taken

/-- A connection that is put back while another lease has it is closed by a late
cleanup. -/
theorem Leased.own_of_cleaned (leased : Leased config system) {lease marked : Lease} {now : Int}
    (found : system.leases[index]? = some lease) (conn : marked.conn = lease.conn)
    (cleaned : ∀ later, Exclusive config { system.putBack index marked now with
      pool := (system.putBack index marked now).pool.cleanupIdleConnections config later })
    (returned : lease.returned = true) :
    ∀ other ∈ system.leases, other.returned = false → other.conn ≠ lease.conn := by
  intro other mem unreturned same
  obtain ⟨j, foundOther⟩ := mem_iff_getElem?.mp mem
  have elsewhere : index ≠ j := by
    rintro rfl
    cases foundOther.symm.trans found
    rw [returned] at unreturned
    cases unreturned
  have kept : other ∈ (system.putBack index marked now).leases := by
    refine mem_of_getElem? (i := j) ?_
    exact (List.getElem?_set_ne elsewhere).trans foundOther
  obtain ⟨sound, connections, -, idle⟩ := leased.sound.put now marked.conn
  have pooled := leased.sound.pooled _ (leased.held other mem unreturned)
  rw [same, ← conn, ← connections] at pooled
  obtain ⟨later, late⟩ : ∃ later, later -
      ((system.pool.put now marked.conn).heap marked.conn).createdAt > config.maxLifetime :=
    ⟨((system.pool.put now marked.conn).heap marked.conn).createdAt + config.maxLifetime + 1,
      by omega⟩
  have closed := sound.cleanup_closes pooled idle late
  have unclosed := (cleaned later).unclosed other kept unreturned
  rw [same, ← conn] at unclosed
  cases closed.symm.trans unclosed

theorem Leased.ownReturn (leased : Leased config system)
    (taken : poolStep config system action = some next) (cleaned : ∀ later, Exclusive config
      { next with pool := next.pool.cleanupIdleConnections config later }) :
    OwnReturn system action := by
  cases action with
  | lease now createOk cancellable => trivial
  | putBack index now =>
    obtain ⟨lease, found, rfl⟩ := Option.map_eq_some_iff.mp taken
    intro other foundOther
    cases foundOther.symm.trans found
    exact leased.own_of_cleaned found rfl cleaned
  | contextEnds index now =>
    obtain ⟨lease, watched, rfl⟩ := Option.map_eq_some_iff.mp taken
    have found := (Option.filter_eq_some_iff.mp watched).1
    intro other foundOther
    cases foundOther.symm.trans found
    refine leased.own_of_cleaned found ?_ cleaned
    rfl
  | cleanup now => trivial

end

/-- Along a run, and after a cleanup at any point of it, leases are exclusive
exactly when every connection is put back by a lease that still has it or while
no other lease has it. -/
theorem exclusive_leases_iff (config : ConnectionPoolConfig) {actions : List PoolAction}
    {final : LeasedPool} (taken : run (poolStep config) {} actions = some final) :
    (∀ history, history <+: actions → ∀ state, run (poolStep config) {} history = some state →
      Exclusive config state ∧ ∀ now, Exclusive config
        { state with pool := state.pool.cleanupIdleConnections config now }) ↔
      Runs (poolStep config) OwnReturn {} actions final := by
  constructor
  · intro exclusive
    induction actions using List.reverseRecOn generalizing final with
    | nil =>
      cases taken
      exact Runs.nil
    | append_singleton actions action ih =>
      rw [run_snoc] at taken
      obtain ⟨before, reached, last⟩ := Option.bind_eq_some_iff.mp taken
      have runs := ih reached fun history earlier =>
        exclusive history (earlier.trans (prefix_append _ _))
      have whole : run (poolStep config) {} (actions ++ [action]) = some final := by
        rw [run_snoc]
        exact taken
      have own := (Leased.of_runs runs).ownReturn last
        (exclusive _ (prefix_refl _) final whole).2
      exact Runs.snoc runs own last
  · intro runs history earlier state reached
    obtain ⟨middle, part⟩ := runs.earlier earlier
    cases part.run_eq.symm.trans reached
    have leased := Leased.of_runs part
    exact ⟨leased.exclusive, fun now => (leased.cleanup now).exclusive⟩

/-- The first caller returns its connection early, a second one leases it, the
context of the first one ends, and a third one leases it too. -/
def lateReturn : List PoolAction :=
  [.lease 0 true true, .putBack 0 1, .lease 2 true true, .contextEnds 0 3, .lease 4 true true]

theorem late_return_shares_connection :
    (run (poolStep {}) {} lateReturn).map LeasedPool.leases =
      some [{ conn := 0, returned := true }, { conn := 0, watched := true },
        { conn := 0, watched := true }] := by
  decide +kernel

/-- Two callers, the first of which returns its connection before its context ends. -/
def promptReturns : List PoolAction :=
  [.lease 0 true true, .lease 1 true true, .putBack 0 2, .contextEnds 0 3, .cleanup 4]

/-- The condition on returns, as a test. -/
def isOwnReturn (system : LeasedPool) : PoolAction → Bool
  | .putBack index _ | .contextEnds index _ =>
    (system.leases[index]?).all fun lease =>
      !lease.returned || system.leases.all fun other =>
        other.returned || other.conn != lease.conn
  | _ => true

theorem ownReturn_of_isOwnReturn (system : LeasedPool) (action : PoolAction)
    (passed : isOwnReturn system action = true) : OwnReturn system action := by
  cases action with
  | lease now createOk cancellable => trivial
  | cleanup now => trivial
  | putBack index now | contextEnds index now =>
    intro lease found returned other mem unreturned
    rw [isOwnReturn, found, Option.all_some, returned, Bool.not_true, Bool.false_or,
      all_eq_true] at passed
    have apart := passed other mem
    rw [unreturned, Bool.false_or, bne_iff_ne] at apart
    exact apart

theorem prompt_returns_are_exclusive :
    ∃ final, run (poolStep {}) {} promptReturns = some final ∧ Exclusive {} final := by
  have allowed : (runIf (poolStep {}) isOwnReturn {} promptReturns).isSome = true := by
    decide +kernel
  obtain ⟨final, taken⟩ := Option.isSome_iff_exists.mp allowed
  have own := runs_of_runIf ownReturn_of_isOwnReturn taken
  exact ⟨final, own.run_eq, (((exclusive_leases_iff {} own.run_eq).mpr own) _
    (prefix_refl _) final own.run_eq).1⟩

end Jmdn.DBOPs
