import Mathlib.Data.List.Nodup

/-!
# The connection pool

`Get`, `Put` and `cleanupIdleConnections` of `config/ConnectionPool.go`, each one
step under the mutex of the pool.  Connections are pointers into a heap.  Times
and durations are nanoseconds; a pool is created with a capacity, which is not
negative.
-/

namespace Jmdn.Config

open Function List

/-- `PooledConnection`; `closed` is whether its client was cancelled. -/
structure PooledConnection where
  createdAt : Int := 0
  lastUsed : Int := 0
  tokenExpiry : Int := 0
  inUse : Bool := false
  closed : Bool := false

/-- `ConnectionPoolConfig`. -/
structure ConnectionPoolConfig where
  maxConnections : Nat := 30
  idleTimeout : Int := 300000000000
  maxLifetime : Int := 1800000000000
  tokenMaxLifetime : Int := 86400000000000
  tokenRefreshBuffer : Int := 300000000000

/-- The connections by pointer. -/
abbrev Heap := Nat → PooledConnection

/-- `ConnectionPool`; `fresh` is the pointer of the next allocation. -/
structure ConnectionPool where
  heap : Heap := fun _ => {}
  fresh : Nat := 0
  connections : List Nat := []
  closed : Bool := false

inductive PoolError where
  | poolClosed
  | maxConnectionsReached
  | createFailed
  deriving DecidableEq, Repr

namespace ConnectionPool

variable (config : ConnectionPoolConfig)

/-- What the loop of `Get` leaves: the connection it found, the others in the order
it went through them, and the heap. -/
structure Scan where
  found : Option Nat
  kept : List Nat
  heap : Heap

/-- The lifetime or the token of an idle connection has run out. -/
def isStale (now : Int) (conn : PooledConnection) : Bool :=
  now - conn.createdAt > config.maxLifetime || conn.tokenExpiry - now < config.tokenRefreshBuffer

/-- The loop of `Get`, from the last connection to the first. -/
def scan (now : Int) : List Nat → Heap → Scan
  | [], heap => { found := none, kept := [], heap }
  | conn :: rest, heap =>
    if (heap conn).inUse then
      let later := scan now rest heap
      { later with kept := conn :: later.kept }
    else if isStale config now (heap conn) then
      scan now rest (Function.update heap conn { heap conn with closed := true })
    else
      { found := some conn
        kept := conn :: rest
        heap := Function.update heap conn { heap conn with inUse := true, lastUsed := now } }

/-- The connection of `createConnection`, marked as in use. -/
def newConnection (now : Int) : PooledConnection :=
  { createdAt := now
    lastUsed := now
    tokenExpiry := now + config.tokenMaxLifetime
    inUse := true }

/-- `Get`; `createOk` is whether a new connection could be established. -/
def get (now : Int) (createOk : Bool) (pool : ConnectionPool) :
    Except PoolError Nat × ConnectionPool :=
  if pool.closed then (.error .poolClosed, pool)
  else
    let scanned := scan config now pool.connections.reverse pool.heap
    let after := { pool with connections := scanned.kept.reverse, heap := scanned.heap }
    match scanned.found with
    | some conn => (.ok conn, after)
    | none =>
      if after.connections.length ≥ config.maxConnections then
        (.error .maxConnectionsReached, after)
      else if !createOk then (.error .createFailed, after)
      else
        (.ok after.fresh,
          { after with
            heap := Function.update after.heap after.fresh (newConnection config now)
            fresh := after.fresh + 1
            connections := after.connections ++ [after.fresh] })

/-- `Put`. -/
def put (now : Int) (conn : Nat) (pool : ConnectionPool) : ConnectionPool :=
  let returned := { pool with
    heap := Function.update pool.heap conn
      { pool.heap conn with inUse := false, lastUsed := now } }
  if pool.closed then
    { pool with
      heap := Function.update pool.heap conn { pool.heap conn with closed := true } }
  else if !(pool.heap conn).inUse then returned
  else if conn ∈ pool.connections then returned
  else { returned with connections := pool.connections ++ [conn] }

/-- What `cleanupIdleConnections` closes. -/
def isIdleTooLong (now : Int) (conn : PooledConnection) : Bool :=
  !conn.inUse &&
    (now - conn.createdAt > config.maxLifetime || now - conn.lastUsed > config.idleTimeout)

/-- `cleanupIdleConnections`. -/
def cleanupIdleConnections (now : Int) (pool : ConnectionPool) : ConnectionPool :=
  if pool.closed then pool
  else
    { pool with
      heap := fun conn =>
        if conn ∈ pool.connections ∧ isIdleTooLong config now (pool.heap conn) then
          { pool.heap conn with closed := true }
        else pool.heap conn
      connections := pool.connections.filter fun conn =>
        !isIdleTooLong config now (pool.heap conn) }

/-! ## What the operations change -/

/-- What the loop of `Get` does to connections and heap. -/
structure ScanSpec (connections : List Nat) (heap : Heap) (result : Scan) : Prop where
  kept : result.kept.Sublist connections
  busy : ∀ conn ∈ connections, (heap conn).inUse → conn ∈ result.kept
  same : ∀ conn, (heap conn).inUse ∨ conn ∉ connections → result.heap conn = heap conn
  open_ : ∀ conn ∈ result.kept, (result.heap conn).closed = (heap conn).closed
  inUse : ∀ conn, (result.heap conn).inUse → (heap conn).inUse ∨ result.found = some conn
  found : ∀ conn, result.found = some conn →
    conn ∈ result.kept ∧ (heap conn).inUse = false ∧ (result.heap conn).inUse = true

theorem scan_spec (now : Int) {connections : List Nat} (nodup : connections.Nodup) (heap : Heap) :
    ScanSpec connections heap (scan config now connections heap) := by
  induction connections generalizing heap with
  | nil => constructor <;> simp [scan]
  | cons conn rest ih =>
    obtain ⟨apart, distinct⟩ := nodup_cons.mp nodup
    rw [scan]
    split
    · next busy =>
      have later := ih distinct heap
      constructor
      case kept => exact later.kept.cons_cons conn
      case busy => grind [later.busy]
      case same => grind [later.same]
      case open_ => grind [later.open_, later.same]
      case inUse => exact later.inUse
      case found => grind [later.found]
    · next idle =>
      split
      · -- a stale connection leaves the pool before the others are looked at
        have later := ih distinct
          (update heap conn { heap conn with closed := true })
        have others : ∀ other, other ≠ conn → update heap conn
            { heap conn with closed := true } other = heap other := fun other apart =>
          update_of_ne apart _ _
        have itself : (update heap conn { heap conn with closed := true } conn).inUse =
            (heap conn).inUse := by rw [update_self]
        constructor
        case kept => exact later.kept.cons conn
        case busy => grind [later.busy]
        case same => grind [later.same]
        case open_ => grind [later.open_, later.kept.subset]
        case inUse => grind [later.inUse]
        case found => grind [later.found]
      · constructor <;> grind [update_apply]

/-- A pool between operations: what is in use is in the pool, and what is in the
pool is open. -/
structure Sound (pool : ConnectionPool) : Prop where
  running : pool.closed = false
  nodup : pool.connections.Nodup
  allocated : ∀ conn ∈ pool.connections, conn < pool.fresh
  pooled : ∀ conn, (pool.heap conn).inUse → conn ∈ pool.connections
  live : ∀ conn ∈ pool.connections, (pool.heap conn).closed = false
  size : pool.connections.length ≤ config.maxConnections

theorem Sound.initial : Sound config {} := by
  constructor <;> simp

variable {config} {pool : ConnectionPool}

section

variable (sound : Sound config pool)
include sound

/-- The pool after the loop of `Get`. -/
theorem Sound.scanned {result : Scan} (spec : ScanSpec pool.connections.reverse pool.heap result) :
    Sound config { pool with connections := result.kept.reverse, heap := result.heap } := by
  have inside : ∀ conn ∈ result.kept, conn ∈ pool.connections := fun conn mem =>
    mem_reverse.mp (spec.kept.subset mem)
  constructor
  case running => exact sound.running
  case nodup =>
    rw [nodup_reverse]
    exact (nodup_reverse.mpr sound.nodup).sublist spec.kept
  case allocated =>
    intro conn mem
    exact sound.allocated conn (inside conn (mem_reverse.mp mem))
  case pooled =>
    intro conn used
    rw [mem_reverse]
    rcases spec.inUse conn used with before | now
    · exact spec.busy conn (mem_reverse.mpr (sound.pooled conn before)) before
    · exact (spec.found conn now).1
  case live =>
    intro conn mem
    have kept := mem_reverse.mp mem
    exact (spec.open_ conn kept).trans (sound.live conn (inside conn kept))
  case size =>
    have shorter := spec.kept.length_le
    rw [length_reverse] at shorter ⊢
    exact Nat.le_trans shorter sound.size

/-- A new connection in a pool with room. -/
theorem Sound.create (now : Int) (room : pool.connections.length < config.maxConnections) :
    Sound config { pool with
      heap := update pool.heap pool.fresh (newConnection config now)
      fresh := pool.fresh + 1
      connections := pool.connections ++ [pool.fresh] } := by
  have new : pool.fresh ∉ pool.connections := fun mem =>
    Nat.lt_irrefl _ (sound.allocated _ mem)
  constructor
  case running => exact sound.running
  case nodup => grind [sound.nodup, nodup_append]
  case allocated =>
    intro conn mem
    rcases mem_append.mp mem with before | last
    · exact Nat.lt_succ_of_lt (sound.allocated conn before)
    · rw [mem_singleton.mp last]
      exact Nat.lt_succ_self _
  case pooled => grind [sound.pooled, update_apply]
  case live => grind [sound.live, update_apply, newConnection]
  case size =>
    rw [length_append]
    exact room

/-- `Get` keeps the pool sound, leaves connections in use alone and hands out one
that was not in use. -/
theorem Sound.get (now : Int) (createOk : Bool) :
    Sound config (pool.get config now createOk).2 ∧
      (∀ conn, (pool.heap conn).inUse →
        (pool.get config now createOk).2.heap conn = pool.heap conn) ∧
      ∀ conn, (pool.get config now createOk).1 = .ok conn →
        (pool.heap conn).inUse = false ∧
          ((pool.get config now createOk).2.heap conn).inUse = true := by
  have spec := scan_spec config now (nodup_reverse.mpr sound.nodup) pool.heap
  have scanned := sound.scanned spec
  unfold ConnectionPool.get
  rw [if_neg (by simp [sound.running])]
  dsimp only
  split
  · next conn found =>
    refine ⟨scanned, fun other used => spec.same other (.inl used), fun other same => ?_⟩
    cases same
    exact (spec.found conn found).2
  · split
    · exact ⟨scanned, fun other used => spec.same other (.inl used),
        fun _ failed => nomatch failed⟩
    · next room =>
      split
      · exact ⟨scanned, fun other used => spec.same other (.inl used),
          fun _ failed => nomatch failed⟩
      refine ⟨scanned.create now (Nat.lt_of_not_le room), fun other used => ?_,
        fun other same => ?_⟩
      · have older := sound.allocated other (sound.pooled other used)
        dsimp only
        rw [update_of_ne (Nat.ne_of_lt older)]
        exact spec.same other (.inl used)
      · cases same
        dsimp only
        rw [update_self]
        exact ⟨Bool.eq_false_iff.mpr fun used =>
          Nat.lt_irrefl _ (sound.allocated _ (sound.pooled _ used)), rfl⟩

/-- `Put` gives up the connection and touches no other. -/
theorem Sound.put (now : Int) (conn : Nat) :
    Sound config (pool.put now conn) ∧ (pool.put now conn).connections = pool.connections ∧
      (∀ other, other ≠ conn → (pool.put now conn).heap other = pool.heap other) ∧
      ((pool.put now conn).heap conn).inUse = false := by
  have returned : pool.put now conn = { pool with
      heap := update pool.heap conn
        { pool.heap conn with inUse := false, lastUsed := now } } := by
    unfold ConnectionPool.put
    dsimp only
    rw [if_neg (by simp [sound.running])]
    split
    · rfl
    · next used => rw [if_pos (sound.pooled conn (by simpa using used))]
  rw [returned]
  refine ⟨?_, rfl, fun other apart => update_of_ne apart _ _, ?_⟩
  · constructor
    case running => exact sound.running
    case nodup => exact sound.nodup
    case allocated => exact sound.allocated
    case pooled => grind [sound.pooled, update_apply]
    case live => grind [sound.live, update_apply]
    case size => exact sound.size
  · dsimp only
    rw [update_self]

/-- Cleanup leaves connections in use alone. -/
theorem Sound.cleanup (now : Int) :
    Sound config (pool.cleanupIdleConnections config now) ∧
      ∀ conn, (pool.heap conn).inUse →
        (pool.cleanupIdleConnections config now).heap conn = pool.heap conn := by
  have used : ∀ conn, (pool.heap conn).inUse →
      isIdleTooLong config now (pool.heap conn) = false := by
    intro conn inUse
    rw [isIdleTooLong, inUse]
    rfl
  unfold cleanupIdleConnections
  rw [if_neg (by simp [sound.running])]
  refine ⟨?_, fun conn inUse => if_neg (by simp [used conn inUse])⟩
  constructor
  case running => exact sound.running
  case nodup => exact sound.nodup.filter _
  case allocated => exact fun conn mem => sound.allocated conn (mem_of_mem_filter mem)
  case pooled => grind [sound.pooled]
  case live => grind [sound.live]
  case size => exact Nat.le_trans (length_filter_le _ _) sound.size

/-- Cleanup closes an idle connection once its lifetime is over. -/
theorem Sound.cleanup_closes {now : Int} {conn : Nat}
    (mem : conn ∈ pool.connections) (idle : (pool.heap conn).inUse = false)
    (old : now - (pool.heap conn).createdAt > config.maxLifetime) :
    ((pool.cleanupIdleConnections config now).heap conn).closed = true := by
  unfold cleanupIdleConnections
  rw [if_neg (by simp [sound.running])]
  dsimp only
  rw [if_pos ⟨mem, by simp [isIdleTooLong, idle, old]⟩]

end

end ConnectionPool

end Jmdn.Config
