import Mathlib.Algebra.Group.Nat.Defs
import Mathlib.Data.List.Pairwise
import Jmdn.Transition.Run

/-!
# Subscriptions to new heads

`Service_WS.go` of the facade: subscribers with bounded channels, and the pollers
that read `latest_block`, read the blocks above a shared cursor and send them.  Each
locked section and each database call is one step, so pollers interleave.  A tick
that finds no subscriber clears `isPolling`, but its `break` only leaves the
`select`: the poller goes on, and the next subscription starts another one.
-/

namespace Jmdn.Facade.Heads

open List Transition

variable {number cursor index : Nat}

/-- Size of a subscriber's channel. -/
def capacity : Nat := 100

/-- `NewHeadsSubscription`, with its channel.  `put` records, newest first, the numbers
put on the channel. -/
structure Subscription where
  id : Nat
  registered : Bool := true
  cancelled : Bool := false
  queue : List Nat := []
  put : List Nat := []
  deriving DecidableEq, Repr

/-- One round of `notifyNewBlock`. -/
def Subscription.offer (number : Nat) (subscription : Subscription) : Subscription :=
  if !subscription.registered || subscription.cancelled then subscription
  else if subscription.queue.length < capacity then
    { subscription with
      queue := subscription.queue ++ [number]
      put := number :: subscription.put }
  else subscription

/-- Where a goroutine stands: a call of `startBlockPollerIfNeeded` that took the
polling flag, and then the poller it starts. -/
inductive Thread where
  | starting
  | initialized
  | latestRead (latest : Nat)
  | spawning
  | waiting
  | ticked
  | counted (latest : Nat)
  | scanning (number latest : Nat)
  | sending (number latest : Nat)
  | writing (number latest : Nat)
  deriving DecidableEq, Repr

/-- The package variables, the stored `latest_block`, the subscribers that are about
to call `startBlockPollerIfNeeded`, and the running goroutines. -/
structure State where
  latest : Nat
  lastProcessed : Nat := 0
  isPolling : Bool := false
  subscriptions : List Subscription := []
  requests : Nat := 0
  threads : List Thread := []
  deriving DecidableEq, Repr

inductive Action where
  | grow (latest : UInt64)
  | subscribe (id : Nat)
  | start
  | cleanup (index : Nat)
  | cancel (index : Nat)
  | receive (index : Nat)
  | advance (thread : Nat) (ok : Bool)
  | stop (thread : Nat)
  deriving DecidableEq, Repr

/-- `delete(subscribers, id)`, also when an entry is overwritten. -/
def unregister (id : Nat) (subscriptions : List Subscription) : List Subscription :=
  subscriptions.map fun subscription =>
    if subscription.id = id then { subscription with registered := false } else subscription

/-- Whether the map of subscribers has an entry. -/
def hasSubscribers (state : State) : Bool :=
  state.subscriptions.any Subscription.registered

/-- The head of the loop over the new blocks. -/
def scan (number latest : Nat) : Thread :=
  if number ≤ latest then .scanning number latest else .waiting

/-- The next step of a goroutine: the variables after it, and where it stands then,
or nothing if it ends.  `ok` tells whether the call it makes succeeds. -/
def threadStep (state : State) (ok : Bool) : Thread → State × Option Thread
  | .starting =>
    if ok then (state, some .initialized) else ({ state with isPolling := false }, none)
  | .initialized => (state, some (if ok then .latestRead state.latest else .spawning))
  | .latestRead latest => ({ state with lastProcessed := latest }, some .spawning)
  | .spawning => (state, some .waiting)
  | .waiting =>
    if hasSubscribers state then (state, some .ticked)
    else ({ state with isPolling := false }, some .waiting)
  | .ticked => (state, some (if ok then .counted state.latest else .waiting))
  | .counted latest =>
    (state, some (if latest > state.lastProcessed then
      scan ((state.lastProcessed + 1) % 2 ^ 64) latest else .waiting))
  | .scanning number latest =>
    (state, some (if ok then .sending number latest
      else scan ((number + 1) % 2 ^ 64) latest))
  | .sending number latest =>
    ({ state with subscriptions := state.subscriptions.map (Subscription.offer number) },
      some (.writing number latest))
  | .writing number latest =>
    ({ state with lastProcessed := number }, some (scan ((number + 1) % 2 ^ 64) latest))

/-- The goroutines after one of them moved or ended. -/
def replaceThread (threads : List Thread) (index : Nat) : Option Thread → List Thread
  | some thread => threads.set index thread
  | none => threads.eraseIdx index

def step : Step State Action
  | state, .grow latest =>
    if state.latest ≤ latest.toNat then some { state with latest := latest.toNat } else none
  | state, .subscribe id =>
    some { state with
      subscriptions := unregister id state.subscriptions ++ [{ id := id }]
      requests := state.requests + 1 }
  | state, .start =>
    if state.requests = 0 then none
    else if state.isPolling then some { state with requests := state.requests - 1 }
    else
      some { state with
        requests := state.requests - 1
        isPolling := true
        threads := state.threads ++ [.starting] }
  | state, .cleanup index =>
    state.subscriptions[index]?.map fun subscription =>
      { state with subscriptions := unregister subscription.id state.subscriptions }
  | state, .cancel index =>
    some { state with
      subscriptions := state.subscriptions.modify index fun subscription =>
        { subscription with cancelled := true } }
  | state, .receive index =>
    some { state with
      subscriptions := state.subscriptions.modify index fun subscription =>
        { subscription with queue := subscription.queue.tail } }
  | state, .advance index ok =>
    state.threads[index]?.map fun thread =>
      let moved := threadStep state ok thread
      { moved.1 with threads := replaceThread state.threads index moved.2 }
  | state, .stop index =>
    match state.threads[index]? with
    | some .waiting | some (.scanning _ _) =>
      some { state with threads := state.threads.eraseIdx index }
    | _ => none

/-- The state before the first subscription. -/
def initial (latest : UInt64) : State :=
  { latest := latest.toNat }

/-! ## Steady runs -/

/-- A step of a goroutine that keeps the heads in order: a tick finds a subscriber,
and the block read successfully is the one after the cursor. -/
def steadyThread (state : State) (ok : Bool) : Thread → Bool
  | .waiting => hasSubscribers state
  | .scanning number _ => !ok || number = state.lastProcessed + 1
  | _ => true

/-- A step that keeps the heads in order; `latest_block` does not become the greatest
number. -/
def steady (state : State) : Action → Bool
  | .grow latest => latest.toNat + 1 < 2 ^ 64
  | .advance index ok => state.threads[index]?.all (steadyThread state ok)
  | _ => true

/-! ## One channel -/

/-- A channel once the numbers up to `sent` went out: they increase, and what is on it
was put there last. -/
structure Subscription.Good (sent : Nat) (subscription : Subscription) : Prop where
  increasing : subscription.put.Pairwise (· > ·)
  held : subscription.queue <:+ subscription.put.reverse
  reached : ∀ number ∈ subscription.put, number ≤ sent

namespace Subscription

variable {subscription other : Subscription} {sent : Nat}

theorem good_of_fresh (fresh : subscription.put = [] ∧ subscription.queue = []) :
    subscription.Good sent := by
  constructor <;> simp [fresh]

/-- The record of a subscription is kept, its channel is at most read, and it does not
come back to life. -/
structure Keeps (subscription other : Subscription) : Prop where
  put : other.put = subscription.put
  queue : other.queue <:+ subscription.queue
  registered : other.registered = true → subscription.registered = true
  cancelled : other.cancelled = false → subscription.cancelled = false

theorem Keeps.refl (subscription : Subscription) : subscription.Keeps subscription :=
  ⟨rfl, suffix_refl _, fun live => live, fun isOpen => isOpen⟩

section

variable (good : subscription.Good sent)
include good

theorem Good.keeps (keeps : subscription.Keeps other) :
    other.Good sent := by
  constructor
  · rw [keeps.put]
    exact good.increasing
  · rw [keeps.put]
    exact keeps.queue.trans good.held
  · rw [keeps.put]
    exact good.reached

/-- Sending the next number keeps a channel in order. -/
theorem Good.offer : (subscription.offer (sent + 1)).Good (sent + 1) := by
  have later : subscription.Good (sent + 1) :=
    ⟨good.increasing, good.held, fun number mem => Nat.le_succ_of_le (good.reached number mem)⟩
  unfold Subscription.offer
  split
  · exact later
  split
  · constructor
    · refine pairwise_cons.mpr ⟨fun number mem => ?_, good.increasing⟩
      exact Nat.lt_succ_of_le (good.reached number mem)
    · obtain ⟨front, same⟩ := good.held
      exact ⟨front, by rw [reverse_cons, ← same, append_assoc]⟩
    · intro number mem
      rcases mem_cons.mp mem with rfl | mem
      · exact Nat.le_refl _
      · exact later.reached number mem
  · exact later

end

/-- A live subscription is offered a number: it is put on the channel, or the channel
is full. -/
theorem offer_cases (live : (subscription.offer number).registered = true)
    (isOpen : (subscription.offer number).cancelled = false) :
    subscription.registered = true ∧ subscription.cancelled = false ∧
      (∀ earlier ∈ subscription.put, earlier ∈ (subscription.offer number).put) ∧
      (number ∈ (subscription.offer number).put ∨ capacity ≤ subscription.queue.length) := by
  unfold Subscription.offer at live isOpen ⊢
  split_ifs at live isOpen ⊢ with dead room
  · simp_all
  · exact ⟨live, isOpen, fun _ mem => mem_cons_of_mem _ mem, .inl mem_cons_self⟩
  · exact ⟨live, isOpen, fun _ mem => mem, .inr (Nat.not_lt.mp room)⟩

end Subscription

/-! ## One poller at a time -/

/-- Whether a goroutine is still starting its poller. -/
def Thread.isStarter : Thread → Bool
  | .starting | .initialized | .latestRead _ | .spawning => true
  | _ => false

/-- Where a goroutine stands relative to the cursor. -/
def Thread.Placed (cursor : Nat) : Thread → Prop
  | .latestRead latest | .counted latest => latest + 1 < 2 ^ 64
  | .scanning number latest => cursor < number ∧ number ≤ latest ∧ latest + 1 < 2 ^ 64
  | .sending number latest | .writing number latest =>
    number = cursor + 1 ∧ number ≤ latest ∧ latest + 1 < 2 ^ 64
  | _ => True

/-- The greatest number sent: the cursor, or the number about to become the cursor. -/
def Thread.sent (cursor : Nat) : Thread → Nat
  | .writing number _ => number
  | _ => cursor

variable {thread : Option Thread} {other : Subscription} {state : State}

/-- The greatest number sent with at most one goroutine. -/
def sentBy (cursor : Nat) (thread : Option Thread) : Nat :=
  thread.elim cursor (Thread.sent cursor)

/-- The greatest number sent in a state of an orderly run. -/
def State.sent (state : State) : Nat :=
  sentBy state.lastProcessed state.threads.head?

/-- The states of orderly runs: at most one goroutine, which holds the polling flag; no
channel was used before it became a poller. -/
structure Orderly (thread : Option Thread) (state : State) : Prop where
  latest : state.latest + 1 < 2 ^ 64
  threads : state.threads = thread.toList
  flagged : thread.isSome → state.isPolling = true
  placed : ∀ running ∈ thread, running.Placed state.lastProcessed
  fresh : (state.isPolling = false ∨ ∃ starter ∈ thread, starter.isStarter = true) →
    ∀ subscription ∈ state.subscriptions, subscription.put = [] ∧ subscription.queue = []
  good : ∀ subscription ∈ state.subscriptions,
    subscription.Good (sentBy state.lastProcessed thread)

/-- The invariant of orderly runs. -/
def AtMostOne (state : State) : Prop :=
  ∃ thread, Orderly thread state

variable {subscriptions : List Subscription}

/-- Subscriptions are kept at their places, and new ones come at the end. -/
structure KeepsAll (before after : List Subscription) : Prop where
  length : before.length ≤ after.length
  kept : ∀ (index : Nat) other, after[index]? = some other →
    (before.length ≤ index ∧ other.put = [] ∧ other.queue = []) ∨
      ∃ subscription, before[index]? = some subscription ∧ subscription.Keeps other

theorem KeepsAll.mem {before after : List Subscription} (kept : KeepsAll before after)
    (mem : other ∈ after) : (other.put = [] ∧ other.queue = []) ∨
      ∃ subscription ∈ before, subscription.Keeps other := by
  obtain ⟨index, here⟩ := mem_iff_getElem?.mp mem
  rcases kept.kept index other here with ⟨-, fresh⟩ | ⟨subscription, there, keeps⟩
  · exact .inl fresh
  · exact .inr ⟨subscription, mem_of_getElem? there, keeps⟩

theorem keepsAll_refl (subscriptions : List Subscription) :
    KeepsAll subscriptions subscriptions :=
  ⟨Nat.le_refl _, fun _ other here => .inr ⟨other, here, .refl other⟩⟩

/-- The polling flag is set and the poller, if it has not ended, has its cursor. -/
def State.Polls (state : State) : Prop :=
  state.isPolling = true ∧ ∀ thread ∈ state.threads, thread.isStarter = false

/-- What a steady step does while a poller runs: it sends the next number to all
subscriptions, or it sends nothing. -/
inductive Moves (state after : State) : Prop
  | sends (latest : Nat) (here : .sending (state.sent + 1) latest ∈ state.threads)
      (offered : after.subscriptions =
        state.subscriptions.map (Subscription.offer (state.sent + 1)))
      (sent : after.sent = state.sent + 1)
  | keeps (kept : KeepsAll state.subscriptions after.subscriptions)
      (sent : after.sent = state.sent)

theorem polls_singleton {current : Thread} (poller : current.isStarter = false) (state : State)
    (polling : state.isPolling = true) : { state with threads := [current] }.Polls :=
  ⟨polling, fun thread mem => by rwa [mem_singleton.mp mem]⟩

/-- The poller goes on and sends nothing. -/
theorem moves_quietly {current next : Thread} (threads : state.threads = [current])
    (polling : state.isPolling = true) (poller : next.isStarter = false)
    (sent : next.sent cursor = current.sent state.lastProcessed) :
    { state with lastProcessed := cursor, threads := [next] }.Polls ∧
      Moves state { state with lastProcessed := cursor, threads := [next] } := by
  refine ⟨polls_singleton poller { state with lastProcessed := cursor } polling,
    .keeps (keepsAll_refl _) ?_⟩
  rw [State.sent, State.sent, threads]
  exact sent

/-- What a steady step keeps: the order and, while a poller runs, that it moves so. -/
structure Continues (state after : State) : Prop where
  orderly : AtMostOne after
  moves : state.Polls → after.Polls ∧ Moves state after

namespace Orderly

variable {state : State} {current next : Thread} {thread : Option Thread}

variable {latest : Nat}

/-- Subscriptions come, go and are read without disturbing the order. -/
theorem keeps (orderly : Orderly thread state) {requests : Nat}
    (kept : KeepsAll state.subscriptions subscriptions) :
    Orderly thread { state with subscriptions := subscriptions, requests := requests } where
  latest := orderly.latest
  threads := orderly.threads
  flagged := orderly.flagged
  placed := orderly.placed
  fresh := by
    intro unused other mem
    rcases kept.mem mem with empty | ⟨subscription, known, keeps⟩
    · exact empty
    · obtain ⟨put, queue⟩ := orderly.fresh unused subscription known
      refine ⟨keeps.put.trans put, ?_⟩
      rw [← suffix_nil, ← queue]
      exact keeps.queue
  good := by
    intro other mem
    rcases kept.mem mem with empty | ⟨subscription, known, keeps⟩
    · exact Subscription.good_of_fresh empty
    · exact (orderly.good subscription known).keeps keeps

theorem continues (orderly : Orderly thread state) {requests : Nat}
    (kept : KeepsAll state.subscriptions subscriptions) :
    Continues state { state with subscriptions := subscriptions, requests := requests } :=
  ⟨⟨thread, orderly.keeps kept⟩, fun polls => ⟨polls, .keeps kept rfl⟩⟩

/-- The head of the loop, from below or at the end of the range. -/
theorem placed_scan (above : cursor < number) (bounded : latest + 1 < 2 ^ 64) :
    (scan number latest).Placed cursor := by
  unfold scan
  split
  · next within => exact ⟨above, within, bounded⟩
  · trivial

theorem sent_scan (cursor number latest : Nat) : (scan number latest).sent cursor = cursor := by
  unfold scan
  split <;> rfl

theorem isStarter_scan (number latest : Nat) : (scan number latest).isStarter = false := by
  unfold scan
  split <;> rfl

section

variable (orderly : Orderly (some current) state)
include orderly

/-- The flag is set for as long as the goroutine runs. -/
theorem running : state.isPolling ≠ false := by
  intro idle
  have flagged := orderly.flagged rfl
  rw [idle] at flagged
  cases flagged

/-- The goroutine goes on with another cursor or other subscriptions. -/
theorem goesOn (placed : next.Placed cursor)
    (fresh : next.isStarter = true → ∀ subscription ∈ subscriptions,
      subscription.put = [] ∧ subscription.queue = [])
    (good : ∀ subscription ∈ subscriptions, subscription.Good (next.sent cursor)) :
    Orderly (some next)
      { state with lastProcessed := cursor, subscriptions := subscriptions, threads := [next] } where
  latest := orderly.latest
  threads := rfl
  flagged := fun _ => orderly.flagged rfl
  placed := by
    rintro _ ⟨⟩
    exact placed
  fresh := by
    rintro (idle | ⟨_, ⟨⟩, starting⟩)
    · exact absurd idle orderly.running
    · exact fresh starting
  good := good

/-- While a poller runs, the goroutine is one. -/
theorem poller (polls : state.Polls) : current.isStarter = false :=
  polls.2 current (orderly.threads ▸ mem_singleton_self current)

/-- The goroutine moves on and changes no variable. -/
theorem move (placed : next.Placed state.lastProcessed)
    (sent : next.sent state.lastProcessed = current.sent state.lastProcessed)
    (starter : next.isStarter = true → current.isStarter = true) :
    Continues state { state with threads := [next] } := by
  refine ⟨⟨some next, orderly.goesOn placed ?_ ?_⟩, fun polls => ?_⟩
  · exact fun starting => orderly.fresh (.inr ⟨current, rfl, starter starting⟩)
  · rw [sent]
    exact orderly.good
  · refine moves_quietly orderly.threads polls.1 (Bool.eq_false_iff.mpr fun starting => ?_) sent
    exact Bool.eq_false_iff.mp (orderly.poller polls) (starter starting)

/-- The goroutine ends, and may clear the flag. -/
theorem quit {flag : Bool}
    (fresh : flag = false → ∀ subscription ∈ state.subscriptions,
      subscription.put = [] ∧ subscription.queue = [])
    (good : ∀ subscription ∈ state.subscriptions, subscription.Good state.lastProcessed) :
    Orderly none { state with isPolling := flag, threads := [] } where
  latest := orderly.latest
  threads := rfl
  flagged := nofun
  placed := nofun
  fresh := by
    rintro (idle | ⟨_, absent, -⟩)
    · exact fresh idle
    · cases absent
  good := good

/-- While the poller is starting no channel was used. -/
theorem unused (starting : current.isStarter = true)
    {subscription : Subscription} (mem : subscription ∈ state.subscriptions) :
    subscription.put = [] ∧ subscription.queue = [] :=
  orderly.fresh (.inr ⟨current, rfl, starting⟩) subscription mem

end

/-- `InitializeGRO` failed: the flag is cleared and nothing runs. -/
theorem notStarted (orderly : Orderly (some .starting) state) :
    Continues state { state with isPolling := false, threads := [] } :=
  ⟨⟨none, orderly.quit (fun _ _ => orderly.unused rfl)
    fun _ mem => Subscription.good_of_fresh (orderly.unused rfl mem)⟩,
    fun polls => nomatch orderly.poller polls⟩

/-- The cursor is set before any channel was used. -/
theorem setCursor (orderly : Orderly (some (.latestRead latest)) state) :
    Continues state { state with lastProcessed := latest, threads := [.spawning] } :=
  ⟨⟨some .spawning, orderly.goesOn trivial (fun _ _ => orderly.unused rfl)
    fun _ mem => Subscription.good_of_fresh (orderly.unused rfl mem)⟩,
    fun polls => nomatch orderly.poller polls⟩

/-- The block after the cursor goes to the subscribers. -/
theorem send (orderly : Orderly (some (.sending number latest)) state) :
    Continues state
      { state with
        subscriptions := state.subscriptions.map (Subscription.offer number)
        threads := [.writing number latest] } := by
  obtain ⟨rfl, bounds⟩ : number = state.lastProcessed + 1 ∧ _ := orderly.placed _ rfl
  refine ⟨⟨some _, orderly.goesOn ⟨rfl, bounds⟩ nofun fun other mem => ?_⟩, fun polls => ?_⟩
  · obtain ⟨subscription, known, rfl⟩ := mem_map.mp mem
    exact (orderly.good subscription known).offer
  · have threads : state.threads = [_] := orderly.threads
    have sent : state.sent = state.lastProcessed := by
      rw [State.sent, threads]
      rfl
    refine ⟨polls_singleton rfl { state with subscriptions := _ } polls.1, .sends latest ?_ ?_ ?_⟩
    · rw [sent, threads]
      exact mem_singleton_self _
    · rw [sent]
    · rw [sent]
      rfl

/-- The cursor moves to the block just sent. -/
theorem write (orderly : Orderly (some (.writing number latest)) state) :
    Continues state
      { state with
        lastProcessed := number
        threads := [scan ((number + 1) % 2 ^ 64) latest] } := by
  obtain ⟨-, within, bounded⟩ : _ ∧ number ≤ latest ∧ latest + 1 < 2 ^ 64 :=
    orderly.placed _ rfl
  rw [Nat.mod_eq_of_lt (by omega)]
  refine ⟨⟨some _, orderly.goesOn (placed_scan (Nat.lt_succ_self number) bounded) ?_ ?_⟩,
    fun polls => ?_⟩
  · rw [isStarter_scan]
    nofun
  · rw [sent_scan]
    exact orderly.good
  · exact moves_quietly orderly.threads polls.1 (isStarter_scan _ _) (sent_scan _ _ _)

theorem advance (orderly : Orderly (some current) state) {ok : Bool}
    (met : steadyThread state ok current = true) :
    Continues state { (threadStep state ok current).1 with
      threads := replaceThread [current] 0 (threadStep state ok current).2 } := by
  have placed := orderly.placed current rfl
  cases current with
  | starting =>
    cases ok with
    | true => exact orderly.move trivial rfl fun _ => rfl
    | false => exact orderly.notStarted
  | initialized =>
    cases ok with
    | true => exact orderly.move orderly.latest rfl fun _ => rfl
    | false => exact orderly.move trivial rfl fun _ => rfl
  | latestRead latest => exact orderly.setCursor
  | spawning => exact orderly.move trivial rfl nofun
  | waiting =>
    have present : hasSubscribers state = true := met
    simp only [threadStep, present, if_true]
    exact orderly.move trivial rfl nofun
  | ticked =>
    cases ok with
    | true => exact orderly.move orderly.latest rfl nofun
    | false => exact orderly.move trivial rfl nofun
  | counted latest =>
    have bounded : latest + 1 < 2 ^ 64 := placed
    simp only [threadStep]
    split
    · rw [Nat.mod_eq_of_lt (by omega)]
      refine orderly.move (placed_scan (Nat.lt_succ_self _) bounded) (sent_scan _ _ _) ?_
      rw [isStarter_scan]
      nofun
    · exact orderly.move trivial rfl nofun
  | scanning number latest =>
    obtain ⟨above, within, bounded⟩ :
      state.lastProcessed < number ∧ number ≤ latest ∧ latest + 1 < 2 ^ 64 := placed
    cases ok with
    | true =>
      have next : number = state.lastProcessed + 1 := by simpa [steadyThread] using met
      exact orderly.move ⟨next, within, bounded⟩ rfl nofun
    | false =>
      simp only [threadStep, Bool.false_eq_true, if_false]
      rw [Nat.mod_eq_of_lt (by omega)]
      refine orderly.move (placed_scan (by omega) bounded) (sent_scan _ _ _) ?_
      rw [isStarter_scan]
      nofun
  | sending number latest => exact orderly.send
  | writing number latest => exact orderly.write

/-- A goroutine that ends at a point where nothing is half done. -/
theorem stop (orderly : Orderly (some current) state)
    (sent : current.sent state.lastProcessed = state.lastProcessed) :
    Continues state { state with threads := [] } := by
  refine ⟨⟨none, orderly.quit (fun idle => absurd idle orderly.running) ?_⟩, fun polls =>
    ⟨⟨polls.1, nofun⟩, .keeps (keepsAll_refl _) ?_⟩⟩
  · rw [← sent]
    exact orderly.good
  · rw [State.sent.eq_def state, orderly.threads]
    exact sent.symm

/-- A subscriber takes the polling flag. -/
theorem start (orderly : Orderly thread state) (idle : state.isPolling = false)
    (requests : Nat) :
    Orderly (some .starting)
      { state with
        requests := requests
        isPolling := true
        threads := state.threads ++ [.starting] } := by
  have none' : thread = none := by
    cases thread with
    | none => rfl
    | some current => exact absurd idle orderly.running
  subst none'
  constructor
  case latest => exact orderly.latest
  case threads => exact congrArg (· ++ [Thread.starting]) orderly.threads
  case flagged => exact fun _ => rfl
  case placed =>
    rintro _ ⟨⟩
    trivial
  case fresh => exact fun _ => orderly.fresh (.inl idle)
  case good => exact orderly.good

end Orderly

/-- The subscriptions under an id lose their registration only. -/
theorem keepsAll_unregister (key : Nat) (subscriptions : List Subscription) :
    KeepsAll subscriptions (unregister key subscriptions) := by
  refine ⟨Nat.le_of_eq (length_map _).symm, fun index other here => ?_⟩
  rw [unregister, getElem?_map] at here
  obtain ⟨subscription, there, rfl⟩ := Option.map_eq_some_iff.mp here
  refine .inr ⟨subscription, there, ?_⟩
  split
  · refine ⟨rfl, suffix_refl _, fun live => ?_, id⟩
    cases live
  · exact .refl subscription

theorem keepsAll_subscribe (key : Nat) (subscriptions : List Subscription) :
    KeepsAll subscriptions (unregister key subscriptions ++ [{ id := key }]) := by
  have length : (unregister key subscriptions).length = subscriptions.length := length_map _
  refine ⟨by rw [length_append, length]; exact Nat.le_add_right _ _, fun index other here => ?_⟩
  by_cases old : index < (unregister key subscriptions).length
  · rw [getElem?_append_left old] at here
    exact (keepsAll_unregister key subscriptions).kept index other here
  · rw [getElem?_append_right (Nat.not_lt.mp old), getElem?_singleton] at here
    split at here
    · cases here
      exact .inl ⟨by omega, rfl, rfl⟩
    · cases here

theorem keepsAll_modify {change : Subscription → Subscription}
    (harmless : ∀ subscription, Subscription.Keeps subscription (change subscription))
    (index : Nat) (subscriptions : List Subscription) :
    KeepsAll subscriptions (subscriptions.modify index change) := by
  refine ⟨Nat.le_of_eq (length_modify _ _ _).symm, fun position other here => ?_⟩
  rw [List.getElem?_modify] at here
  obtain ⟨subscription, there, rfl⟩ := Option.map_eq_some_iff.mp here
  refine .inr ⟨subscription, there, ?_⟩
  split
  · exact harmless subscription
  · exact .refl subscription

theorem Orderly.only {current : Thread} (orderly : Orderly thread state)
    (here : state.threads[index]? = some current) :
    thread = some current ∧ state.threads = [current] ∧ index = 0 := by
  have threads := orderly.threads
  rw [threads] at here
  cases thread with
  | none => cases here
  | some running =>
    rw [Option.toList_some, List.getElem?_singleton] at here
    split at here
    · next first =>
      cases here
      exact ⟨rfl, threads, first⟩
    · cases here

theorem orderly_step {after : State} {action : Action} (orderly : Orderly thread state)
    (met : steady state action = true) (taken : step state action = some after) :
    Continues state after := by
  cases action with
  | grow latest =>
    simp only [step] at taken
    split at taken
    · cases taken
      have small : latest.toNat + 1 < 2 ^ 64 := of_decide_eq_true met
      exact ⟨⟨thread, small, orderly.threads, orderly.flagged, orderly.placed, orderly.fresh,
        orderly.good⟩, fun polls => ⟨polls, .keeps (keepsAll_refl _) rfl⟩⟩
    · cases taken
  | subscribe key =>
    cases taken
    exact orderly.continues (keepsAll_subscribe key _)
  | start =>
    simp only [step] at taken
    split at taken
    · cases taken
    split at taken
    · cases taken
      exact orderly.continues (keepsAll_refl _)
    next idle =>
    cases taken
    exact ⟨⟨_, orderly.start (Bool.eq_false_iff.mpr idle) _⟩, fun polls => absurd polls.1 idle⟩
  | cleanup index =>
    obtain ⟨subscription, -, rfl⟩ := Option.map_eq_some_iff.mp taken
    exact orderly.continues (keepsAll_unregister _ _)
  | cancel index =>
    cases taken
    refine orderly.continues (keepsAll_modify (fun subscription => ?_) index _)
    exact ⟨rfl, suffix_refl _, id, nofun⟩
  | receive index =>
    cases taken
    refine orderly.continues (keepsAll_modify (fun subscription => ?_) index _)
    exact ⟨rfl, tail_suffix _, id, id⟩
  | advance index ok =>
    obtain ⟨current, here, rfl⟩ := Option.map_eq_some_iff.mp taken
    obtain ⟨rfl, threads, rfl⟩ := orderly.only here
    rw [steady, here, Option.all_some] at met
    rw [threads]
    exact orderly.advance met
  | stop index =>
    simp only [step] at taken
    split at taken
    · next here =>
      cases taken
      obtain ⟨rfl, threads, rfl⟩ := orderly.only here
      rw [threads]
      exact orderly.stop rfl
    · next here =>
      cases taken
      obtain ⟨rfl, threads, rfl⟩ := orderly.only here
      rw [threads]
      exact orderly.stop rfl
    · cases taken

theorem orderly_initial {latest : UInt64} (below : latest.toNat + 1 < 2 ^ 64) :
    Orderly none (initial latest) where
  latest := below
  threads := rfl
  flagged := nofun
  placed := nofun
  fresh := fun _ _ mem => by cases mem
  good := fun _ mem => by cases mem

/-! ## What is left out -/

/-- The channel of a subscription was full when a number was sent after the first of
the given actions. -/
def FullWhenSent (start : State) (actions : List Action) (index number : Nat) : Prop :=
  ∃ early late before latest subscription, actions = early ++ late ∧
    run step start early = some before ∧ .sending number latest ∈ before.threads ∧
    before.subscriptions[index]? = some subscription ∧ capacity ≤ subscription.queue.length

theorem FullWhenSent.snoc {start : State} {actions : List Action} {index number : Nat}
    (full : FullWhenSent start actions index number) (action : Action) :
    FullWhenSent start (actions ++ [action]) index number := by
  obtain ⟨early, late, before, latest, subscription, parts, rest⟩ := full
  exact ⟨early, late ++ [action], before, latest, subscription,
    by rw [parts, append_assoc], rest⟩

/-- Every number sent since a start was put on the channel of a live subscription or
found it full. -/
def Covered (start : State) (index : Nat) (actions : List Action) (state : State) : Prop :=
  ∀ subscription, state.subscriptions[index]? = some subscription →
    subscription.registered = true → subscription.cancelled = false →
    ∀ number, start.sent < number → number ≤ state.sent →
      number ∈ subscription.put ∨ FullWhenSent start actions index number

theorem Covered.step {start after : State} {actions : List Action} {action : Action}
    (covered : Covered start index actions state) (present : index < state.subscriptions.length)
    (reached : run Heads.step start actions = some state) (moves : Moves state after) :
    Covered start index (actions ++ [action]) after := by
  intro other here live isOpen number above below
  cases moves with
  | keeps kept sent =>
    rcases kept.kept index other here with ⟨new, -⟩ | ⟨subscription, there, keeps⟩
    · omega
    · rw [keeps.put]
      exact (covered subscription there (keeps.registered live) (keeps.cancelled isOpen) number
        above (sent ▸ below)).imp_right (·.snoc action)
  | sends latest sending offered sent =>
    rw [offered, getElem?_map] at here
    obtain ⟨subscription, there, rfl⟩ := Option.map_eq_some_iff.mp here
    obtain ⟨live, isOpen, kept, last⟩ := Subscription.offer_cases live isOpen
    by_cases before : number ≤ state.sent
    · exact (covered subscription there live isOpen number above before).imp (kept number)
        (·.snoc action)
    · obtain rfl : number = state.sent + 1 := by omega
      exact last.imp_right fun full =>
        ⟨actions, [action], state, latest, subscription, rfl, reached, sending, there, full⟩

theorem Moves.length {after : State} (moves : Moves state after) :
    state.subscriptions.length ≤ after.subscriptions.length := by
  cases moves with
  | keeps kept => exact kept.length
  | sends latest here offered =>
    rw [offered]
    exact Nat.le_of_eq (length_map _).symm

theorem steady_runs_orderly {latest : UInt64} (below : latest.toNat + 1 < 2 ^ 64)
    {actions : List Action} {state : State}
    (runs : Runs step (fun state action => steady state action = true) (initial latest) actions
      state) : AtMostOne state := by
  have begins : AtMostOne (initial latest) := ⟨none, orderly_initial below⟩
  exact runs.invariant begins fun before action after inv met taken => by
    obtain ⟨thread, orderly⟩ := inv
    exact (orderly_step orderly met taken).orderly

/-- In every run whose steps are steady the numbers on every channel increase.  From
any point at which the poller has its cursor, a subscription that is live at the end
got every number sent since, except those that found its channel full. -/
theorem steady_runs_in_order {latest : UInt64} (below : latest.toNat + 1 < 2 ^ 64)
    {actions later : List Action} {start final : State}
    (runs : Runs step (fun state action => steady state action = true) (initial latest) actions
      start)
    (goesOn : Runs step (fun state action => steady state action = true) start later final) :
    (∀ subscription ∈ final.subscriptions, subscription.put.Pairwise (· > ·) ∧
      subscription.queue <:+ subscription.put.reverse) ∧
    (start.Polls → ∀ index < start.subscriptions.length, Covered start index later final) := by
  constructor
  · obtain ⟨thread, orderly⟩ := steady_runs_orderly below (runs.trans goesOn)
    intro subscription member
    have good := orderly.good subscription member
    exact ⟨good.increasing, good.held⟩
  · intro polls index known
    suffices final.Polls ∧ index < final.subscriptions.length ∧ Covered start index later final
      from this.2.2
    induction goesOn with
    | nil =>
      refine ⟨polls, known, fun _ _ _ _ number above upTo => ?_⟩
      omega
    | snoc before met taken ih =>
      obtain ⟨polls, present, covered⟩ := ih
      obtain ⟨thread, orderly⟩ := steady_runs_orderly below (runs.trans before)
      obtain ⟨still, moves⟩ := (orderly_step orderly met taken).moves polls
      exact ⟨still, Nat.lt_of_lt_of_le present moves.length,
        covered.step present before.run_eq moves⟩

/-- The steps of a subscription that starts a poller at goroutine `index`. -/
def subscribeAndStart (key index : Nat) : List Action :=
  [.subscribe key, .start, .advance index true, .advance index true, .advance index true,
    .advance index true]

/-- A tick of goroutine `index` up to the first block. -/
def tick (index : Nat) : List Action :=
  [.advance index true, .advance index true, .advance index true]

/-- One block of goroutine `index`: read, send and move the cursor. -/
def deliver (index : Nat) : List Action :=
  [.advance index true, .advance index true, .advance index true]

/-- A poller that has sent block 6 when a second subscriber comes. -/
def secondSubscriber : List Action :=
  subscribeAndStart 1 0 ++ [.grow 7] ++ tick 0 ++ deliver 0 ++ [.subscribe 2]

/-- Both get block 7, and the first one receives block 6. -/
theorem two_heads_in_order :
    ∃ start final, runIf step steady (initial 5) secondSubscriber = some start ∧
      runIf step steady start (deliver 0 ++ [.receive 0]) = some final ∧
      final.subscriptions.map Subscription.put = [[7, 6], [7]] ∧
      final.subscriptions.map Subscription.queue = [[7], [7]] ∧
      (∀ subscription ∈ final.subscriptions, subscription.put.Pairwise (· > ·)) ∧
      Covered start 1 (deliver 0 ++ [.receive 0]) final := by
  have outcome : ((runIf step steady (initial 5) secondSubscriber).bind fun start =>
      (runIf step steady start (deliver 0 ++ [.receive 0])).map (Prod.mk start)).any
        (fun states => states.1.isPolling && states.1.threads.all (!·.isStarter) &&
          decide (states.1.subscriptions.length = 2) &&
          decide (states.2.subscriptions.map Subscription.put = [[7, 6], [7]]) &&
          decide (states.2.subscriptions.map Subscription.queue = [[7], [7]])) = true := by
    decide +kernel
  obtain ⟨⟨start, final⟩, reached, facts⟩ := (Option.any_eq_true _ _).mp outcome
  obtain ⟨_, first, rest⟩ := Option.bind_eq_some_iff.mp reached
  obtain ⟨_, second, same⟩ := Option.map_eq_some_iff.mp rest
  cases same
  simp only [Bool.and_eq_true, decide_eq_true_eq, all_eq_true, Bool.not_eq_true'] at facts
  obtain ⟨⟨⟨⟨polling, pollers⟩, both⟩, put⟩, queue⟩ := facts
  obtain ⟨inOrder, covered⟩ := steady_runs_in_order (by decide)
    (runs_of_runIf (fun _ _ passed => passed) first)
    (runs_of_runIf (fun _ _ passed => passed) second)
  exact ⟨start, final, first, second, put, queue, fun subscription mem =>
    (inOrder subscription mem).1, covered ⟨polling, pollers⟩ 1 (by omega)⟩

/-- After the only subscriber left, its poller goes on beside that of the next one,
and both send block 6.  With one poller, a failed read of block 7 leaves it out, with
two numbers on the channel. -/
theorem heads_repeated_and_left_out :
    (run step (initial 5) (subscribeAndStart 1 0 ++ [.cleanup 0, .advance 0 true] ++
      subscribeAndStart 2 1 ++ [.grow 6] ++ tick 0 ++ tick 1 ++ deliver 0 ++ deliver 1)).map
        (fun state => state.subscriptions.map Subscription.put) = some [[], [6, 6]] ∧
    (run step (initial 5) (subscribeAndStart 1 0 ++ [.grow 8] ++ tick 0 ++ deliver 0 ++
      [.advance 0 false] ++ deliver 0)).map
        (fun state => state.subscriptions.map fun subscription =>
          (subscription.put, subscription.queue)) = some [([8, 6], [6, 8])] := by
  decide +kernel

end Jmdn.Facade.Heads
