import Mathlib.Data.List.TakeWhile
import Jmdn.Gatekeeper.Limiter

/-!
# Forwarded headers a client writes itself

A proxy the node trusts appends the address it saw to `X-Forwarded-For` and
passes the other headers through.  The node reads the first element of that
header, and `CF-Connecting-IP` before it, so the client decides what address its
requests are charged to.

`same_address_iff_unspoofed` says for which requests the address is the client's
own.
-/

namespace Jmdn.Gatekeeper

open Go List

variable {seen : String}

/-- What the proxy sends on for a client it sees at an address. -/
def appendForwarded (seen : String) (client : Headers) : Headers := fun name =>
  if name = "x-forwarded-for" then [String.intercalate ", " (client name ++ [seen])]
  else client name

/-- The printed form of an address: not empty, without commas and blanks around. -/
structure AddressText (text : String) : Prop where
  nonempty : text ≠ ""
  noComma : ',' ∉ text.toList
  trimmed : trimSpace text = text

/-- What stands before the first comma of a value, without the blanks around it. -/
def firstElement (value : String) : String :=
  trimSpace (String.ofList (value.toList.takeWhile (· != ',')))

/-- The client's own headers name no address other than its own in the place the
node reads: `CF-Connecting-IP` if it is there, else the first element of
`X-Forwarded-For`, else, if that element is blank, `X-Real-IP` or the proxy. -/
def Unspoofed (directIP seen : String) (client : Headers) : Prop :=
  if getHeader client "cf-connecting-ip" ≠ "" then
    trimSpace (getHeader client "cf-connecting-ip") = seen
  else
    match client "x-forwarded-for" with
    | [] => True
    | first :: _ =>
      if firstElement first ≠ "" then firstElement first = seen
      else if getHeader client "x-real-ip" ≠ "" then
        trimSpace (getHeader client "x-real-ip") = seen
      else directIP = seen

variable {IP Net C L : Type}

/-! ## The first element -/

theorem head?_splitOn_comma (text : List Char) :
    (text.splitOn ',').head? = some (text.takeWhile (· != ',')) := by
  rw [List.splitOn]
  induction text with
  | nil => rfl
  | cons c rest ih =>
    rw [splitOnP_cons_eq_if_modifyHead]
    by_cases comma : c = ','
    · simp [comma]
    rw [if_neg (by simpa using comma), takeWhile_cons, if_pos (by simpa using comma)]
    cases parts : List.splitOnP (· == ',') rest with
    | nil => exact absurd parts (splitOnP_ne_nil _ _)
    | cons first more =>
      rw [parts] at ih
      cases ih
      rfl

theorem splitCommas_eq (text : String) :
    ∃ rest, splitCommas text = String.ofList (text.toList.takeWhile (· != ',')) :: rest := by
  have head := head?_splitOn_comma text.toList
  unfold splitCommas
  cases parts : text.toList.splitOn ',' with
  | nil =>
    rw [parts] at head
    cases head
  | cons first rest =>
    rw [parts] at head
    cases head
    exact ⟨rest.map String.ofList, rfl⟩

/-- The first element of the forwarded header is that of the client's first value. -/
theorem firstElement_intercalate (first : String) (rest : List String) (seen : String) :
    firstElement (String.intercalate ", " (first :: rest ++ [seen])) = firstElement first := by
  have more : ∃ next others, rest ++ [seen] = next :: others := by
    cases rest with
    | nil => exact ⟨seen, [], rfl⟩
    | cons next others => exact ⟨next, others ++ [seen], rfl⟩
  obtain ⟨next, others, parts⟩ := more
  have comma : (", " : String).toList = [',', ' '] := rfl
  rw [firstElement, String.toList_intercalate, cons_append, parts, map_cons,
    map_cons, intercalate_cons_cons, comma, append_assoc, cons_append,
    takeWhile_append]
  split
  · next whole =>
    have same : first.toList.takeWhile (· != ',') = first.toList :=
      ( takeWhile_prefix _).eq_of_length whole
    rw [takeWhile_cons_of_neg (by simp), append_nil, firstElement, same]
  · rfl

theorem firstElement_address (addr : AddressText seen) :
    firstElement seen = seen := by
  have whole : seen.toList.takeWhile (· != ',') = seen.toList :=
    takeWhile_eq_self_iff.mpr fun c mem => by
      have different : c ≠ ',' := fun same => addr.noComma (same ▸ mem)
      simpa using different
  rw [firstElement, whole, String.ofList_toList, addr.trimmed]

/-! ## The resolved address -/

/-- The node takes the headers of this connection's proxy for what it says. -/
structure Trusts (net : NetLib IP Net) (config : SecurityConfig) (directIP : String) : Prop where
  enabled : config.trustForwardedHeaders = true
  proxy : isTrustedProxy net config directIP = true

section

variable {net : NetLib IP Net} {config : SecurityConfig} {directIP : String}

theorem getHeader_appendForwarded {name : String} (other : name ≠ "x-forwarded-for")
    (seen : String) (client : Headers) :
    getHeader (appendForwarded seen client) name = getHeader client name := by
  rw [getHeader, appendForwarded, if_neg other, getHeader]

theorem realIPOr_appendForwarded (seen : String) (client : Headers) :
    realIPOr directIP (appendForwarded seen client) = realIPOr directIP client := by
  rw [realIPOr, getHeader_appendForwarded (by decide), realIPOr]

/-- With a header in place, its first element decides. -/
theorem resolveForwardedIP_trusted (trusts : Trusts net config directIP) (headers : Headers)
    (forwarded : getHeader headers "x-forwarded-for" ≠ "") :
    resolveForwardedIP net config directIP headers =
      if getHeader headers "cf-connecting-ip" ≠ "" then
        trimSpace (getHeader headers "cf-connecting-ip")
      else if firstElement (getHeader headers "x-forwarded-for") ≠ "" then
        firstElement (getHeader headers "x-forwarded-for")
      else realIPOr directIP headers := by
  obtain ⟨rest, parts⟩ := splitCommas_eq (getHeader headers "x-forwarded-for")
  rw [resolveForwardedIP, if_neg (by simp [trusts.enabled, trusts.proxy]), if_pos forwarded, parts]
  rfl

theorem forwarded_ne_empty (addr : AddressText seen) (values : List String) :
    String.intercalate ", " (values ++ [seen]) ≠ "" := by
  cases values with
  | nil => simpa using addr.nonempty
  | cons first rest =>
    intro empty
    have spelled := congrArg String.toList empty
    rw [String.toList_intercalate] at spelled
    cases rest <;> simp [intercalate_cons_cons] at spelled

/-- The node resolves a request to the address the proxy saw exactly when the
client's headers name no other. -/
theorem resolveForwardedIP_eq_iff (trusts : Trusts net config directIP) (addr : AddressText seen)
    (client : Headers) :
    resolveForwardedIP net config directIP (appendForwarded seen client) = seen ↔
      Unspoofed directIP seen client := by
  have header : getHeader (appendForwarded seen client) "x-forwarded-for" =
      String.intercalate ", " (client "x-forwarded-for" ++ [seen]) := by
    rw [getHeader, appendForwarded, if_pos rfl, headD_cons]
  have present := forwarded_ne_empty addr (client "x-forwarded-for")
  rw [resolveForwardedIP_trusted trusts _ (header ▸ present), header, realIPOr_appendForwarded,
    getHeader_appendForwarded (by decide), Unspoofed]
  split
  · rfl
  cases values : client "x-forwarded-for" with
  | nil =>
    have only : String.intercalate ", " ([] ++ [seen]) = seen := by
      simp
    rw [only, firstElement_address addr, if_pos addr.nonempty]
    simp
  | cons first rest =>
    rw [firstElement_intercalate]
    dsimp only [realIPOr]
    split_ifs <;> rfl

end

/-! ## The limiters charged -/

section

/-- Only the entry of one key is new or changed; others may have been pushed out. -/
def CacheLib.TouchesOnly (caches : CacheLib C L) (key : String) (before after : C) : Prop :=
  ∀ other value, other ≠ key → caches.stored after other = some value →
    caches.stored before other = some value

/-- What a cache does to the keys it is not asked for. -/
structure CacheLib.Framed (caches : CacheLib C L) : Prop where
  get : ∀ cache key, caches.TouchesOnly key cache (caches.get cache key).2
  add : ∀ cache key value, caches.TouchesOnly key cache (caches.add cache key value)
  write : ∀ cache key value, caches.TouchesOnly key cache (caches.write cache key value)

variable {caches : CacheLib C L}

theorem touchesOnly_refl (key : String) (cache : C) : caches.TouchesOnly key cache cache :=
  fun _ _ _ held => held

theorem CacheLib.TouchesOnly.trans {key : String} {before middle after : C}
    (first : caches.TouchesOnly key before middle) (second : caches.TouchesOnly key middle after) :
    caches.TouchesOnly key before after :=
  fun other value differs held => first other value differs (second other value differs held)

variable (framed : caches.Framed) (rate : RateLib L) (now : Int)
include framed

theorem touchesOnly_charge (cache : C) (key : String) (rps : Rat) (burst : Int) :
    caches.TouchesOnly key cache (charge rate caches now cache key rps burst).2 := by
  have created :
      caches.TouchesOnly key cache (getOrCreate rate caches cache key rps burst).2 := by
    have read := framed.get cache key
    unfold getOrCreate
    split
    · next limiter after found =>
      rw [found] at read
      exact read
    · next after missing =>
      rw [missing] at read
      exact read.trans (framed.add _ _ _)
  exact created.trans (framed.write _ _ _)

omit framed in
/-- The limiters of other addresses and other services keep their state. -/
structure ChargesOnly (caches : CacheLib C L) (serviceName ip : String)
    (before after : RateLimiter Net C) : Prop where
  perIP : caches.TouchesOnly ip before.perIP after.perIP
  perIPSvc : caches.TouchesOnly (serviceKey serviceName ip) before.perIPSvc after.perIPSvc

theorem chargesOnly_allowService (limiter : RateLimiter Net C) (serviceName ip : String) :
    ChargesOnly caches serviceName ip limiter
      (allowService rate caches now limiter serviceName ip).2 := by
  unfold allowService
  split
  · exact ⟨touchesOnly_refl _ _, touchesOnly_refl _ _⟩
  · split
    · exact ⟨touchesOnly_refl _ _, touchesOnly_refl _ _⟩
    · exact ⟨touchesOnly_refl _ _, touchesOnly_charge framed rate now _ _ _ _⟩

theorem chargesOnly_allow (net : NetLib IP Net) (limiter : RateLimiter Net C)
    (serviceName ip : String) :
    ChargesOnly caches serviceName ip limiter
      (allow rate caches net now limiter serviceName ip).2 := by
  unfold allow
  split
  · exact ⟨touchesOnly_refl _ _, touchesOnly_refl _ _⟩
  split
  · have global := touchesOnly_charge framed rate now limiter.perIP ip
      limiter.config.globalRateLimit limiter.config.globalBurst
    dsimp only
    split
    · have later := chargesOnly_allowService framed rate now
        { limiter with
          perIP := (charge rate caches now limiter.perIP ip limiter.config.globalRateLimit
            limiter.config.globalBurst).2 } serviceName ip
      exact ⟨global.trans later.perIP, later.perIPSvc⟩
    · exact ⟨global, touchesOnly_refl _ _⟩
  · exact chargesOnly_allowService framed rate now limiter serviceName ip

end

/-- A request without headers of the client's own. -/
def bareRequest : Headers :=
  fun _ => []

theorem unspoofed_bareRequest (directIP seen : String) :
    Unspoofed directIP seen bareRequest := by
  rw [Unspoofed, if_neg (by simp [getHeader, bareRequest])]
  trivial

/-- Requests of one client through a trusted proxy, the bare one among them, are
resolved to one address exactly when none of them names another; they are then
charged to the client's own limiters, and a client that is not trusted does not
get past them. -/
theorem same_address_iff_unspoofed {net : NetLib IP Net} {config : SecurityConfig}
    {caches : CacheLib C L} (framed : caches.Framed) {directIP seen : String} (trusts : Trusts net config directIP) (address : AddressText seen)
    (requests : Set Headers) (bare : bareRequest ∈ requests) :
    ((∀ first ∈ requests, ∀ second ∈ requests,
        resolveForwardedIP net config directIP (appendForwarded seen first) =
          resolveForwardedIP net config directIP (appendForwarded seen second)) ↔
      ∀ client ∈ requests, Unspoofed directIP seen client) ∧
    ∀ client ∈ requests, Unspoofed directIP seen client →
      ∀ (rate : RateLib L) (now : Int) (limiter : RateLimiter Net C) (serviceName : String),
        let ip := resolveForwardedIP net config directIP (appendForwarded seen client)
        matchesAnyNet net limiter.trustedNets ip = matchesAnyNet net limiter.trustedNets seen ∧
          ChargesOnly caches serviceName seen limiter
            (allow rate caches net now limiter serviceName ip).2 := by
  have own : resolveForwardedIP net config directIP (appendForwarded seen bareRequest) = seen :=
    (resolveForwardedIP_eq_iff trusts address _).mpr (unspoofed_bareRequest _ _)
  refine ⟨⟨fun same client member => ?_, fun clean first one second two => ?_⟩, ?_⟩
  · rw [← resolveForwardedIP_eq_iff trusts address, same client member bareRequest bare, own]
  · rw [(resolveForwardedIP_eq_iff trusts address _).mpr (clean first one),
      (resolveForwardedIP_eq_iff trusts address _).mpr (clean second two)]
  · intro client member clean rate now limiter serviceName
    rw [(resolveForwardedIP_eq_iff trusts address client).mpr clean]
    exact ⟨rfl, chargesOnly_allow framed rate now net limiter serviceName seen⟩

/-- Addresses that are compared by their texts. -/
def textNet : NetLib String String where
  parseIP := some
  parseCIDR := fun _ => none
  single := id
  contains := fun network ip => network == ip

/-- Limiters that count the tokens left. -/
def tokenRate : RateLib Nat where
  newLimiter := fun _ burst => burst.toNat
  allow := fun _ tokens => (0 < tokens, tokens - 1)

/-- Caches without a bound. -/
def plainCaches : CacheLib (String → Option Nat) Nat where
  new _ _ := none
  get cache key := (cache key, cache)
  add cache key value := Function.update cache key (some value)
  write cache key value := Function.update cache key (some value)
  stored cache := cache

theorem plainCaches_framed : plainCaches.Framed := by
  have updated : ∀ (cache : String → Option Nat) (key : String) (value : Nat),
      plainCaches.TouchesOnly key cache (Function.update cache key (some value)) := by
    intro cache key value other held differs found
    exact (Function.update_of_ne differs _ _).symm.trans found
  exact ⟨fun cache key => touchesOnly_refl key cache, updated, updated⟩

/-- A node behind a proxy whose local services are not limited. -/
def proxiedConfig : SecurityConfig :=
  { globalRateLimit := 1, globalBurst := 1, trustForwardedHeaders := true,
    trustedProxies := ["10.0.0.1"], trustedClients := ["127.0.0.1"] }

/-- A client writes one `X-Forwarded-For` value. -/
def claims (ip : String) : Headers := fun name =>
  if name = "x-forwarded-for" then [ip] else []

theorem proxiedConfig_trusts : Trusts textNet proxiedConfig "10.0.0.1" :=
  ⟨rfl, by decide +kernel⟩

theorem addressText_sample : AddressText "203.0.113.9" :=
  ⟨by decide, by decide, by decide +kernel⟩

/-- A client that claims its own address gets what the bare request gets, and is charged
for it. -/
theorem own_address_claimed_agrees :
    let ip := fun client => resolveForwardedIP textNet proxiedConfig "10.0.0.1"
      (appendForwarded "203.0.113.9" client)
    let limiter := newRateLimiter textNet plainCaches proxiedConfig 0
    ip (claims "203.0.113.9") = ip bareRequest ∧
      ChargesOnly plainCaches "eth_rpc" "203.0.113.9" limiter
        (allow tokenRate plainCaches textNet 0 limiter "eth_rpc" (ip (claims "203.0.113.9"))).2 := by
  have clean : ∀ client ∈ ({claims "203.0.113.9", bareRequest} : Set Headers),
      Unspoofed "10.0.0.1" "203.0.113.9" client := by
    rintro client (rfl | rfl)
    · exact (resolveForwardedIP_eq_iff proxiedConfig_trusts addressText_sample _).mp
        (by decide +kernel)
    · exact unspoofed_bareRequest _ _
  obtain ⟨agree, charged⟩ := same_address_iff_unspoofed plainCaches_framed proxiedConfig_trusts
    addressText_sample {claims "203.0.113.9", bareRequest} (.inr rfl)
  exact ⟨agree.mpr clean _ (.inl rfl) _ (.inr rfl),
    (charged _ (.inl rfl) (clean _ (.inl rfl)) tokenRate 0 _ "eth_rpc").2⟩

/-- A client that writes `X-Forwarded-For: 127.0.0.1` gets past a limiter that
refuses it under its own address, and one that writes another client's address
uses up that client's token. -/
theorem spoofed_header_bypasses_limiter :
    let limiter : RateLimiter String (String → Option Nat) :=
      { newRateLimiter textNet plainCaches proxiedConfig 0 with
        perIP := fun ip => some (if ip = "198.51.100.7" then 1 else 0) }
    let ip := fun client => resolveForwardedIP textNet proxiedConfig "10.0.0.1"
      (appendForwarded "203.0.113.9" client)
    ip bareRequest = "203.0.113.9" ∧ ip (claims "127.0.0.1") = "127.0.0.1" ∧
      (allow tokenRate plainCaches textNet 0 limiter "eth_rpc" (ip bareRequest)).1 = false ∧
      matchesAnyNet textNet limiter.trustedNets "203.0.113.9" = false ∧
      matchesAnyNet textNet limiter.trustedNets (ip (claims "127.0.0.1")) = true ∧
      (allow tokenRate plainCaches textNet 0 limiter "eth_rpc" (ip (claims "127.0.0.1"))).1 = true ∧
      (allow tokenRate plainCaches textNet 0 limiter "eth_rpc"
        (ip (claims "198.51.100.7"))).2.perIP "198.51.100.7" = some 0 := by
  decide +kernel

end Jmdn.Gatekeeper
