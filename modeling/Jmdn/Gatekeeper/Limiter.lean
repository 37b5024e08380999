import Mathlib.Data.List.Basic
import Jmdn.Go.Strings

/-!
# Client addresses and rate limits

`pkg/gatekeeper`: the address a request is taken to come from, and the limiters
it is charged to.  Addresses, networks, limiters and caches belong to `net`,
`golang.org/x/time/rate` and `golang-lru` and are parameters.  A rate is the rational
number a floating-point setting denotes.
-/

namespace Jmdn.Gatekeeper

open Go

/-- The functions of `net`: `single` is the network of one address. -/
structure NetLib (IP Net : Type) where
  parseIP : String → Option IP
  parseCIDR : String → Option Net
  single : IP → Net
  contains : Net → IP → Bool

/-- The functions of `rate`; a limiter decides at a time, and the decision uses
up a token. -/
structure RateLib (L : Type) where
  newLimiter : Rat → Int → L
  allow : Int → L → Bool × L

/-- The functions of `golang-lru` on caches of pointers: `write` is a write through the
pointer stored for a key, and `stored` says what a cache holds. -/
structure CacheLib (C L : Type) where
  new : Nat → C
  get : C → String → Option L × C
  add : C → String → L → C
  write : C → String → L → C
  stored : C → String → Option L

structure Policy where
  rateLimit : Rat
  burst : Int
  deriving DecidableEq, Repr

/-- `settings.SecurityConfig`. -/
structure SecurityConfig where
  globalRateLimit : Rat := 0
  globalBurst : Int := 0
  trustForwardedHeaders : Bool := false
  trustedProxies : List String := []
  trustedClients : List String := []
  services : String → Option Policy := fun _ => none

variable {IP Net C L : Type}

/-- `ParseCIDRList`. -/
def parseCIDRList (net : NetLib IP Net) (entries : List String) : List Net :=
  entries.filterMap fun entry =>
    match net.parseCIDR entry with
    | some network => some network
    | none => (net.parseIP entry).map net.single

/-- `MatchesAnyNet`. -/
def matchesAnyNet (net : NetLib IP Net) (nets : List Net) (ip : String) : Bool :=
  match net.parseIP ip with
  | none => false
  | some address => nets.any fun network => net.contains network address

/-! ## The client address -/

/-- The values of each header, by its lower-case name. -/
abbrev Headers := String → List String

/-- `http.Header.Get`, and the reader of gRPC metadata. -/
def getHeader (headers : Headers) (name : String) : String :=
  (headers name).headD ""

/-- `strings.Split(text, ",")`. -/
def splitCommas (text : String) : List String :=
  (text.toList.splitOn ',').map String.ofList

/-- `IPExtractor.IsTrustedProxy`. -/
def isTrustedProxy (net : NetLib IP Net) (config : SecurityConfig) (ip : String) : Bool :=
  matchesAnyNet net (parseCIDRList net config.trustedProxies) ip

/-- The address `X-Real-IP` names, or that of the connection. -/
def realIPOr (directIP : String) (headers : Headers) : String :=
  if getHeader headers "x-real-ip" ≠ "" then
    trimSpace (getHeader headers "x-real-ip")
  else
    directIP

/-- `IPExtractor.resolveForwardedIP`. -/
def resolveForwardedIP (net : NetLib IP Net) (config : SecurityConfig) (directIP : String)
    (headers : Headers) : String :=
  if !config.trustForwardedHeaders || !isTrustedProxy net config directIP then
    directIP
  else if getHeader headers "cf-connecting-ip" ≠ "" then
    trimSpace (getHeader headers "cf-connecting-ip")
  else if getHeader headers "x-forwarded-for" ≠ "" then
    match splitCommas (getHeader headers "x-forwarded-for") with
    | [] => realIPOr directIP headers
    | first :: _ =>
      if trimSpace first ≠ "" then trimSpace first else realIPOr directIP headers
  else
    realIPOr directIP headers

/-! ## The limiters -/

/-- `RateLimiter`. -/
structure RateLimiter (Net C : Type) where
  config : SecurityConfig
  trustedNets : List Net
  perIP : C
  perIPSvc : C

/-- `NewRateLimiter`. -/
def newRateLimiter (net : NetLib IP Net) (caches : CacheLib C L) (config : SecurityConfig)
    (cacheSize : Int) : RateLimiter Net C :=
  let size := if cacheSize ≤ 0 then 1000 else cacheSize.toNat
  { config := config
    trustedNets := parseCIDRList net config.trustedClients
    perIP := caches.new size
    perIPSvc := caches.new (size * 4) }

variable (rate : RateLib L) (caches : CacheLib C L)

/-- `RateLimiter.getOrCreate`. -/
def getOrCreate (cache : C) (key : String) (rps : Rat) (burst : Int) : L × C :=
  match caches.get cache key with
  | (some limiter, cache) => (limiter, cache)
  | (none, cache) =>
    -- an unset burst is the rate, cut to an integer
    let burst := if burst ≤ 0 then rps.num.tdiv rps.den else burst
    let limiter := rate.newLimiter rps burst
    (limiter, caches.add cache key limiter)

/-- One `limiter.Allow()` on the limiter of a key. -/
def charge (now : Int) (cache : C) (key : String) (rps : Rat) (burst : Int) : Bool × C :=
  let (limiter, cache) := getOrCreate rate caches cache key rps burst
  let (allowed, limiter) := rate.allow now limiter
  (allowed, caches.write cache key limiter)

/-- The key of a service's limiter for an address. -/
def serviceKey (serviceName ip : String) : String :=
  serviceName ++ ":" ++ ip

/-- The second layer: the limiter of the service. -/
def allowService (now : Int) (limiter : RateLimiter Net C) (serviceName ip : String) :
    Bool × RateLimiter Net C :=
  match limiter.config.services serviceName with
  | none => (true, limiter)
  | some policy =>
    if policy.rateLimit ≤ 0 then
      (true, limiter)
    else
      let (allowed, cache) :=
        charge rate caches now limiter.perIPSvc (serviceKey serviceName ip) policy.rateLimit
          policy.burst
      (allowed, { limiter with perIPSvc := cache })

/-- `RateLimiter.Allow`. -/
def allow (net : NetLib IP Net) (now : Int) (limiter : RateLimiter Net C)
    (serviceName ip : String) : Bool × RateLimiter Net C :=
  if matchesAnyNet net limiter.trustedNets ip then
    (true, limiter)
  else if limiter.config.globalRateLimit > 0 then
    let (allowed, cache) := charge rate caches now limiter.perIP ip
      limiter.config.globalRateLimit limiter.config.globalBurst
    let limiter := { limiter with perIP := cache }
    if allowed then allowService rate caches now limiter serviceName ip else (false, limiter)
  else
    allowService rate caches now limiter serviceName ip

end Jmdn.Gatekeeper
