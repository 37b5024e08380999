import Jmdn.Go.Decimal
import Jmdn.Go.Json
import Jmdn.Go.Sort
import Mathlib.Data.String.Basic

/-!
# Committee snapshots

The authenticated committee of `seednode/committee/contracts.go`: the text the
authority signs, its verification under a pinned key, and the map from peers to
keys that votes are checked against.  The signed bytes are the UTF-8 bytes of a
text and stand for it.  BLS verification belongs to an outside library.
-/

namespace Jmdn.Seednode

open Go

structure CommitteeEntry where
  peerID : String
  blsPub : String
  deriving DecidableEq, Repr

/-- `CommitteeSnapshot`. -/
structure CommitteeSnapshot where
  epoch : UInt64
  entries : List CommitteeEntry
  seed : String := ""
  authorityPubHex : String
  signature : String
  deriving DecidableEq, Repr

/-- What the contracts take from outside: the Unicode lower-case mapping, the
behaviour of `sort.Slice` on peer ids, and BLS verification of a text. -/
structure Contracts where
  lowerRune : Char → Char := id
  slice : SortSlice fun first second : CommitteeEntry => first.peerID ≤ second.peerID
  blsVerify : List UInt8 → String → List UInt8 → Bool

section

variable (env : Contracts)

/-- `strings.ToLower(strings.TrimSpace(text))`. -/
def normalize (text : String) : String :=
  toLower env.lowerRune (trimSpace text)

/-- `sortedEntries`. -/
def sortedEntries (entries : List CommitteeEntry) : List CommitteeEntry :=
  env.slice.sort (entries.map fun entry => { entry with blsPub := normalize env entry.blsPub })

def committeeSnapshotVersion : String := "jmdt/committee/v1"

/-- `CanonicalCommitteeBytes`. -/
def canonicalCommitteeBytes (epoch : UInt64) (seed : String) (entries : List CommitteeEntry) :
    String :=
  let parts := (sortedEntries env entries).map fun entry => entry.peerID ++ ":" ++ entry.blsPub
  committeeSnapshotVersion ++ "|" ++ toString epoch.toNat ++ "|" ++ seed ++ "|" ++
    ",".intercalate parts

/-- The bytes of pairs of hexadecimal digits. -/
def hexPairs : List Char → Option (List UInt8)
  | [] => some []
  | [_] => none
  | high :: low :: rest => do
      let first ← hexValue high
      let second ← hexValue low
      let others ← hexPairs rest
      return UInt8.ofNat (first * 16 + second) :: others

/-- `hex.DecodeString`. -/
def hexDecodeString (text : String) : Option (List UInt8) :=
  hexPairs text.toList

inductive SnapshotError where
  | nilSnapshot
  | emptySnapshot
  | notPinned
  | badAuthorityHex
  | badSignatureHex
  | invalidSignature
  deriving DecidableEq, Repr

/-- The part of `VerifyCommitteeSnapshot` after the check of the pin. -/
def checkSnapshotSignature (snap : CommitteeSnapshot) : Option SnapshotError :=
  match hexDecodeString (trimSpace snap.authorityPubHex) with
  | none => some .badAuthorityHex
  | some pubBytes =>
    match hexDecodeString (trimSpace snap.signature) with
    | none => some .badSignatureHex
    | some sigBytes =>
      if env.blsVerify pubBytes (canonicalCommitteeBytes env snap.epoch snap.seed snap.entries)
          sigBytes then
        none
      else some .invalidSignature

/-- `VerifyCommitteeSnapshot`: `none` is acceptance. -/
def verifyCommitteeSnapshot (snapshot : Option CommitteeSnapshot)
    (expectedAuthorityPubHex : String) : Option SnapshotError :=
  match snapshot with
  | none => some .nilSnapshot
  | some snap =>
    let exp := normalize env expectedAuthorityPubHex
    if snap.entries = [] then some .emptySnapshot
    else if exp ≠ "" ∧ normalize env snap.authorityPubHex ≠ exp then some .notPinned
    else checkSnapshotSignature env snap

/-- `BLSPubByPeer`; a later entry of a peer replaces an earlier one. -/
def blsPubByPeer (snap : CommitteeSnapshot) : String → Option String :=
  snap.entries.foldl
    (fun known entry =>
      Function.update known entry.peerID (some (normalize env entry.blsPub))) fun _ => none

end

end Jmdn.Seednode
