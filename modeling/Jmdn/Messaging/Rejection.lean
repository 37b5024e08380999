import Jmdn.Config.Types

/-!
# Reasons to reject a remote block

The rejections of `validateRemoteBlock` and of the checks it calls, each with
the data its message prints.
-/

namespace Jmdn.Messaging

open Config

inductive BlockRejection where
  | nilBlock
  | emptyBlock (block : Hash)
  | feeRecipientsUnsupported (block : Hash)
  | nilSender (index : Nat)
  | badSignature (index : Nat) (tx : Hash)
  | txHashMismatch (index : Nat)
  | negativeTxValue (index : Nat)
  | badNonce (index : Nat) (sender : Address) (nonce previous : UInt64)
  | bodyMismatch (block recomputed : Hash)
  | txnsRootMismatch (block : Hash) (carried expected : String)
  | blockHashMismatch (block : Hash)
  | tipUnreadable (number : UInt64)
  | notBootstrapped (number : UInt64)
  | staleHeight (number tip : UInt64)
  | heightGap (number expected tip : UInt64)
  | parentUnavailable (tip number : UInt64)
  | badParent (number : UInt64) (carried : Hash) (tip : UInt64) (expected : Hash)
  | badStateRoot (number : UInt64) (carried parent expected : Hash)
  | noCertificate (block : Hash)
  | malformedCertificate
  | emptyCertificate
  | committeeSourceInvalid
  | quorumNotMet (yesVotes threshold committeeSize : Nat)
  | equivocation (height : UInt64) (seen now : String) (durable : Bool)
  deriving DecidableEq, Repr

end Jmdn.Messaging
