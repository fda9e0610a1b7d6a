import SsvNode.Lib.ErrorTree
import Mathlib.Data.Nat.Notation

/-!
# Logs, blocks and errors of the execution layer

The types shared by the execution client and the event syncer.
-/

namespace Ssv.Eth

/-- The errors the execution-layer code compares with, and all others. -/
inductive ErrKind where
  | nothingToSync
  | badInput
  | closed
  | clientQuit
  | canceled
  | rpc (code : Int)
  | inferiorBlock
  | other (text : String)
  deriving DecidableEq

abbrev Err : Type := ErrorTree ErrKind

def Err.text (s : String) : Err := .leaf (.other s)

/-- A log of the contract (`ethtypes.Log`): its place in the chain, and the rest. -/
structure Log where
  blockNumber : ℕ
  txIndex : ℕ
  index : ℕ
  removed : Bool := false
  data : List UInt8 := []
  deriving DecidableEq

structure BlockLogs where
  blockNumber : ℕ
  logs : List Log
  deriving DecidableEq

end Ssv.Eth
