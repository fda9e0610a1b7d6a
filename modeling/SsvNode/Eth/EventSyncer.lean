import SsvNode.Eth.Types

/-!
# Syncing registry events at startup

`eth/eventsyncer`, the part of `eth/eventhandler` that walks a stream of blocks, and the startup
code of `cli/operator/eventsync.go`. What the execution client, the handlers and the clock do in one
try is an `Attempt`, about which nothing is assumed.
-/

namespace Ssv.Eth

structure Task where
  name : String
  deriving DecidableEq

/-- What the processing of a block meets: the outcomes of its events and of the two writes at the
end. -/
structure Processing where
  processEvent : Log → Except Err (Option Task) := fun _ ↦ .ok none
  saveLastProcessedBlock : Except Err Unit := .ok ()
  commit : Except Err Unit := .ok ()

/-- The node's storage, as far as syncing reads it. -/
structure NodeStorage where
  lastProcessedBlock : Option ℕ
  deriving DecidableEq

/-! ### The event handler -/

/-- The body of the transaction in `processBlockEvents`. -/
def processLogs (block : BlockLogs) (p : Processing) : Except Err (List Task) := do
  let tasks ← block.logs.mapM p.processEvent
  p.saveLastProcessedBlock.mapError (.wrap "set last processed block")
  p.commit.mapError (.wrap "commit transaction")
  return tasks.filterMap id

/-- `processBlockEvents`. An error discards the transaction. -/
def processBlockEvents (st : NodeStorage) (block : BlockLogs) (p : Processing) :
    NodeStorage × Except Err (List Task) :=
  if st.lastProcessedBlock.getD 0 ≥ block.blockNumber then (st, .error (.leaf .inferiorBlock))
  else
    match processLogs block p with
    | .error e => (st, .error e)
    | .ok tasks => ({ lastProcessedBlock := some block.blockNumber }, .ok tasks)

/-- What `HandleBlockEventsStream` returns, and leaves. -/
structure StreamResult where
  storage : NodeStorage
  lastProcessedBlock : ℕ := 0
  progressed : Bool := false
  err : Option Err := none
  executed : List Task := []

/-- The loop of `HandleBlockEventsStream`, from the result so far. -/
def handleBlocks (executeTasks : Bool) (r : StreamResult) :
    List (BlockLogs × Processing) → StreamResult
  | [] => r
  | (block, p) :: rest =>
    match processBlockEvents r.storage block p with
    | (storage, .error e) =>
      { r with storage := storage, err := some (.wrap "process block events" e) }
    | (storage, .ok tasks) =>
      handleBlocks executeTasks
        { storage := storage
          lastProcessedBlock := block.blockNumber
          progressed := true
          err := none
          executed := if executeTasks then r.executed ++ tasks else r.executed } rest

def handleBlockEventsStream (st : NodeStorage) (stream : List (BlockLogs × Processing))
    (executeTasks : Bool) : StreamResult :=
  handleBlocks executeTasks { storage := st } stream

/-! ### The event syncer -/

/-- What `FetchHistoricalLogs` delivers before its channels are closed. -/
structure Fetched where
  stream : List (BlockLogs × Processing)
  errs : List Err := []

/-- What one try meets: the execution client's answers, and the clock. -/
structure Attempt where
  fetchHistoricalLogs : ℕ → Except Err Fetched
  headerTime : ℕ → Except Err ℕ
  now : ℕ

def ensureBlockAboveThreshold (stalenessThreshold : ℕ) (a : Attempt) (block : ℕ) :
    Except Err Unit := do
  let time ← (a.headerTime block).mapError (.wrap
    ("failed to get header for block " ++ toString block))
  if time < a.now - stalenessThreshold then
    throw (.text ("block " ++ toString block ++ " is too old"))

/-- What `syncHistory` returns, with the storage it leaves. -/
structure AttemptResult where
  storage : NodeStorage
  lastProcessedBlock : ℕ
  progressed : Bool
  err : Option Err
  retryable : Bool

/-- `fmt.Errorf("handle block events stream (last processed block = %d): %w", …)`. -/
def streamError (lastProcessedBlock : ℕ) (e : Err) : Err :=
  .wrap ("handle block events stream (last processed block = " ++ toString lastProcessedBlock ++
    ")") e

/-- `syncHistory`: one try. -/
def syncHistoryOnce (stalenessThreshold : ℕ) (st : NodeStorage) (fromBlock : ℕ) (a : Attempt) :
    AttemptResult :=
  match a.fetchHistoricalLogs fromBlock with
  | .error e =>
    if e.Is .nothingToSync then
      { storage := st, lastProcessedBlock := 0, progressed := false
        err := some (.leaf .nothingToSync), retryable := false }
    else
      { storage := st, lastProcessedBlock := 0, progressed := false
        err := some (.wrap "failed to fetch historical events" e), retryable := true }
  | .ok fetched =>
    let r := handleBlockEventsStream st fetched.stream false
    let result (err : Option Err) (retryable : Bool) : AttemptResult :=
      { storage := r.storage, lastProcessedBlock := r.lastProcessedBlock
        progressed := r.progressed, err := err, retryable := retryable }
    match r.err with
    | some e => result (some (streamError r.lastProcessedBlock e)) true
    | none =>
      match fetched.errs.foldl (fun errs e ↦ some (ErrorTree.add errs e)) none with
      | some errs => result (some (streamError r.lastProcessedBlock errs)) true
      | none =>
        if r.lastProcessedBlock < fromBlock then
          result (some (.text ("event replay: lastProcessedBlock (" ++
            toString r.lastProcessedBlock ++ ") is lower than fromBlock (" ++
            toString fromBlock ++ ")"))) false
        else
          match ensureBlockAboveThreshold stalenessThreshold a r.lastProcessedBlock with
          | .error e => result (some e) true
          | .ok _ => result none false

def AttemptResult.nextBlock (r : AttemptResult) (fromBlock : ℕ) : ℕ :=
  if r.progressed then r.lastProcessedBlock + 1 else fromBlock

/-- `SyncHistory`'s last statement. -/
def syncError (errs : Option Err) : Err :=
  .wrap "event syncer: couldn't sync history events" (errs.getD (.text "%!w(<nil>)"))

/-- The loop of `SyncHistory`, over the tries that are left. -/
def syncHistoryLoop (stalenessThreshold : ℕ) (st : NodeStorage) (fromBlock : ℕ)
    (errs : Option Err) : List Attempt → NodeStorage × Except Err ℕ
  | [] => (st, .error (syncError errs))
  | a :: rest =>
    let r := syncHistoryOnce stalenessThreshold st fromBlock a
    match r.err with
    | none => (r.storage, .ok r.lastProcessedBlock)
    | some e =>
      let errs := some (ErrorTree.add errs
        (.wrap ("sync history (from_block=" ++ toString fromBlock ++ ")") e))
      if r.retryable then
        syncHistoryLoop stalenessThreshold r.storage (r.nextBlock fromBlock) errs rest
      else (r.storage, .error (syncError errs))

def maxTries : ℕ := 3

/-- `SyncHistory`. The environment of the `i`-th try is `attempts i`. -/
def syncHistory (stalenessThreshold : ℕ) (st : NodeStorage) (fromBlock : ℕ)
    (attempts : ℕ → Attempt) : NodeStorage × Except Err ℕ :=
  syncHistoryLoop stalenessThreshold st fromBlock none ((List.range maxTries).map attempts)

/-! ### Startup -/

/-- The block after the last processed one, or else the configured offset. -/
def resumeBlock (registrySyncOffset : ℕ) (st : NodeStorage) : ℕ :=
  match st.lastProcessedBlock with
  | none => registrySyncOffset
  | some block => block + 1

/-- `syncContractEvents`, from the history sync on: the storage it leaves, and the block to go on
from. -/
def syncContractEvents (stalenessThreshold registrySyncOffset : ℕ) (st : NodeStorage)
    (attempts : ℕ → Attempt) : NodeStorage × Except Err ℕ :=
  let fromBlock := resumeBlock registrySyncOffset st
  match syncHistory stalenessThreshold st fromBlock attempts with
  | (storage, .error e) =>
    if e.Is .nothingToSync then (storage, .ok fromBlock)
    else (storage, .error (.wrap "failed to sync historical registry events" e))
  | (storage, .ok lastProcessedBlock) => (storage, .ok (lastProcessedBlock + 1))

end Ssv.Eth
