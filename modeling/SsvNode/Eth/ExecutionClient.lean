import SsvNode.Eth.Types
import SsvNode.Lib.Act
import Mathlib.Data.List.Sort

/-!
# The execution client's log stream

`eth/executionclient`: logs in batches, with subdivision of large queries and a second look at
blocks whose bloom filter disagrees, and the endless loops of a client and of a `MultiClient`, which
are given a number of rounds (`none` when it is used up). Everything outside is an `Env`, which
answers each interaction at its own **time**; the events of an `Act` on the time are the blocks
sent. Block numbers are `ℕ`: the code wraps only within `logBatchSize` of `2 ^ 64`.
-/

namespace Ssv.Eth

/-! ### Logs in canonical order -/

namespace Log

/-- The comparison of `sortLogsCanonical`. -/
def Less (a b : Log) : Prop :=
  if a.blockNumber ≠ b.blockNumber then a.blockNumber < b.blockNumber
  else if a.txIndex ≠ b.txIndex then a.txIndex < b.txIndex
  else a.index < b.index

instance : DecidableRel Less := fun a b ↦ by
  unfold Less
  infer_instance

/-- `b` does not come before `a`. -/
def NotAfter (a b : Log) : Prop := ¬ Less b a

instance : DecidableRel NotAfter := fun a b ↦ inferInstanceAs (Decidable (¬ Less b a))

end Log

/-- `sortLogsCanonical`. The algorithm does not matter where no two logs are at one place. -/
def sortLogsCanonical (logs : List Log) : List Log := logs.insertionSort Log.NotAfter

/-- The body of the loop of `PackLogs`. -/
def packLog (all : List BlockLogs) (log : Log) : List BlockLogs :=
  match all.getLast? with
  | none => [{ blockNumber := log.blockNumber, logs := [log] }]
  | some last =>
    if last.blockNumber = log.blockNumber then
      all.dropLast ++ [{ last with logs := last.logs ++ [log] }]
    else all ++ [{ blockNumber := log.blockNumber, logs := [log] }]

def packLogs (logs : List Log) : List BlockLogs := (sortLogsCanonical logs).foldl packLog []

/-! ### The environment -/

/-- The outcome of a `select` on the context, the client being closed, and going on. -/
inductive Gate where
  | go
  | ctxDone
  | closed
  deriving DecidableEq

/-- The outcome of the `select` in `streamLogsToChan`. -/
inductive StreamEvent where
  | ctxDone
  | closed
  | subscriptionError (err : Option Err)
  | header (number : ℕ)
  | timeout

/-- What a stream meets. Clients are numbered, and come before the time. -/
structure Env where
  nodeAddrs : List String
  ctxDone : ℕ → Bool
  ctxErr : Err
  /-- `select` on the context and on the client being closed, with a `default`. -/
  gate : ℕ → ℕ → Gate
  /-- The `select` of `retryBlockLogs`, with a timer. -/
  retryGate : ℕ → ℕ → Gate
  /-- `client.FilterLogs` for the contract and a range of blocks. -/
  filterLogs : ℕ → ℕ → ℕ → ℕ → Except Err (List Log)
  /-- `client.HeaderByNumber`: whether the header's bloom filter has the contract. -/
  headerBloom : ℕ → ℕ → ℕ → Except Err Bool
  blockNumber : ℕ → ℕ → Except Err ℕ
  subscribeNewHead : ℕ → ℕ → Except Err Unit
  streamEvent : ℕ → ℕ → StreamEvent
  /-- The `select` between two attempts to stream, with a timer. -/
  attemptGate : ℕ → Gate
  getClient : ℕ → ℕ → Except Err Unit
  healthy : ℕ → ℕ → Except Err Unit

/-- A method that meets the environment; its events are the blocks sent. -/
abbrev StreamAct (α : Type) : Type := Act Err BlockLogs ℕ α

/-- One interaction with the outside. -/
def ask {α : Type} (answer : ℕ → α) : StreamAct α := fun t ↦ ⟨t + 1, [], .ok (answer t)⟩

def followDistance : ℕ := 8

def logBatchSize : ℕ := 200

def bloomRetryAttempts : ℕ := 3

/-- `isRPCQueryLimitError`, with `errCodeQueryLimit`. -/
def isRPCQueryLimitError (err : Err) : Bool :=
  err.as (fun | .rpc code => some code | _ => none) == some (-32005)

def isSingleClientInterruptedError (err : Err) : Bool :=
  decide (err.Is .closed ∨ err.Is .clientQuit ∨ err.Is .canceled)

def isMultiClientInterruptedError (err : Err) : Bool :=
  decide (err.Is .closed ∨ err.Is .canceled)

namespace ExecutionClient

variable (env : Env) (client : ℕ)

def errSingleClient (err : Err) (routeName : String) : Err :=
  .wrap ("single-client request " ++ env.nodeAddrs.getD client "" ++ " -> " ++ routeName) err

/-- `FilterLogs`. The query is printed as its range. -/
def filterLogs (fromBlock toBlock : ℕ) : StreamAct (List Log) := do
  match ← ask (env.filterLogs client · fromBlock toBlock) with
  | .ok logs => return logs
  | .error e =>
    Act.fail (errSingleClient env client
      (.wrap ("get filtered logs (query=" ++ toString fromBlock ++ ".." ++ toString toBlock ++ ")")
        e)
      "eth_getLogs")

/-- `HeaderByNumber`, and the test of the header's bloom filter. -/
def headerByNumber (blockNumber : ℕ) : StreamAct Bool := do
  match ← ask (env.headerBloom client · blockNumber) with
  | .ok bloom => return bloom
  | .error e =>
    Act.fail (errSingleClient env client
      (.wrap ("get header by block number " ++ toString blockNumber) e) "eth_getBlockByNumber")

/-- The body of `subdivideLogFetch`, given how to fetch a half. -/
def fetchOrSubdivide (halves : (midBlock : ℕ) → StreamAct (List Log)) (fromBlock toBlock : ℕ) :
    StreamAct (List Log) := do
  match ← ask (env.gate client) with
  | .ctxDone => Act.fail env.ctxErr
  | .closed => Act.fail (.leaf .closed)
  | .go =>
    match ← (filterLogs env client fromBlock toBlock).attempt with
    | .ok logs => return logs
    | .error e =>
      let err := errSingleClient env client (.wrap "get filtered logs" e) "eth_getLogs"
      if isRPCQueryLimitError err then
        if fromBlock ≥ toBlock then
          Act.fail (.wrap ("insufficient blocks to subdivide (fromBlock: " ++ toString fromBlock ++
            ", toBlock: " ++ toString toBlock ++ ")") err)
        else halves (fromBlock + (toBlock - fromBlock) / 2)
      else Act.fail err

/-- `subdivideLogFetch`. A range of `depth + 1` blocks is never cut short. -/
def subdivideLogFetch : (depth fromBlock toBlock : ℕ) → StreamAct (List Log)
  | 0, fromBlock, toBlock => fetchOrSubdivide env client (fun _ ↦ return []) fromBlock toBlock
  | depth + 1, fromBlock, toBlock =>
    fetchOrSubdivide env client (fun midBlock ↦ do
      let leftLogs ← subdivideLogFetch depth fromBlock midBlock
      let rightLogs ← subdivideLogFetch depth (midBlock + 1) toBlock
      return leftLogs ++ rightLogs) fromBlock toBlock

/-- The loop of `retryBlockLogs`, from an attempt on. -/
def retryBlockLogsFrom (blockNumber : ℕ) :
    (attemptsLeft : ℕ) → (first : Bool) → StreamAct (List Log)
  | 0, _ => return []
  | attemptsLeft + 1, first => do
    match ← (if first then pure .go else ask (env.retryGate client)) with
    | .ctxDone => Act.fail env.ctxErr
    | .closed => Act.fail (.leaf .closed)
    | .go =>
      match ← (filterLogs env client blockNumber blockNumber).attempt with
      | .error e =>
        if attemptsLeft = 0 then
          Act.fail (.wrap ("bloom retry: filter logs for block " ++ toString blockNumber) e)
        else retryBlockLogsFrom blockNumber attemptsLeft false
      | .ok logs =>
        if logs.isEmpty then retryBlockLogsFrom blockNumber attemptsLeft false else return logs

def retryBlockLogs (blockNumber : ℕ) : StreamAct (List Log) :=
  retryBlockLogsFrom env client blockNumber bloomRetryAttempts true

/-- The loop of `verifyLogsWithBloom`: the logs that were recovered. -/
def recoverLogs (blocksWithLogs : List ℕ) : List ℕ → StreamAct (List Log)
  | [] => return []
  | blockNum :: rest => do
    if blockNum ∈ blocksWithLogs then recoverLogs blocksWithLogs rest
    else
      let bloom ← (headerByNumber env client blockNum).mapError
        (.wrap ("bloom check: fetch header for block " ++ toString blockNum))
      if bloom then
        let blockLogs ← (retryBlockLogs env client blockNum).mapError
          (.wrap ("bloom check: retry block " ++ toString blockNum ++ " logs"))
        return blockLogs ++ (← recoverLogs blocksWithLogs rest)
      else recoverLogs blocksWithLogs rest

def verifyLogsWithBloom (logs : List Log) (fromBlock toBlock : ℕ) : StreamAct (List Log) := do
  let recovered ← recoverLogs env client (logs.map (·.blockNumber))
    (List.range' fromBlock (toBlock + 1 - fromBlock))
  if recovered.isEmpty then return logs else return sortLogsCanonical (logs ++ recovered)

/-- The blocks of a batch with logs, and an empty one to mark its end. -/
def batchBlocks (results : List Log) (toBlock : ℕ) : List BlockLogs :=
  let blocks := packLogs (results.filter fun log ↦ !log.removed)
  let highestBlock := blocks.foldl (fun highest b ↦ max highest b.blockNumber) 0
  if highestBlock < toBlock then blocks ++ [{ blockNumber := toBlock, logs := [] }] else blocks

/-- What went through the two channels of `fetchLogsInBatches`. -/
structure Fetch where
  sent : List BlockLogs
  err : Option Err

/-- The loop of `fetchLogsInBatches`, for at most so many batches. -/
def fetchBatches (endBlock : ℕ) (verifyBloom : Bool) : (batches fromBlock : ℕ) → StreamAct Fetch
  | 0, _ => return { sent := [], err := none }
  | batches + 1, fromBlock => do
    if fromBlock > endBlock then return { sent := [], err := none }
    else
      let toBlock := min (fromBlock + logBatchSize - 1) endBlock
      match ← (subdivideLogFetch env client (toBlock - fromBlock) fromBlock toBlock).attempt with
      | .error e =>
        -- a cancelled context ends the fetch without an error
        if e.Is .canceled then return { sent := [], err := none }
        else return { sent := [], err := some e }
      | .ok results =>
        match ← (if verifyBloom then verifyLogsWithBloom env client results fromBlock toBlock
          else pure results).attempt with
        | .error e => return { sent := [], err := some e }
        | .ok results =>
          match ← ask (env.gate client) with
          | .ctxDone => return { sent := [], err := none }
          | .closed => return { sent := [], err := some (.leaf .closed) }
          | .go =>
            let rest ← fetchBatches endBlock verifyBloom batches (fromBlock + logBatchSize)
            return { rest with sent := batchBlocks results toBlock ++ rest.sent }

def fetchLogsInBatches (startBlock endBlock : ℕ) (verifyBloom : Bool) : StreamAct Fetch :=
  if startBlock > endBlock then return { sent := [], err := some (.leaf .badInput) }
  else
    fetchBatches env client endBlock verifyBloom ((endBlock - startBlock) / logBatchSize + 1)
      startBlock

/-- `FetchHistoricalLogs`, with what its channels carried. -/
def fetchHistoricalLogs (fromBlock : ℕ) : StreamAct Fetch := do
  match ← ask (env.blockNumber client) with
  | .error e =>
    Act.fail (errSingleClient env client (.wrap "get current block" e) "eth_blockNumber")
  | .ok currentBlock =>
    if currentBlock < followDistance then Act.fail (.leaf .nothingToSync)
    else
      let toBlock := currentBlock - followDistance
      if toBlock < fromBlock then Act.fail (.leaf .nothingToSync)
      else fetchLogsInBatches env client fromBlock toBlock false

/-- What `streamLogsToChan` returns. -/
structure StreamEnd where
  lastBlock : ℕ
  progressed : Bool
  err : Err

/-- Send blocks on the stream's channel. -/
def sendAll : List BlockLogs → StreamAct Unit
  | [] => return
  | b :: rest => do
    Act.emit b
    sendAll rest

/-- The loop of `streamLogsToChan`; `none` when its rounds are used up. -/
def streamRounds :
    (rounds fromBlock lastBlock : ℕ) → (progressed : Bool) → StreamAct (Option StreamEnd)
  | 0, _, _, _ => return none
  | rounds + 1, fromBlock, lastBlock, progressed => do
    let stop (err : Err) : StreamAct (Option StreamEnd) :=
      return some { lastBlock := lastBlock, progressed := progressed, err := err }
    match ← ask (env.streamEvent client) with
    | .ctxDone => stop env.ctxErr
    | .closed => stop (.leaf .closed)
    | .subscriptionError none => stop (.text "subscription error: nil error")
    | .subscriptionError (some e) => stop (.wrap "subscription error" e)
    | .timeout => stop (.text "subscription timed out: no block header received in 2m")
    | .header number =>
      if number < followDistance then streamRounds rounds fromBlock lastBlock progressed
      else
        let toBlock := number - followDistance
        if toBlock < fromBlock then streamRounds rounds fromBlock lastBlock progressed
        else
          let fetched ← fetchLogsInBatches env client fromBlock toBlock true
          sendAll fetched.sent
          let lastBlock := (fetched.sent.getLast?.map (·.blockNumber)).getD lastBlock
          let progressed := progressed || !fetched.sent.isEmpty
          match fetched.err with
          | some e =>
            return some
              { lastBlock := lastBlock, progressed := progressed, err := .wrap "fetch logs" e }
          | none => streamRounds rounds (toBlock + 1) lastBlock progressed

def streamLogsToChan (rounds fromBlock : ℕ) : StreamAct (Option StreamEnd) := do
  match ← ask (env.subscribeNewHead client) with
  | .error e =>
    return some { lastBlock := 0, progressed := false
                  err := errSingleClient env client (.wrap "subscribe new head" e) "newHeads" }
  | .ok _ => streamRounds env client rounds fromBlock 0 false

/-- The block after the last one streamed, if there was one. -/
def StreamEnd.nextBlock (e : StreamEnd) (fromBlock : ℕ) : ℕ :=
  if e.progressed then e.lastBlock + 1 else fromBlock

/-- `StreamLogs`, for at most so many attempts. -/
def streamLogs (rounds : ℕ) : (attempts fromBlock : ℕ) → StreamAct Unit
  | 0, _ => return
  | attempts + 1, fromBlock => do
    match ← ask env.attemptGate with
    | .ctxDone => return
    | .closed => return
    | .go =>
      match ← streamLogsToChan env client rounds fromBlock with
      | none => return
      | some e =>
        if isSingleClientInterruptedError e.err then return
        else streamLogs rounds attempts (e.nextBlock fromBlock)

end ExecutionClient

namespace MultiClient

open ExecutionClient

variable (env : Env)

/-- The block to stream from, the client to begin with, and its error. -/
structure Call where
  fromBlock : ℕ
  currentClientIndex : ℕ
  err : Err

/-- The loop of `call` over the clients. -/
def callStream (rounds startingIndex : ℕ) : (clientsLeft i fromBlock currentClientIndex : ℕ) →
    (allErrs : Option Err) → StreamAct (Option Call)
  | 0, _, fromBlock, currentClientIndex, allErrs =>
    return some { fromBlock := fromBlock, currentClientIndex := currentClientIndex
                  err := .wrap "all clients failed" (allErrs.getD (.text "%!w(<nil>)")) }
  | clientsLeft + 1, i, fromBlock, currentClientIndex, allErrs => do
    let clientsTotal := env.nodeAddrs.length
    let clientIndex := (startingIndex + i) % clientsTotal
    let nextClientIndex := (clientIndex + 1) % clientsTotal
    let next (fromBlock : ℕ) (e : Err) : StreamAct (Option Call) :=
      callStream rounds startingIndex clientsLeft (i + 1) fromBlock nextClientIndex
        (some (ErrorTree.add allErrs e))
    match ← ask (env.getClient clientIndex) with
    | .error e => next fromBlock e
    | .ok _ =>
      match ← ask (env.healthy clientIndex) with
      | .error e => next fromBlock e
      | .ok _ =>
        match ← streamLogsToChan env clientIndex rounds fromBlock with
        | none => return none
        | some e =>
          let fromBlock := e.nextBlock fromBlock
          if isMultiClientInterruptedError e.err then
            return some
              { fromBlock := fromBlock, currentClientIndex := currentClientIndex, err := e.err }
          else next fromBlock e.err

/-- `call`, with the function `StreamLogs` passes to it. -/
def call (rounds fromBlock currentClientIndex : ℕ) : StreamAct (Option Call) :=
  if env.nodeAddrs.length = 0 then
    return some { fromBlock := fromBlock, currentClientIndex := currentClientIndex
                  err := .text "no clients configured" }
  else
    callStream env rounds currentClientIndex env.nodeAddrs.length 0 fromBlock
      currentClientIndex none

def streamLogs (rounds : ℕ) : (attempts fromBlock currentClientIndex : ℕ) → StreamAct Unit
  | 0, _, _ => return
  | attempts + 1, fromBlock, currentClientIndex => do
    match ← ask env.attemptGate with
    | .ctxDone => return
    | .closed => return
    | .go =>
      match ← call env rounds fromBlock currentClientIndex with
      | none => return
      | some c =>
        if isMultiClientInterruptedError c.err then return
        else streamLogs rounds attempts c.fromBlock c.currentClientIndex

end MultiClient

end Ssv.Eth
