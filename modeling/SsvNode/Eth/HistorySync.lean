import SsvNode.Eth.GapFree
import SsvNode.Eth.ResumeBlock

/-!
# The history sync processes the chain

Execution client, event handler and event syncer together: whatever fails on the way, the blocks
committed over all the tries are those of the chain from the first block asked for, without a gap
(`history_gapFree`).
-/

namespace Ssv.Eth

open Act List

section

variable (threshold : ℕ) (st : NodeStorage) (fromBlock : ℕ)

/-! ### What is committed -/

/-- The blocks that the loop of `SyncHistory` commits. -/
def committed (st : NodeStorage) (fromBlock : ℕ) : List Attempt → List BlockLogs
  | [] => []
  | a :: rest =>
    let r := syncHistoryOnce threshold st fromBlock a
    a.committed st fromBlock ++
      if r.err.isSome && r.retryable then committed r.storage (r.nextBlock fromBlock) rest else []

theorem syncHistoryLoop_storage (attempts : List Attempt) (errs : Option Err) :
    (syncHistoryLoop threshold st fromBlock errs attempts).1 =
      st.after (committed threshold st fromBlock attempts) := by
  induction attempts generalizing st fromBlock errs with
  | nil => rfl
  | cons a rest ih =>
    rw [syncHistoryLoop, committed, NodeStorage.after_append, ← syncHistoryOnce_storage threshold]
    cases (syncHistoryOnce threshold st fromBlock a).err with
    | none => rfl
    | some =>
      simp only [Option.isSome_some, Bool.true_and]
      split
      · exact ih _ _ _
      · rfl

/-! ### It is the chain -/

/-- What a try that is served by the execution client meets. -/
structure Try where
  client : ℕ
  time : ℕ
  processing : BlockLogs → Processing := fun _ ↦ {}
  headerTime : ℕ → Except Err ℕ := fun _ ↦ .ok 0
  now : ℕ := 0

def Try.attempt (env : Env) (x : Try) : Attempt where
  fetchHistoricalLogs fromBlock :=
    ((ExecutionClient.fetchHistoricalLogs env x.client fromBlock).run x.time).result.map fun f ↦
      ⟨f.sent.map fun b ↦ (b, x.processing b), f.err.toList⟩
  headerTime := x.headerTime
  now := x.now

theorem handled_initial (stream : List (BlockLogs × Processing)) :
    handled st stream <+: stream.map Prod.fst := by
  induction stream generalizing st with
  | nil => exact prefix_rfl
  | cons head rest ih =>
    unfold handled
    split
    · exact nil_prefix
    · exact (prefix_cons_inj _).2 (ih _)

variable {chain : Chain} {env : Env}

theorem segment_fetchHistoricalLogs (h : env.Lawful chain) (client t : ℕ) :
    (ExecutionClient.fetchHistoricalLogs env client fromBlock).wp
      (fun _ _ r ↦ ∀ f, r = .ok f → ∃ c, BlockSegment chain.logs fromBlock c f.sent) t := by
  rw [ExecutionClient.fetchHistoricalLogs, wp_ask_bind]
  cases env.blockNumber client t with
  | error => rintro f ⟨⟩
  | ok head =>
    dsimp only
    split
    · rintro f ⟨⟩
    split
    · rintro f ⟨⟩
    · next hto =>
      refine wp_mono (ExecutionClient.fetchLogsInBatches_spec h (Nat.le_of_not_lt hto) (t + 1)) ?_
      rintro t' _ _ ⟨-, f', rfl, hfetch⟩ f ⟨⟩
      exact hfetch.segment.imp fun _ hc ↦ hc.2.1

theorem segment_attempt (h : env.Lawful chain) (x : Try) :
    ∃ c, BlockSegment chain.logs fromBlock c ((x.attempt env).committed st fromBlock) := by
  have hfetch := wp_iff.1 (segment_fetchHistoricalLogs fromBlock h x.client x.time)
  simp only [Attempt.committed, Try.attempt]
  cases hf : ((ExecutionClient.fetchHistoricalLogs env x.client fromBlock).run x.time).result with
  | error => exact ⟨fromBlock, Segment.empty⟩
  | ok f =>
    obtain ⟨c, hc⟩ := hfetch f hf
    have hinitial := handled_initial st (f.sent.map fun b ↦ (b, x.processing b))
    rw [map_map] at hinitial
    exact hc.of_initial (hinitial.trans (by simp [Function.comp_def]))

/-- A segment from the resume block ends at the resume block afterwards. -/
theorem segment_to_resumeBlock {st : NodeStorage} {offset c : ℕ} {blocks : List BlockLogs}
    (hc : BlockSegment chain.logs (resumeBlock offset st) c blocks) :
    resumeBlock offset st ≤ resumeBlock offset (st.after blocks) ∧
      BlockSegment chain.logs (resumeBlock offset st) (resumeBlock offset (st.after blocks))
        blocks := by
  rcases eq_nil_or_concat blocks with rfl | ⟨init, b, rfl⟩
  · exact ⟨le_rfl, Segment.empty⟩
  · rw [concat_eq_append] at hc ⊢
    rw [NodeStorage.after, getLast?_concat]
    exact ⟨Nat.le_succ_of_le (hc.within b (by simp)).1, hc.to_last⟩

theorem segment_committed (offset : ℕ) (h : env.Lawful chain) (tries : List Try) :
    ∃ c, BlockSegment chain.logs (resumeBlock offset st) c
      (committed threshold st (resumeBlock offset st) (tries.map (·.attempt env))) := by
  induction tries generalizing st with
  | nil => exact ⟨_, Segment.empty⟩
  | cons x rest ih =>
    obtain ⟨c, hc⟩ := segment_attempt st (resumeBlock offset st) h x
    obtain ⟨hle, hfirst⟩ := segment_to_resumeBlock hc
    rw [map_cons, committed, nextBlock_syncHistoryOnce, syncHistoryOnce_storage]
    split
    · obtain ⟨c', hc'⟩ := ih (st.after ((x.attempt env).committed st (resumeBlock offset st)))
      obtain ⟨hle', hlater⟩ := segment_to_resumeBlock hc'
      exact ⟨_, hfirst.append hlater hle hle'⟩
    · rw [append_nil]
      exact ⟨_, hfirst⟩

/-- The blocks that `SyncHistory` commits. -/
def history (offset : ℕ) (env : Env) (tries : ℕ → Try) : List BlockLogs :=
  committed threshold st (resumeBlock offset st)
    ((range maxTries).map fun i ↦ (tries i).attempt env)

/-- **The history sync processes the chain**: its tries commit the chain's blocks, without a gap and
each once. -/
theorem history_gapFree (offset : ℕ) (h : env.Lawful chain) (tries : ℕ → Try) :
    GapFree chain (resumeBlock offset st) (history threshold st offset env tries) ∧
      (syncHistory threshold st (resumeBlock offset st) fun i ↦ (tries i).attempt env).1 =
        st.after (history threshold st offset env tries) := by
  refine ⟨.of_initial ?_ prefix_rfl, syncHistoryLoop_storage ..⟩
  have hsegment := segment_committed threshold st offset h ((range maxTries).map tries)
  rwa [map_map] at hsegment

end

namespace Reference

/-- The second node serves every try, and block `6` cannot be committed in the first. -/
def retriedOnce (i : ℕ) : Try where
  client := 1
  time := 0
  processing b := if i = 0 ∧ b.blockNumber = 6 then { commit := .error (.text "disk full") } else {}

theorem history_gapFree_retriedOnce :
    (history 0 ⟨some 1⟩ 0 env retriedOnce).map BlockLogs.blockNumber = [3, 6, 12] ∧
    GapFree chain 2 (history 0 ⟨some 1⟩ 0 env retriedOnce) :=
  ⟨by decide +kernel, (history_gapFree 0 ⟨some 1⟩ 0 env_lawful retriedOnce).1⟩

end Reference

end Ssv.Eth
