import SsvNode.Eth.EventSyncer
import Mathlib.Data.List.Basic

/-!
# Where the ongoing sync resumes

The node resumes correctly when it streams on from the block after the last one whose events are
stored. The retries keep to this (`nextBlock_syncHistoryOnce`), but the caller does not see that
block when the sync fails, and on `ErrNothingToSync` falls back to the block the *first* try started
from. `resumes_iff` says exactly when this is right.
-/

namespace Ssv.Eth

open List

/-- **Resuming after the processed prefix.** The ongoing sync starts after it, and a sync with
nothing to do has processed nothing. -/
structure ResumesAfterPrefix (stalenessThreshold registrySyncOffset : ℕ) (st : NodeStorage)
    (attempts : ℕ → Attempt) : Prop where
  start : ∀ block,
    (syncContractEvents stalenessThreshold registrySyncOffset st attempts).2 = .ok block →
      block = resumeBlock registrySyncOffset
        (syncContractEvents stalenessThreshold registrySyncOffset st attempts).1
  nothing : ∀ e,
    (syncHistory stalenessThreshold st (resumeBlock registrySyncOffset st) attempts).2 = .error e →
      e.Is .nothingToSync →
        (syncHistory stalenessThreshold st (resumeBlock registrySyncOffset st) attempts).1 = st

/-! ### What the tries meet -/

/-- The blocks of a stream whose events are committed. -/
def handled (st : NodeStorage) : List (BlockLogs × Processing) → List BlockLogs
  | [] => []
  | (block, p) :: rest =>
    match processBlockEvents st block p with
    | (_, .error _) => []
    | (storage, .ok _) => block :: handled storage rest

/-- The storage once the blocks are committed. -/
def NodeStorage.after (st : NodeStorage) (blocks : List BlockLogs) : NodeStorage :=
  (blocks.getLast?.map fun b ↦ ⟨some b.blockNumber⟩).getD st

theorem NodeStorage.after_append (st : NodeStorage) (blocks later : List BlockLogs) :
    st.after (blocks ++ later) = (st.after blocks).after later := by
  simp only [after, getLast?_append]
  cases later.getLast? <;> rfl

/-- The number of the last block; zero if there is none. -/
def lastNumber (blocks : List BlockLogs) : ℕ := (blocks.getLast?.map (·.blockNumber)).getD 0

namespace Attempt

variable (threshold : ℕ) (st : NodeStorage) (fromBlock : ℕ) (a : Attempt)

/-- The blocks that the try commits. -/
def committed : List BlockLogs :=
  match a.fetchHistoricalLogs fromBlock with
  | .error _ => []
  | .ok fetched => handled st fetched.stream

/-- The client has no block from the given one on. -/
def HasNothing : Prop := ∃ e, a.fetchHistoricalLogs fromBlock = .error e ∧ e.Is .nothingToSync

/-- Every delivered block is committed, and the client reports no error. -/
def Completes : Prop :=
  ∃ fetched, a.fetchHistoricalLogs fromBlock = .ok fetched ∧ fetched.errs = [] ∧
    handled st fetched.stream = fetched.stream.map Prod.fst

/-- The header of the block is recent enough. -/
def Fresh (block : ℕ) : Prop :=
  ∃ time, a.headerTime block = .ok time ∧ a.now - threshold ≤ time

/-- There is no further try: the client has nothing, or all that it delivers is committed and the
last block is recent, or before the first one asked for. -/
def Ends : Prop :=
  a.HasNothing fromBlock ∨ a.Completes st fromBlock ∧
    (lastNumber (a.committed st fromBlock) < fromBlock ∨
      a.Fresh threshold (lastNumber (a.committed st fromBlock)))

/-- An empty stream from block zero, which is recent, passes for a sync. -/
def SyncsNothing : Prop :=
  fromBlock = 0 ∧ a.Fresh threshold 0 ∧
    ∃ fetched, a.fetchHistoricalLogs 0 = .ok fetched ∧ fetched.stream = [] ∧ fetched.errs = []

/-- `ErrNothingToSync` is an answer of `FetchHistoricalLogs` only: no error of its stream, of a
handler or of a header request matches it. -/
structure LabelsNothing : Prop where
  stream : ∀ n fetched, a.fetchHistoricalLogs n = .ok fetched →
    ∀ e ∈ fetched.errs, ¬ e.Is .nothingToSync
  handlers : ∀ n fetched, a.fetchHistoricalLogs n = .ok fetched →
    ∀ b ∈ fetched.stream, ∀ e, processLogs b.1 b.2 = .error e → ¬ e.Is .nothingToSync
  header : ∀ block e, a.headerTime block = .error e → ¬ e.Is .nothingToSync

end Attempt

open Classical in
/-- The try that ends the history sync, with the blocks committed before it. -/
noncomputable def lastTry (threshold offset : ℕ) (st : NodeStorage) :
    List Attempt → Option (List BlockLogs × Attempt)
  | [] => none
  | a :: rest =>
    if a.Ends threshold st (resumeBlock offset st) then some ([], a)
    else
      let blocks := a.committed st (resumeBlock offset st)
      (lastTry threshold offset (st.after blocks) rest).map fun x ↦ (blocks ++ x.1, x.2)

/-! ### One try -/

theorem processBlockEvents_cases (st : NodeStorage) (block : BlockLogs) (p : Processing) :
    (∃ e, processBlockEvents st block p = (st, .error e) ∧
      (e = .leaf .inferiorBlock ∨ processLogs block p = .error e)) ∨
      st.lastProcessedBlock.getD 0 < block.blockNumber ∧
        ∃ tasks, processBlockEvents st block p = (⟨some block.blockNumber⟩, .ok tasks) := by
  unfold processBlockEvents
  split
  · exact .inl ⟨_, rfl, .inl rfl⟩
  · next hlt =>
    cases processLogs block p with
    | error e => exact .inl ⟨e, rfl, .inr rfl⟩
    | ok tasks => exact .inr ⟨Nat.lt_of_not_le hlt, tasks, rfl⟩

/-- Only blocks above the stored one are committed. -/
theorem above_of_mem_handled {st : NodeStorage} {stream : List (BlockLogs × Processing)}
    {b : BlockLogs} (hb : b ∈ handled st stream) :
    st.lastProcessedBlock.getD 0 < b.blockNumber := by
  induction stream generalizing st with
  | nil => cases hb
  | cons head rest ih =>
    obtain ⟨block, p⟩ := head
    rcases processBlockEvents_cases st block p with ⟨e, he, -⟩ | ⟨hlt, tasks, hok⟩
    · simp [handled, he] at hb
    · rw [handled, hok] at hb
      rcases mem_cons.1 hb with rfl | hb
      · exact hlt
      · exact Nat.lt_trans hlt (ih hb)

/-- What walking a stream comes to, by the answers of the handlers. -/
theorem handleBlocks_answers (executeTasks : Bool) (r : StreamResult)
    (stream : List (BlockLogs × Processing)) (hr : r.err = none) :
    (handleBlocks executeTasks r stream).storage = r.storage.after (handled r.storage stream) ∧
    (handleBlocks executeTasks r stream).lastProcessedBlock =
      ((handled r.storage stream).getLast?.map (·.blockNumber)).getD r.lastProcessedBlock ∧
    (handleBlocks executeTasks r stream).progressed =
      (r.progressed || !(handled r.storage stream).isEmpty) ∧
    ((handleBlocks executeTasks r stream).err = none ↔
      handled r.storage stream = stream.map Prod.fst) ∧
    ∀ e ∈ (handleBlocks executeTasks r stream).err, e.Is .nothingToSync →
      ∃ b ∈ stream, ∃ e', processLogs b.1 b.2 = .error e' ∧ e'.Is .nothingToSync := by
  induction stream generalizing r with
  | nil =>
    refine ⟨rfl, rfl, (Bool.or_false _).symm, iff_of_true hr rfl, fun e he ↦ ?_⟩
    rw [handleBlocks, hr] at he
    cases he
  | cons head rest ih =>
    obtain ⟨block, p⟩ := head
    rcases processBlockEvents_cases r.storage block p with ⟨e, he, horigin⟩ | ⟨-, tasks, hok⟩
    · simp only [handleBlocks, handled, he]
      refine ⟨rfl, rfl, (Bool.or_false _).symm, by simp, ?_⟩
      rintro _ ⟨⟩ hnothing
      rcases horigin with rfl | hlogs
      · cases ErrorTree.is_wrap.1 hnothing
      · exact ⟨_, mem_cons_self, e, hlogs, hnothing⟩
    · simp only [handleBlocks, handled, hok]
      generalize hnext : StreamResult.mk _ _ _ _ _ = next
      obtain ⟨hstorage, hlast, hprogressed, herr, hnothing⟩ := ih next (by rw [← hnext])
      subst hnext
      refine ⟨?_, ?_, ?_, ?_, ?_⟩
      · exact hstorage.trans (r.storage.after_append [block] _).symm
      · rw [hlast, getLast?_cons]
        cases (handled _ rest).getLast? <;> rfl
      · simpa using hprogressed
      · simpa using herr
      · exact fun e he hn ↦ (hnothing e he hn).imp fun b hb ↦ ⟨mem_cons_of_mem _ hb.1, hb.2⟩

theorem foldl_add_eq_none {errs : List Err} {acc : Option Err} :
    errs.foldl (fun errs e ↦ some (ErrorTree.add errs e)) acc = none ↔ acc = none ∧ errs = [] := by
  induction errs generalizing acc with
  | nil => simp
  | cons e rest ih => simp [ih]

theorem is_foldl_add {errs : List Err} {acc : Option Err} {e : Err} {k : ErrKind}
    (he : errs.foldl (fun errs e ↦ some (ErrorTree.add errs e)) acc = some e) (hk : e.Is k) :
    (∃ e ∈ acc, e.Is k) ∨ ∃ e ∈ errs, e.Is k := by
  induction errs generalizing acc with
  | nil => exact .inl ⟨e, he, hk⟩
  | cons e rest ih =>
    rcases ih he with ⟨_, ⟨⟩, h⟩ | ⟨e', hmem, h⟩
    · exact (ErrorTree.is_add.1 h).imp_right fun h ↦ ⟨e, mem_cons_self, h⟩
    · exact .inr ⟨e', mem_cons_of_mem _ hmem, h⟩

section

variable (threshold : ℕ) (st : NodeStorage) (fromBlock : ℕ) (a : Attempt)

/-- What a try comes to, by what it meets. -/
theorem syncHistoryOnce_answers :
    (syncHistoryOnce threshold st fromBlock a).storage =
      st.after (a.committed st fromBlock) ∧
    (syncHistoryOnce threshold st fromBlock a).lastProcessedBlock =
      lastNumber (a.committed st fromBlock) ∧
    (syncHistoryOnce threshold st fromBlock a).progressed =
      !(a.committed st fromBlock).isEmpty := by
  unfold syncHistoryOnce Attempt.committed
  cases a.fetchHistoricalLogs fromBlock with
  | error =>
    dsimp only
    split
    · exact ⟨rfl, rfl, rfl⟩
    · exact ⟨rfl, rfl, rfl⟩
  | ok fetched =>
    obtain ⟨hstorage, hlast, hprogressed, -⟩ :=
      handleBlocks_answers false { storage := st } fetched.stream rfl
    dsimp only
    repeat' split
    all_goals exact ⟨hstorage, hlast, hprogressed⟩

theorem syncHistoryOnce_storage :
    (syncHistoryOnce threshold st fromBlock a).storage = st.after (a.committed st fromBlock) :=
  (syncHistoryOnce_answers threshold st fromBlock a).1

theorem syncHistoryOnce_number :
    (syncHistoryOnce threshold st fromBlock a).lastProcessedBlock =
      lastNumber (a.committed st fromBlock) :=
  (syncHistoryOnce_answers threshold st fromBlock a).2.1

/-- **The retry loop keeps its place.** If a try starts at the resume block, so does the next. -/
theorem nextBlock_syncHistoryOnce (offset : ℕ) :
    (syncHistoryOnce threshold st (resumeBlock offset st) a).nextBlock
        (resumeBlock offset st) =
      resumeBlock offset (st.after (a.committed st (resumeBlock offset st))) := by
  obtain ⟨-, hlast, hprogressed⟩ :=
    syncHistoryOnce_answers threshold st (resumeBlock offset st) a
  rw [AttemptResult.nextBlock, hlast, hprogressed]
  rcases eq_nil_or_concat (a.committed st (resumeBlock offset st)) with h | ⟨init, b, h⟩
  · simp [h, NodeStorage.after]
  · rw [h, NodeStorage.after, lastNumber]
    simp [resumeBlock]

theorem ensureBlockAboveThreshold_cases (hlabel : a.LabelsNothing) (block : ℕ) :
    (a.Fresh threshold block ∧
      ensureBlockAboveThreshold threshold a block = .ok ()) ∨
    ¬ a.Fresh threshold block ∧
      ∃ e, ensureBlockAboveThreshold threshold a block = .error e ∧
        ¬ e.Is .nothingToSync := by
  unfold ensureBlockAboveThreshold
  cases htime : a.headerTime block with
  | error e => exact .inr ⟨by simp [Attempt.Fresh, htime], _, rfl, hlabel.header block e htime⟩
  | ok time =>
    by_cases hold : time < a.now - threshold
    · refine .inr ⟨by simpa only [Attempt.Fresh, htime, Except.ok.injEq, exists_eq_left',
        Nat.not_le] using hold, _, if_pos hold, ?_⟩
      simp [Err.text]
    · exact .inl ⟨⟨time, htime, Nat.le_of_not_lt hold⟩, if_neg hold⟩

/-- A try that is neither answered with nothing nor completed leads to another, and so does a stale
one. -/
theorem Attempt.not_ends {fetched : Fetched}
    (hfetch : a.fetchHistoricalLogs fromBlock = .ok fetched)
    (h : ¬ a.Completes st fromBlock ∨ fromBlock ≤ lastNumber (a.committed st fromBlock) ∧
      ¬ a.Fresh threshold (lastNumber (a.committed st fromBlock))) :
    ¬ a.Ends threshold st fromBlock := by
  rintro (⟨e, he, -⟩ | ⟨hcompletes, hshort | hfresh⟩)
  · cases hfetch.symm.trans he
  · exact h.elim (· hcompletes) fun h ↦ absurd hshort (Nat.not_lt.2 h.1)
  · exact h.elim (· hcompletes) fun h ↦ h.2 hfresh

/-- The four ways a try can turn out. -/
theorem syncHistoryOnce_cases (hlabel : a.LabelsNothing) :
    (a.HasNothing fromBlock ∧ (syncHistoryOnce threshold st fromBlock a).retryable = false ∧
      (syncHistoryOnce threshold st fromBlock a).err = some (.leaf .nothingToSync)) ∨
    (a.Completes st fromBlock ∧ fromBlock ≤ lastNumber (a.committed st fromBlock) ∧
      a.Fresh threshold (lastNumber (a.committed st fromBlock)) ∧
      (syncHistoryOnce threshold st fromBlock a).err = none) ∨
    (∃ e, (syncHistoryOnce threshold st fromBlock a).err = some e ∧
        ¬ e.Is .nothingToSync) ∧
      ((¬ a.Ends threshold st fromBlock ∧
        (syncHistoryOnce threshold st fromBlock a).retryable = true) ∨
      a.Completes st fromBlock ∧ lastNumber (a.committed st fromBlock) < fromBlock ∧
        (syncHistoryOnce threshold st fromBlock a).retryable = false) := by
  unfold syncHistoryOnce
  cases hfetch : a.fetchHistoricalLogs fromBlock with
  | error e =>
    by_cases hnothing : e.Is .nothingToSync
    · exact .inl ⟨⟨e, hfetch, hnothing⟩, by simp [hnothing], by simp [hnothing]⟩
    · refine .inr (.inr ⟨by simp [hnothing], .inl ⟨?_, by simp [hnothing]⟩⟩)
      simp [Attempt.Ends, Attempt.HasNothing, Attempt.Completes, hfetch, hnothing]
  | ok fetched =>
    obtain ⟨-, hlast, -, herr, hnothing⟩ :=
      handleBlocks_answers false { storage := st } fetched.stream rfl
    have hnumber : (handleBlocks false { storage := st } fetched.stream).lastProcessedBlock =
        lastNumber (a.committed st fromBlock) := by
      rw [Attempt.committed, hfetch]
      exact hlast
    have hcompletes : a.Completes st fromBlock ↔ fetched.errs = [] ∧
        handled st fetched.stream = fetched.stream.map Prod.fst := by
      simp [Attempt.Completes, hfetch]
    have hends := a.not_ends threshold st fromBlock hfetch
    simp only [handleBlockEventsStream, hnumber]
    split
    · next e he =>
      refine .inr (.inr ⟨⟨_, rfl, fun h ↦ ?_⟩, .inl ⟨hends (.inl fun h ↦ ?_), rfl⟩⟩)
      · obtain ⟨b, hb, e', he', hn⟩ := hnothing e he h
        exact hlabel.handlers _ _ hfetch b hb e' he' hn
      · cases he.symm.trans (herr.2 (hcompletes.1 h).2)
    · next hhandled =>
      split
      · next e he =>
        refine .inr (.inr ⟨⟨_, rfl, fun h ↦ ?_⟩, .inl ⟨hends (.inl fun h ↦ ?_), rfl⟩⟩)
        · obtain ⟨_, ⟨⟩, -⟩ | ⟨e', he', hn⟩ := is_foldl_add he h
          exact hlabel.stream _ _ hfetch e' he' hn
        · cases he.symm.trans (foldl_add_eq_none.2 ⟨rfl, (hcompletes.1 h).1⟩)
      · next hjoined =>
        have hdone := hcompletes.2 ⟨(foldl_add_eq_none.1 hjoined).2, herr.1 hhandled⟩
        split
        · next hshort =>
          exact .inr (.inr ⟨⟨_, rfl, by simp [Err.text]⟩, .inr ⟨hdone, hshort, rfl⟩⟩)
        · next hlong =>
          have hle := Nat.le_of_not_lt hlong
          rcases ensureBlockAboveThreshold_cases threshold a hlabel
            (lastNumber (a.committed st fromBlock)) with ⟨hfresh, hok⟩ | ⟨hstale, e, he, hn⟩
          · rw [hok]
            exact .inr (.inl ⟨hdone, hle, hfresh, rfl⟩)
          · rw [he]
            exact .inr (.inr ⟨⟨e, rfl, hn⟩, .inl ⟨hends (.inr ⟨hle, hstale⟩), rfl⟩⟩)

end

/-! ### All tries -/

section

variable {threshold offset : ℕ} {st : NodeStorage} {attempts : List Attempt}

/-- Committing blocks above the stored one moves the storage, unless there are none. -/
theorem NodeStorage.lt_after {blocks : List BlockLogs}
    (h : ∀ b ∈ blocks, st.lastProcessedBlock.getD 0 < b.blockNumber) :
    blocks = [] ∨ st.lastProcessedBlock.getD 0 < (st.after blocks).lastProcessedBlock.getD 0 := by
  rcases eq_nil_or_concat blocks with rfl | ⟨init, b, rfl⟩
  · exact .inl rfl
  · exact .inr (by simpa [after] using h b (by simp))

theorem above_of_mem_committed {fromBlock : ℕ} {a : Attempt} {b : BlockLogs}
    (hb : b ∈ a.committed st fromBlock) : st.lastProcessedBlock.getD 0 < b.blockNumber := by
  unfold Attempt.committed at hb
  split at hb
  · cases hb
  · exact above_of_mem_handled hb

/-- A try that does not end the sync leads to the next, with another error. -/
theorem loop_of_not_ends {a : Attempt} (errs : Option Err) (attempts : List Attempt)
    (hlabel : a.LabelsNothing)
    (hends : ¬ a.Ends threshold st (resumeBlock offset st))
    (herrs : ∀ e ∈ errs, ¬ e.Is .nothingToSync) :
    ∃ errs' : Option Err, (∀ e ∈ errs', ¬ e.Is .nothingToSync) ∧
      syncHistoryLoop threshold st (resumeBlock offset st) errs (a :: attempts) =
        syncHistoryLoop threshold (st.after (a.committed st (resumeBlock offset st)))
          (resumeBlock offset (st.after (a.committed st (resumeBlock offset st)))) errs'
            attempts := by
  rcases syncHistoryOnce_cases threshold st (resumeBlock offset st) a hlabel with
    ⟨hnothing, -⟩ | ⟨hdone, -, hfresh, -⟩ | ⟨⟨e, he, hn⟩, ⟨-, hretry⟩ | ⟨hdone, hshort, -⟩⟩
  · exact absurd (.inl hnothing) hends
  · exact absurd (.inr ⟨hdone, .inr hfresh⟩) hends
  · rw [syncHistoryLoop, he]
    simp only [hretry, if_true, nextBlock_syncHistoryOnce, syncHistoryOnce_storage]
    refine ⟨_, ?_, rfl⟩
    rintro _ ⟨⟩ h
    rcases ErrorTree.is_add.1 h with ⟨e', he', h⟩ | h
    · exact herrs e' he' h
    · exact hn h
  · exact absurd (.inr ⟨hdone, .inl hshort⟩) hends

/-- The tries before the last lead to it with other errors. If no try is the last, the sync fails
with one. -/
theorem loop_lastTry (errs : Option Err) (hlabel : ∀ a ∈ attempts, a.LabelsNothing)
    (herrs : ∀ e ∈ errs, ¬ e.Is .nothingToSync) :
    (lastTry threshold offset st attempts = none ∧
      ∃ e, (syncHistoryLoop threshold st (resumeBlock offset st) errs attempts).2 = .error e ∧
        ¬ e.Is .nothingToSync) ∨
    ∃ blocks, ∃ a ∈ attempts, lastTry threshold offset st attempts = some (blocks, a) ∧
      a.Ends threshold (st.after blocks) (resumeBlock offset (st.after blocks)) ∧
      (∀ b ∈ blocks, st.lastProcessedBlock.getD 0 < b.blockNumber) ∧
      ∃ (errs' : Option Err) (rest : List Attempt), (∀ e ∈ errs', ¬ e.Is .nothingToSync) ∧
        syncHistoryLoop threshold st (resumeBlock offset st) errs attempts =
          syncHistoryLoop threshold (st.after blocks) (resumeBlock offset (st.after blocks)) errs'
            (a :: rest) := by
  induction attempts generalizing st errs with
  | nil =>
    refine .inl ⟨rfl, _, rfl, ?_⟩
    cases errs with
    | none => simp [syncError, Err.text]
    | some e => exact herrs e rfl
  | cons a rest ih =>
    by_cases hends : a.Ends threshold st (resumeBlock offset st)
    · exact .inr ⟨[], a, mem_cons_self, if_pos hends, hends, by simp, errs, rest, herrs, rfl⟩
    obtain ⟨errs₁, herrs₁, hloop⟩ :=
      loop_of_not_ends errs rest (hlabel a mem_cons_self) hends herrs
    rw [hloop, lastTry, if_neg hends]
    rcases ih errs₁ (fun a ha ↦ hlabel a (mem_cons_of_mem _ ha)) herrs₁ with
      ⟨hnone, hfails⟩ | ⟨blocks, a', hmem, hlast, hends', habove, hrest⟩
    · exact .inl ⟨congrArg (Option.map _) hnone, hfails⟩
    refine .inr ⟨_, a', mem_cons_of_mem _ hmem, congrArg (Option.map _) hlast, ?_⟩
    rw [NodeStorage.after_append, forall_mem_append]
    have hfirst := fun b ↦ @above_of_mem_committed st (resumeBlock offset st) a b
    refine ⟨hends', ⟨hfirst, fun b hb ↦ ?_⟩, hrest⟩
    rcases NodeStorage.lt_after hfirst with hnil | hlt
    · rw [hnil] at habove
      exact habove b hb
    · exact Nat.lt_trans hlt (habove b hb)

end

/-! ### Startup -/

section

variable {threshold offset : ℕ} {st storage : NodeStorage} {attempts : ℕ → Attempt}

theorem resumes_of_ok {n : ℕ}
    (h : syncHistory threshold st (resumeBlock offset st) attempts = (storage, .ok n)) :
    ResumesAfterPrefix threshold offset st attempts ↔ n + 1 = resumeBlock offset storage := by
  have hstart : syncContractEvents threshold offset st attempts = (storage, .ok (n + 1)) := by
    simp only [syncContractEvents, h]
  constructor
  · intro hresumes
    simpa [hstart] using hresumes.start
  · intro hblock
    refine ⟨fun block hb ↦ ?_, fun e he ↦ ?_⟩
    · rw [hstart] at hb ⊢
      cases hb
      exact hblock
    · rw [h] at he
      cases he

theorem resumes_of_error {e : Err}
    (h : syncHistory threshold st (resumeBlock offset st) attempts = (storage, .error e)) :
    ResumesAfterPrefix threshold offset st attempts ↔ (e.Is .nothingToSync → storage = st) := by
  constructor
  · intro hresumes hn
    simpa [h] using hresumes.nothing e (by rw [h]) hn
  · intro hsame
    refine ⟨fun block hb ↦ ?_, fun e' he hn ↦ ?_⟩
    · simp only [syncContractEvents, h] at hb ⊢
      split at hb
      · next hn =>
        cases hb
        rw [if_pos hn, hsame hn]
      · cases hb
    · rw [h] at he ⊢
      cases he
      exact hsame hn

namespace Attempt

variable {fromBlock : ℕ} {a : Attempt}

theorem HasNothing.rest (h : a.HasNothing fromBlock) (threshold : ℕ) (st : NodeStorage) :
    a.committed st fromBlock = [] ∧ ¬ a.SyncsNothing threshold fromBlock := by
  obtain ⟨e, he, -⟩ := h
  refine ⟨by rw [committed, he], ?_⟩
  rintro ⟨rfl, -, fetched, hok, -⟩
  cases he.symm.trans hok

theorem Completes.not_hasNothing (h : a.Completes st fromBlock) : ¬ a.HasNothing fromBlock := by
  rintro ⟨e, he, -⟩
  obtain ⟨fetched, hok, -⟩ := h
  cases he.symm.trans hok

/-- A successful try reports the block before the resume block exactly if it has committed a block.
-/
theorem Completes.resume_iff (h : a.Completes st fromBlock)
    (hle : fromBlock ≤ lastNumber (a.committed st fromBlock))
    (hfresh : a.Fresh threshold (lastNumber (a.committed st fromBlock)))
    (hfrom : fromBlock = resumeBlock offset st) :
    lastNumber (a.committed st fromBlock) + 1 = resumeBlock offset
      (st.after (a.committed st fromBlock)) ↔
      ¬ a.SyncsNothing threshold fromBlock := by
  obtain ⟨fetched, hfetch, herrs, hall⟩ := h
  have hcommitted : a.committed st fromBlock = fetched.stream.map Prod.fst := by
    simp only [committed, hfetch, hall]
  rw [hcommitted] at hle hfresh ⊢
  rcases eq_nil_or_concat fetched.stream with hnil | ⟨init, b, hcons⟩
  · rw [hnil] at hle hfresh ⊢
    obtain rfl : fromBlock = 0 := Nat.le_zero.1 hle
    refine iff_of_false (fun h ↦ ?_) (not_not.2 ⟨rfl, hfresh, fetched, hfetch, hnil, herrs⟩)
    cases h.trans hfrom.symm
  · refine iff_of_true (by simp [hcons, lastNumber, NodeStorage.after, resumeBlock]) ?_
    rintro ⟨rfl, -, fetched', hfetch', hnil, -⟩
    cases hfetch.symm.trans hfetch'
    simp [hcons] at hnil

end Attempt

/-- **Exactly when the ongoing sync resumes after the processed prefix.** The try that ends the
history sync finds the client without a block only if no try before it has committed one, and does
not take an empty stream from block zero for a sync. -/
theorem resumes_iff (threshold offset : ℕ) (st : NodeStorage) (attempts : ℕ → Attempt)
    (hlabel : ∀ i, (attempts i).LabelsNothing) :
    ResumesAfterPrefix threshold offset st attempts ↔
      ∀ blocks a, lastTry threshold offset st ((range maxTries).map attempts) = some (blocks, a) →
        (a.HasNothing (resumeBlock offset (st.after blocks)) → blocks = []) ∧
          ¬ a.SyncsNothing threshold (resumeBlock offset (st.after blocks)) := by
  have hlabels : ∀ a ∈ (range maxTries).map attempts, a.LabelsNothing := by
    simp only [mem_map]
    rintro _ ⟨i, -, rfl⟩
    exact hlabel i
  rcases loop_lastTry none hlabels (by simp) with
    ⟨hnone, e, he, hn⟩ | ⟨blocks, a, hmem, hlast, hends, habove, errs', rest, herrs, hloop⟩
  · rw [resumes_of_error (Prod.ext rfl he), hnone]
    exact iff_of_true (fun h ↦ absurd h hn) (by simp)
  rw [hlast]
  refine Iff.trans ?_ ⟨fun h _ _ hx ↦ ?_, fun h ↦ h blocks a rfl⟩
  rotate_left
  · cases hx
    exact h
  rw [syncHistoryLoop] at hloop
  rcases syncHistoryOnce_cases threshold (st.after blocks) (resumeBlock offset (st.after blocks)) a
    (hlabels a hmem) with
    ⟨hnothing, hretry, he⟩ | ⟨hdone, hle, hfresh, he⟩ | ⟨⟨e, he, hn⟩, ⟨hnot, -⟩ | hshort⟩
  · obtain ⟨hcommitted, hsyncs⟩ := hnothing.rest threshold (st.after blocks)
    simp only [he, hretry, syncHistoryOnce_storage, hcommitted] at hloop
    rw [resumes_of_error hloop]
    refine ⟨fun h ↦ ⟨fun _ ↦ ?_, hsyncs⟩, fun h _ ↦ ?_⟩
    · have hsame := h (ErrorTree.is_add.2 (.inr rfl))
      rcases NodeStorage.lt_after habove with hnil | hlt
      · exact hnil
      · exact absurd (hsame ▸ hlt) (Nat.lt_irrefl _)
    · rw [h.1 hnothing]
      rfl
  · simp only [he, syncHistoryOnce_storage, syncHistoryOnce_number] at hloop
    rw [resumes_of_ok hloop, hdone.resume_iff hle hfresh rfl]
    exact ⟨fun h ↦ ⟨fun hnothing ↦ absurd hnothing hdone.not_hasNothing, h⟩, fun h ↦ h.2⟩
  · exact absurd hends hnot
  · obtain ⟨hdone, hlt, hretry⟩ := hshort
    simp only [he, hretry] at hloop
    rw [resumes_of_error hloop]
    refine iff_of_true (fun h ↦ ?_) ⟨fun hnothing ↦ absurd hnothing hdone.not_hasNothing, ?_⟩
    · rcases ErrorTree.is_add.1 h with ⟨e', he', h⟩ | h
      · exact absurd h (herrs e' he')
      · exact absurd h hn
    · rintro ⟨hzero, -⟩
      rw [hzero] at hlt
      exact Nat.not_lt_zero _ hlt

end

namespace Reference

/-- As `staleClient`, but the second try is delivered block 106, which is recent. -/
def lateClient (i : ℕ) : Attempt where
  fetchHistoricalLogs _ := .ok { stream := [({ blockNumber := 105 + i, logs := [] }, {})] }
  headerTime block := .ok (if block ≤ 105 then 6400 else 9990)
  now := 10000 + i

/-- The sync that ends with block 106 resumes at block 107. -/
theorem resumes_iff_lateClient :
    (∀ i, (lateClient i).LabelsNothing) ∧
      lastTry 300 100 ⟨none⟩ ((range maxTries).map lateClient) = some ([⟨105, []⟩], lateClient 1) ∧
      ResumesAfterPrefix 300 100 ⟨none⟩ lateClient := by
  have hlabel (i : ℕ) : (lateClient i).LabelsNothing := by
    refine ⟨?_, ?_, by simp [lateClient]⟩
    · rintro n _ ⟨⟩ e ⟨⟩
    · rintro n _ ⟨⟩ b hb e he
      obtain rfl := mem_singleton.1 hb
      cases he
  have hfirst : ¬ (lateClient 0).Ends 300 ⟨none⟩ 100 := by
    rintro (⟨e, ⟨⟩, -⟩ | ⟨-, hshort | ⟨time, ⟨⟩, htime⟩⟩)
    · exact absurd hshort (by decide)
    · exact absurd htime (by decide)
  have hsecond : (lateClient 1).Ends 300 ⟨some 105⟩ 106 :=
    .inr ⟨⟨_, rfl, rfl, by decide⟩, .inr ⟨9990, rfl, by decide⟩⟩
  have hlast : lastTry 300 100 ⟨none⟩ ((range maxTries).map lateClient) =
      some ([⟨105, []⟩], lateClient 1) :=
    (if_neg hfirst).trans (congrArg (Option.map _) (if_pos hsecond))
  refine ⟨hlabel, hlast, (resumes_iff 300 100 ⟨none⟩ lateClient hlabel).2 fun blocks a h ↦ ?_⟩
  cases hlast.symm.trans h
  refine ⟨?_, ?_⟩
  · rintro ⟨e, ⟨⟩, -⟩
  · rintro ⟨⟨⟩, -⟩

end Reference

/-! ### A stale execution client -/

/-- The client has blocks up to 105, which is an hour old; the second try finds none after it. -/
def staleClient (i : ℕ) : Attempt where
  fetchHistoricalLogs fromBlock :=
    if fromBlock ≤ 105 then .ok { stream := [({ blockNumber := 105, logs := [] }, {})] }
    else .error (.leaf .nothingToSync)
  headerTime _ := .ok 6400
  now := 10000 + i

/-- **A sync that processed block 105 resumes at block 100.** -/
theorem staleClient_resumes_early :
    ∃ storage, syncContractEvents 300 100 { lastProcessedBlock := none } staleClient =
        (storage, .ok 100) ∧ storage.lastProcessedBlock = some 105 ∧
      ¬ ResumesAfterPrefix 300 100 { lastProcessedBlock := none } staleClient := by
  have hrun : syncContractEvents 300 100 { lastProcessedBlock := none } staleClient =
      ({ lastProcessedBlock := some 105 }, .ok 100) := by decide +kernel
  refine ⟨_, hrun, rfl, fun h ↦ ?_⟩
  have := h.start 100 (by rw [hrun])
  rw [hrun] at this
  exact absurd this (by decide)

end Ssv.Eth
