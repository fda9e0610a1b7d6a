import SsvNode.Eth.ExecutionClient
import SsvNode.Lib.Segments

/-!
# The contract's logs on a chain, and packing them

`Chain` has the contract's logs at every block. Query results may come in any order, mixed with
removed logs: `sortLogsCanonical` restores the order of the chain, and `packLogs` cuts it into
blocks, so that a batch sends a `Segment` of the chain (`Chain.segment_batchBlocks`).
-/

namespace Ssv.Eth

open List

/-! ### The canonical order -/

namespace Log

theorem not_less_self (a : Log) : ¬ Less a a := by
  simp [Less]

theorem Less.trans {a b c : Log} (hab : Less a b) (hbc : Less b c) : Less a c := by
  unfold Less at *
  grind

theorem NotAfter.trans {a b c : Log} (hab : NotAfter a b) (hbc : NotAfter b c) : NotAfter a c := by
  unfold NotAfter Less at *
  grind

theorem notAfter_total (a b : Log) : NotAfter a b ∨ NotAfter b a := by
  unfold NotAfter Less
  grind

instance : Std.Total NotAfter := ⟨notAfter_total⟩

instance : IsTrans Log NotAfter := ⟨fun _ _ _ ↦ NotAfter.trans⟩

instance : Std.Irrefl Less := ⟨not_less_self⟩

instance : Std.Antisymm Less := ⟨fun a _ h h' ↦ absurd (h.trans h') (not_less_self a)⟩

theorem Less.notAfter {a b : Log} (h : Less a b) : NotAfter a b :=
  fun h' ↦ not_less_self a (h.trans h')

theorem less_of_blockNumber_lt {a b : Log} (h : a.blockNumber < b.blockNumber) : Less a b := by
  rw [Less, if_pos (Nat.ne_of_lt h)]
  exact h

theorem NotAfter.blockNumber_le {a b : Log} (h : NotAfter a b) : a.blockNumber ≤ b.blockNumber :=
  Nat.le_of_not_lt fun hlt ↦ h (less_of_blockNumber_lt hlt)

end Log

/-! ### Chains -/

/-- The logs of the contract, block by block. -/
structure Chain where
  logs : ℕ → List Log
  own : ∀ n, ∀ log ∈ logs n, log.blockNumber = n
  /-- In the order of transactions and of logs in a transaction. -/
  ordered : ∀ n, (logs n).Pairwise Log.Less

namespace Chain

variable (chain : Chain)

def logsBetween (fromBlock toBlock : ℕ) : List Log :=
  (List.range' fromBlock (toBlock + 1 - fromBlock)).flatMap chain.logs

variable {chain} {a b : ℕ}

theorem mem_logsBetween {log : Log} :
    log ∈ chain.logsBetween a b ↔
      a ≤ log.blockNumber ∧ log.blockNumber ≤ b ∧ log ∈ chain.logs log.blockNumber := by
  rw [logsBetween, mem_flatMap]
  constructor
  · rintro ⟨n, hn, hlog⟩
    obtain rfl := chain.own n log hlog
    rw [mem_range'_1] at hn
    exact ⟨hn.1, by omega, hlog⟩
  · rintro ⟨ha, hb, hlog⟩
    exact ⟨log.blockNumber, mem_range'_1.2 ⟨ha, by omega⟩, hlog⟩

theorem logsBetween_ordered : (chain.logsBetween a b).Pairwise Log.Less := by
  refine pairwise_flatMap.2 ⟨fun n _ ↦ chain.ordered n, ?_⟩
  refine (pairwise_lt_range' (s := a) (n := b + 1 - a)).imp fun {m n} hmn x hx y hy ↦ ?_
  apply Log.less_of_blockNumber_lt
  rw [chain.own m x hx, chain.own n y hy]
  exact hmn

theorem eq_of_notAfter {x y : Log} (hx : x ∈ chain.logsBetween a b)
    (hy : y ∈ chain.logsBetween a b) (hxy : Log.NotAfter x y) (hyx : Log.NotAfter y x) : x = y := by
  let Comparable (x y : Log) : Prop := x = y ∨ Log.Less x y ∨ Log.Less y x
  have : Std.Symm Comparable := ⟨fun x y h ↦ by
    rcases h with h | h | h
    · exact .inl h.symm
    · exact .inr (.inr h)
    · exact .inr (.inl h)⟩
  have h : Comparable x y := List.Pairwise.forall_of_forall (R := Comparable) (fun _ _ ↦ .inl rfl)
    (logsBetween_ordered.imp fun h ↦ .inr (.inl h)) hx hy
  rcases h with h | h | h
  · exact h
  · exact absurd h hyx
  · exact absurd h hxy

/-- **Sorting restores the order of the chain.** -/
theorem sortLogsCanonical_eq {logs : List Log} (h : logs.Perm (chain.logsBetween a b)) :
    sortLogsCanonical logs = chain.logsBetween a b := by
  have hperm : (sortLogsCanonical logs).Perm (chain.logsBetween a b) :=
    (perm_insertionSort _ logs).trans h
  refine List.Perm.eq_of_pairwise (fun x y hx hy hxy hyx ↦ ?_)
    (pairwise_insertionSort Log.NotAfter logs)
    (logsBetween_ordered.imp Log.Less.notAfter) hperm
  exact eq_of_notAfter (hperm.subset hx) hy hxy hyx

end Chain

/-! ### Packing -/

def logsAt (logs : List Log) (n : ℕ) : List Log := logs.filter fun log ↦ log.blockNumber = n

theorem Chain.logsAt_logsBetween {chain : Chain} {a b n : ℕ} (ha : a ≤ n) (hb : n ≤ b) :
    logsAt (chain.logsBetween a b) n = chain.logs n := by
  refine List.Pairwise.eq_of_mem_iff (logsBetween_ordered.filter _) (chain.ordered n) fun log ↦ ?_
  rw [logsAt, mem_filter, mem_logsBetween, decide_eq_true_iff]
  constructor
  · rintro ⟨⟨-, -, hlog⟩, rfl⟩
    exact hlog
  · intro hlog
    obtain rfl := chain.own n log hlog
    exact ⟨⟨ha, hb, hlog⟩, rfl⟩

theorem logsAt_concat_self (logs : List Log) (log : Log) :
    logsAt (logs ++ [log]) log.blockNumber = logsAt logs log.blockNumber ++ [log] := by
  simp [logsAt]

variable {logs : List Log}

theorem logsAt_concat_of_ne {log : Log} {n : ℕ} (h : log.blockNumber ≠ n) :
    logsAt (logs ++ [log]) n = logsAt logs n := by
  simp [logsAt, h]

theorem logsAt_eq_nil {n : ℕ} (h : ∀ log ∈ logs, log.blockNumber ≠ n) :
    logsAt logs n = [] := by
  simpa [logsAt] using h

/-- A list of blocks that delivers what `logs` holds on `[a, b)`. -/
abbrev BlockSegment (logs : ℕ → List Log) (a b : ℕ) (blocks : List BlockLogs) : Prop :=
  Segment logs BlockLogs.blockNumber BlockLogs.logs a b blocks

def blockAfter (all : List BlockLogs) : ℕ := (all.getLast?.map fun e ↦ e.blockNumber + 1).getD 0

theorem blockAfter_concat (all : List BlockLogs) (e : BlockLogs) :
    blockAfter (all ++ [e]) = e.blockNumber + 1 := by
  rw [blockAfter, getLast?_concat]
  rfl

/-- The logs so far are packed, none is after the last entry, and no entry is without a log. -/
structure Packed (logs : List Log) (all : List BlockLogs) : Prop where
  segment : BlockSegment (logsAt logs) 0 (blockAfter all) all
  below : ∀ log ∈ logs, log.blockNumber < blockAfter all
  nonempty : ∀ e ∈ all, e.logs ≠ []

namespace Packed

variable {logs : List Log} {all : List BlockLogs} {log : Log}

theorem nil : Packed [] [] := ⟨Segment.empty, by simp, by simp⟩

theorem concat (body : List Log) (hbefore : BlockSegment (logsAt logs) 0 log.blockNumber all)
    (hbelow : ∀ x ∈ logs, x.blockNumber ≤ log.blockNumber) (hnonempty : ∀ e ∈ all, e.logs ≠ [])
    (hbody : body = logsAt logs log.blockNumber) :
    Packed (logs ++ [log])
      (all ++ [{ blockNumber := log.blockNumber, logs := body ++ [log] }]) := by
  have hsingle : BlockSegment (logsAt (logs ++ [log])) log.blockNumber (log.blockNumber + 1)
      [{ blockNumber := log.blockNumber, logs := body ++ [log] }] :=
    Segment.single (BlockLogs.mk log.blockNumber (body ++ [log]))
      (by rw [hbody]; exact (logsAt_concat_self logs log).symm)
  refine ⟨?_, fun x hx ↦ ?_, fun e he ↦ ?_⟩
  · rw [blockAfter_concat]
    -- below its block, the log changes nothing
    have hfirst := hbefore.congr fun _ _ hn ↦ logsAt_concat_of_ne (Nat.ne_of_gt hn)
    exact hfirst.append hsingle (Nat.zero_le _) (Nat.le_succ _)
  · rw [blockAfter_concat]
    rcases mem_append.1 hx with hx | hx
    · exact Nat.lt_succ_of_le (hbelow x hx)
    · rw [mem_singleton.1 hx]
      exact Nat.lt_succ_self _
  · rcases mem_append.1 he with he | he
    · exact hnonempty e he
    · rw [mem_singleton.1 he]
      exact append_ne_nil_of_right_ne_nil _ (cons_ne_nil _ _)

theorem new (h : Packed logs all) (hafter : blockAfter all ≤ log.blockNumber) :
    Packed (logs ++ [log]) (all ++ [{ blockNumber := log.blockNumber, logs := [log] }]) := by
  have hnone : ∀ n, blockAfter all ≤ n → logsAt logs n = [] := fun n hn ↦
    logsAt_eq_nil fun x hx ↦ Nat.ne_of_lt (Nat.lt_of_lt_of_le (h.below x hx) hn)
  exact concat []
    (h.segment.extend (Nat.zero_le _) hafter fun n hn _ ↦ hnone n hn)
    (fun x hx ↦ Nat.le_of_lt (Nat.lt_of_lt_of_le (h.below x hx) hafter)) h.nonempty
    (hnone _ hafter).symm

theorem extend {init : List BlockLogs} {last : BlockLogs} (h : Packed logs (init ++ [last]))
    (hlast : last.blockNumber = log.blockNumber) :
    Packed (logs ++ [log]) (init ++ [{ last with logs := last.logs ++ [log] }]) := by
  have hown := h.segment.own last (mem_append_right init (.head _))
  have hbelow := h.below
  rw [blockAfter_concat, hlast] at hbelow
  rw [hlast] at hown ⊢
  exact concat _ (hlast ▸ h.segment.before last []) (fun x hx ↦ Nat.le_of_lt_succ (hbelow x hx))
    (fun e he ↦ h.nonempty e (mem_append_left _ he)) hown

theorem packLog (h : Packed logs all) (hlog : blockAfter all ≤ log.blockNumber + 1) :
    Packed (logs ++ [log]) (packLog all log) := by
  rcases eq_nil_or_concat all with rfl | ⟨init, last, rfl⟩
  · exact h.new (Nat.zero_le _)
  · rw [concat_eq_append] at h hlog ⊢
    have hpack : Eth.packLog (init ++ [last]) log =
        if last.blockNumber = log.blockNumber then
          init ++ [{ last with logs := last.logs ++ [log] }]
        else init ++ [last] ++ [{ blockNumber := log.blockNumber, logs := [log] }] := by
      simp only [Eth.packLog, getLast?_concat, dropLast_concat]
    rw [hpack]
    by_cases hlast : last.blockNumber = log.blockNumber
    · rw [if_pos hlast]
      exact h.extend hlast
    · rw [if_neg hlast]
      rw [blockAfter_concat] at hlog
      exact h.new (by rw [blockAfter_concat]; omega)

theorem blockAfter_packLog : blockAfter (Eth.packLog all log) = log.blockNumber + 1 := by
  unfold Eth.packLog
  split
  · rfl
  · split
    · next hlast => rw [blockAfter_concat, ← hlast]
    · exact blockAfter_concat _ _

theorem foldl_packLog {rest : List Log} (h : Packed logs all)
    (hrest : rest.Pairwise fun x y ↦ x.blockNumber ≤ y.blockNumber)
    (hafter : ∀ x ∈ rest, blockAfter all ≤ x.blockNumber + 1) :
    Packed (logs ++ rest) (rest.foldl Eth.packLog all) := by
  induction rest generalizing logs all with
  | nil => rwa [append_nil]
  | cons log rest ih =>
    have hnext := ih (h.packLog (hafter log (.head _))) (pairwise_cons.1 hrest).2 fun x hx ↦ by
        rw [blockAfter_packLog]
        exact Nat.succ_le_succ ((pairwise_cons.1 hrest).1 x hx)
    rwa [append_assoc, singleton_append] at hnext

end Packed

namespace Chain

variable {chain : Chain} {a b : ℕ}

/-- **Packing the logs of a range**, in whatever order they came, delivers the range. -/
theorem segment_packLogs (h : logs.Perm (chain.logsBetween a b)) :
    BlockSegment chain.logs a (b + 1) (packLogs logs) := by
  have hpacked : Packed (chain.logsBetween a b) (packLogs logs) := by
    rw [packLogs, sortLogsCanonical_eq h]
    exact Packed.nil.foldl_packLog
      (logsBetween_ordered.imp fun h ↦ (Log.Less.notAfter h).blockNumber_le)
      fun x _ ↦ Nat.zero_le _
  -- an entry has a log, and so a number of the range
  have hwithin : ∀ e ∈ packLogs logs, a ≤ e.blockNumber ∧ e.blockNumber ≤ b := by
    intro e he
    have hne := hpacked.nonempty e he
    rw [hpacked.segment.own e he] at hne
    obtain ⟨log, hlog⟩ := exists_mem_of_ne_nil _ hne
    obtain ⟨hmem, hnum⟩ := mem_filter.1 hlog
    rw [decide_eq_true_iff] at hnum
    have hbetween := mem_logsBetween.1 hmem
    omega
  refine ⟨hpacked.segment.increasing, fun e he ↦ ?_, fun e he ↦ ?_, fun n ha hb hne ↦ ?_⟩
  · exact ⟨(hwithin e he).1, Nat.lt_succ_of_le (hwithin e he).2⟩
  · rw [hpacked.segment.own e he, logsAt_logsBetween (hwithin e he).1 (hwithin e he).2]
  · obtain ⟨log, hlog⟩ := exists_mem_of_ne_nil _ hne
    obtain rfl := chain.own n log hlog
    refine hpacked.segment.complete _ (Nat.zero_le _) (hpacked.below log ?_) ?_
    · exact mem_logsBetween.2 ⟨ha, Nat.le_of_lt_succ hb, hlog⟩
    · rwa [logsAt_logsBetween ha (Nat.le_of_lt_succ hb)]

theorem le_highestBlock (blocks : List BlockLogs) (highest : ℕ) :
    highest ≤ blocks.foldl (fun highest b ↦ max highest b.blockNumber) highest ∧
      ∀ e ∈ blocks,
        e.blockNumber ≤ blocks.foldl (fun highest b ↦ max highest b.blockNumber) highest := by
  induction blocks generalizing highest with
  | nil => exact ⟨Nat.le_refl _, fun e he ↦ nomatch he⟩
  | cons b rest ih =>
    obtain ⟨hle, hrest⟩ := ih (max highest b.blockNumber)
    rw [foldl_cons]
    refine ⟨Nat.le_trans (Nat.le_max_left _ _) hle, fun e he ↦ ?_⟩
    rcases mem_cons.1 he with rfl | he
    · exact Nat.le_trans (Nat.le_max_right _ _) hle
    · exact hrest e he

/-- **What a batch sends delivers its range**: an empty block marks where the chain has no logs. -/
theorem segment_batchBlocks {results : List Log} (hab : a ≤ b)
    (h : (results.filter fun log ↦ !log.removed).Perm (chain.logsBetween a b)) :
    BlockSegment chain.logs a (b + 1) (ExecutionClient.batchBlocks results b) := by
  have hsegment := segment_packLogs h
  unfold ExecutionClient.batchBlocks
  simp only
  split
  · next hlt =>
    have hbelow : ∀ e ∈ packLogs (results.filter fun log ↦ !log.removed), e.blockNumber < b :=
      fun e he ↦ Nat.lt_of_le_of_lt ((le_highestBlock _ _).2 e he) hlt
    have hnone : chain.logs b = [] := by
      by_contra hne
      obtain ⟨e, he, hnum⟩ := hsegment.complete b hab (Nat.lt_succ_self b) hne
      exact absurd hnum (Nat.ne_of_lt (hbelow e he))
    have hbefore : BlockSegment chain.logs a b (packLogs (results.filter fun log ↦ !log.removed)) :=
      ⟨hsegment.increasing, fun e he ↦ ⟨(hsegment.within e he).1, hbelow e he⟩, hsegment.own,
        fun n hn hb ↦ hsegment.complete n hn (Nat.lt_succ_of_lt hb)⟩
    exact hbefore.append (Segment.single (BlockLogs.mk b []) hnone.symm) hab (Nat.le_succ b)
  · exact hsegment

end Chain

end Ssv.Eth
