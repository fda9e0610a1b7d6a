import SsvNode.Eth.Chain

/-!
# The log stream has no gaps

What `StreamLogs` has sent is always a `Segment` of the chain from the start block, and the block
from which it goes on is the segment's end, **unless the context is done**: a cancelled fetch ends
without an error and its range counts as streamed, but nothing is sent any more.
-/

namespace Ssv.Eth

open Act List

/-- A context that is done stays so, a `select` sees it, and queries are answered from the chain. -/
structure Env.Lawful (env : Env) (chain : Chain) : Prop where
  ctxDone_mono : ∀ {t t'}, t ≤ t' → env.ctxDone t = true → env.ctxDone t' = true
  gate_go : ∀ {client t}, env.gate client t = .go → env.ctxDone t = false
  gate_ctxDone : ∀ {client t}, env.gate client t = .ctxDone → env.ctxDone (t + 1) = true
  /-- A query returns the logs of its range, in any order, perhaps with removed ones. -/
  filterLogs_ok : ∀ {client t a b logs}, a ≤ b → env.filterLogs client t a b = .ok logs →
    (logs.filter fun log ↦ !log.removed).Perm (chain.logsBetween a b)
  /-- A query is cancelled only with the stream. -/
  filterLogs_canceled : ∀ {client t a b e}, env.filterLogs client t a b = .error e →
    e.Is .canceled → env.ctxDone (t + 1) = true

theorem wp_ask_bind {α β : Type} {answer : ℕ → α} {f : α → StreamAct β}
    {Q : ℕ → List BlockLogs → Except Err β → Prop} {t : ℕ} :
    (ask answer >>= f).wp Q t ↔ (f (answer t)).wp Q (t + 1) := Iff.rfl

namespace ExecutionClient

variable {env : Env} {chain : Chain} {client : ℕ}

/-! ### Fetching a range -/

/-- A fetch returns the logs from `a` to `b` or an error, which says cancelled only if the context
is done. -/
def Fetches (env : Env) (chain : Chain) (a b t : ℕ) (t' : ℕ) (sent : List BlockLogs)
    (r : Except Err (List Log)) : Prop :=
  sent = [] ∧ t < t' ∧
    match r with
    | .ok logs => (logs.filter fun log ↦ !log.removed).Perm (chain.logsBetween a b)
    | .error e => e.Is .canceled → env.ctxDone t' = true

variable {a b t : ℕ} {verifyBloom : Bool}

theorem filterLogs_spec (h : env.Lawful chain) (hab : a ≤ b) (t : ℕ) :
    (filterLogs env client a b).wp (Fetches env chain a b t) t := by
  rw [filterLogs, wp_ask_bind]
  cases hlogs : env.filterLogs client t a b with
  | ok => exact ⟨rfl, Nat.lt_succ_self t, h.filterLogs_ok hab hlogs⟩
  | error => exact ⟨rfl, Nat.lt_succ_self t, fun he ↦ h.filterLogs_canceled hlogs he⟩

theorem logsBetween_split {m : ℕ} (ham : a ≤ m) (hmb : m < b) :
    chain.logsBetween a b = chain.logsBetween a m ++ chain.logsBetween (m + 1) b := by
  unfold Chain.logsBetween
  rw [← flatMap_append]
  have happend := range'_append_1 (s := a) (m := m + 1 - a) (n := b + 1 - (m + 1))
  rw [show a + (m + 1 - a) = m + 1 by omega,
    show m + 1 - a + (b + 1 - (m + 1)) = b + 1 - a by omega] at happend
  rw [happend]

/-- A fetch that also fails when the context is done at its beginning. -/
def FetchesLive (env : Env) (chain : Chain) (a b t : ℕ) (t' : ℕ) (sent : List BlockLogs)
    (r : Except Err (List Log)) : Prop :=
  Fetches env chain a b t t' sent r ∧ (env.ctxDone t = true → ∃ e, r = .error e)

/-- The query itself is right or fails; what is left are the halves. -/
theorem fetchOrSubdivide_spec (h : env.Lawful chain) {halves : ℕ → StreamAct (List Log)}
    (hab : a ≤ b) (t : ℕ)
    (hhalves : a < b → ∀ t₁, t < t₁ → (halves (a + (b - a) / 2)).wp (Fetches env chain a b t) t₁) :
    (fetchOrSubdivide env client halves a b).wp (FetchesLive env chain a b t) t := by
  rw [fetchOrSubdivide, wp_ask_bind]
  cases hgate : env.gate client t with
  | ctxDone => exact ⟨⟨rfl, Nat.lt_succ_self t, fun _ ↦ h.gate_ctxDone hgate⟩, fun _ ↦ ⟨_, rfl⟩⟩
  | closed => exact ⟨⟨rfl, Nat.lt_succ_self t, nofun⟩, fun _ ↦ ⟨_, rfl⟩⟩
  | go =>
    have hgo : env.ctxDone t ≠ true := by simp [h.gate_go hgate]
    refine wp_attempt_bind.2 (wp_mono (filterLogs_spec h hab (t + 1)) ?_)
    rintro t₁ _ (e | logs) ⟨rfl, ht₁, hr⟩
    · have herr : Fetches env chain a b t t₁ [] (.error e) := ⟨rfl, Nat.lt_of_succ_lt ht₁, hr⟩
      simp only
      split
      · split
        · exact ⟨herr, fun hd ↦ absurd hd hgo⟩
        · next hlt =>
          exact wp_mono (hhalves (Nat.lt_of_not_le hlt) t₁ (Nat.lt_of_succ_lt ht₁))
            fun _ _ _ hf ↦ ⟨hf, fun hd ↦ absurd hd hgo⟩
      · exact ⟨herr, fun hd ↦ absurd hd hgo⟩
    · exact ⟨⟨rfl, Nat.lt_of_succ_lt ht₁, hr⟩, fun hd ↦ absurd hd hgo⟩

/-- **Subdivision returns the logs of the whole range**, however often it divides. -/
theorem subdivideLogFetch_spec (h : env.Lawful chain) {depth : ℕ} (hab : a ≤ b)
    (hdepth : b - a ≤ depth) (t : ℕ) :
    (subdivideLogFetch env client depth a b).wp (FetchesLive env chain a b t) t := by
  induction depth generalizing a b t with
  | zero => exact fetchOrSubdivide_spec h hab t fun hlt ↦ by omega
  | succ depth ih =>
    refine fetchOrSubdivide_spec h hab t fun hlt t₁ ht₁ ↦ ?_
    -- the halves are queried in turn; an error of either is the error of the whole
    refine wp_seq (ih (by omega) (by omega) t₁) ?_ ?_
    · rintro t₂ _ e ⟨⟨rfl, ht₂, he⟩, -⟩
      exact ⟨rfl, by omega, he⟩
    · rintro t₂ _ left ⟨⟨rfl, ht₂, hleft⟩, -⟩
      refine wp_seq (ih (by omega) (by omega) t₂) ?_ ?_
      · rintro t₃ _ e ⟨⟨rfl, ht₃, he⟩, -⟩
        exact ⟨rfl, by omega, he⟩
      · rintro t₃ _ right ⟨⟨rfl, ht₃, hright⟩, -⟩
        refine wp_pure.2 ⟨rfl, by omega, ?_⟩
        have hmid : a + (b - a) / 2 < b := by omega
        rw [logsBetween_split (Nat.le_add_right a _) hmid]
        simpa only [filter_append] using hleft.append hright

/-! ### The second look at blocks without logs -/

/-- What an action that only queries does. -/
def Queries {α : Type} (t : ℕ) (P : α → Prop) (t' : ℕ) (sent : List BlockLogs)
    (r : Except Err α) : Prop :=
  sent = [] ∧ t ≤ t' ∧ ∀ a, r = .ok a → P a

/-- Logs that are not of the chain. -/
def AllRemoved (logs : List Log) : Prop := (logs.filter fun log ↦ !log.removed) = []

theorem retryQuery_spec (h : env.Lawful chain) {n : ℕ} (hn : chain.logs n = []) {attempts t t₀ : ℕ}
    (ih : ∀ t₁, (retryBlockLogsFrom env client n attempts false).wp (Queries t₁ AllRemoved) t₁)
    (ht₀ : t ≤ t₀) :
    ((filterLogs env client n n).attempt >>= fun r ↦ match r with
      | .error e =>
        if attempts = 0 then fail (.wrap ("bloom retry: filter logs for block " ++ toString n) e)
        else retryBlockLogsFrom env client n attempts false
      | .ok logs =>
        if logs.isEmpty then retryBlockLogsFrom env client n attempts false
        else return logs).wp (Queries t AllRemoved) t₀ := by
  refine wp_attempt_bind.2 (wp_mono (filterLogs_spec h (Nat.le_refl n) t₀) ?_)
  rintro t₁ _ r ⟨rfl, ht₁, hr⟩
  have hagain : (retryBlockLogsFrom env client n attempts false).wp (Queries t AllRemoved) t₁ := by
    refine wp_mono (ih t₁) ?_
    rintro t₂ es r ⟨hes, ht₂, hr⟩
    exact ⟨hes, by omega, hr⟩
  cases r with
  | error =>
    simp only
    split
    · exact wp_fail.2 ⟨rfl, by omega, by simp⟩
    · exact hagain
  | ok =>
    simp only
    split
    · exact hagain
    · refine wp_pure.2 ⟨rfl, by omega, ?_⟩
      rintro _ ⟨⟩
      have hnone : chain.logsBetween n n = [] := by simp [Chain.logsBetween, hn]
      rw [hnone] at hr
      exact hr.eq_nil

theorem retryBlockLogsFrom_spec (h : env.Lawful chain) {n : ℕ} (hn : chain.logs n = [])
    (attempts : ℕ) (first : Bool) (t : ℕ) :
    (retryBlockLogsFrom env client n attempts first).wp (Queries t AllRemoved) t := by
  induction attempts generalizing first t with
  | zero =>
    refine ⟨rfl, Nat.le_refl t, ?_⟩
    rintro _ ⟨⟩
    rfl
  | succ attempts ih =>
    cases first with
    | true => exact retryQuery_spec h hn (ih false) (Nat.le_refl t)
    | false =>
      change (ask (env.retryGate client) >>= _).wp _ t
      rw [wp_ask_bind]
      cases env.retryGate client t with
      | ctxDone | closed => exact wp_fail.2 ⟨rfl, Nat.le_succ t, by simp⟩
      | go => exact retryQuery_spec h hn (ih false) (Nat.le_succ t)

theorem Queries.mono {α : Type} {P P' : α → Prop} {t₀ t' : ℕ} {sent : List BlockLogs}
    {r : Except Err α} (hq : Queries t P t' sent r) (ht : t₀ ≤ t) (hP : ∀ a, P a → P' a) :
    Queries t₀ P' t' sent r :=
  ⟨hq.1, Nat.le_trans ht hq.2.1, fun a ha ↦ hP a (hq.2.2 a ha)⟩

theorem queries_bind {α β : Type} {x : StreamAct α} {f : α → StreamAct β} {P : α → Prop}
    {P' : β → Prop} {t₀ : ℕ} (g : Err → Err) (hx : x.wp (Queries t P) t₀)
    (hf : ∀ a t', P a → t ≤ t' → (f a).wp (Queries t P') t') :
    (x.mapError g >>= f).wp (Queries t P') t₀ := by
  refine wp_seq (P := Queries t P) (wp_mapError.2 (wp_mono hx ?_)) ?_ ?_
  · rintro t' es (e | a) ⟨hes, ht, hr⟩
    · exact ⟨hes, ht, nofun⟩
    · exact ⟨hes, ht, hr⟩
  · rintro t' es e ⟨hes, ht, -⟩
    exact ⟨hes, ht, nofun⟩
  · rintro t' es a ⟨rfl, ht, hr⟩
    exact hf a t' (hr a rfl) ht

theorem headerByNumber_spec (n t : ℕ) :
    (headerByNumber env client n).wp (Queries t fun _ ↦ True) t := by
  rw [headerByNumber, wp_ask_bind]
  cases env.headerBloom client t n with
  | ok => exact ⟨rfl, Nat.le_succ t, fun _ _ ↦ trivial⟩
  | error => exact ⟨rfl, Nat.le_succ t, nofun⟩

/-- The blocks looked at again have no logs. -/
theorem recoverLogs_spec (h : env.Lawful chain) {known blocks : List ℕ}
    (hblocks : ∀ n ∈ blocks, n ∉ known → chain.logs n = []) (t : ℕ) :
    (recoverLogs env client known blocks).wp (Queries t AllRemoved) t := by
  induction blocks generalizing t with
  | nil =>
    refine ⟨rfl, Nat.le_refl t, ?_⟩
    rintro _ ⟨⟩
    rfl
  | cons n rest ih =>
    have hrest : ∀ t', t ≤ t' →
        (recoverLogs env client known rest).wp (Queries t AllRemoved) t' := fun t' ht ↦
      wp_mono (ih (fun m hm ↦ hblocks m (.tail _ hm)) t') fun _ _ _ hq ↦ hq.mono ht fun _ ↦ id
    rw [recoverLogs]
    split
    · exact hrest t (Nat.le_refl t)
    · next hn =>
      refine queries_bind _ (headerByNumber_spec n t) fun bloom t₁ _ ht₁ ↦ ?_
      split
      · have hretry : (retryBlockLogs env client n).wp (Queries t AllRemoved) t₁ :=
          wp_mono (retryBlockLogsFrom_spec h (hblocks n (.head _) hn) _ _ t₁)
            fun _ _ _ hq ↦ hq.mono ht₁ fun _ ↦ id
        refine queries_bind _ hretry fun logs t₂ hlogs ht₂ ↦ ?_
        refine wp_seq (hrest t₂ ht₂) ?_ ?_
        · rintro t₃ es e ⟨hes, ht₃, -⟩
          exact ⟨hes, ht₃, nofun⟩
        · rintro t₃ es logs' ⟨rfl, ht₃, hr⟩
          refine wp_pure.2 ⟨rfl, ht₃, ?_⟩
          rintro _ ⟨⟩
          rw [AllRemoved, filter_append, hlogs, hr logs' rfl, append_nil]
      · exact hrest t₁ ht₁

/-- **The second look changes nothing**: the query had returned everything there is. -/
theorem verifyLogsWithBloom_spec (h : env.Lawful chain) {results : List Log}
    (hresults : (results.filter fun log ↦ !log.removed).Perm (chain.logsBetween a b)) (t : ℕ) :
    (verifyLogsWithBloom env client results a b).wp (Queries t fun logs ↦
      (logs.filter fun log ↦ !log.removed).Perm (chain.logsBetween a b)) t := by
  have hblocks : ∀ n ∈ range' a (b + 1 - a), n ∉ results.map (·.blockNumber) →
      chain.logs n = [] := by
    intro n hn hknown
    rw [mem_range'_1] at hn
    by_contra hne
    obtain ⟨log, hlog⟩ := exists_mem_of_ne_nil _ hne
    obtain rfl := chain.own n log hlog
    have hmem : log ∈ chain.logsBetween a b := Chain.mem_logsBetween.2 ⟨hn.1, by omega, hlog⟩
    exact hknown (mem_map_of_mem (mem_filter.1 (hresults.mem_iff.2 hmem)).1)
  refine wp_seq (recoverLogs_spec h hblocks t) ?_ ?_
  · rintro t' es e ⟨hes, ht, -⟩
    exact ⟨hes, ht, nofun⟩
  · rintro t' es recovered ⟨rfl, ht, hr⟩
    split
    · refine ⟨rfl, ht, ?_⟩
      rintro _ ⟨⟩
      exact hresults
    · refine ⟨rfl, ht, ?_⟩
      rintro _ ⟨⟩
      have hsort : (sortLogsCanonical (results ++ recovered)).Perm (results ++ recovered) :=
        perm_insertionSort _ _
      refine (hsort.filter _).trans ?_
      rw [filter_append, hr recovered rfl, append_nil]
      exact hresults

/-! ### Batches -/

/-- A fetch in batches passes on a segment of the chain: the whole range if there is no error and
the context is not done. -/
structure FetchesBatches (env : Env) (chain : Chain) (a b t t' : ℕ) (f : Fetch) : Prop where
  time : t ≤ t'
  quiet : env.ctxDone t = true → f.sent = []
  segment : ∃ c, a ≤ c ∧ BlockSegment chain.logs a c f.sent ∧
    (f.err = none → c = b + 1 ∨ env.ctxDone t' = true)

theorem FetchesBatches.nothing {t' : ℕ} {err : Option Err} (ht : t ≤ t')
    (herr : err = none → env.ctxDone t' = true) :
    FetchesBatches env chain a b t t' { sent := [], err := err } where
  time := ht
  quiet := fun _ ↦ rfl
  segment := ⟨a, Nat.le_refl a, Segment.empty, fun he ↦ .inr (herr he)⟩

theorem fetchBatches_beyond {batches : ℕ} (h : b < a) :
    fetchBatches env client b verifyBloom batches a = pure { sent := [], err := none } := by
  cases batches with
  | zero => rfl
  | succ => rw [fetchBatches, if_pos h]

theorem fetchBatches_spec (h : env.Lawful chain) {batches : ℕ}
    (hab : a ≤ b) (hbatches : b < a + batches * logBatchSize) (t : ℕ) :
    (fetchBatches env client b verifyBloom batches a).wp
      (fun t' es r ↦ es = [] ∧ ∃ f, r = .ok f ∧ FetchesBatches env chain a b t t' f) t := by
  induction batches generalizing a t with
  | zero => omega
  | succ batches ih =>
    have hto : a ≤ min (a + logBatchSize - 1) b := by
      simp only [logBatchSize]
      omega
    rw [fetchBatches, if_neg (Nat.not_lt.2 hab)]
    refine wp_attempt_bind.2 (wp_mono (subdivideLogFetch_spec h hto (Nat.le_refl _) t) ?_)
    rintro t₁ _ (e | results) ⟨⟨rfl, ht₁, hr⟩, hlive⟩
    · simp only
      split
      · next he => exact ⟨rfl, _, rfl, .nothing (Nat.le_of_lt ht₁) fun _ ↦ hr he⟩
      · exact ⟨rfl, _, rfl, .nothing (Nat.le_of_lt ht₁) nofun⟩
    · have hdone : env.ctxDone t ≠ true := fun hd ↦ nomatch hlive hd
      have hverify : (if verifyBloom then verifyLogsWithBloom env client results a
          (min (a + logBatchSize - 1) b) else pure results).wp (Queries t₁ fun logs ↦
          (logs.filter fun log ↦ !log.removed).Perm
            (chain.logsBetween a (min (a + logBatchSize - 1) b))) t₁ := by
        split
        · exact verifyLogsWithBloom_spec h hr t₁
        · refine ⟨rfl, Nat.le_refl t₁, ?_⟩
          rintro _ ⟨⟩
          exact hr
      refine wp_attempt_bind.2 (wp_mono hverify ?_)
      rintro t₂ _ (e | logs) ⟨rfl, ht₂, hlogs⟩
      · exact ⟨rfl, _, rfl, .nothing (Nat.le_trans (Nat.le_of_lt ht₁) ht₂) nofun⟩
      · simp only
        rw [wp_ask_bind]
        have ht : t ≤ t₂ + 1 := by omega
        cases hgate : env.gate client t₂ with
        | ctxDone => exact ⟨rfl, _, rfl, .nothing ht fun _ ↦ h.gate_ctxDone hgate⟩
        | closed => exact ⟨rfl, _, rfl, .nothing ht nofun⟩
        | go =>
          have hbatch := Chain.segment_batchBlocks hto (hlogs logs rfl)
          rcases Nat.lt_or_ge b (a + logBatchSize) with hlast | hmore
          · -- the last batch
            rw [fetchBatches_beyond hlast]
            have hmin : min (a + logBatchSize - 1) b = b := by omega
            rw [hmin] at hbatch
            refine ⟨rfl, _, rfl, ht, fun hd ↦ absurd hd hdone, b + 1, by omega, ?_, fun _ ↦
              .inl rfl⟩
            rw [append_nil, hmin]
            exact hbatch
          · have hmin : min (a + logBatchSize - 1) b + 1 = a + logBatchSize := by
              simp only [logBatchSize] at hmore ⊢
              omega
            rw [hmin] at hbatch
            refine wp_seq (ih hmore (by rw [Nat.succ_mul] at hbatches; omega) (t₂ + 1)) ?_ ?_
            · rintro t₃ es e ⟨-, f, hf, -⟩
              cases hf
            · rintro t₃ es f' ⟨rfl, f, hf, hrest⟩
              cases hf
              obtain ⟨c, hc, hsegment, herr⟩ := hrest.segment
              exact ⟨rfl, _, rfl, Nat.le_trans ht hrest.time, fun hd ↦ absurd hd hdone, c,
                by omega, hbatch.append hsegment (Nat.le_add_right a _) hc, herr⟩

theorem fetchLogsInBatches_spec (h : env.Lawful chain) (hab : a ≤ b) (t : ℕ) :
    (fetchLogsInBatches env client a b verifyBloom).wp
      (fun t' es r ↦ es = [] ∧ ∃ f, r = .ok f ∧ FetchesBatches env chain a b t t' f) t := by
  rw [fetchLogsInBatches, if_neg (Nat.not_lt.2 hab)]
  refine fetchBatches_spec h hab ?_ t
  simp only [logBatchSize]
  omega

/-! ### The stream -/

/-- A stream from `start` has sent a segment of the chain and, unless the context is done, goes on
from `next` without a gap. -/
structure StandsAt (env : Env) (chain : Chain) (start t next : ℕ) (sent : List BlockLogs) :
    Prop where
  delivered : ∃ c, BlockSegment chain.logs start c sent
  resumes : (start ≤ next ∧ BlockSegment chain.logs start next sent) ∨ env.ctxDone t = true

namespace StandsAt

variable {start t t' next : ℕ} {sent : List BlockLogs}

theorem initial : StandsAt env chain start t start [] :=
  ⟨⟨start, Segment.empty⟩, .inl ⟨Nat.le_refl start, Segment.empty⟩⟩

theorem later (h : env.Lawful chain) (hs : StandsAt env chain start t next sent) (ht : t ≤ t') :
    StandsAt env chain start t' next sent :=
  ⟨hs.delivered, hs.resumes.imp_right (h.ctxDone_mono ht)⟩

/-- **One fetch of the stream.** It can go on after the last block, and after the range if there was
no error. -/
theorem fetch (h : env.Lawful chain) {toBlock : ℕ} {f : Fetch}
    (hs : StandsAt env chain start t next sent)
    (hf : FetchesBatches env chain next toBlock t t' f) :
    (∀ e, f.sent.getLast? = some e → StandsAt env chain start t' (e.blockNumber + 1)
      (sent ++ f.sent)) ∧
    (f.err = none → StandsAt env chain start t' (toBlock + 1) (sent ++ f.sent)) ∧
    ∃ c, BlockSegment chain.logs start c (sent ++ f.sent) := by
  rcases hs.resumes with ⟨hstart, hsent⟩ | hdone
  · obtain ⟨c, hc, hsegment, herr⟩ := hf.segment
    have hall := hsent.append hsegment hstart hc
    refine ⟨fun e he ↦ ?_, fun he ↦ ⟨⟨c, hall⟩, ?_⟩, c, hall⟩
    · obtain ⟨init, hinit⟩ := getLast?_eq_some_iff.1 he
      rw [hinit, ← append_assoc] at hall ⊢
      have hstartle := (hall.within e (mem_append_right _ (mem_singleton.2 rfl))).1
      exact ⟨⟨c, hall⟩, .inl ⟨Nat.le_succ_of_le hstartle, hall.to_last⟩⟩
    · rcases herr he with rfl | hdone
      · exact .inl ⟨Nat.le_trans hstart hc, hall⟩
      · exact .inr hdone
  · -- the context is done, and nothing more is sent
    have hdone' := h.ctxDone_mono hf.time hdone
    rw [hf.quiet hdone, append_nil]
    exact ⟨fun e he ↦ ⟨hs.delivered, .inr hdone'⟩, fun _ ↦ ⟨hs.delivered, .inr hdone'⟩,
      hs.delivered⟩

end StandsAt

variable {t fromBlock : ℕ}

theorem wp_sendAll {blocks : List BlockLogs} {Q : ℕ → List BlockLogs → Except Err Unit → Prop} :
    (sendAll blocks).wp Q t ↔ Q t blocks (.ok ()) := by
  induction blocks generalizing Q with
  | nil => exact Iff.rfl
  | cons b rest ih => exact ih (Q := fun t' es r ↦ Q t' (b :: es) r)

/-- All that was sent is a segment of the chain, and a stream that ends stands at the block it says
to go on from. -/
def Streams (env : Env) (chain : Chain) (start fromBlock : ℕ) (sent : List BlockLogs) (t' : ℕ)
    (es : List BlockLogs) (r : Except Err (Option StreamEnd)) : Prop :=
  (∃ c, BlockSegment chain.logs start c (sent ++ es)) ∧
    ∀ e, r = .ok (some e) → StandsAt env chain start t' (e.nextBlock fromBlock) (sent ++ es)

variable {start : ℕ} {sent : List BlockLogs}

theorem streams_stop {lastBlock : ℕ} {progressed : Bool} {err : Err}
    (hresume : StandsAt env chain start t (if progressed then lastBlock + 1 else fromBlock) sent) :
    (pure (some { lastBlock := lastBlock, progressed := progressed, err := err }) :
      StreamAct (Option StreamEnd)).wp (Streams env chain start fromBlock sent) t := by
  rw [wp_pure, Streams, append_nil]
  refine ⟨hresume.delivered, ?_⟩
  rintro _ ⟨⟩
  exact hresume

/-- **Every round of the stream** keeps the block it is at and the one it would resume from. -/
theorem streamRounds_spec (h : env.Lawful chain) (rounds : ℕ) {nextBlock lastBlock : ℕ}
    {progressed : Bool} (hnext : StandsAt env chain start t nextBlock sent)
    (hresume : StandsAt env chain start t (if progressed then lastBlock + 1 else fromBlock) sent) :
    (streamRounds env client rounds nextBlock lastBlock progressed).wp
      (Streams env chain start fromBlock sent) t := by
  induction rounds generalizing t nextBlock lastBlock progressed sent with
  | zero =>
    refine ⟨?_, nofun⟩
    change ∃ c, BlockSegment chain.logs start c (sent ++ [])
    rw [append_nil]
    exact hnext.delivered
  | succ rounds ih =>
    rw [streamRounds, wp_ask_bind]
    have hnext₁ := hnext.later h (Nat.le_succ t)
    have hresume₁ := hresume.later h (Nat.le_succ t)
    cases env.streamEvent client t with
    | ctxDone | closed | timeout => exact streams_stop hresume₁
    | subscriptionError e =>
      cases e with
      | none | some => exact streams_stop hresume₁
    | header =>
      simp only
      split
      · exact ih hnext₁ hresume₁
      · split
        · exact ih hnext₁ hresume₁
        · next hto =>
          refine wp_seq (fetchLogsInBatches_spec h (Nat.le_of_not_lt hto) (t + 1)) ?_ ?_
          · rintro t₂ es e ⟨-, f, hf, -⟩
            cases hf
          · rintro t₂ es f' ⟨rfl, f, hf, hfetch⟩
            cases hf
            obtain ⟨hlast, hnoerr, hdelivered⟩ := hnext₁.fetch h hfetch
            -- the resume point moves with the last block sent, if there was one
            have hresume₂ : StandsAt env chain start t₂
                (if progressed || !f'.sent.isEmpty then
                  (f'.sent.getLast?.map (·.blockNumber)).getD lastBlock + 1 else fromBlock)
                (sent ++ f'.sent) := by
              cases hsent : f'.sent.getLast? with
              | none =>
                rw [getLast?_eq_none_iff] at hsent
                simpa [hsent] using hresume₁.later h hfetch.time
              | some e =>
                have hne : f'.sent.isEmpty = false := by
                  rw [isEmpty_eq_false_iff]
                  rintro hnil
                  simp [hnil] at hsent
                simpa [hne] using hlast e hsent
            refine wp_bind.2 (wp_sendAll.2 ?_)
            simp only [nil_append]
            have hmono : ∀ {x : StreamAct (Option StreamEnd)},
                x.wp (Streams env chain start fromBlock (sent ++ f'.sent)) t₂ →
                x.wp (fun t' es r ↦ Streams env chain start fromBlock sent t' (f'.sent ++ es) r)
                  t₂ := fun hx ↦ wp_mono hx fun _ es _ hs ↦ by
              simpa only [Streams, append_assoc] using hs
            cases herr : f'.err with
            | some => exact hmono (streams_stop hresume₂)
            | none => exact hmono (ih (hnoerr herr) hresume₂)

theorem streamLogsToChan_spec (h : env.Lawful chain) (rounds : ℕ)
    (hfrom : StandsAt env chain start t fromBlock sent) :
    (streamLogsToChan env client rounds fromBlock).wp (Streams env chain start fromBlock sent)
      t := by
  rw [streamLogsToChan, wp_ask_bind]
  have hfrom₁ := hfrom.later h (Nat.le_succ t)
  cases env.subscribeNewHead client t with
  | error => exact streams_stop hfrom₁
  | ok => exact streamRounds_spec h rounds hfrom₁ hfrom₁

/-- All that was sent is a segment of the chain. -/
def Delivers (chain : Chain) (start : ℕ) (sent es : List BlockLogs) : Prop :=
  ∃ c, BlockSegment chain.logs start c (sent ++ es)

theorem StandsAt.delivers {next : ℕ} (hs : StandsAt env chain start t next sent) :
    Delivers chain start sent [] := by
  rw [Delivers, append_nil]
  exact hs.delivered

theorem streamLogs_delivers (h : env.Lawful chain) (rounds attempts : ℕ)
    (hfrom : StandsAt env chain start t fromBlock sent) :
    (streamLogs env client rounds attempts fromBlock).wp
      (fun _ es _ ↦ Delivers chain start sent es) t := by
  induction attempts generalizing t fromBlock sent with
  | zero => exact hfrom.delivers
  | succ attempts ih =>
    rw [streamLogs, wp_ask_bind]
    have hfrom₁ := hfrom.later h (Nat.le_succ t)
    cases env.attemptGate t with
    | ctxDone | closed => exact hfrom.delivers
    | go =>
      refine wp_seq (streamLogsToChan_spec h rounds hfrom₁) ?_ ?_
      · rintro t' es e ⟨hdelivered, -⟩
        exact hdelivered
      · rintro t' es r ⟨hdelivered, hend⟩
        cases r with
        | none => exact wp_pure.2 (by rwa [append_nil])
        | some e =>
          simp only
          split
          · exact wp_pure.2 (by rwa [append_nil])
          · refine wp_mono (ih (hend e rfl)) fun _ es' _ hs ↦ ?_
            rwa [Delivers, ← append_assoc]

end ExecutionClient

namespace MultiClient

open ExecutionClient

variable {env : Env} {chain : Chain} {start : ℕ} {sent : List BlockLogs}

/-- What `call` does: as streaming does, over however many clients. -/
def Calls (env : Env) (chain : Chain) (start : ℕ) (sent : List BlockLogs) (t' : ℕ)
    (es : List BlockLogs) (r : Except Err (Option Call)) : Prop :=
  Delivers chain start sent es ∧
    ∀ c, r = .ok (some c) → StandsAt env chain start t' c.fromBlock (sent ++ es)

variable {currentClientIndex fromBlock t : ℕ}

theorem calls_stop {err : Err} (hfrom : StandsAt env chain start t fromBlock sent) : (pure (some
      { fromBlock := fromBlock, currentClientIndex := currentClientIndex, err := err }) :
      StreamAct (Option Call)).wp (Calls env chain start sent) t := by
  rw [wp_pure, Calls, append_nil]
  refine ⟨hfrom.delivers, ?_⟩
  rintro _ ⟨⟩
  exact hfrom

/-- **Failover keeps the place**: each client goes on from where the one before it stopped. -/
theorem callStream_spec (h : env.Lawful chain) (rounds startingIndex : ℕ) {clientsLeft i : ℕ}
    {allErrs : Option Err} (hfrom : StandsAt env chain start t fromBlock sent) :
    (callStream env rounds startingIndex clientsLeft i fromBlock currentClientIndex allErrs).wp
      (Calls env chain start sent) t := by
  induction clientsLeft generalizing i t fromBlock currentClientIndex allErrs sent with
  | zero => exact calls_stop hfrom
  | succ clientsLeft ih =>
    rw [callStream, wp_ask_bind]
    have hfrom₁ := hfrom.later h (Nat.le_succ t)
    cases env.getClient ((startingIndex + i) % env.nodeAddrs.length) t with
    | error => exact ih hfrom₁
    | ok _ =>
      simp only
      rw [wp_ask_bind]
      have hfrom₂ := hfrom₁.later h (Nat.le_succ (t + 1))
      cases env.healthy ((startingIndex + i) % env.nodeAddrs.length) (t + 1) with
      | error => exact ih hfrom₂
      | ok _ =>
        refine wp_seq (streamLogsToChan_spec h rounds hfrom₂) ?_ ?_
        · rintro t' es e ⟨hdelivered, -⟩
          exact ⟨hdelivered, nofun⟩
        · rintro t' es r ⟨hdelivered, hend⟩
          have hmono : ∀ {x : StreamAct (Option Call)},
              x.wp (Calls env chain start (sent ++ es)) t' →
              x.wp (fun t'' es' r ↦ Calls env chain start sent t'' (es ++ es') r) t' :=
            fun hx ↦ wp_mono hx fun _ es' _ hs ↦ by
              simpa only [Calls, Delivers, append_assoc] using hs
          cases r with
          | none =>
            refine wp_pure.2 ⟨?_, nofun⟩
            rwa [append_nil]
          | some e =>
            simp only
            split
            · exact hmono (calls_stop (hend e rfl))
            · exact hmono (ih (hend e rfl))

theorem streamLogs_delivers (h : env.Lawful chain) (rounds attempts : ℕ)
    (hfrom : StandsAt env chain start t fromBlock sent) :
    (streamLogs env rounds attempts fromBlock currentClientIndex).wp
      (fun _ es _ ↦ Delivers chain start sent es) t := by
  induction attempts generalizing t fromBlock currentClientIndex sent with
  | zero => exact hfrom.delivers
  | succ attempts ih =>
    rw [streamLogs, wp_ask_bind]
    have hfrom₁ := hfrom.later h (Nat.le_succ t)
    cases env.attemptGate t with
    | ctxDone | closed => exact hfrom.delivers
    | go =>
      have hcall : (call env rounds fromBlock currentClientIndex).wp (Calls env chain start sent)
          (t + 1) := by
        rw [call]
        split
        · exact calls_stop hfrom₁
        · exact callStream_spec h rounds _ hfrom₁
      refine wp_seq hcall ?_ ?_
      · rintro t' es e ⟨hdelivered, -⟩
        exact hdelivered
      · rintro t' es r ⟨hdelivered, hend⟩
        cases r with
        | none => exact wp_pure.2 (by rwa [append_nil])
        | some c =>
          simp only
          split
          · exact wp_pure.2 (by rwa [append_nil])
          · refine wp_mono (ih (hend c rfl)) fun _ es' _ hs ↦ ?_
            rwa [Delivers, ← append_assoc]

end MultiClient

/-! ### The result -/

/-- The numbers increase, each block has the logs of the chain at its number, and together they are
the chain's logs up to the last. -/
structure GapFree (chain : Chain) (start : ℕ) (sent : List BlockLogs) : Prop where
  increasing : sent.Pairwise fun b b' ↦ b.blockNumber < b'.blockNumber
  fromStart : ∀ b ∈ sent, start ≤ b.blockNumber
  own : ∀ b ∈ sent, b.logs = chain.logs b.blockNumber
  all : ∀ last, sent.getLast? = some last →
    sent.flatMap BlockLogs.logs = chain.logsBetween start last.blockNumber

theorem GapFree.of_initial {chain : Chain} {start : ℕ} {sent all : List BlockLogs}
    (h : ExecutionClient.Delivers chain start [] all) (hsent : sent <+: all) :
    GapFree chain start sent := by
  obtain ⟨c, hall⟩ := h
  obtain ⟨c', hsegment⟩ := hall.of_initial hsent
  refine ⟨hsegment.increasing, fun b hb ↦ (hsegment.within b hb).1, hsegment.own, ?_⟩
  intro last hlast
  obtain ⟨init, rfl⟩ := getLast?_eq_some_iff.1 hlast
  exact hsegment.to_last.flatMap_body

/-- **The log stream has no gaps**, for a client and for several with failover. -/
theorem stream_gapFree (chain : Chain) (env : Env) (h : env.Lawful chain) (start : ℕ)
    (rounds attempts t : ℕ) :
    (∀ client sent,
      sent <+: ((ExecutionClient.streamLogs env client rounds attempts start).run t).events →
      GapFree chain start sent) ∧
    ∀ currentClientIndex sent,
      sent <+: ((MultiClient.streamLogs env rounds attempts start currentClientIndex).run
        t).events →
      GapFree chain start sent := by
  refine ⟨fun client sent hsent ↦ ?_, fun index sent hsent ↦ ?_⟩
  · exact .of_initial (ExecutionClient.streamLogs_delivers h rounds attempts .initial) hsent
  · exact .of_initial (MultiClient.streamLogs_delivers h rounds attempts .initial) hsent

namespace Reference

def chain : Chain where
  logs
    | 3 => [{ blockNumber := 3, txIndex := 0, index := 0 },
        { blockNumber := 3, txIndex := 0, index := 4 }]
    | 6 => [{ blockNumber := 6, txIndex := 2, index := 9 }]
    | _ => []
  own := by
    intro n log hlog
    split at hlog <;> simp at hlog
    · rcases hlog with rfl | rfl <;> rfl
    · rw [hlog]
  ordered := by
    intro n
    split <;> decide

/-- The first node is not healthy; the second has a query limit, returns logs backwards, and loses
its subscription. -/
def env : Env where
  nodeAddrs := ["ws://first", "ws://second"]
  ctxDone := fun _ ↦ false
  ctxErr := .leaf .canceled
  gate := fun _ _ ↦ .go
  retryGate := fun _ _ ↦ .go
  filterLogs := fun _ _ a b ↦
    if b - a ≥ 4 then .error (.leaf (.rpc (-32005)))
    else .ok ({ blockNumber := a, txIndex := 0, index := 0, removed := true } ::
      (chain.logsBetween a b).reverse)
  headerBloom := fun _ _ n ↦ .ok (n % 2 = 0)
  blockNumber := fun _ _ ↦ .ok 20
  subscribeNewHead := fun _ _ ↦ .ok ()
  streamEvent := fun _ t ↦ if t % 3 = 0 then .subscriptionError none else .header (9 + t)
  attemptGate := fun _ ↦ .go
  getClient := fun _ _ ↦ .ok ()
  healthy := fun client _ ↦ if client = 0 then .error (.text "syncing") else .ok ()

theorem chain_kept {n : ℕ} {log : Log} (h : log ∈ chain.logs n) : log.removed = false := by
  unfold chain at h
  simp only at h
  split at h <;> simp at h
  · rcases h with rfl | rfl <;> rfl
  · rw [h]

theorem env_lawful : env.Lawful chain where
  ctxDone_mono := fun _ hd ↦ nomatch hd
  gate_go := fun _ ↦ rfl
  gate_ctxDone := fun hg ↦ nomatch hg
  filterLogs_ok := by
    intro _ _ a b logs _ hlogs
    unfold env at hlogs
    simp only at hlogs
    split at hlogs
    · cases hlogs
    · cases hlogs
      have hkept : (chain.logsBetween a b).reverse.filter (fun log ↦ !log.removed) =
          (chain.logsBetween a b).reverse := by
        refine filter_eq_self.2 fun log hlog ↦ ?_
        rw [chain_kept (Chain.mem_logsBetween.1 (mem_reverse.1 hlog)).2.2, Bool.not_false]
      rw [filter_cons_of_neg (by simp), hkept]
      exact reverse_perm _
  filterLogs_canceled := by
    intro _ _ a b e he hcanceled
    unfold env at he
    simp only at he
    split at he
    · cases he
      cases hcanceled
    · cases he

theorem stream_gapFree_twoNodes :
    env.Lawful chain ∧
    ((MultiClient.streamLogs env 3 4 2 0).run 0).events.map BlockLogs.blockNumber =
      [3, 6, 14, 42, 104] ∧
    GapFree chain 2 ((MultiClient.streamLogs env 3 4 2 0).run 0).events :=
  ⟨env_lawful, by decide +kernel, (stream_gapFree chain env env_lawful 2 3 4 0).2 0 _
    List.prefix_rfl⟩

end Reference

end Ssv.Eth
