import SsvNode.Qbft.Lifecycle

/-!
# An honest operator does not equivocate

The past of one controller under any calls. `Node.Inv`: the window is well-formed, every undecided
instance fits the log (`Instance.Sound`), and the log has the properties an observer relies on.
Messages, timeouts and failures of network, signer and value check are arbitrary.
-/

namespace Ssv

open SsvSpec List

variable [SsvSpec]

/-- A prepare or commit never follows a round change of its height for a later round. -/
def Event.MayPrecede (e e' : Event) : Prop :=
  ∀ m m', e.Carries m → e'.Carries m' → m.height = m'.height → m.msgType = .roundChange →
    (m'.msgType = .prepare ∨ m'.msgType = .commit) → m.round ≤ m'.round

/-- Prepares and commits are for one root per height and round. -/
def OneRootPerRound (log : List Event) : Prop :=
  ∀ m m', Sent log m → Sent log m' → m.msgType = m'.msgType →
    (m.msgType = .prepare ∨ m.msgType = .commit) → m.height = m'.height → m.round = m'.round →
    m.root = m'.root

namespace Node

variable {n : Node} {call : Call} {m : Message} {h : ℕ}

/-- What holds of a node in every run. -/
structure Inv (n : Node) : Prop where
  wellFormed : n.controller.WellFormed
  sound : ∀ x ∈ n.controller.items, x.state.decided = false → x.Sound n.log
  sent_le : ∀ m, Sent n.log m → m.height ≤ n.controller.latestInstanceHeight ∧
    n.controller.items ≠ []
  /-- Everything handed to the network is a message of the operator's own. -/
  signed : ∀ sm slot, Event.broadcast sm slot ∈ n.log →
    ∃ m, IsSigned n.controller.committeeMember.operatorID m sm ∧ m.height = slot
  oneRoot : OneRootPerRound n.log
  ordered : n.log.Pairwise Event.MayPrecede
  closed : ∀ h ∈ n.reported, n.controller.Closed h

theorem Inv.init {identifier : Bytes} {fn : Option (ℕ → Bytes)} {cm : CommitteeMember}
    {config : Config} {signer : OperatorSigner} :
    (Node.init (.newController identifier fn cm config signer)).Inv where
  wellFormed := .newController
  sound _ hx := nomatch hx
  sent_le _ hm := absurd hm not_sent_nil
  signed _ _ he := nomatch he
  oneRoot _ _ hm := absurd hm not_sent_nil
  ordered := List.Pairwise.nil
  closed _ hh := nomatch hh

abbrev eventsOf (n : Node) (call : Call) : List Event :=
  ((Controller.perform call).run n.controller).events

theorem step (n : Node) (call : Call) :
    n.controller.Step call (n.perform call).controller (n.eventsOf call)
      ((Controller.perform call).run n.controller).result.isOk :=
  Controller.step_perform n.controller call

section

variable (hn : n.Inv)
include hn

theorem Inv.no_votes_of_absent (hle : n.controller.latestInstanceHeight ≤ h)
    (habsent : ∀ y ∈ n.controller.items, y.getHeight ≠ h) (hm : Sent n.log m) : m.height ≠ h := by
  rintro rfl
  obtain ⟨hlatest, hne⟩ := hn.sent_le m hm
  rcases hn.wellFormed.latest with ⟨hnil, -⟩ | ⟨y, hy, hylat⟩
  · exact hne hnil
  · exact habsent y hy (by omega)

theorem Inv.sound_perform {x : Instance} (hx : x ∈ (n.perform call).controller.items)
    (hund : x.state.decided = false) : x.Sound (n.perform call).log := by
  cases (n.step call).origin hn.wellFormed hx hund with
  | @kept y mem same quiet =>
    have hy : y.state.decided = false := by
      rcases same with rfl | rfl <;> exact hund
    have hframe : y.Sound (n.log ++ n.eventsOf call) :=
      (hn.sound y mem hy).frame fun m hm hheight ↦ absurd hheight (quiet m hm)
    rcases same with rfl | rfl
    · exact hframe
    · exact hframe.congr rfl rfl rfl rfl
  | @started now h value checker call_eq le absent eq sends =>
    subst eq
    have hnew : (n.controller.newInstance h).Sound (n.log ++ n.eventsOf call) := by
      refine .newInstance fun m hm hheight hv ↦ ?_
      rcases sent_append.1 hm with hm | hm
      · exact hn.no_votes_of_absent le absent hm hheight
      · have htype := (sends.of_sent hm).2
        rcases hv with ht | ht | ht <;> simp [htype] at ht
    exact hnew.congr rfl rfl rfl rfl
  | stepped mem undecided hands hstep events =>
    refine ((hn.sound _ mem undecided).step hstep hund).congr_log fun {m} ↦ ?_
    exact sent_append.trans ((or_congr_right events).trans sent_append.symm)

theorem Inv.sent_le_perform (hm : Sent (n.perform call).log m) :
    m.height ≤ (n.perform call).controller.latestInstanceHeight ∧
      (n.perform call).controller.items ≠ [] := by
  have hlatest := (n.step call).latest_le
  rcases sent_append.1 hm with hm | hm
  · obtain ⟨hle, hne⟩ := hn.sent_le m hm
    exact ⟨hle.trans hlatest, (n.step call).items_ne_nil hn.wellFormed hne⟩
  · cases (n.step call).sentBy hn.wellFormed hm with
    | step mem _ height _ _ mem' _ =>
      rw [height]
      exact ⟨(hn.wellFormed.le_latest _ mem).trans hlatest, ne_nil_of_mem mem'⟩
    | start _ _ _ latest ne_nil => exact ⟨latest.ge, ne_nil⟩

theorem Inv.root_eq_of_new {m' : Message} (hm : Sent (n.eventsOf call) m) (hm' : Sent n.log m')
    (htype : m'.msgType = m.msgType) (hvote : m.msgType = .prepare ∨ m.msgType = .commit)
    (hheight : m'.height = m.height) (hround : m'.round = m.round) : m'.root = m.root := by
  cases (n.step call).sentBy hn.wellFormed hm with
  | step mem undecided _ _ hstep _ events =>
    exact (hn.sound _ mem undecided).root_eq_of_step hstep (events.1 hm) hm' hheight hround
      htype hvote
  | start proposal => rcases hvote with hv | hv <;> simp [proposal] at hv

/-- A prepare or commit is not for a round that an earlier round change has left. -/
theorem Inv.round_le_of_new {m' : Message} (hm : Sent (n.eventsOf call) m)
    (hm' : Sent n.log m') (hheight : m'.height = m.height) (htype : m'.msgType = .roundChange)
    (hvote : m.msgType = .prepare ∨ m.msgType = .commit) : m'.round ≤ m.round := by
  cases (n.step call).sentBy hn.wellFormed hm with
  | step mem undecided _ _ hstep _ events =>
    exact (hn.sound _ mem undecided).round_le_of_step hstep (events.1 hm) hm' hheight htype hvote
  | start proposal => rcases hvote with hv | hv <;> simp [proposal] at hv

theorem Inv.sent_unique {m' : Message} (hm : Sent (n.eventsOf call) m)
    (hm' : Sent (n.eventsOf call) m') : m = m' := by
  cases (n.step call).sentBy hn.wellFormed hm with
  | step _ _ _ _ hstep _ events => exact hstep.sent_unique (events.1 hm) (events.1 hm')
  | start _ _ _ _ _ unique => exact (unique hm').symm

theorem Inv.oneRoot_perform : OneRootPerRound (n.perform call).log := by
  intro m m' hm hm' htype hvote hheight hround
  rcases sent_append.1 hm with hm | hm <;> rcases sent_append.1 hm' with hm' | hm'
  · exact hn.oneRoot m m' hm hm' htype hvote hheight hround
  · exact hn.root_eq_of_new hm' hm htype (htype ▸ hvote) hheight hround
  · exact (hn.root_eq_of_new hm hm' htype.symm hvote hheight.symm hround.symm).symm
  · rw [hn.sent_unique hm hm']

theorem Inv.ordered_perform : (n.perform call).log.Pairwise Event.MayPrecede := by
  refine pairwise_append.2 ⟨hn.ordered, ?_, ?_⟩
  · -- within one call there is one message, and it is not both a round change and a vote on a root
    refine pairwise_of_forall_mem_list fun e he e' he' m m' hc hc' _ hrc hvote ↦ ?_
    have hm : Sent (n.eventsOf call) m := ⟨e, he, hc⟩
    obtain rfl := hn.sent_unique hm ⟨e', he', hc'⟩
    rcases hvote with hv | hv <;> simp [hrc] at hv
  · intro e he e' he' m m' hc hc' hheight hrc hvote
    have hm' : Sent (n.eventsOf call) m' := ⟨e', he', hc'⟩
    exact hn.round_le_of_new hm' ⟨e, he, hc⟩ hheight hrc hvote

theorem Inv.closed_perform (hh : h ∈ (n.perform call).reported) :
    (n.perform call).controller.Closed h := by
  rcases mem_append.1 hh with hh | hh
  · exact (hn.closed h hh).step hn.wellFormed (n.step call)
  · split at hh
    · rename_i hok
      obtain ⟨e, he, hmark⟩ := mem_filterMap.1 hh
      have hstep := n.step call
      rw [hok] at hstep
      cases e with
      | markDecided h' =>
        obtain rfl : h' = h := by simpa using hmark
        exact hstep.closed_of_marked hn.wellFormed he
      | broadcast | broadcastDecided => simp at hmark
    · simp at hh

/-- **A call keeps the invariant.** -/
theorem Inv.perform (call : Call) : (n.perform call).Inv where
  wellFormed := hn.wellFormed.step (n.step call)
  sound _ hx hund := hn.sound_perform hx hund
  sent_le _ hm := hn.sent_le_perform hm
  signed sm slot he := by
    rw [(n.step call).committeeMember_eq]
    rcases mem_append.1 he with he | he
    · exact hn.signed sm slot he
    · exact ((n.step call).broadcast_origin hn.wellFormed he).1
  oneRoot := hn.oneRoot_perform
  ordered := hn.ordered_perform
  closed _ hh := hn.closed_perform hh

theorem Inv.runCalls (calls : List Call) : (n.runCalls calls).Inv := by
  induction calls generalizing n with
  | nil => exact hn
  | cons call calls ih => exact ih (hn.perform call)

end

/-! ### After a decision -/

/-- The instance of the height is in the window, decided, or a call has reported its decision. -/
def HasDecided (n : Node) (h : ℕ) : Prop :=
  (∃ inst, n.controller.recentInstances.findInstance h = some inst ∧ inst.state.decided = true) ∨
    h ∈ n.reported

theorem Inv.closed_of_hasDecided (hn : n.Inv) (hd : n.HasDecided h) : n.controller.Closed h := by
  rcases hd with ⟨inst, hf, hdec⟩ | hh
  · obtain ⟨hmem, hheight⟩ := hn.wellFormed.find_iff.1 hf
    exact .inl ⟨inst, hmem, hheight, hdec⟩
  · exact hn.closed h hh

theorem log_runCalls (n : Node) (calls : List Call) :
    ∃ later, (n.runCalls calls).log = n.log ++ later := by
  induction calls generalizing n with
  | nil => exact ⟨[], (append_nil _).symm⟩
  | cons call calls ih =>
    obtain ⟨later, hlater⟩ := ih (n.perform call)
    refine ⟨n.eventsOf call ++ later, ?_⟩
    rw [← append_assoc]
    exact hlater

theorem Inv.not_broadcast_of_closed {sm : SignedSSVMessage} {slot : ℕ} (hn : n.Inv)
    (hclosed : n.controller.Closed h) {calls : List Call} {later : List Event}
    (hlog : (n.runCalls calls).log = n.log ++ later) (he : Event.broadcast sm slot ∈ later) :
    slot ≠ h := by
  induction calls generalizing n later with
  | nil =>
    have hnil : later = [] := by simpa [Node.runCalls] using hlog
    simp [hnil] at he
  | cons call calls ih =>
    obtain ⟨rest, hrest⟩ := log_runCalls (n.perform call) calls
    have hsplit : later = n.eventsOf call ++ rest := by
      have htotal : n.log ++ later = n.log ++ (n.eventsOf call ++ rest) := by
        rw [← hlog, ← append_assoc]
        exact hrest
      exact append_cancel_left htotal
    rw [hsplit] at he
    rcases mem_append.1 he with he | he
    · exact hclosed.not_broadcast hn.wellFormed (n.step call) he
    · exact ih (hn.perform call) (hclosed.step hn.wellFormed (n.step call)) hrest he

/-- A commit is sent on a quorum of prepares for its round and root, which is still stored
afterwards. -/
theorem Inv.quorum_of_commit (hn : n.Inv) (hm : Sent (n.eventsOf call) m)
    (htype : m.msgType = .commit) :
    ∃ inst, (n.perform call).controller.recentInstances.findInstance m.height = some inst ∧
      hasQuorum inst.state.committeeMember
        (messagesForRound inst.state.prepareContainer m.round) = true ∧
      ∀ x ∈ messagesForRound inst.state.prepareContainer m.round,
        x.qbftMessage.msgType = .prepare ∧ x.qbftMessage.root = m.root := by
  cases (n.step call).sentBy hn.wellFormed hm with
  | @step inst inst' now input es₀ mem undecided height _ hstep mem' events =>
    have hsent : Sent es₀ m := events.1 hm
    have hund' := hstep.undecided_of_sent undecided hsent
    have hsound := (hn.sound inst mem undecided).step hstep hund'
    have hwf := hn.wellFormed.step (n.step call)
    have hh : m.height = inst'.state.height := height.trans hstep.height_eq.symm
    obtain ⟨hq, hroots⟩ := hsound.commit_stored (sent_append.2 (.inr hsent)) hh htype
    exact ⟨inst', hwf.find_iff.2 ⟨mem', hh.symm⟩, hq, fun x hx ↦
      ⟨(hsound.stored_valid hx).msgType, hroots x hx⟩⟩
  | start proposal => simp [htype] at proposal

/-- **Honest non-equivocation.** An operator prepares and commits one root per height and round,
never below a round it has changed to, commits on a stored quorum of prepares, and hands nothing to
the network for a decided height but the aggregate (`Event.broadcastDecided`). -/
theorem non_equivocation (identifier : Bytes) (fn : Option (ℕ → Bytes)) (cm : CommitteeMember)
    (config : Config) (signer : OperatorSigner) (calls : List Call) :
    let n := (Node.init (.newController identifier fn cm config signer)).runCalls calls
    OneRootPerRound n.log ∧ n.log.Pairwise Event.MayPrecede ∧
      (∀ call m, m.msgType = .commit → Sent (n.eventsOf call) m →
        ∃ inst, (n.perform call).controller.recentInstances.findInstance m.height = some inst ∧
          hasQuorum inst.state.committeeMember
            (messagesForRound inst.state.prepareContainer m.round) = true ∧
          ∀ x ∈ messagesForRound inst.state.prepareContainer m.round,
            x.qbftMessage.msgType = .prepare ∧ x.qbftMessage.root = m.root) ∧
      (∀ h, n.HasDecided h → ∀ next later, (n.runCalls next).log = n.log ++ later →
        ∀ sm slot, Event.broadcast sm slot ∈ later → slot ≠ h) := by
  intro n
  have hn : n.Inv := Inv.init.runCalls calls
  refine ⟨hn.oneRoot, hn.ordered, fun call m htype hm ↦ hn.quorum_of_commit hm htype, ?_⟩
  intro h hd next later hlog sm slot he
  exact hn.not_broadcast_of_closed (hn.closed_of_hasDecided hd) hlog he

end Node

end Ssv
