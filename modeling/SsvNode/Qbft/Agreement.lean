import SsvNode.Qbft.Evidence
import SsvNode.Qbft.Replay

/-!
# Agreement

The votes of the honest operators form a `VoteRecord` that is `Lawful` in every run, and a decision
rests on a quorum of commits; the rest is `VoteRecord.Lawful.agreement`. The fields of `Cluster.Inv`
about quorums of **other** operators are monotone in the logs, so only what a call adds is looked
at.
-/

namespace Ssv

open SsvSpec List

section

variable [SsvSpec]

/-! ### Decisions of one node -/

variable {msg : ProcessingMessage}

theorem Controller.validateDecided_iff {c : Controller} :
    c.validateDecided msg = .ok () ↔
      memberHasQuorum c.committeeMember msg.signedMessage.operatorIDs.length = true ∧
        Instance.ValidCommit msg msg.qbftMessage.height c.committeeMember.committee ∧
        verify msg.signedMessage c.committeeMember.committee = .ok () ∧
        hashDataRoot msg.signedMessage.fullData = msg.qbftMessage.root := by
  simp only [validateDecided, Checks.bind_eq_ok, Checks.exists_check, Checks.mapError_eq_ok,
    Checks.require_eq_ok, isDecidedMsg, Bool.and_eq_true, decide_eq_true_eq,
    Instance.validCommit_verified_iff]
  constructor
  · rintro ⟨⟨hq, -⟩, ⟨hvalid, hver⟩, hroot⟩
    exact ⟨hq, hvalid, hver, hroot⟩
  · rintro ⟨hq, hvalid, hver, hroot⟩
    exact ⟨⟨hq, hvalid.msgType⟩, ⟨hvalid, hver⟩, hroot⟩

namespace Node

variable {n : Node} {call : Call} {h : ℕ} {v : Data}

/-- The node has marked the height decided with this value, or holds it as decided. -/
def Decided (n : Node) (h : ℕ) (v : Data) : Prop :=
  (∃ r, Event.markDecided h r v ∈ n.log) ∨
    ∃ inst, n.controller.recentInstances.findInstance h = some inst ∧
      inst.state.decided = true ∧ inst.state.decidedValue = v

/-- The value of every decided instance in the window has been marked. -/
def Marked (n : Node) : Prop :=
  ∀ x ∈ n.controller.items, x.state.decided = true →
    ∃ r, Event.markDecided x.getHeight r x.state.decidedValue ∈ n.log

end Node

theorem Instance.Step.marked {i i' : Instance} {now : ℕ} {input : Instance.Input}
    {es : List Event} (hstep : i.Step now input i' es) (hi : i.state.decided = false)
    (hi' : i'.state.decided = true) :
    ∃ r, Event.markDecided i'.getHeight r i'.state.decidedValue ∈ es := by
  cases hstep with
  | decide => exact ⟨_, mem_singleton.2 rfl⟩
  | _ =>
    have hsame : i.state.decided = true := hi'
    simp [hi] at hsame

theorem Instance.Concluded.marked {i i' : Instance}
    (hc : i.Concluded msg i') :
    ∃ r, Event.markDecided i'.getHeight r i'.state.decidedValue ∈
      [Event.markDecided i.getHeight msg.qbftMessage.round msg.signedMessage.fullData] := by
  obtain ⟨c, rfl⟩ := hc
  exact ⟨_, mem_singleton.2 rfl⟩

namespace Node

variable {n : Node} {call : Call} {h : ℕ} {v : Data}

theorem Marked.perform (hm : n.Marked) (hn : n.Inv) : (n.perform call).Marked := by
  have hkeep : ∀ x ∈ n.controller.items, x.state.decided = true →
      ∃ r, Event.markDecided x.getHeight r x.state.decidedValue ∈ (n.perform call).log := by
    intro x hx hd
    obtain ⟨r, hr⟩ := hm x hx hd
    exact ⟨r, mem_append_left _ hr⟩
  have hnew : ∀ {x : Instance}, (∃ r, Event.markDecided x.getHeight r x.state.decidedValue ∈
      n.eventsOf call) → ∃ r, Event.markDecided x.getHeight r x.state.decidedValue ∈
      (n.perform call).log := by
    rintro x ⟨r, hr⟩
    exact ⟨r, mem_append_right _ hr⟩
  intro x hx hd
  have hc := hn.wellFormed
  have hstep := n.step call
  generalize (n.perform call).controller = c' at hstep hx
  generalize n.eventsOf call = es at hstep hnew
  generalize ((Controller.perform call).run n.controller).result.isOk = ok at hstep
  cases hstep with
  | skip | decideLost => exact hkeep x hx hd
  | start =>
    rcases Instances.mem_of_mem_addNewInstance hx with rfl | hx
    · simp [Instance.withStart, Controller.newInstance, Instance.newInstance] at hd
    · obtain ⟨y, hy, rfl⟩ := mem_map.1 hx
      exact hkeep y hy hd
  | onMessage decoded found undecided hinst =>
    obtain ⟨hmem, -⟩ := hc.find_iff.1 found
    rcases (Instances.mem_set hc.ordered hmem hinst.height_eq).1 hx with rfl | ⟨hx, -⟩
    · obtain ⟨r, hr⟩ := hinst.marked undecided hd
      exact hnew ⟨r, mem_append_left _ hr⟩
    · exact hkeep x hx hd
  | onTimeout found undecided le hinst =>
    obtain ⟨hmem, -⟩ := hc.find_iff.1 found
    rcases (Instances.mem_set hc.ordered hmem hinst.height_eq).1 hx with rfl | ⟨hx, -⟩
    · exact hnew (hinst.marked undecided hd)
    · exact hkeep x hx hd
  | decideNew decoded absent valid concluded =>
    rcases Instances.mem_of_mem_addNewInstance hx with rfl | hx
    · exact hnew concluded.marked
    · exact hkeep x hx hd
  | decideKnown decoded found undecided valid concluded =>
    obtain ⟨hmem, -⟩ := hc.find_iff.1 found
    have hheight := congrArg Scope.height concluded.scope_eq
    rcases (Instances.mem_set hc.ordered hmem hheight).1 hx with rfl | ⟨hx, -⟩
    · exact hnew concluded.marked
    · exact hkeep x hx hd
  | @recordDecided now sm msg inst container _ found decided =>
    obtain ⟨hmem, -⟩ := hc.find_iff.1 found
    have hheight : (inst.withCommits container).getHeight = inst.getHeight := rfl
    rcases (Instances.mem_set hc.ordered hmem hheight).1 hx with rfl | ⟨hx, -⟩
    · exact hkeep inst hmem decided
    · exact hkeep x hx hd

theorem Marked.exists_of_decided (hm : n.Marked) (hn : n.Inv) (hd : n.Decided h v) :
    ∃ r, Event.markDecided h r v ∈ n.log := by
  rcases hd with hmark | ⟨inst, hf, hdec, rfl⟩
  · exact hmark
  · obtain ⟨hmem, rfl⟩ := hn.wellFormed.find_iff.1 hf
    exact hm inst hmem hdec

end Node

/-! ### The votes of a height -/

namespace Cluster

variable {C : Cluster} {net net' : Network} {h : ℕ} {op : OperatorID} {a : Action}

/-- What the operators have voted for at height `h`. -/
def votes (net : Network) (h : ℕ) : VoteRecord OperatorID Root where
  prepare op r v := ∃ m, Sent (net op).log m ∧ m.height = h ∧ m.msgType = .prepare ∧
    m.round = r ∧ m.root = v
  commit op r v := ∃ m, Sent (net op).log m ∧ m.height = h ∧ m.msgType = .commit ∧
    m.round = r ∧ m.root = v
  roundChange op r d := ∃ m, Sent (net op).log m ∧ m.height = h ∧ m.msgType = .roundChange ∧
    m.round = r ∧ m.dataRound = d

variable {r : ℕ}

theorem Grows.prepare (hgrow : Grows net net') {v : Root}
    (hp : (votes net h).prepare op r v) : (votes net' h).prepare op r v := by
  obtain ⟨m, hm, hrest⟩ := hp
  exact ⟨m, hgrow op m hm, hrest⟩

theorem Grows.commit (hgrow : Grows net net') {v : Root}
    (hp : (votes net h).commit op r v) : (votes net' h).commit op r v := by
  obtain ⟨m, hm, hrest⟩ := hp
  exact ⟨m, hgrow op m hm, hrest⟩

theorem Grows.roundChange (hgrow : Grows net net') {d : ℕ}
    (hp : (votes net h).roundChange op r d) : (votes net' h).roundChange op r d := by
  obtain ⟨m, hm, hrest⟩ := hp
  exact ⟨m, hgrow op m hm, hrest⟩

theorem backed_of_prepareQuorum {s : Scope} {pms : List ProcessingMessage} {root : Root}
    (hs : s = ⟨C.member op, h⟩) (hq : Instance.PrepareQuorum s pms r root)
    (hv : ∀ pm ∈ pms, C.Vouched net pm) :
    C.quorums.Backed fun x ↦ (votes net h).prepare x r root := by
  subst hs
  refine backed_of_hasQuorum hq.quorum hv fun pm hpm id hsent ↦ ?_
  have hvalid := hq.valid pm hpm
  exact ⟨_, hsent, hvalid.height, hvalid.msgType, hvalid.round, hvalid.root⟩

/-- **A proposal an honest instance accepts is justified by votes.** If its own round is named as
prepared, an honest operator has already prepared in it on another. -/
theorem justified_of_valid {i : Instance} {now : ℕ}
    (hscope : i.scope = ⟨C.member op, h⟩) (htrust : C.Trusted net h msg)
    (hearlier : ∀ x, C.Honest x → ∀ r v, (votes net h).prepare x r v →
      VoteRecord.Justified C.quorums (votes net h) r v)
    (hvalid : i.ValidProposal now msg) :
    VoteRecord.Justified C.quorums (votes net h) msg.qbftMessage.round
      (hashDataRoot msg.signedMessage.fullData) := by
  obtain ⟨rcs, prepares, hrcs, hprepares, hjust⟩ := hvalid.justified
  by_cases hfirst : msg.qbftMessage.round = firstRound
  · exact .inl hfirst
  have hj := (Instance.isProposalJustification_iff.1 hjust).2 hfirst
  rw [hscope] at hj
  have hrcv : ∀ rc ∈ rcs, C.Vouched net rc := fun rc hrc ↦
    htrust.vouched (.inl rfl) hrcs hrc (hj.verified rc hrc) (hj.valid rc hrc).height
      (hj.valid rc hrc).signer.2
  -- a bound on the prepared rounds makes the round changes a quorum for it
  have hmoved : ∀ d, (∀ rc ∈ rcs, rc.qbftMessage.dataRound ≤ d) →
      C.quorums.Backed fun x ↦ ∃ d' ≤ d, (votes net h).roundChange x msg.qbftMessage.round d' := by
    intro d hd
    refine backed_of_hasQuorum hj.quorum hrcv fun rc hrc id hsent ↦ ⟨_, hd rc hrc, ?_⟩
    have hrcvalid := hj.valid rc hrc
    exact ⟨_, hsent, hrcvalid.height, hrcvalid.msgType, hrcvalid.round, rfl⟩
  have hunprepared : ∀ rc ∈ rcs, roundChangePrepared rc.qbftMessage ≠ true →
      rc.qbftMessage.dataRound = noRound := by
    intro rc hrc hnot
    by_contra hne
    exact hnot ((roundChangePrepared_iff (hj.valid rc hrc).msgType).2 hne)
  rcases hbest : Instance.highestPrepared rcs with - | best
  · refine .inr ⟨0, hmoved 0 fun rc hrc ↦ ?_, .inl rfl⟩
    refine (hunprepared rc hrc fun hp ↦ ?_).le
    obtain ⟨best, hbest'⟩ : ∃ best, Instance.highestPrepared rcs = some best :=
      exists_firstMax hrc hp
    simp [hbest] at hbest'
  · obtain ⟨hmem, hp, hmax⟩ := firstMax_some hbest
    obtain ⟨hroot, hquorum⟩ := hj.prepared best hbest
    have hbacked := backed_of_prepareQuorum rfl hquorum fun pm hpm ↦
      htrust.vouched (.inr rfl) hprepares hpm (hquorum.verified pm hpm)
        (hquorum.valid pm hpm).height (hquorum.valid pm hpm).signer.2
    rw [← hroot] at hbacked
    have hle : best.qbftMessage.dataRound ≤ msg.qbftMessage.round :=
      ((hj.valid best hmem).prepared hp).2.2
    rcases hle.lt_or_eq with hlt | heq
    · refine .inr ⟨best.qbftMessage.dataRound, hmoved _ fun rc hrc ↦ ?_, .inr ⟨hlt, hbacked⟩⟩
      by_cases hrcp : roundChangePrepared rc.qbftMessage = true
      · exact hmax rc hrc hrcp
      · rw [hunprepared rc hrc hrcp]
        exact Nat.zero_le _
    · obtain ⟨x, hx, hpx⟩ := hbacked.weakly.exists_honest
      rw [heq] at hpx
      exact hearlier x hx _ _ hpx

/-! ### The invariant of runs -/

variable (C) in
structure Inv (h : ℕ) (net : Network) : Prop extends C.Sourced h net where
  locked : ∀ op, C.Honest op → (net op).Locked
  marked : ∀ op, C.Honest op → (net op).Marked
  commit_backed : ∀ op, C.Honest op → ∀ r v, (votes net h).commit op r v →
    C.quorums.Backed fun x ↦ (votes net h).prepare x r v
  justified : ∀ op, C.Honest op → ∀ r v, (votes net h).prepare op r v →
    VoteRecord.Justified C.quorums (votes net h) r v
  decided_backed : ∀ op, C.Honest op → ∀ r v, Event.markDecided h r v ∈ (net op).log →
    C.quorums.Backed fun x ↦ (votes net h).commit x r (hashDataRoot v)

namespace Inv

theorem start (h : ℕ) : C.Inv h C.start where
  toSourced := .start h
  locked _ _ := .init
  marked _ _ _ hx := nomatch hx
  commit_backed := by
    rintro op - r v ⟨m, hm, -⟩
    exact absurd hm not_sent_nil
  justified := by
    rintro op - r v ⟨m, hm, -⟩
    exact absurd hm not_sent_nil
  decided_backed _ _ _ _ hmark := nomatch hmark

theorem lawful (hinv : C.Inv h net) : (votes net h).Lawful C.quorums where
  prepare_unique := by
    rintro x r v v' hx ⟨m, hm, hh, ht, rfl, rfl⟩ ⟨m', hm', hh', ht', hr, rfl⟩
    exact (hinv.node x hx).oneRoot m m' hm hm' (ht.trans ht'.symm) (.inl ht) (hh.trans hh'.symm)
      hr.symm
  commit_pos := by
    rintro x r v hx ⟨m, hm, -, ht, rfl, -⟩
    exact (hinv.locked x hx).commit_pos m hm ht
  commit_backed hx hc := hinv.commit_backed _ hx _ _ hc
  locked := by
    rintro x r r' v d hx ⟨m, hm, hh, ht, rfl, -⟩ ⟨m', hm', hh', ht', rfl, rfl⟩ hlt
    exact (hinv.locked x hx).roundChange m m' hm hm' ht ht' (hh.trans hh'.symm) hlt
  justified hx hp := hinv.justified _ hx _ _ hp

/-! ### What a call adds -/

section

variable (hinv : C.Inv h net)
include hinv

theorem backed_of_new_commit (hadm : C.Delivers h net a) {m : Message}
    (hm : Sent ((net a.operator).eventsOf a.call) m) (hh : m.height = h)
    (ht : m.msgType = .commit) :
    C.quorums.Backed fun x ↦ (votes net h).prepare x m.round m.root := by
  have hop := hadm.1
  have hn := hinv.node _ hop
  cases ((net a.operator).step a.call).sentBy hn.wellFormed hm with
  | start proposal => simp [ht] at proposal
  | @step inst inst' now input es₀ mem undecided height hands hstep mem' events =>
    have hih : inst.getHeight = h := height.symm.trans hh
    have hscope := hinv.scope hop mem hih
    cases hstep.vote (events.1 hm) (.inr (.inl ht)) with
    | prepare msgType | follow msgType | timeout msgType => simp [ht] at msgType
    | @commit msg p c msgType accepted valid added quorum round root =>
      have hsound := (hn.sound inst mem undecided).withPrepares accepted valid added
      have hcm : inst.state.committeeMember = C.member a.operator :=
        congrArg Scope.committeeMember hscope
      have hvouched : C.Vouched net msg := by
        refine (hadm.trusted hinv.node (hih ▸ hands)).2 ?_
        rw [hscope] at valid
        exact valid.signer.2
      have hholds := (hinv.evidence _ hop inst mem undecided hih).prepares.added added
        valid.msgType valid.height hvouched
      rw [hcm] at quorum
      refine backed_of_hasQuorum quorum (fun x hx ↦ (hholds _ x hx).2.2) fun x hx id hsent ↦ ?_
      obtain ⟨p', hp', hxroot⟩ := hsound.stored_accepted hx
      obtain rfl : p = p' := Option.some.inj (accepted.symm.trans hp')
      refine ⟨_, hsent, (hholds _ x hx).2.1.trans hih, (hholds _ x hx).1, ?_,
        hxroot.trans root.symm⟩
      exact (round_of_mem_messagesForRound hx).trans round.symm

theorem justified_of_new_prepare (hadm : C.Delivers h net a) {m : Message}
    (hm : Sent ((net a.operator).eventsOf a.call) m) (hh : m.height = h)
    (ht : m.msgType = .prepare) : VoteRecord.Justified C.quorums (votes net h) m.round m.root := by
  have hop := hadm.1
  have hn := hinv.node _ hop
  cases ((net a.operator).step a.call).sentBy hn.wellFormed hm with
  | start proposal => simp [ht] at proposal
  | @step inst inst' now input es₀ mem undecided height hands hstep mem' events =>
    have hih : inst.getHeight = h := height.symm.trans hh
    cases hstep.vote (events.1 hm) (.inl ht) with
    | prepare msgType valid round root =>
      rw [round, root]
      exact justified_of_valid (hinv.scope hop mem hih) (hadm.trusted hinv.node (hih ▸ hands)).1
        hinv.justified (Instance.isValidProposal_iff.1 valid)
    | commit msgType | follow msgType | timeout msgType => simp [ht] at msgType

theorem backed_of_decidedMsg (hop : C.Honest op)
    (hvalid : (net op).controller.validateDecided msg = .ok ()) (hh : msg.qbftMessage.height = h)
    (hvouched : checkSignersInCommittee msg.signedMessage C.committee = true → C.Vouched net msg) :
    C.quorums.Backed fun x ↦ (votes net h).commit x msg.qbftMessage.round
      (hashDataRoot msg.signedMessage.fullData) := by
  obtain ⟨hquorum, hcommit, -, hroot⟩ := Controller.validateDecided_iff.1 hvalid
  rw [hinv.member op hop] at hquorum hcommit
  have hv := hvouched hcommit.members
  refine backed_of_memberHasQuorum hquorum (nodup_of_validate hcommit.validated) fun id hid ↦ ?_
  obtain ⟨hmem, hsent⟩ := hv id hid
  exact ⟨hmem, fun hhon ↦ ⟨_, hsent hhon, hh, hcommit.msgType, rfl, hroot.symm⟩⟩

theorem backed_of_decide (hop : C.Honest op) {inst inst' : Instance}
    {now : ℕ} {input : Instance.Input} {es : List Event} {v : Data}
    (hmem : inst ∈ (net op).controller.items) (hund : inst.state.decided = false)
    (hstep : inst.Step now input inst' es) (hmark : Event.markDecided h r v ∈ es)
    (hvouched : ∀ msg, input = .message msg → inst.getHeight = h →
      checkSignersInCommittee msg.signedMessage C.committee = true → C.Vouched net msg) :
    C.quorums.Backed fun x ↦ (votes net h).commit x r (hashDataRoot v) := by
  have hnot : ∀ {P : Message → Prop}, ¬ inst.Sends P es := by
    rintro P (rfl | ⟨sm, m, rfl, -⟩) <;> simp at hmark
  cases hstep with
  | @decide msg p c accepted valid added quorum =>
    obtain ⟨rfl, rfl, rfl⟩ := Event.markDecided.inj (mem_singleton.1 hmark)
    obtain ⟨hcommit, -, hround, p', hp', hroot⟩ := Instance.validateCommit_iff.1 valid
    obtain rfl : p = p' := Option.some.inj (accepted.symm.trans hp')
    have hcm : inst.state.committeeMember = C.member op :=
      congrArg Scope.committeeMember (hinv.scope hop hmem rfl)
    have hroot' := ((hinv.node op hop).sound inst hmem hund).accepted_root accepted
    rw [hcm] at quorum hcommit
    have hholds := (hinv.evidence op hop inst hmem hund rfl).commits.added added hcommit.msgType
      hcommit.height (hvouched msg rfl rfl hcommit.members)
    refine backed_of_memberHasQuorum quorum nodup_longestUniqueSigners fun id hid ↦ ?_
    obtain ⟨x, hx, hxroot, hxid⟩ := mem_longestUniqueSigners hid
    obtain ⟨htype, hheight, hv⟩ := hholds _ x hx
    obtain ⟨hidmem, hsent⟩ := hv id hxid
    refine ⟨hidmem, fun hhon ↦ ⟨_, hsent hhon, hheight, htype,
      round_of_mem_messagesForRound hx, ?_⟩⟩
    rw [hxroot, ← hroot, hroot']
  | skip | giveUp | storePrepare | storeCommit | storeRoundChange => simp at hmark
  | acceptProposal valid sends | lead valid added quorum current sends => exact (hnot sends).elim
  | prepareQuorum accepted valid added quorum sends | timeout sends => exact (hnot sends).elim
  | follow valid added stored quorum lt sends => exact (hnot sends).elim

theorem backed_of_new_mark (hadm : C.Delivers h net a) {v : Data}
    (hmark : Event.markDecided h r v ∈ (net a.operator).eventsOf a.call) :
    C.quorums.Backed fun x ↦ (votes net h).commit x r (hashDataRoot v) := by
  have hop := hadm.1
  cases ((net a.operator).step a.call).markedBy (hinv.node _ hop).wellFormed hmark with
  | @commits inst inst' now input es₀ mem undecided hands hstep mark =>
    refine hinv.backed_of_decide hop mem undecided hstep mark ?_
    rintro msg rfl hih
    exact (hadm.trusted hinv.node (hih ▸ hands)).2
  | @decidedMsg now sm msg call_eq decoded valid height round value =>
    subst round value
    refine hinv.backed_of_decidedMsg hop valid height.symm (hadm.trusted hinv.node ?_).2
    rw [call_eq, height]
    exact .message decoded

/-- **A call keeps the invariant.** -/
theorem act (hadm : C.Admissible h net a) : C.Inv h (act net a) where
  toSourced := hinv.toSourced.act hadm.1
  locked := forall_honest_act (P := fun _ n ↦ n.Locked) hinv.locked
    ((hinv.locked _ hadm.1.1).perform (hinv.node _ hadm.1.1) hadm.2)
  marked := forall_honest_act (P := fun _ n ↦ n.Marked) hinv.marked
    ((hinv.marked _ hadm.1.1).perform (hinv.node _ hadm.1.1))
  commit_backed := by
    rintro op hop r v ⟨m, hm, hh, ht, rfl, rfl⟩
    have hgrow := grows_act net a
    refine QuorumSystem.Backed.mono ?_ fun x _ hx ↦ hgrow.prepare hx
    rcases sent_act hm with hold | ⟨rfl, hnew⟩
    · exact hinv.commit_backed op hop _ _ ⟨m, hold, hh, ht, rfl, rfl⟩
    · exact hinv.backed_of_new_commit hadm.1 hnew hh ht
  justified := by
    rintro op hop r v ⟨m, hm, hh, ht, rfl, rfl⟩
    have hgrow := grows_act net a
    refine VoteRecord.Justified.mono ?_ (fun x _ _ hx ↦ hgrow.prepare hx)
      fun x _ _ hx ↦ hgrow.roundChange hx
    rcases sent_act hm with hold | ⟨rfl, hnew⟩
    · exact hinv.justified op hop _ _ ⟨m, hold, hh, ht, rfl, rfl⟩
    · exact hinv.justified_of_new_prepare hadm.1 hnew hh ht
  decided_backed op hop r v hmark := by
    have hgrow := grows_act net a
    refine QuorumSystem.Backed.mono ?_ fun x _ hx ↦ hgrow.commit hx
    rcases mem_log_act hmark with hold | ⟨rfl, hnew⟩
    · exact hinv.decided_backed op hop r v hold
    · exact hinv.backed_of_new_mark hadm.1 hnew

end

theorem of_reachable (hnet : (C.machine h).Reachable net) : C.Inv h net := by
  refine hnet.invariant (P := C.Inv h) ?_ ?_
  · rintro net rfl
    exact .start h
  · intro net a _ hinv hadm
    exact hinv.act hadm

end Inv

variable (C) in
/-- The values that honest operators have decided at the height. -/
def decidedValues (net : Network) (h : ℕ) : Set Bytes :=
  {b | ∃ op v, C.Honest op ∧ (net op).Decided h v ∧ Data.bytes v = b}

/-- **Agreement.** Honest operators that have decided a height have decided the same value, unless
two decided values collide under the hash. -/
theorem honest_agreement (C : Cluster) (h : ℕ) (net : Network) (hnet : (C.machine h).Reachable net)
    (hinj : Set.InjOn Sha256.sum256 (C.decidedValues net h)) (op op' : OperatorID) (v v' : Data)
    (hop : C.Honest op) (hop' : C.Honest op') (hv : (net op).Decided h v)
    (hv' : (net op').Decided h v') : v.bytes = v'.bytes := by
  have hinv := Inv.of_reachable hnet
  obtain ⟨r, hr⟩ := (hinv.marked op hop).exists_of_decided (hinv.node op hop) hv
  obtain ⟨r', hr'⟩ := (hinv.marked op' hop').exists_of_decided (hinv.node op' hop') hv'
  have hroots := hinv.lawful.agreement (hinv.decided_backed op hop r v hr)
    (hinv.decided_backed op' hop' r' v' hr')
  exact hinj ⟨op, v, hop, hv, rfl⟩ ⟨op', v', hop', hv', rfl⟩ hroots

end Cluster

end

/-! ### A run that decides -/

namespace Cluster

open Reference

local instance agreementSpec : SsvSpec := spec

/-- Operators `2` and `3` commit to the leader's proposal; with its own commit that decides `1` and
`3`. -/
def decideTwo : Network :=
  runActions fourOperators.start (commitTwo ++ [deliver 1 decidedMessage, deliver 3 decidedMessage])

theorem reachable_decideTwo : (fourOperators.machine 1).Reachable decideTwo := by
  refine fourOperators.reachable_of_replays (by decide +kernel) fun a ha ↦ ?_
  rcases mem_append.1 ha with ha | ha
  · exact checksValues_commitTwo a ha
  · simp only [mem_cons, not_mem_nil, or_false] at ha
    rcases ha with rfl | rfl <;> trivial

def decides42 : Event → Bool
  | .markDecided _ _ v => decide (v.bytes = [42])
  | _ => true

theorem mem_decidedValues_decideTwo {b : Bytes} (hb : b ∈ fourOperators.decidedValues decideTwo 1) :
    b = [42] := by
  obtain ⟨op, v, hop, hv, rfl⟩ := hb
  have hinv := Inv.of_reachable reachable_decideTwo
  obtain ⟨r, hr⟩ := (hinv.marked op hop).exists_of_decided (hinv.node op hop) hv
  have hlogs : ∀ op ∈ [1, 2, 3, 4], ∀ e ∈ (decideTwo op).log, decides42 e = true := by
    decide +kernel
  have hmem : op ∈ [1, 2, 3, 4] := mem_toFinset.1 hop.1
  exact of_decide_eq_true (hlogs op hmem _ hr)

theorem honest_agreement_decideTwo :
    ∃ v v', (decideTwo 1).Decided 1 v ∧ (decideTwo 3).Decided 1 v' ∧ v.bytes = v'.bytes := by
  have hone : (decideTwo 1).Decided 1 value := .inl ⟨1, by decide +kernel⟩
  have hthree : (decideTwo 3).Decided 1 value := .inl ⟨1, by decide +kernel⟩
  refine ⟨value, value, hone, hthree, honest_agreement fourOperators 1 decideTwo reachable_decideTwo
    ?_ 1 3
    value value (by decide) (by decide) hone hthree⟩
  intro b hb b' hb' _
  rw [mem_decidedValues_decideTwo hb, mem_decidedValues_decideTwo hb']

end Cluster

end Ssv
