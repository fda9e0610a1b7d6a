import SsvNode.Lib.Budget
import SsvNode.Validation.Histories

/-!
# The budget of distinct signing roots

Proposer preferences and request auths are limited by **signing roots**: a packet must bring a new
one, and the distinct roots of a signer for a slot stay within the budget of the type
(`rootBudget`), in runs in which a committee keeps its order; otherwise a packet is compared with
the roots of another signer (`Reference.roots_accepted_twice`).
-/

namespace Ssv.Validation

open ValidationSpec Budget Checks List Finset

variable (t : PartialSigMsgType)

/-- The types that are limited by distinct roots. -/
def RootBudgeted : Prop := t = .proposerPreferences ∨ t = .requestAuth

def distinctRoots : PartialSigMsgType → ℕ
  | .proposerPreferences => maxProposerPreferencesDistinctRoots
  | .requestAuth => maxRequestAuthDistinctRoots
  | _ => 0

def PartialSignatureMessages.roots (m : PartialSignatureMessages) : Finset Root :=
  (m.messages.map (·.signingRoot)).toFinset

/-- The signing roots of an accepted packet, if it is of the type. -/
def Accepted.roots? (a : Accepted) : Option (Finset Root) :=
  match a.plan with
  | .consensus _ _ _ => none
  | .partialSignature _ _ m _ => if m.type = t then some m.roots else none

def acceptedRoots (log : List Accepted) : List (Finset Root) :=
  log.filterMap (Accepted.roots? t)

/-! ### Recording roots -/

section

open SignerStateForSlotRound

theorem nodup_recordRoot {roots : List Root} (h : roots.Nodup) (root : Root) :
    (recordRoot roots root).Nodup := by
  unfold recordRoot
  split
  · exact h
  · next hnew =>
    refine nodup_append.2 ⟨h, nodup_singleton root, fun a ha b hb heq ↦ hnew ?_⟩
    exact List.mem_singleton.1 hb ▸ heq ▸ ha

theorem toFinset_recordRoot (roots : List Root) (root : Root) :
    (recordRoot roots root).toFinset = insert root roots.toFinset := by
  unfold recordRoot
  split
  · next hold => exact (insert_eq_of_mem (mem_toFinset.2 hold)).symm
  · rw [toFinset_append, toFinset_cons, toFinset_nil, union_comm]
    rfl

theorem foldl_recordRoot {roots : List Root} (h : roots.Nodup) (added : List Root) :
    (added.foldl recordRoot roots).Nodup ∧
    (added.foldl recordRoot roots).toFinset = roots.toFinset ∪ added.toFinset := by
  induction added generalizing roots with
  | nil => exact ⟨h, by simp⟩
  | cons root added ih =>
    obtain ⟨hnodup, heq⟩ := ih (nodup_recordRoot h root)
    refine ⟨hnodup, ?_⟩
    rw [foldl_cons, heq, toFinset_recordRoot, toFinset_cons, insert_union, union_insert]

theorem seenRootsFor_recordRoots {t : PartialSigMsgType} (ht : RootBudgeted t)
    (s : SignerStateForSlotRound) (m : PartialSignatureMessages) :
    (s.recordRoots m).seenRootsFor t =
      if m.type = t then (m.messages.map (·.signingRoot)).foldl recordRoot (s.seenRootsFor t)
      else s.seenRootsFor t := by
  unfold recordRoots
  rcases ht with rfl | rfl <;> cases m.type <;> rfl

end

/-! ### The check -/

variable {m : PartialSignatureMessages}

/-- **The check of a packet against the roots of its type.** -/
theorem validateDistinctRootBudget_iff {s : SignerStateForSlotRound}
    {budget : ℕ} (hnodup : (s.seenRootsFor m.type).Nodup) :
    validateDistinctRootBudget m s budget = .ok () ↔
      (m.roots \ (s.seenRootsFor m.type).toFinset).Nonempty ∧
      ((s.seenRootsFor m.type).toFinset ∪ m.roots).card ≤ budget := by
  have hfresh : ((m.messages.map (·.signingRoot)).filter (· ∉ s.seenRootsFor m.type)).dedup.length =
      (m.roots \ (s.seenRootsFor m.type).toFinset).card := by
    rw [← card_toFinset]
    congr 1
    ext root
    simp [PartialSignatureMessages.roots]
  have hcard : ((s.seenRootsFor m.type).toFinset ∪ m.roots).card =
      (s.seenRootsFor m.type).length + (m.roots \ (s.seenRootsFor m.type).toFinset).card := by
    rw [union_comm, ← card_sdiff_add_card, toFinset_card_of_nodup hnodup, add_comm]
  simp only [validateDistinctRootBudget, bind_eq_ok, exists_check,
    require_eq_ok, hfresh, hcard]
  rw [← card_pos, Nat.pos_iff_ne_zero, not_lt]

theorem validatePartialSignatureMessageLimit_iff {peer : PeerID} {s : SignerStateForSlotRound}
    (ht : RootBudgeted m.type) (hnodup : (s.seenRootsFor m.type).Nodup) :
    validatePartialSignatureMessageLimit m peer s = .ok () ↔
      (m.roots \ (s.seenRootsFor m.type).toFinset).Nonempty ∧
      ((s.seenRootsFor m.type).toFinset ∪ m.roots).card ≤ distinctRoots m.type := by
  rw [← validateDistinctRootBudget_iff hnodup]
  unfold validatePartialSignatureMessageLimit
  rcases ht with ht | ht <;> rw [ht] <;> rfl

/-! ### What a plan has checked -/

section

variable [ValidationSpec] {net : Network} {rc : Receipt} {message : Option WireMessage}

/-- A packet of a budgeted type is of proposer preferences and has entries, no more than the budget.
-/
theorem budgeted_of_plan {signed : SignedSSVMessage} {ci : CommitteeInfo}
    {signer : OperatorID} (ht : RootBudgeted m.type)
    (h : plan net rc message = .ok (.partialSignature signed ci m signer)) :
    getRoleType signed.ssvMessage.msgID = .proposerPreferences ∧ m.roots.Nonempty ∧
      m.roots.card ≤ distinctRoots m.type := by
  have hdecode := (plan_cases h).2
  simp only [decodePartialSignatureMessage, bind_eq_ok, exists_check,
    pure_eq_ok] at hdecode
  obtain ⟨-, m', -, -, -, signer', hsemantics, heq⟩ := hdecode
  cases heq
  simp only [validatePartialSignatureMessageSemantics, bind_eq_ok, exists_check] at hsemantics
  obtain ⟨-, hsemantics⟩ := hsemantics
  split at hsemantics
  · simp only [bind_eq_ok, exists_check, require_eq_ok] at hsemantics
    obtain ⟨-, -, hmatch, hentries⟩ := hsemantics
    have hrole : getRoleType signed.ssvMessage.msgID = .proposerPreferences := by
      revert hmatch
      rcases ht with ht | ht <;> rw [ht] <;> cases getRoleType signed.ssvMessage.msgID <;>
        simp [partialSignatureTypeMatchesRole]
    refine ⟨hrole, ?_⟩
    rw [hrole] at hentries
    have hlimit : maxValidatorRoleSignatures net .proposerPreferences m.type m.slot ≤
        distinctRoots m.type := by
      rcases ht with ht | ht <;> rw [ht] <;> exact Nat.le_of_ble_eq_true rfl
    split at hentries
    · cases hentries
    · next first rest hmessages =>
      simp only [bind_eq_ok, exists_check, require_eq_ok] at hentries
      have hlength : m.messages.length ≤
          maxValidatorRoleSignatures net .proposerPreferences m.type m.slot :=
        Nat.not_lt.1 fun hlt ↦ hentries.1 ⟨rfl, by simp, hlt⟩
      refine ⟨⟨first.signingRoot, ?_⟩, ?_⟩
      · rw [PartialSignatureMessages.roots, hmessages]
        exact mem_toFinset.2 (.head _)
      · calc m.roots.card ≤ (m.messages.map (·.signingRoot)).length := toFinset_card_le _
          _ = m.messages.length := length_map _
          _ ≤ distinctRoots m.type := hlength.trans hlimit
  · cases hsemantics

theorem role_ne_of_plan {signed : SignedSSVMessage} {ci : CommitteeInfo} {msg : Message}
    (h : plan net rc message = .ok (.consensus signed ci msg)) :
    getRoleType signed.ssvMessage.msgID ≠ .proposerPreferences := by
  have hdecode := (plan_cases h).2
  simp only [decodeConsensusMessage, bind_eq_ok, exists_check,
    pure_eq_ok] at hdecode
  obtain ⟨-, msg', -, -, -, hsemantics, rfl⟩ := hdecode
  simp only [validateConsensusMessageSemantics, bind_eq_ok, exists_check,
    require_eq_ok] at hsemantics
  obtain ⟨-, -, -, -, -, -, hrole, -⟩ := hsemantics
  exact fun heq ↦ hrole (.inr (.inr (.inr heq)))

end

/-! ### The invariant -/

/-- The recorded roots of a type are those of the accepted packets, within the budget. -/
structure RootsRecorded (role : RunnerRole) (t : PartialSigMsgType) (log : List Accepted)
    (roots : List Root) : Prop where
  nodup : roots.Nodup
  eq_spent : roots.toFinset = spent (acceptedRoots t log)
  within : WithinBudget (distinctRoots t) (acceptedRoots t log)
  role : role = .proposerPreferences ∨ acceptedRoots t log = []

theorem RootsRecorded.nil (role : RunnerRole) (t : PartialSigMsgType) :
    RootsRecorded role t [] [] :=
  ⟨nodup_nil, rfl, trivial, .inr rfl⟩

def rootsOf (s : Option SignerStateForSlotRound) : List Root :=
  (s.map (·.seenRootsFor t)).getD []

theorem seenRootsFor_getD (s : Option SignerStateForSlotRound)
    (slot round : ℕ) : (s.getD (.new slot round)).seenRootsFor t = rootsOf t s := by
  cases s with
  | some => rfl
  | none => cases t <;> rfl

section

variable [ValidationSpec] {net : Network} {seat : Seat} {slot : ℕ} {t : PartialSigMsgType}
  {log : List Accepted} {s : Option SignerStateForSlotRound}

/-- An accepted packet brings a new root and is within the budget. -/
theorem spends_of_accepts {rc : Receipt} {signed : SignedSSVMessage} {ci : CommitteeInfo}
    {signer : OperatorID} (ht : RootBudgeted m.type) (hnodup : (rootsOf m.type s).Nodup)
    (ha : (slotRecorder net seat slot).Accepts ⟨rc, .partialSignature signed ci m signer⟩ s) :
    (m.roots \ (rootsOf m.type s).toFinset).Nonempty ∧
    ((rootsOf m.type s).toFinset ∪ m.roots).card ≤ distinctRoots m.type := by
  obtain ⟨⟨message, hmessage⟩, -, -, hcheck⟩ := ha
  cases s with
  | some s => exact (validatePartialSignatureMessageLimit_iff ht hnodup).1 (hcheck s rfl)
  | none =>
    obtain ⟨-, hnonempty, hcard⟩ := budgeted_of_plan ht hmessage
    refine ⟨?_, ?_⟩
    · simpa [rootsOf] using hnonempty
    · simpa [rootsOf] using hcard

/-- **Accepting a message keeps the invariant.** -/
theorem RootsRecorded.accept (ht : RootBudgeted t) {a : Accepted}
    (h : RootsRecorded (getRoleType seat.key) t log (rootsOf t s))
    (ha : (slotRecorder net seat slot).Accepts a s) :
    RootsRecorded (getRoleType seat.key) t (a :: log)
      (((slotRecorder net seat slot).record a s).seenRootsFor t) := by
  obtain ⟨rc, p⟩ := a
  have haccepts := ha
  obtain ⟨⟨message, hmessage⟩, ⟨hkey, -⟩, -⟩ := ha
  have hvalid := plan_valid hmessage
  cases p with
  | consensus signed ci msg =>
    -- There are no packets of the type, and no roots before or after.
    have hnone : acceptedRoots t log = [] := h.role.resolve_left (hkey ▸ role_ne_of_plan hmessage)
    have hroots : rootsOf t s = [] := by
      rw [← toFinset_eq_empty_iff, h.eq_spent, hnone, spent_nil]
    have hrecord := (Plan.record_consensus rc signed ci hvalid
      (s.getD (.new msg.height msg.round))).roots t
    have hnew : ((slotRecorder net seat slot).record ⟨rc, .consensus signed ci msg⟩ s).seenRootsFor
      t
        = [] := by
      refine hrecord.trans ?_
      split
      · cases t <;> rfl
      · rw [seenRootsFor_getD, hroots]
    rw [hnew]
    refine ⟨nodup_nil, ?_, ?_, .inr hnone⟩
    · change _ = spent (acceptedRoots t log)
      rw [hnone]
      rfl
    · change WithinBudget _ (acceptedRoots t log)
      rw [hnone]
      trivial
  | partialSignature signed ci m signer =>
    have hrecord := (Plan.record_partialSignature rc signed ci signer hvalid.1
      (s.getD (.new m.slot firstRound))).roots t
    rw [seenRootsFor_recordRoots ht, seenRootsFor_getD] at hrecord
    change RootsRecorded _ t _ (((Plan.partialSignature signed ci m signer).record rc
      (s.getD (.new m.slot firstRound))).seenRootsFor t)
    rw [hrecord]
    by_cases hm : m.type = t
    · subst hm
      obtain ⟨hnew, hcard⟩ := spends_of_accepts ht h.nodup haccepts
      obtain ⟨hnodup, heq⟩ := foldl_recordRoot h.nodup (m.messages.map (·.signingRoot))
      have hlog : acceptedRoots m.type (⟨rc, .partialSignature signed ci m signer⟩ :: log) =
          m.roots :: acceptedRoots m.type log :=
        filterMap_cons_some (if_pos rfl)
      rw [if_pos rfl]
      refine ⟨hnodup, ?_, ?_, .inl (hkey ▸ (budgeted_of_plan ht hmessage).1)⟩
      · rw [hlog, spent_cons, ← h.eq_spent]
        exact heq
      · rw [hlog]
        rw [h.eq_spent] at hnew hcard
        exact ⟨hnew, hcard, h.within⟩
    · have hlog : acceptedRoots t (⟨rc, .partialSignature signed ci m signer⟩ :: log) =
          acceptedRoots t log :=
        filterMap_cons_none (if_neg hm)
      rw [if_neg hm]
      exact ⟨h.nodup, hlog ▸ h.eq_spent, hlog ▸ h.within, hlog ▸ h.role⟩

theorem rootsRecorded_of_history
    {C : List Accepted → Option SignerStateForSlotRound → Accepted → Prop} (ht : RootBudgeted t)
    (h : (slotRecorder net seat slot).History C log s) :
    RootsRecorded (getRoleType seat.key) t log (rootsOf t s) :=
  h.invariant (P := fun log s ↦ RootsRecorded (getRoleType seat.key) t log (rootsOf t s))
    (.nil _ t) fun _ _ _ h _ ha ↦ h.accept ht ha

end

/-! ### The result -/

/-- What a slot state says of the accepted packets of a type. -/
structure RootBudget (t : PartialSigMsgType) (log : List Accepted) (s : SignerStateForSlotRound) :
    Prop where
  /-- No root is recorded twice. -/
  nodup : (s.seenRootsFor t).Nodup
  /-- The roots recorded are those of the packets. -/
  eq_union : (s.seenRootsFor t).toFinset = spent (acceptedRoots t log)
  /-- They are within the budget. -/
  length_le : (s.seenRootsFor t).length ≤ distinctRoots t
  /-- There are no more packets than the budget. -/
  count_le : (acceptedRoots t log).length ≤ distinctRoots t
  /-- Every packet has brought a root that none of the earlier ones had. -/
  new : ∀ later a earlier roots, log = later ++ a :: earlier → a.roots? t = some roots →
    (roots \ spent (acceptedRoots t earlier)).Nonempty
  /-- What is asked of the next packet depends on the packets of its type alone. -/
  alone : ∀ m peer, m.type = t → (validatePartialSignatureMessageLimit m peer s = .ok () ↔
    (m.roots \ spent (acceptedRoots t log)).Nonempty ∧
    (spent (acceptedRoots t log) ∪ m.roots).card ≤ distinctRoots t)

/-- **The distinct-root budget.** If no message lists its committee in another order than the state
it meets, the roots recorded of each of the two types are those of the accepted packets, each once,
within the budget, and every packet has brought a new one. -/
theorem rootBudget [ValidationSpec] (net : Network) (run : LoggedRun)
    (hrun : (orderedMachine net).Reachable run) (seat : Seat) (slot : ℕ)
    (s : SignerStateForSlotRound) (hs : run.slotState seat slot = some s) (t : PartialSigMsgType)
    (ht : RootBudgeted t) : RootBudget t (run.atSlot seat slot) s := by
  have hrecorded := rootsRecorded_of_history ht (slot_history_of_ordered hrun seat slot)
  rw [hs] at hrecorded
  change RootsRecorded _ t _ (s.seenRootsFor t) at hrecorded
  refine ⟨hrecorded.nodup, hrecorded.eq_spent, ?_, hrecorded.within.length_le, ?_, ?_⟩
  · rw [← List.toFinset_card_of_nodup hrecorded.nodup, hrecorded.eq_spent]
    exact hrecorded.within.card_le
  · intro later a earlier roots hlog hroots
    have hwithin := hrecorded.within
    rw [hlog, acceptedRoots, List.filterMap_append, List.filterMap_cons_some hroots] at hwithin
    exact hwithin.new
  · rintro m peer rfl
    rw [← hrecorded.eq_spent]
    exact validatePartialSignatureMessageLimit_iff ht hrecorded.nodup

namespace Reference

def gloasNetwork : Network := { network with gloasForkEpoch := some 0 }

/-- The message ID of the validator in the role of proposer preferences. -/
def preferencesMsgID : Bytes := [0, 0, 0, 1] ++ [8, 0, 0, 0] ++ List.replicate 48 0

/-- The packet of operator `1` with signing roots, with the operators in an order. -/
def rootsPacketAt (operators : List OperatorID) (type : PartialSigMsgType) (roots : List Root) :
    ValidatorEvent :=
  .message (validatorReceipt operators) <| wireMessageCodec.write
    { signatures := [rsaSignature 1], operatorIDs := [1], fullData := none
      ssvMessage := some
        { msgType := .ssvPartialSignatureMsgType, msgID := preferencesMsgID
          data := partialSignatureMessagesCodec.write
            { type := type, slot := 0
              messages := roots.map fun root ↦
                { partialSignature := [1], signingRoot := root, signer := 1
                  validatorIndex := 17 } } } }

def rootsPacket : PartialSigMsgType → List Root → ValidatorEvent := rootsPacketAt [1, 2, 3, 4]

def preferencesSeat : Seat := ⟨preferencesMsgID, List.replicate 32 0, 1⟩

/-- Packets of both types: one repeats its own roots, one repeats seen ones, and one brings nothing
new. -/
theorem rootBudget_mixed :
    let run := loggedRunOf gloasNetwork [rootsPacket .requestAuth [1, 2, 1],
      rootsPacket .proposerPreferences [1], rootsPacket .requestAuth [2, 3],
      rootsPacket .requestAuth [3, 1]]
    ∃ s, run.slotState preferencesSeat 0 = some s ∧ s.seenRootsFor .requestAuth = [1, 2, 3] ∧
      RootBudget .requestAuth (run.atSlot preferencesSeat 0) s := by
  intro run
  have hsome : (run.slotState preferencesSeat 0).map (·.seenRootsFor .requestAuth) =
      some [1, 2, 3] := by
    decide +kernel
  obtain ⟨s, hs, hroots⟩ := Option.map_eq_some_iff.1 hsome
  refine ⟨s, hs, hroots, rootBudget gloasNetwork run ?_ preferencesSeat 0 s hs _ (.inr rfl)⟩
  exact reachable_loggedRunOf rfl rfl (by decide +kernel)

/-- After the first two operators are exchanged, the packet is accepted a second time and brings no
new root. -/
theorem roots_accepted_twice :
    let run := loggedRunOf gloasNetwork [rootsPacketAt [1, 2, 3, 4] .requestAuth [1],
      rootsPacketAt [2, 1, 3, 4] .requestAuth [1], rootsPacketAt [2, 1, 3, 4] .requestAuth [2]]
    (loggedMachine gloasNetwork).Reachable run ∧
    acceptedRoots .requestAuth (run.atSlot preferencesSeat 0) = [{2}, {1}, {1}] ∧
    (run.slotState preferencesSeat 0).map (·.seenRootsFor .requestAuth) = some [1] := by
  refine ⟨reachable_loggedMachine _ _, ?_, ?_⟩ <;> decide +kernel

end Reference

end Ssv.Validation
