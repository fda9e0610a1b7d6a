import SsvNode.Qbft.Agreement

/-!
# What is decided has been checked

`isValidProposal` asks the value check before an operator prepares, and the protocol does not ask it
again. It need not: behind a decision stands a quorum of commits, behind a commit a quorum of
prepares, and each of them has an honest member (`Cluster.decided_checked`).
-/

namespace Ssv

open SsvSpec List

section

variable [SsvSpec] {h : ℕ} {P : Data → Prop}

/-- A value check for height `h` accepts nothing but `P`. -/
def Call.ChecksFor (h : ℕ) (P : Data → Prop) : Call → Prop
  | .startNewInstance _ height _ checker => height = h → ∀ now v, checker now v = .ok () → P v
  | _ => True

theorem Instance.Step.valueChecker_eq {i i' : Instance} {now : ℕ} {input : Instance.Input}
    {es : List Event} (hstep : i.Step now input i' es) : i'.valueChecker = i.valueChecker := by
  cases hstep <;> rfl

namespace Node

variable {n : Node} {call : Call}

/-- What the node has prepared at the height was accepted as `P`. -/
structure Checked (h : ℕ) (P : Data → Prop) (n : Node) : Prop where
  instances : ∀ x ∈ n.controller.items, x.state.decided = false → x.getHeight = h →
    ∀ now v, x.checkValue now v = .ok () → P v
  prepares : ∀ m, Sent n.log m → m.height = h → m.msgType = .prepare → ∃ v,
    P v ∧ hashDataRoot v = m.root

namespace Checked

theorem instances_perform (hc : n.Checked h P) (hn : n.Inv) (hcall : call.ChecksFor h P)
    {x : Instance} (hx : x ∈ (n.perform call).controller.items) (hund : x.state.decided = false)
    (hh : x.getHeight = h) {now : ℕ} {v : Data} (hv : x.checkValue now v = .ok ()) : P v := by
  cases (n.step call).origin hn.wellFormed hx hund with
  | @kept y mem same quiet =>
    rcases same with rfl | rfl
    · exact hc.instances x mem hund hh now v hv
    · exact hc.instances y mem hund hh now v hv
  | started call_eq le absent eq sends =>
    subst eq call_eq
    exact hcall hh now v hv
  | @stepped y now' input es₀ mem undecided hands hstep events =>
    refine hc.instances y mem undecided (hstep.height_eq.symm.trans hh) now v ?_
    rwa [Instance.checkValue, ← hstep.valueChecker_eq]

/-- A new prepare is for a proposal whose value has been checked. -/
theorem of_new_prepare (hc : n.Checked h P) (hn : n.Inv) {m : Message}
    (hm : Sent (n.eventsOf call) m) (hh : m.height = h) (ht : m.msgType = .prepare) :
    ∃ v, P v ∧ hashDataRoot v = m.root := by
  cases (n.step call).sentBy hn.wellFormed hm with
  | start proposal => simp [ht] at proposal
  | @step inst inst' now input es₀ mem undecided height hands hstep mem' events =>
    cases hstep.vote (events.1 hm) (.inl ht) with
    | @prepare msg msgType valid round root =>
      obtain ⟨rcs, prepares, -, -, hjust⟩ := (Instance.isValidProposal_iff.1 valid).justified
      have hvalue := (Instance.isProposalJustification_iff.1 hjust).1
      exact ⟨_, hc.instances inst mem undecided (height.symm.trans hh) now _ hvalue, root.symm⟩
    | commit msgType | follow msgType | timeout msgType => simp [ht] at msgType

theorem perform (hc : n.Checked h P) (hn : n.Inv) (hcall : call.ChecksFor h P) :
    (n.perform call).Checked h P where
  instances _ hx hund hh _ _ hv := hc.instances_perform hn hcall hx hund hh hv
  prepares m hm hh ht := by
    rcases sent_append.1 hm with hm | hm
    · exact hc.prepares m hm hh ht
    · exact hc.of_new_prepare hn hm hh ht

end Checked

end Node

namespace Cluster

variable {C : Cluster} {net : Network} {op : OperatorID} {v : Data}

theorem checked_of_reachable
    (hnet : ((C.machine h).restrict fun _ a ↦ a.call.ChecksFor h P).Reachable net) :
    ∀ op, C.Honest op → (net op).Checked h P := by
  refine hnet.invariant (P := fun net ↦ ∀ op, C.Honest op → (net op).Checked h P) ?_ ?_
  · rintro _ rfl op -
    exact ⟨fun _ hx ↦ absurd hx not_mem_nil, fun _ hm ↦ absurd hm not_sent_nil⟩
  · intro net a hreach ih ha
    have hop := ha.1.1.1
    exact forall_honest_act (P := fun _ n ↦ n.Checked h P) ih
      ((ih _ hop).perform ((Inv.of_reachable hreach.of_restrict).node _ hop) ha.2)

/-- **External validity.** If the value checks of a height accept only `P`, an honest operator
decides only `P`, up to a collision of the hash. -/
theorem decided_checked
    (hnet : ((C.machine h).restrict fun _ a ↦ a.call.ChecksFor h P).Reachable net)
    (hop : C.Honest op) (hv : (net op).Decided h v) :
    ∃ w, P w ∧ hashDataRoot w = hashDataRoot v := by
  have hinv := Inv.of_reachable hnet.of_restrict
  obtain ⟨r, hr⟩ := (hinv.marked op hop).exists_of_decided (hinv.node op hop) hv
  obtain ⟨x, hx, hcommit⟩ := (hinv.decided_backed op hop r v hr).weakly.exists_honest
  obtain ⟨y, hy, m, hm, hheight, htype, -, hroot⟩ :=
    (hinv.commit_backed x hx r _ hcommit).weakly.exists_honest
  rw [← hroot]
  exact (checked_of_reachable hnet y hy).prepares m hm hheight htype

end Cluster

end

namespace Cluster

open Reference

local instance checkedSpec : SsvSpec := spec

theorem decided_checked_decideTwo : (decideTwo 3).Decided 1 value ∧
    ∃ w, Data.bytes w ≠ [] ∧ hashDataRoot w = hashDataRoot value := by
  have hthree : (decideTwo 3).Decided 1 value := .inl ⟨1, by decide +kernel⟩
  refine ⟨hthree, decided_checked (C := fourOperators) ?_ (by decide) hthree⟩
  refine reachable_decideTwo.invariant (fun _ hs ↦ .initial hs) fun _ a _ ih ha ↦ ih.step ⟨ha, ?_⟩
  obtain ⟨_, call⟩ := a
  cases call with
  | startNewInstance => exact fun _ ↦ ha.2
  | _ => trivial

end Cluster

end Ssv
