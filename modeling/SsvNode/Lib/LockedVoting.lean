import SsvNode.Lib.Quorum

/-!
# Agreement from locked votes

Members cast *prepare* and *commit* votes for a value and *round changes*, which name the last
prepared round (`0` for none). `VoteRecord.Lawful` lists what the votes of honest members satisfy.

If a quorum commits to `v` in round `r`, every honest prepare of a later round `r'` is for `v`
(`Lawful.prepare_eq_of_committed`), by strong induction on `r'`: among the round changes that
justify it one is of an honest member that committed in `r`, so they name a round in `[r, r')`.
-/

/-- Who voted for what. -/
structure VoteRecord (α V : Type) where
  prepare : α → ℕ → V → Prop
  commit : α → ℕ → V → Prop
  /-- `roundChange x r d`: a round change by `x` to round `r`, last prepared in round `d`. -/
  roundChange : α → ℕ → ℕ → Prop

namespace VoteRecord

variable {α V : Type} [DecidableEq α] {S : QuorumSystem α} {R : VoteRecord α V} {r r' : ℕ}
    {v v' : V}

/-- What justifies a prepare for `v` in round `r`: a quorum has moved to `r` naming rounds of at
most `d`, and none was prepared or a quorum prepared `v` in round `d`. -/
def Justified (S : QuorumSystem α) (R : VoteRecord α V) (r : ℕ) (v : V) : Prop :=
  r = 1 ∨ ∃ d, S.Backed (fun x ↦ ∃ d' ≤ d, R.roundChange x r d') ∧
    (d = 0 ∨ (d < r ∧ S.Backed fun x ↦ R.prepare x d v))

theorem Justified.mono {R' : VoteRecord α V} (h : Justified S R r v)
    (hp : ∀ x r v, R.prepare x r v → R'.prepare x r v)
    (hrc : ∀ x r d, R.roundChange x r d → R'.roundChange x r d) : Justified S R' r v := by
  rcases h with hone | ⟨d, hmoved, hprep⟩
  · exact .inl hone
  · refine .inr ⟨d, hmoved.mono fun x _ ⟨d', hle, hx⟩ ↦ ⟨d', hle, hrc x r d' hx⟩, ?_⟩
    exact hprep.imp_right fun ⟨hlt, hq⟩ ↦ ⟨hlt, hq.mono fun x _ hx ↦ hp x d v hx⟩

/-- What the honest members keep to. -/
structure Lawful (S : QuorumSystem α) (R : VoteRecord α V) : Prop where
  /-- One prepare per round. -/
  prepare_unique : ∀ {x r v v'}, S.Honest x → R.prepare x r v → R.prepare x r v' → v = v'
  /-- Rounds start at one. -/
  commit_pos : ∀ {x r v}, S.Honest x → R.commit x r v → 1 ≤ r
  /-- A commit rests on a quorum of prepares. -/
  commit_backed : ∀ {x r v}, S.Honest x → R.commit x r v → S.Backed fun y ↦ R.prepare y r v
  /-- After a commit, a round change names its round or a later one. -/
  locked : ∀ {x r r' v d}, S.Honest x → R.commit x r v → R.roundChange x r' d → r < r' → r ≤ d
  /-- A prepare is justified. -/
  justified : ∀ {x r v}, S.Honest x → R.prepare x r v → Justified S R r v

namespace Lawful

variable (hR : R.Lawful S)
include hR

theorem prepare_quorum_unique (h : S.Backed fun x ↦ R.prepare x r v)
    (h' : S.Backed fun x ↦ R.prepare x r v') : v = v' := by
  obtain ⟨x, hx, hp, hp'⟩ := h.inter h'
  exact hR.prepare_unique hx hp hp'

theorem prepared_of_committed (h : S.Backed fun x ↦ R.commit x r v) :
    S.Backed fun x ↦ R.prepare x r v := by
  obtain ⟨x, hx, hc⟩ := h.weakly.exists_honest
  exact hR.commit_backed hx hc

/-- **The lock holds**: once a quorum has committed to `v`, every later honest prepare is for `v`.
-/
theorem prepare_eq_of_committed (hc : S.Backed fun x ↦ R.commit x r v) :
    ∀ {r'}, r < r' → ∀ {y v'}, S.Honest y → R.prepare y r' v' → v' = v := by
  intro r'
  induction r' using Nat.strong_induction_on with
  | _ r' ih =>
    intro hlt y v' hy hp
    obtain ⟨x₀, hx₀, hc₀⟩ := hc.weakly.exists_honest
    have hpos := hR.commit_pos hx₀ hc₀
    rcases hR.justified hy hp with hone | ⟨d, hrc, hd⟩
    · omega
    -- an honest member committed in round `r` and moved to round `r'`
    obtain ⟨x, hx, ⟨d', hd', hrcx⟩, hcx⟩ := hrc.inter hc
    have hle : r ≤ d := (hR.locked hx hcx hrcx hlt).trans hd'
    rcases hd with hzero | ⟨hdlt, hprep⟩
    · omega
    rcases Nat.lt_or_ge r d with hrd | hdr
    · obtain ⟨z, hz, hpz⟩ := hprep.weakly.exists_honest
      exact ih d hdlt hrd hz hpz
    · obtain rfl : d = r := by omega
      exact hR.prepare_quorum_unique hprep (hR.prepared_of_committed hc)

theorem agreement_of_le (h : S.Backed fun x ↦ R.commit x r v)
    (h' : S.Backed fun x ↦ R.commit x r' v') (hle : r ≤ r') : v = v' := by
  have hprep' := hR.prepared_of_committed h'
  rcases Nat.lt_or_ge r r' with hlt | hge
  · obtain ⟨y, hy, hpy⟩ := hprep'.weakly.exists_honest
    exact (hR.prepare_eq_of_committed h hlt hy hpy).symm
  · obtain rfl : r = r' := by omega
    exact hR.prepare_quorum_unique (hR.prepared_of_committed h) hprep'

/-- **Agreement**: any two commit quorums are for the same value. -/
theorem agreement (h : S.Backed fun x ↦ R.commit x r v)
    (h' : S.Backed fun x ↦ R.commit x r' v') : v = v' := by
  rcases Nat.le_total r r' with hle | hle
  · exact hR.agreement_of_le h h' hle
  · exact (hR.agreement_of_le h' h hle).symm

end Lawful

end VoteRecord
