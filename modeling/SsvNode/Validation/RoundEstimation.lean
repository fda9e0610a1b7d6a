import SsvNode.Lib.TwoPaceClock
import SsvNode.Validation.Network

/-!
# The round a peer is in

`EstimatedRoundAt` computes from the time the round a peer should be in, and `roundTimeoutForRound`
when the timer of a round fires: eight quick rounds and then slow ones after a head start, written
independently. The first inverts the second (`estimatedRoundAt_eq_iff`), for rounds whose timeout
does not overflow.
-/

namespace Ssv.Validation.Roundtimer

open TwoPaceClock

def durationFromUint64 (t : ℕ) : Int := if t > maxInt64 then maxInt64 else t

def roundTimeoutForRound (role : RunnerRole) (intervalDuration quick : Int) (round : ℕ) : Int :=
  let headStart := round1HeadStart role intervalDuration
  if round ≤ quickTimeoutThreshold then
    wrap64 (headStart + wrap64 (durationFromUint64 round * quick))
  else
    let quickPortion := wrap64 (durationFromUint64 quickTimeoutThreshold * quick)
    let slowPortion := wrap64 (durationFromUint64 (round - quickTimeoutThreshold) * slowTimeout)
    wrap64 (wrap64 (headStart + quickPortion) + slowPortion)

/-! ### Without overflow -/

def Fits (d : Int) : Prop := -2 ^ 63 ≤ d ∧ d < 2 ^ 63

instance (d : Int) : Decidable (Fits d) := inferInstanceAs (Decidable (_ ∧ _))

theorem wrap64_of_fits {d : Int} (h : Fits d) : wrap64 d = d := by
  obtain ⟨hlow, hhigh⟩ := h
  exact Int.bmod_eq_of_le (by norm_num at hlow ⊢; omega) (by norm_num at hhigh ⊢; omega)

def headStartIntervals : RunnerRole → ℕ
  | .committee => 1
  | .aggregator | .syncCommitteeContribution | .aggregatorCommittee => 2
  | _ => 0

def exactHeadStart (role : RunnerRole) (intervalDuration : Int) : Int :=
  headStartIntervals role * intervalDuration

/-- The timeout of a round, with the role's default quick budget. -/
def exactTimeout (role : RunnerRole) (intervalDuration : Int) (round : ℕ) : Int :=
  exactHeadStart role intervalDuration +
    boundary quickTimeoutThreshold (defaultQuickTimeoutForRole role) slowTimeout round

variable {interval : Int} {role : RunnerRole}

theorem round1HeadStart_eq (h : Fits (exactHeadStart role interval)) :
    round1HeadStart role interval = exactHeadStart role interval := by
  unfold exactHeadStart headStartIntervals at h ⊢
  unfold round1HeadStart
  cases role <;> first | exact wrap64_of_fits h | simp

theorem defaultQuickTimeoutForRole_pos (role : RunnerRole) :
    0 < defaultQuickTimeoutForRole role := by
  unfold defaultQuickTimeoutForRole second millisecond
  split <;> norm_num

theorem slowTimeout_pos : 0 < slowTimeout := by
  unfold slowTimeout second
  norm_num

theorem Fits.of_le {d d' : Int} (h : Fits d') (hnonneg : 0 ≤ d) (hle : d ≤ d') : Fits d :=
  ⟨by norm_num; omega, lt_of_le_of_lt hle h.2⟩

theorem durationFromUint64_eq {n : ℕ} (h : Fits n) : durationFromUint64 n = n := by
  have hle : ¬ n > maxInt64 := by
    have := h.2
    unfold maxInt64
    norm_num at this ⊢
    omega
  exact if_neg hle

theorem boundary_nonneg (role : RunnerRole) (round : ℕ) :
    0 ≤ boundary quickTimeoutThreshold (defaultQuickTimeoutForRole role) slowTimeout round := by
  have hmono := (boundary_strictMono (T := quickTimeoutThreshold)
    (defaultQuickTimeoutForRole_pos role) slowTimeout_pos).monotone (Nat.zero_le round)
  rwa [boundary_of_le (Nat.zero_le _), Nat.cast_zero, zero_mul] at hmono

theorem exactHeadStart_nonneg (h : 0 ≤ interval) : 0 ≤ exactHeadStart role interval :=
  mul_nonneg (Int.natCast_nonneg _) h

theorem fits_of_fits_exactTimeout {round : ℕ}
    (hinterval : 0 ≤ interval) (h : Fits (exactTimeout role interval round)) :
    Fits (exactHeadStart role interval) ∧ Fits (boundary quickTimeoutThreshold
      (defaultQuickTimeoutForRole role) slowTimeout round) := by
  have hhead : 0 ≤ exactHeadStart role interval := exactHeadStart_nonneg hinterval
  have hboundary := boundary_nonneg role round
  unfold exactTimeout at h
  exact ⟨h.of_le hhead (by omega), h.of_le hboundary (by omega)⟩

/-- **A timeout that does not overflow is the number meant.** -/
theorem roundTimeoutForRound_eq {round : ℕ}
    (hinterval : 0 ≤ interval) (h : Fits (exactTimeout role interval round)) :
    roundTimeoutForRound role interval (defaultQuickTimeoutForRole role) round =
      exactTimeout role interval round := by
  obtain ⟨hhead, hboundary⟩ := fits_of_fits_exactTimeout hinterval h
  have hhead' : 0 ≤ exactHeadStart role interval := exactHeadStart_nonneg hinterval
  have hquick := defaultQuickTimeoutForRole_pos role
  unfold exactTimeout at h ⊢
  unfold roundTimeoutForRound
  rw [round1HeadStart_eq hhead]
  rcases Nat.lt_or_ge quickTimeoutThreshold round with hround | hround
  · obtain ⟨n, rfl⟩ := Nat.exists_eq_add_of_lt hround
    rw [Nat.add_assoc, boundary_add] at h hboundary ⊢
    have hpart : 0 ≤ (quickTimeoutThreshold : Int) * defaultQuickTimeoutForRole role :=
      mul_nonneg (Int.natCast_nonneg _) hquick.le
    have hslow : 0 ≤ ((n + 1 : ℕ) : Int) * slowTimeout :=
      mul_nonneg (Int.natCast_nonneg _) slowTimeout_pos.le
    have hslowFits := hboundary.of_le hslow (by omega)
    have hquickFits := hboundary.of_le hpart (by omega)
    have hsum : Fits (exactHeadStart role interval +
        quickTimeoutThreshold * defaultQuickTimeoutForRole role) :=
      h.of_le (by omega) (by omega)
    have hn : Fits (n + 1 : ℕ) := hslowFits.of_le (Int.natCast_nonneg _)
      (le_mul_of_one_le_right (Int.natCast_nonneg _) slowTimeout_pos)
    have hT : Fits quickTimeoutThreshold := by decide
    simp only [if_neg (show ¬ quickTimeoutThreshold + (n + 1) ≤ quickTimeoutThreshold by omega),
      Nat.add_sub_cancel_left, durationFromUint64_eq hn, durationFromUint64_eq hT,
      wrap64_of_fits hslowFits, wrap64_of_fits hquickFits, wrap64_of_fits hsum]
    rw [add_assoc, wrap64_of_fits h]
  · rw [boundary_of_le hround] at h hboundary ⊢
    have hfits : Fits round :=
      hboundary.of_le (Int.natCast_nonneg _) (le_mul_of_one_le_right (Int.natCast_nonneg _) hquick)
    simp only [if_pos hround, durationFromUint64_eq hfits, wrap64_of_fits hboundary,
      wrap64_of_fits h]

/-- The estimate counts the ticks of a clock that starts after the head start. -/
theorem estimatedRoundAt_eq {t : Int}
    (hhead : Fits (exactHeadStart role interval)) (ht : Fits (t - exactHeadStart role interval)) :
    estimatedRoundAt role interval t =
      if t < exactHeadStart role interval then firstRound
      else firstRound + ticksAt quickTimeoutThreshold (defaultQuickTimeoutForRole role) slowTimeout
        (t - exactHeadStart role interval) := by
  unfold estimatedRoundAt ticksAt
  rw [round1HeadStart_eq hhead, wrap64_of_fits ht]
  dsimp only
  by_cases hearly : t < exactHeadStart role interval
  · rw [if_pos (by omega), if_pos hearly]
  · rw [if_neg (by omega), if_neg hearly, Int.tdiv_eq_ediv_of_nonneg (by omega)]
    split
    · rfl
    · rw [Int.tdiv_eq_ediv_of_nonneg (by omega), Nat.add_assoc]

/-- **The estimate inverts the timer**: it is this round exactly if the timer of the round before
has fired and its own has not. -/
theorem estimatedRoundAt_eq_iff (role : RunnerRole) (interval t : Int) (hinterval : 0 ≤ interval)
    (ht : Fits (t - exactHeadStart role interval)) (round : ℕ)
    (hround : Fits (exactTimeout role interval round)) :
    estimatedRoundAt role interval t = round ↔
      firstRound ≤ round ∧
        (round = firstRound ∨
          roundTimeoutForRound role interval (defaultQuickTimeoutForRole role) (round - 1) ≤ t) ∧
        t < roundTimeoutForRound role interval (defaultQuickTimeoutForRole role) round := by
  obtain ⟨hhead, -⟩ := fits_of_fits_exactTimeout hinterval hround
  have hquick := defaultQuickTimeoutForRole_pos role
  have hmono : StrictMono (boundary quickTimeoutThreshold (defaultQuickTimeoutForRole role)
    slowTimeout) := boundary_strictMono hquick slowTimeout_pos
  rw [estimatedRoundAt_eq hhead ht, roundTimeoutForRound_eq hinterval hround]
  rcases round with - | n
  · -- there is no round 0
    have hpos : firstRound ≠ 0 := by decide
    refine iff_of_false ?_ fun h ↦ absurd h.1 (by decide)
    split <;> omega
  have hnonneg := boundary_nonneg role n
  have hlt := hmono (Nat.lt_add_one n)
  have hprevious : Fits (exactTimeout role interval n) :=
    hround.of_le (add_nonneg (exactHeadStart_nonneg hinterval) hnonneg)
      (Int.add_le_add_left hlt.le _)
  rw [Nat.add_sub_cancel, roundTimeoutForRound_eq hinterval hprevious]
  unfold exactTimeout firstRound
  by_cases hearly : t < exactHeadStart role interval
  · -- before the head start has passed it is the first round, and no timer has fired
    rw [if_pos hearly]
    omega
  · rw [if_neg hearly, Nat.add_comm 1, Nat.succ_inj,
      ticksAt_eq_iff hquick slowTimeout_pos (by omega)]
    rcases n with - | n
    · rw [boundary_of_le (Nat.zero_le _), Nat.cast_zero, zero_mul]
      omega
    · omega

/-- A committee peer with an interval of four seconds, when the first slow round starts. -/
theorem estimatedRoundAt_eq_iff_firstSlow :
    estimatedRoundAt .committee (4 * second) (20 * second) = 9 :=
  (estimatedRoundAt_eq_iff .committee (4 * second) (20 * second) (by decide) (by decide) 9
    (by decide)).2 (by decide)

end Ssv.Validation.Roundtimer
