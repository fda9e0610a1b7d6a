import Mathlib.Data.Int.ConditionallyCompleteOrder
import Mathlib.Tactic.Linarith
import Mathlib.Tactic.Ring

/-!
# A clock that ticks at two paces

The first `T` ticks are `quick` apart and all later ones `slow`. `boundary r` is the time of the
`r`-th tick, and `ticksAt x`, one division per pace, is its **exact inverse** (`ticksAt_eq_iff`).
-/

namespace TwoPaceClock

variable {T : ℕ} {quick slow : ℤ}

def boundary (T : ℕ) (quick slow : ℤ) (r : ℕ) : ℤ :=
  if r ≤ T then r * quick else T * quick + (r - T : ℕ) * slow

def ticksAt (T : ℕ) (quick slow x : ℤ) : ℕ :=
  if x < T * quick then (x / quick).toNat else T + ((x - T * quick) / slow).toNat

theorem boundary_of_le {r : ℕ} (h : r ≤ T) : boundary T quick slow r = r * quick := if_pos h

theorem boundary_add (n : ℕ) : boundary T quick slow (T + n) = T * quick + n * slow := by
  rcases Nat.eq_zero_or_pos n with rfl | hn
  · rw [Nat.add_zero, boundary_of_le le_rfl]
    simp
  · rw [boundary, if_neg (by omega), Nat.add_sub_cancel_left]

theorem boundary_strictMono (hquick : 0 < quick) (hslow : 0 < slow) :
    StrictMono (boundary T quick slow) := by
  refine strictMono_nat_of_lt_succ fun r ↦ ?_
  rcases Nat.lt_or_ge r T with h | h
  · rw [boundary_of_le (Nat.le_of_lt h), boundary_of_le (Nat.succ_le_of_lt h)]
    push_cast
    linarith
  · obtain ⟨n, rfl⟩ := Nat.exists_eq_add_of_le h
    rw [Nat.add_assoc, boundary_add, boundary_add]
    push_cast
    linarith

theorem boundary_ticksAt (hquick : 0 < quick) (hslow : 0 < slow) {x : ℤ} (hx : 0 ≤ x) :
    boundary T quick slow (ticksAt T quick slow x) ≤ x ∧
      x < boundary T quick slow (ticksAt T quick slow x + 1) := by
  unfold ticksAt
  split
  · next hquickly =>
    have hdiv : 0 ≤ x / quick := Int.ediv_nonneg hx hquick.le
    obtain ⟨n, hn⟩ := Int.eq_ofNat_of_zero_le hdiv
    obtain ⟨hlow, hhigh⟩ := (Int.ediv_eq_iff_of_pos hquick).1 hn
    have hT : n < T := by
      have : (n : ℤ) * quick < T * quick := lt_of_le_of_lt hlow hquickly
      exact_mod_cast lt_of_mul_lt_mul_right this hquick.le
    rw [hn, Int.toNat_natCast, boundary_of_le hT.le, boundary_of_le (Nat.succ_le_of_lt hT)]
    push_cast
    exact ⟨hlow, by linarith⟩
  · next hslowly =>
    have hdiv : 0 ≤ (x - T * quick) / slow := Int.ediv_nonneg (by linarith) hslow.le
    obtain ⟨n, hn⟩ := Int.eq_ofNat_of_zero_le hdiv
    obtain ⟨hlow, hhigh⟩ := (Int.ediv_eq_iff_of_pos hslow).1 hn
    rw [hn, Int.toNat_natCast, Nat.add_assoc, boundary_add, boundary_add]
    push_cast
    exact ⟨by linarith, by linarith⟩

/-- **Counting ticks inverts the boundaries.** -/
theorem ticksAt_eq_iff (hquick : 0 < quick) (hslow : 0 < slow) {x : ℤ} (hx : 0 ≤ x) {r : ℕ} :
    ticksAt T quick slow x = r ↔ boundary T quick slow r ≤ x ∧
      x < boundary T quick slow (r + 1) := by
  have hmono : StrictMono (boundary T quick slow) := boundary_strictMono hquick hslow
  obtain ⟨hlow, hhigh⟩ := boundary_ticksAt (T := T) hquick hslow hx
  constructor
  · rintro rfl
    exact ⟨hlow, hhigh⟩
  · rintro ⟨hlow', hhigh'⟩
    have h := hmono.lt_iff_lt.1 (lt_of_le_of_lt hlow hhigh')
    have h' := hmono.lt_iff_lt.1 (lt_of_le_of_lt hlow' hhigh)
    omega

end TwoPaceClock
