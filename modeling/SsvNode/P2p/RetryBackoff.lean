import SsvNode.Lib.Machine
import Mathlib.Data.List.Chain
import Mathlib.Algebra.Group.Nat.Defs

/-!
# Retries of discovered peers

Of the two goroutines of `startDiscovery` one stores proposed peers **as untried**, and the other
selects peers in rounds, counts their tries and waits for `peerSelectionRetryCooldownMin` between
them. Two proposals of a peer may be in the channel at once, and the second makes it untried again.
-/

namespace Ssv.P2p

open Function

/-! ### The pool and its goroutines -/

/-- `discovery.DiscoveredPeer`, without the addresses. Times are in nanoseconds. -/
structure DiscoveredPeer where
  tries : ℕ := 0
  lastTry : ℕ := 0

def peerSelectionRetryCooldownMin : ℕ := 30 * 10 ^ 9

/-- `minDiscoveryTime`, from the start. -/
def minDiscoveryTime : ℕ := 60 * 10 ^ 9

def connectorQueueSize : ℕ := 2048

/-- What `peerSelectionScore` says besides the score. -/
def DiscoveredPeer.ready (now : ℕ) (d : DiscoveredPeer) : Bool :=
  d.tries = 0 || d.lastTry + peerSelectionRetryCooldownMin ≤ now

/-- Where the selection loop is: `selecting` so many more peers. -/
inductive Phase where
  | idle
  | selecting (remaining : ℕ)
  | forwarding
  deriving DecidableEq

/-- The pool, and what was selected. -/
structure Discovery (ρ : Type) where
  now : ℕ := 0
  connectorProposals : List ρ := []
  discoveredPeersPool : ρ → Option DiscoveredPeer := fun _ ↦ none
  phase : Phase := .idle
  peersToConnect : ρ → Option DiscoveredPeer := fun _ ↦ none
  /-- When a peer was forwarded since it came into the pool, the last time first. -/
  forwarded : ρ → List ℕ := fun _ ↦ []

namespace Discovery

variable {ρ : Type} [DecidableEq ρ]

inductive Action (ρ : Type) where
  | wait (d : ℕ)
  | discover (p : ρ)
  | store
  | remove (p : ρ)
  | startRound (vacantOutboundSlots : ℕ)
  | select (p : ρ)
  | endSelection
  | forward (p : ρ)
  | endRound

def Candidate (s : Discovery ρ) (p : ρ) : Prop :=
  s.peersToConnect p = none ∧ ∃ d, s.discoveredPeersPool p = some d ∧ d.ready s.now

def enabled (s : Discovery ρ) : Action ρ → Prop
  | .wait _ | .discover _ | .remove _ => True
  | .store => s.connectorProposals ≠ []
  | .startRound slots => s.phase = .idle ∧ minDiscoveryTime ≤ s.now ∧ 0 < slots
  | .select p => (∃ n, s.phase = .selecting (n + 1)) ∧ s.Candidate p
  | .endSelection => ∃ n, s.phase = .selecting n ∧ (n = 0 ∨ ∀ p, ¬ s.Candidate p)
  | .forward p => s.phase = .forwarding ∧ s.peersToConnect p ≠ none
  | .endRound => s.phase = .forwarding ∧ ∀ p, s.peersToConnect p = none

/-- `forward` writes the entry and sends the peer to the connector at once. -/
def next (s : Discovery ρ) : Action ρ → Discovery ρ
  | .wait d => { s with now := s.now + d }
  | .discover p =>
    if s.discoveredPeersPool p = none ∧ s.connectorProposals.length < connectorQueueSize then
      { s with connectorProposals := s.connectorProposals ++ [p] }
    else s
  | .store =>
    match s.connectorProposals with
    | [] => s
    | p :: rest => { s with
        connectorProposals := rest
        discoveredPeersPool := Function.update s.discoveredPeersPool p (some {}) }
  | .remove p => { s with
      discoveredPeersPool := Function.update s.discoveredPeersPool p none
      forwarded := Function.update s.forwarded p [] }
  | .startRound slots => { s with phase := .selecting slots }
  | .select p => { s with
      phase := match s.phase with
        | .selecting (n + 1) => .selecting n
        | phase => phase
      peersToConnect := Function.update s.peersToConnect p (s.discoveredPeersPool p) }
  | .endSelection => { s with phase := .forwarding }
  | .forward p => { s with
      discoveredPeersPool := Function.update s.discoveredPeersPool p
        ((s.peersToConnect p).map fun d ↦ ⟨d.tries + 1, s.now⟩)
      peersToConnect := Function.update s.peersToConnect p none
      forwarded := Function.update s.forwarded p (s.now :: s.forwarded p) }
  | .endRound => { s with phase := .idle }

end Discovery

/-- The goroutines, in every interleaving. -/
def discovery (ρ : Type) [DecidableEq ρ] : Machine (Discovery ρ) (Discovery.Action ρ) where
  initial := (· = {})
  enabled := Discovery.enabled
  next := Discovery.next

/-! ### Backoff -/

namespace Discovery

variable {ρ : Type} [DecidableEq ρ] {s : Discovery ρ} {a : Action ρ}

/-- Between two tries of a peer there is the cooldown, and all tries are counted. -/
def BacksOff (s : Discovery ρ) : Prop :=
  ∀ p d, s.discoveredPeersPool p = some d → d.tries = (s.forwarded p).length ∧
    (s.forwarded p).IsChain fun later earlier ↦ earlier + peerSelectionRetryCooldownMin ≤ later

/-- No proposal makes a tried peer untried, and no peer leaves the pool while it is selected. -/
def Undisturbed (s : Discovery ρ) : Action ρ → Prop
  | .store => ∀ p ∈ s.connectorProposals.head?, ∀ d ∈ s.discoveredPeersPool p, d.tries = 0
  | .remove p => s.peersToConnect p = none
  | _ => True

/-- The pool counts the times of forwarding. -/
structure Counted (now : ℕ) (entry selected : Option DiscoveredPeer) (times : List ℕ) : Prop where
  times_eq : entry = none → times = []
  tries : ∀ d ∈ entry, d.tries = times.length
  lastTry : ∀ d ∈ entry, ∀ t ∈ times.head?, t = d.lastTry
  chain : times.IsChain fun later earlier ↦ earlier + peerSelectionRetryCooldownMin ≤ later
  selected : ∀ d ∈ selected, ∃ e ∈ entry, e.tries = d.tries ∧ e.ready now

namespace Counted

variable {now : ℕ} {entry selected : Option DiscoveredPeer} {times : List ℕ} {d : DiscoveredPeer}

theorem absent (now : ℕ) : Counted now none none [] := ⟨fun _ ↦ rfl, nofun, nofun, .nil, nofun⟩

theorem ready_mono {later : ℕ} (hle : now ≤ later) (h : d.ready now) : d.ready later := by
  unfold DiscoveredPeer.ready at *
  simp only [Bool.or_eq_true, decide_eq_true_eq] at *
  omega

theorem wait {later : ℕ} (hle : now ≤ later) (h : Counted now entry selected times) :
    Counted later entry selected times :=
  { h with
    selected := fun d hd ↦
      (h.selected d hd).imp fun _ ↦ And.imp_right (And.imp_right (ready_mono hle)) }

theorem store (hentry : ∀ d ∈ entry, d.tries = 0) (h : Counted now entry selected times) :
    Counted now (some {}) selected times := by
  have htimes : times = [] := by
    cases entry with
    | none => exact h.times_eq rfl
    | some d => exact List.length_eq_zero_iff.mp ((h.tries d rfl).symm.trans (hentry d rfl))
  subst htimes
  refine ⟨nofun, ?_, nofun, .nil, fun d hd ↦ ?_⟩
  · rintro _ ⟨⟩
    rfl
  · obtain ⟨e, he, htries, -⟩ := h.selected d hd
    exact ⟨{}, rfl, (hentry e he).symm.trans htries, rfl⟩

theorem forward (h : Counted now entry (some d) times) :
    Counted now (some ⟨d.tries + 1, now⟩) none (now :: times) := by
  obtain ⟨e, he, htries, hready⟩ := h.selected d rfl
  refine ⟨nofun, ?_, ?_, List.isChain_cons.2 ⟨fun t ht ↦ ?_, h.chain⟩, nofun⟩
  · rintro _ ⟨⟩
    show d.tries + 1 = times.length + 1
    rw [← htries, h.tries e he]
  · rintro _ ⟨⟩ _ ⟨⟩
    rfl
  · obtain rfl := h.lastTry e he t ht
    have hpos : e.tries ≠ 0 := by
      rw [h.tries e he]
      rintro hlen
      rw [List.length_eq_zero_iff.mp hlen] at ht
      cases ht
    simpa [DiscoveredPeer.ready, hpos] using hready

end Counted

def Booked (s : Discovery ρ) : Prop :=
  ∀ p, Counted s.now (s.discoveredPeersPool p) (s.peersToConnect p) (s.forwarded p)

theorem Booked.update (h : s.Booked) (p : ρ) {entry selected : Option DiscoveredPeer}
    {times : List ℕ} (hp : Counted s.now entry selected times) (q : ρ) :
    Counted s.now (update s.discoveredPeersPool p entry q)
      (update s.peersToConnect p selected q) (update s.forwarded p times q) := by
  by_cases hq : q = p
  · subst hq
    simpa only [update_self] using hp
  · simpa only [update_of_ne hq] using h q

/-- Every step keeps the books. -/
theorem Booked.next (h : s.Booked) (ha : s.enabled a) (hun : s.Undisturbed a) :
    (s.next a).Booked := by
  cases a with
  | wait d => exact fun q ↦ (h q).wait (Nat.le_add_right _ _)
  | startRound | endSelection | endRound => exact h
  | discover p =>
    rw [Discovery.next]
    split <;> exact h
  | store =>
    rw [Discovery.next]
    split
    · exact h
    · next p rest hproposals =>
      have hp := h.update p ((h p).store (hun p (by rw [hproposals]; rfl)))
      rwa [update_eq_self, update_eq_self] at hp
  | remove p =>
    have hp : Counted s.now none (s.peersToConnect p) [] := by
      rw [show s.peersToConnect p = none from hun]
      exact .absent s.now
    have hbooked := h.update p hp
    rwa [update_eq_self] at hbooked
  | select p =>
    obtain ⟨-, -, d, hd, hready⟩ := ha
    have hp := h.update p { h p with
      selected := fun e he ↦ ⟨e, he, rfl, Option.some.inj (hd.symm.trans he) ▸ hready⟩ }
    rwa [update_eq_self, update_eq_self] at hp
  | forward p =>
    obtain ⟨d, hd⟩ := Option.ne_none_iff_exists'.mp ha.2
    have hp := h.update p (hd ▸ h p).forward
    rw [Discovery.next, hd]
    exact hp

/-- **Retries back off, and are counted, in every undisturbed run.** -/
theorem backsOff_of_undisturbed (hs : ((discovery ρ).restrict Undisturbed).Reachable s) :
    s.BacksOff := by
  have hbooked : s.Booked := by
    refine hs.invariant ?_ fun s a _ h ha ↦ h.next ha.1 ha.2
    rintro _ rfl _
    exact .absent 0
  exact fun p d hd ↦ ⟨(hbooked p).tries d hd, (hbooked p).chain⟩

namespace Reference

def round : List (Action (Fin 1)) :=
  [.startRound 1, .select 0, .endSelection, .forward 0, .endRound]

/-- A peer is forwarded, discovered again, and forwarded 30 seconds later. -/
def discovered : List (Action (Fin 1)) :=
  [.discover 0, .store, .wait minDiscoveryTime] ++ round ++
    [.discover 0, .wait peerSelectionRetryCooldownMin] ++ round

theorem backsOff_of_undisturbed_discovered :
    ((discovery (Fin 1)).restrict Undisturbed).Reachable
      (discovered.foldl (discovery (Fin 1)).next {}) ∧
      (discovered.foldl (discovery (Fin 1)).next {}).forwarded 0 = [90 * 10 ^ 9, 60 * 10 ^ 9] ∧
      (discovered.foldl (discovery (Fin 1)).next {}).BacksOff := by
  have hs : ((discovery (Fin 1)).restrict Undisturbed).Reachable
      (discovered.foldl (discovery (Fin 1)).next {}) := by
    refine .foldl (.initial rfl) ?_
    simp [discovered, round, Machine.Enables, Machine.restrict, discovery, enabled, Discovery.next,
      Candidate,
      Undisturbed, DiscoveredPeer.ready, connectorQueueSize]
  exact ⟨hs, rfl, backsOff_of_undisturbed hs⟩

/-- A peer is proposed twice before it is stored, and is forwarded again 15 seconds later. -/
def reproposed : List (Action (Fin 1)) :=
  [.discover 0, .discover 0, .store, .wait minDiscoveryTime] ++ round ++
  [.store, .wait (15 * 10 ^ 9)] ++ round

theorem reproposed_not_backsOff : ∃ s : Discovery (Fin 1), (discovery (Fin 1)).Reachable s ∧
    s.forwarded 0 = [75 * 10 ^ 9, 60 * 10 ^ 9] ∧ ¬ s.BacksOff := by
  refine ⟨reproposed.foldl (discovery (Fin 1)).next {}, .foldl (.initial rfl) ?_, rfl, fun h ↦ ?_⟩
  · simp [reproposed, round, Machine.Enables, discovery, enabled, Discovery.next, Candidate,
      DiscoveredPeer.ready, connectorQueueSize]
  · exact absurd (h 0 _ rfl).1 (by decide)

end Reference

end Discovery

end Ssv.P2p
