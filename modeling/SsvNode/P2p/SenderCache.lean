import Mathlib.Data.List.Dedup
import Mathlib.Order.Lattice

/-!
# The senders of a message

`msgIDHandler` of `network/topics` remembers the peers that have sent a message for a time to live.
`GetPeers` has its check **the other way round**: it returns the peers of an entry whose time is
over, and drops a fresh one. Messages stand for their IDs.
-/

namespace Ssv.P2p

open List Function

structure MsgIDEntry (ρ : Type) where
  peers : List ρ
  t : ℕ

/-- The handler with the clock and a ghost, the pairs recorded so far. -/
structure MsgIDHandler (μ ρ : Type) where
  ids : μ → Option (MsgIDEntry ρ) := fun _ ↦ none
  now : ℕ := 0
  recorded : List (ℕ × μ × ρ) := []

namespace MsgIDHandler

variable {μ ρ : Type} [DecidableEq μ] [DecidableEq ρ]

def getPeers (ttl : ℕ) (h : MsgIDHandler μ ρ) (msg : μ) : MsgIDHandler μ ρ × List ρ :=
  match h.ids msg with
  | none => (h, [])
  | some entry =>
    if entry.t + ttl ≤ h.now then (h, entry.peers) else
      ({ h with ids := update h.ids msg none }, [])

def add (h : MsgIDHandler μ ρ) (msg : μ) (pi : ρ) : MsgIDHandler μ ρ :=
  let peers := ((h.ids msg).map (·.peers)).getD []
  { h with
    ids := update h.ids msg (some ⟨if pi ∈ peers then peers else peers ++ [pi], h.now⟩)
    recorded := h.recorded ++ [(h.now, msg, pi)] }

def gc (ttl : ℕ) (h : MsgIDHandler μ ρ) : MsgIDHandler μ ρ :=
  { h with ids := fun msg ↦ (h.ids msg).filter fun entry ↦ decide (h.now < entry.t + ttl) }

inductive Action (μ ρ : Type) where
  | add (msg : μ) (pi : ρ)
  | gc
  | getPeers (msg : μ)
  | wait (d : ℕ)

def next (ttl : ℕ) (h : MsgIDHandler μ ρ) : Action μ ρ → MsgIDHandler μ ρ
  | .add msg pi => h.add msg pi
  | .gc => h.gc ttl
  | .getPeers msg => (h.getPeers ttl msg).1
  | .wait d => { h with now := h.now + d }

/-- While less than `ttl` has passed since a recording, the distinct peers in the order of their
recordings. -/
def senders (ttl : ℕ) (h : MsgIDHandler μ ρ) (msg : μ) : List ρ :=
  let pairs := h.recorded.filter fun r ↦ decide (r.2.1 = msg)
  if pairs.any fun r ↦ decide (h.now < r.1 + ttl) then (pairs.map (·.2.2)).reverse.dedup.reverse
    else []

/-- Every entry has a peer, and the time of its last recording. -/
def Dated (h : MsgIDHandler μ ρ) : Prop :=
  (∀ r ∈ h.recorded, r.1 ≤ h.now) ∧ ∀ msg e, h.ids msg = some e → e.peers ≠ [] ∧
    (∃ pi, (e.t, msg, pi) ∈ h.recorded) ∧ ∀ r ∈ h.recorded, r.2.1 = msg → r.1 ≤ e.t

variable {ttl : ℕ} {h : MsgIDHandler μ ρ} {msg : μ}

theorem Dated.next (hd : h.Dated) (a : Action μ ρ) : (h.next ttl a).Dated := by
  obtain ⟨hnow, hentry⟩ := hd
  cases a with
  | add m pi =>
    refine ⟨fun r hr ↦ ?_, fun msg e he ↦ ?_⟩
    · rcases mem_append.1 hr with hr | hr
      · exact hnow r hr
      · rw [mem_singleton.1 hr]
        exact le_refl h.now
    · simp only [MsgIDHandler.next, MsgIDHandler.add, mem_append, mem_singleton, update_apply]
        at he ⊢
      split at he
      · next hm =>
        cases he
        refine ⟨?_, ⟨pi, .inr (hm ▸ rfl)⟩, ?_⟩
        · dsimp only
          split
          · next hpi => exact ne_nil_of_mem hpi
          · exact append_ne_nil_of_right_ne_nil _ nofun
        · rintro r (hr | rfl) -
          · exact hnow r hr
          · exact le_refl h.now
      · next hm => grind
  | gc => exact ⟨hnow, fun msg e he ↦ hentry msg e (Option.filter_eq_some_iff.1 he).1⟩
  | getPeers m =>
    simp only [MsgIDHandler.next, MsgIDHandler.getPeers]
    split
    · exact ⟨hnow, hentry⟩
    · split
      · exact ⟨hnow, hentry⟩
      · refine ⟨hnow, fun msg e he ↦ hentry msg e ?_⟩
        simp only [update_apply] at he
        split at he
        · cases he
        · exact he
  | wait d => exact ⟨fun r hr ↦ Nat.le_add_right_of_le (hnow r hr), hentry⟩

theorem senders_eq_nil :
    h.senders ttl msg = [] ↔ ∀ r ∈ h.recorded, r.2.1 = msg → r.1 + ttl ≤ h.now := by
  rw [senders]
  split
  · next hany =>
    obtain ⟨r, hr, hfresh⟩ := any_eq_true.1 hany
    rw [mem_filter, decide_eq_true_eq] at hr
    rw [decide_eq_true_eq] at hfresh
    refine iff_of_false ?_ fun h ↦ absurd (h r hr.1 hr.2) (not_le.2 hfresh)
    simp only [reverse_eq_nil_iff, dedup_eq_nil, map_eq_nil_iff]
    exact ne_nil_of_mem (mem_filter.2 ⟨hr.1, decide_eq_true hr.2⟩)
  · next hnone =>
    refine iff_of_true rfl fun r hr hm ↦ not_lt.1 fun hfresh ↦ hnone ?_
    exact any_eq_true.2 ⟨r, mem_filter.2 ⟨hr, decide_eq_true hm⟩, decide_eq_true hfresh⟩

/-- **Lookups and collections are right exactly where there is nothing to find.** -/
theorem resolves_iff_nothing (ttl : ℕ) (actions : List (Action μ ρ)) :
    let h : MsgIDHandler μ ρ := actions.foldl (next ttl) {}
    (∀ msg, (h.getPeers ttl msg).2 = h.senders ttl msg ↔
      h.ids msg = none ∧ h.senders ttl msg = []) ∧
    ((∀ (later : List (Action μ ρ)) msg, ((later.foldl (next ttl) (h.gc ttl)).getPeers ttl msg).2 =
        ((later.foldl (next ttl) h).getPeers ttl msg).2) ↔
      ∀ msg e, h.ids msg = some e → h.now < e.t + ttl) := by
  intro h
  have hd : h.Dated := foldlRecOn actions _ ⟨nofun, nofun⟩ fun _ hd a _ ↦ hd.next a
  refine ⟨fun msg ↦ ?_, fun hgc msg e he ↦ ?_, fun hfresh later msg ↦ ?_⟩
  · cases he : h.ids msg with
    | none =>
      rw [getPeers, he]
      exact eq_comm.trans (and_iff_right rfl).symm
    | some e =>
      obtain ⟨hpeers, ⟨pi, hpi⟩, hlast⟩ := hd.2 msg e he
      refine iff_of_false (fun hright ↦ ?_) (fun hnone ↦ nomatch hnone.1)
      rw [getPeers, he] at hright
      dsimp only at hright
      split at hright
      · next hold =>
        rw [senders_eq_nil.2 fun r hr hm ↦ (Nat.add_le_add_right (hlast r hr hm) ttl).trans hold]
          at hright
        exact hpeers hright
      · next hfresh => exact hfresh (senders_eq_nil.1 hright.symm _ hpi rfl)
  · by_contra hold
    have hdropped : (h.gc ttl).ids msg = none := by
      simp [gc, he, Option.filter, hold]
    have hboth : [] = e.peers := by
      simpa [getPeers, hdropped, he, not_lt.1 hold] using hgc [] msg
    exact (hd.2 msg e he).1 hboth.symm
  · have hsame : h.gc ttl = h := by
      simp only [gc]
      congr 1
      funext m
      cases he : h.ids m with
      | none => rfl
      | some e => simp [Option.filter, hfresh m e he]
    rw [hsame]

/-- A peer is recorded, and looked up at once and after the time to live. -/
theorem fresh_sender_lost :
    let h : MsgIDHandler ℕ ℕ := next 5 {} (.add 1 2)
    let later := h.next 5 (.wait 5)
    h.senders 5 1 = [2] ∧ (h.getPeers 5 1).2 = [] ∧
      later.senders 5 1 = [] ∧ (later.getPeers 5 1).2 = [2] ∧
      ((later.gc 5).getPeers 5 1).2 = [] := by
  decide

end MsgIDHandler

end Ssv.P2p
