import SsvNode.Lib.LastMax

/-!
# The priority queue

`queue.go`: producers send to the `inbox`; the consumer moves messages to the head of a list,
**newest** first, and pops from the list alone. `queued` lists the messages of both parts in the
order they were sent.
-/

namespace Ssv.Queue

open List (TotalPreorder lastMax lastMaxFrom keepLast selects_lastMax)

/-- `inboxReadFrequency`, in nanoseconds. -/
def inboxReadFrequency : ℕ := 1000000

/-- `priorityQueue`. `lastRead` is `none` before the first read. -/
structure PriorityQueue (α : Type) where
  head : List α
  inbox : List α
  capacity : ℕ
  lastRead : Option ℕ

namespace PriorityQueue

variable {α : Type}

def new (capacity : ℕ) : PriorityQueue α := ⟨[], [], capacity, none⟩

variable (q : PriorityQueue α)

/-- The messages of the queue in the order they were sent. -/
def queued : List α := q.head.reverse ++ q.inbox

/-- `q.inbox <- msg`, once the channel takes it. -/
def send (msg : α) : PriorityQueue α := { q with inbox := q.inbox ++ [msg] }

/-- `msg := <-q.inbox`, with the message put at the head of the list. -/
def receive : PriorityQueue α :=
  match q.inbox with
  | [] => q
  | msg :: rest => { q with head := msg :: q.head, inbox := rest }

/-- The first statement of `readInbox`. -/
def markRead (now : ℕ) : PriorityQueue α := { q with lastRead := some now }

/-- `pop`, where `highest` is the position and message of the best item so far. -/
def pop (prior : α → α → Bool) (filter : α → Bool) (q : PriorityQueue α) :
    Option α × PriorityQueue α :=
  match q.head with
  | [] => (none, q)
  | [m] => if filter m then (some m, { q with head := [] }) else (none, q)
  | first :: rest =>
    match lastMaxFrom prior filter 1 (if filter first then some (0, first) else none) rest with
    | none => (none, q)
    | some (i, highest) => (some highest, { q with head := q.head.eraseIdx i })

/-- The loop of `Purge`: what stays in the list, and what is removed. -/
def purge (shouldDrop : α → Bool) (q : PriorityQueue α) : List α × PriorityQueue α :=
  (q.head.filter shouldDrop, { q with head := q.head.filter fun m ↦ !shouldDrop m })

/-! ### What the operations do to the queued messages -/

@[simp] theorem queued_send (msg : α) : (q.send msg).queued = q.queued ++ [msg] :=
  (List.append_assoc ..).symm

@[simp] theorem queued_receive : q.receive.queued = q.queued := by
  obtain ⟨head, inbox, capacity, lastRead⟩ := q
  cases inbox with
  | nil => rfl
  | cons msg rest =>
    show (msg :: head).reverse ++ rest = head.reverse ++ msg :: rest
    simp

theorem pop_eq (prior : α → α → Bool) (filter : α → Bool) (q : PriorityQueue α) :
    q.pop prior filter =
      match lastMax prior filter q.head with
      | none => (none, q)
      | some (i, highest) => (some highest, { q with head := q.head.eraseIdx i }) := by
  obtain ⟨head, inbox, capacity, lastRead⟩ := q
  match head with
  | [] => rfl
  | [m] =>
    show (if filter m then _ else _) = _
    by_cases hm : filter m <;> simp [lastMax, lastMaxFrom, keepLast, hm]
  | first :: second :: rest => rfl

theorem pop_none {prior : α → α → Bool} {filter : α → Bool} {q q' : PriorityQueue α}
    (h : q.pop prior filter = (none, q')) : q' = q := by
  rw [pop_eq] at h
  split at h
  · exact (Prod.mk.inj h).2.symm
  · exact absurd (Prod.mk.inj h).1 (by simp)

/-- A `pop` splits the list: newer messages that pass are not strictly prior, older ones strictly
less prior. -/
theorem pop_some {prior : α → α → Bool} (hp : TotalPreorder prior) {filter : α → Bool}
    {q q' : PriorityQueue α} {m : α} (h : q.pop prior filter = (some m, q')) :
    ∃ newer older, q.head = newer ++ m :: older ∧ q' = { q with head := newer ++ older } ∧
      filter m = true ∧ (∀ x ∈ newer, filter x = true → prior m x = true) ∧
      ∀ x ∈ older, filter x = true → prior x m = false := by
  have hsel : List.Selects prior filter q.head (lastMax prior filter q.head) :=
    selects_lastMax hp q.head
  rw [pop_eq] at h
  split at h
  · exact absurd (Prod.mk.inj h).1 (by simp)
  · rename_i i highest hmax
    rw [hmax] at hsel
    obtain ⟨newer, older, hhead, hi, hfilter, hnewer, holder⟩ := hsel
    obtain ⟨hm, rfl⟩ := Prod.mk.inj h
    obtain rfl : highest = m := Option.some.inj hm
    refine ⟨newer, older, hhead, ?_, hfilter, hnewer, holder⟩
    rw [hhead, ← hi, List.eraseIdx_append_of_length_le le_rfl]
    simp

end PriorityQueue

end Ssv.Queue
