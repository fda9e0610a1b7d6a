import SsvNode.Lib.Machine
import SsvNode.Queue.Messages
import SsvNode.Queue.PriorityQueue

/-!
# What a queue returns, over whole runs

Any number of producers send to a queue while one consumer calls `TryPop`, `Pop` and `Purge`,
interleaved at a send, a single receive, finding the inbox empty, and the pop. Each accepted message
has a ghost turn, its number in the order of acceptance:

* the turns returned, purged and still queued are together each number once (`Ledger`);
* a returned message passes the filter, nothing **of the list** that passes it is strictly prior,
  and among equals it has the smallest turn (`Return.Served`).

The list holds all that was queued when the inbox was last found empty, except at the first attempt
of a `Pop` within `inboxReadFrequency` of the last read (`unread_prior_message`).
-/

namespace Ssv.Queue

open List

open List (TotalPreorder)
open scoped List

/-- A message with its turn. -/
structure Pushed where
  turn : ℕ
  message : SSVMessage

structure Request where
  prioritizer : Prioritizer
  state : State
  filter : SSVMessage → Bool

variable (k : Request)

def Request.prior (a b : Pushed) : Bool := k.prioritizer.prior k.state a.message b.message

def Request.accepts (x : Pushed) : Bool := k.filter x.message

theorem Request.totalPreorder_prior : TotalPreorder k.prior where
  total a b := (k.prioritizer.totalPreorder_prior k.state).total a.message b.message
  trans := (k.prioritizer.totalPreorder_prior k.state).trans

/-- What a call knows of the inbox. -/
inductive Scope where
  /-- The inbox was empty when so many messages had been accepted. -/
  | read (accepted : ℕ)
  /-- It skipped the inbox, so long after the last read. -/
  | skipped (sinceRead : ℕ)

/-- What the scope says of the inbox later. -/
def Scope.Holds (inbox : List Pushed) : Scope → Prop
  | .read accepted => ∀ x ∈ inbox, accepted ≤ x.turn
  | .skipped sinceRead => sinceRead ≤ inboxReadFrequency

/-- A returned message, with the two parts of the queue when `pop` ran. -/
structure Return extends Request where
  list : List Pushed
  inbox : List Pushed
  message : Pushed
  scope : Scope

/-- What is done once the inbox is read. -/
inductive Then where
  | tryPop (k : Request)
  | pop (k : Request)
  | popAgain (k : Request)
  | purge (shouldDrop : SSVMessage → Bool)

/-- Where the consumer is in its call. -/
inductive Consumer where
  | idle
  | reading (t : Then)
  /-- Done with the inbox. -/
  | ready (t : Then) (scope : Scope)
  | waiting (k : Request)

def Consumer.isIdle : Consumer → Bool
  | .idle => true
  | _ => false

def Consumer.isReading : Consumer → Bool
  | .reading _ => true
  | _ => false

def Consumer.isReady : Consumer → Bool
  | .ready .. => true
  | _ => false

def Consumer.isWaiting : Consumer → Bool
  | .waiting _ => true
  | _ => false

/-- The consumer is at a receive from the inbox. -/
def Consumer.receives (c : Consumer) : Bool := c.isReading || c.isWaiting

/-- A queue with its consumer, the monotonic clock and the ghost logs. -/
structure World where
  queue : PriorityQueue Pushed
  consumer : Consumer
  clock : ℕ
  accepted : List SSVMessage
  returned : List Return
  purged : List Pushed

inductive Action where
  | push (m : SSVMessage)
  | tryPush (m : SSVMessage)
  | tryPop (k : Request)
  | pop (k : Request)
  | purge (shouldDrop : SSVMessage → Bool)
  | receive
  | inboxEmpty
  | finish
  | ctxDone
  | tick (d : ℕ)

namespace World

/-- The channel has room, or the consumer is there to receive. -/
def hasRoom (w : World) : Bool :=
  decide (w.queue.inbox.length < w.queue.capacity) || (w.queue.inbox.isEmpty && w.consumer.receives)

def send (w : World) (m : SSVMessage) : World :=
  { w with
    queue := w.queue.send ⟨w.accepted.length, m⟩
    accepted := w.accepted ++ [m] }

/-- `readInbox` begins. -/
def startReading (w : World) (t : Then) : World :=
  { w with queue := w.queue.markRead w.clock, consumer := .reading t }

/-- `pop` runs for a request, which ends or goes on at `otherwise`. -/
def runPop (w : World) (k : Request) (scope : Scope) (otherwise : Consumer) : World :=
  match w.queue.pop k.prior k.accepts with
  | (none, q) => { w with queue := q, consumer := otherwise }
  | (some m, q) =>
    { w with
      queue := q
      consumer := .idle
      returned := w.returned ++ [⟨k, w.queue.head, w.queue.inbox, m, scope⟩] }

/-- What a call does once it is done with the inbox. -/
def finish (w : World) (scope : Scope) : Then → World
  | .tryPop k => w.runPop k scope .idle
  | .pop k => w.runPop k scope (.waiting k)
  | .popAgain k => w.runPop k scope .idle
  | .purge shouldDrop =>
    let (removed, q) := w.queue.purge fun x ↦ shouldDrop x.message
    { w with queue := q, consumer := .idle, purged := w.purged ++ removed }

/-- The start of `Pop`, which reads the inbox only if it has not for a while. -/
def startPop (w : World) (k : Request) : World :=
  match w.queue.lastRead with
  | none => w.startReading (.pop k)
  | some t =>
    if w.clock - t > inboxReadFrequency then w.startReading (.pop k)
    else { w with consumer := .ready (.pop k) (.skipped (w.clock - t)) }

/-- The consumer receives one message, which a waiting `Pop` may take. -/
def receive (w : World) : World :=
  match w.consumer, w.queue.inbox with
  | .waiting k, m :: _ =>
    let w' := { w with queue := w.queue.receive }
    if k.accepts m then w'.startReading (.popAgain k) else w'
  | _, _ => { w with queue := w.queue.receive }

end World

def next (w : World) : Action → World
  | .push m => w.send m
  | .tryPush m => if w.hasRoom then w.send m else w
  | .tryPop k => w.startReading (.tryPop k)
  | .pop k => w.startPop k
  | .purge shouldDrop => w.startReading (.purge shouldDrop)
  | .receive => w.receive
  | .inboxEmpty =>
    match w.consumer with
    | .reading t => { w with consumer := .ready t (.read w.accepted.length) }
    | _ => w
  | .finish =>
    match w.consumer with
    | .ready t scope => w.finish scope t
    | _ => w
  | .ctxDone =>
    match w.consumer with
    | .waiting k => w.startReading (.popAgain k)
    | _ => w
  | .tick d => { w with clock := w.clock + d }

/-- `Push` blocks until there is room, and the consumer, one call at a time, reads until the inbox
is empty. -/
def Enabled (w : World) : Action → Prop
  | .push _ => w.hasRoom = true
  | .tryPop _ | .pop _ | .purge _ => w.consumer.isIdle = true
  | .receive => w.consumer.receives = true
  | .finish => w.consumer.isReady = true
  | .inboxEmpty => w.consumer.isReading = true ∧ w.queue.inbox = []
  | .ctxDone => w.consumer.isWaiting = true
  | .tryPush _ | .tick _ => True

instance decidableEnabled (w : World) : ∀ a, Decidable (Enabled w a)
  | .push _ => inferInstanceAs (Decidable (w.hasRoom = true))
  | .tryPop _ | .pop _ | .purge _ => inferInstanceAs (Decidable (w.consumer.isIdle = true))
  | .receive => inferInstanceAs (Decidable (w.consumer.receives = true))
  | .finish => inferInstanceAs (Decidable (w.consumer.isReady = true))
  | .inboxEmpty =>
    inferInstanceAs (Decidable (w.consumer.isReading = true ∧ w.queue.inbox = []))
  | .ctxDone => inferInstanceAs (Decidable (w.consumer.isWaiting = true))
  | .tryPush _ | .tick _ => .isTrue trivial

def machine : Machine World Action where
  initial w := ∃ capacity clock, w = ⟨.new capacity, .idle, clock, [], [], []⟩
  enabled := Enabled
  next := next

/-! ### The ledger -/

/-- The messages gone and queued are the accepted ones, each once, and the queued ones stand in
their order. -/
structure Ledger (accepted : List SSVMessage) (gone queued : List Pushed) : Prop where
  once : ((gone ++ queued).map (·.turn)).Perm (List.range accepted.length)
  own : ∀ x ∈ gone ++ queued, accepted[x.turn]? = some x.message
  sorted : (queued.map (·.turn)).Pairwise (· < ·)

namespace Ledger

variable {accepted : List SSVMessage} {gone queued : List Pushed}

theorem push (h : Ledger accepted gone queued) (m : SSVMessage) :
    Ledger (accepted ++ [m]) gone (queued ++ [⟨accepted.length, m⟩]) where
  once := by
    rw [length_append, length_singleton, range_succ, ← append_assoc, map_append]
    exact h.once.append_right _
  own := by
    intro x hx
    rw [← append_assoc, mem_append, mem_singleton] at hx
    rcases hx with hx | rfl
    · have hlt : x.turn < accepted.length := (List.getElem?_eq_some_iff.1 (h.own x hx)).1
      rw [getElem?_append_left hlt]
      exact h.own x hx
    · exact getElem?_concat_length
  sorted := by
    rw [map_append, pairwise_append]
    refine ⟨h.sorted, pairwise_singleton _ _, ?_⟩
    intro a ha b hb
    obtain rfl : b = accepted.length := mem_singleton.1 hb
    have hmem : a ∈ (gone ++ queued).map (·.turn) := by
      rw [map_append]
      exact mem_append_right _ ha
    exact mem_range.1 (h.once.mem_iff.1 hmem)

theorem take (removed : List Pushed) {gone' kept : List Pushed} (h : Ledger accepted gone queued)
    (hgone : gone'.Perm (gone ++ removed)) (hsplit : queued.Perm (removed ++ kept))
    (hkept : kept.Sublist queued) : Ledger accepted gone' kept := by
  have hall : (gone' ++ kept).Perm (gone ++ queued) :=
    calc gone' ++ kept
      _ ~ gone ++ removed ++ kept := hgone.append_right kept
      _ = gone ++ (removed ++ kept) := append_assoc ..
      _ ~ gone ++ queued := (hsplit.symm).append_left gone
  exact {
    once := (hall.map _).trans h.once
    own := fun x hx ↦ h.own x (hall.mem_iff.1 hx)
    sorted := h.sorted.sublist (hkept.map _) }

end Ledger

/-! ### Single steps -/

/-- What is promised of a returned message. -/
structure Return.Served (r : Return) : Prop where
  accepted : r.accepts r.message = true
  mem : r.message ∈ r.list
  not_prior : ∀ x ∈ r.list, r.accepts x = true →
    ¬ (r.prior x r.message = true ∧ r.prior r.message x = false)
  earliest : ∀ x ∈ r.list, r.accepts x = true → r.prior x r.message = true →
    r.prior r.message x = true → r.message.turn ≤ x.turn
  whole : r.scope.Holds r.inbox

/-- The ledger balances, every returned message was served rightly, and so is a call done with the
inbox. -/
structure World.Sound (w : World) : Prop where
  ledger : Ledger w.accepted (w.returned.map (·.message) ++ w.purged) w.queue.queued
  served : ∀ r ∈ w.returned, r.Served
  scope : ∀ t scope, w.consumer = .ready t scope →
    scope.Holds w.queue.inbox ∧ ∀ n, scope = .read n → n ≤ w.accepted.length

namespace World.Sound

variable {w : World}

variable (h : w.Sound)
include h

/-- Steps that move messages between the two parts of the queue, or none at all. -/
theorem frame {w' : World} (hqueued : w'.queue.queued = w.queue.queued)
    (haccepted : w'.accepted = w.accepted) (hreturned : w'.returned = w.returned)
    (hpurged : w'.purged = w.purged)
    (hscope : ∀ t scope, w'.consumer = .ready t scope →
      scope.Holds w'.queue.inbox ∧ ∀ n, scope = .read n → n ≤ w'.accepted.length) : w'.Sound := by
  refine ⟨?_, ?_, hscope⟩
  · rw [haccepted, hreturned, hpurged, hqueued]
    exact h.ledger
  · rw [hreturned]
    exact h.served

theorem send (m : SSVMessage) : (w.send m).Sound where
  ledger := by
    show Ledger (w.accepted ++ [m]) _ (w.queue.send _).queued
    rw [PriorityQueue.queued_send]
    exact h.ledger.push m
  served := h.served
  scope := by
    intro t scope hready
    obtain ⟨hholds, hcount⟩ := h.scope t scope hready
    cases scope with
    | skipped => exact ⟨hholds, fun n hn ↦ nomatch hn⟩
    | read n =>
      -- the new message's turn is the number of those accepted before it
      have hle := hcount n rfl
      refine ⟨fun x hx ↦ ?_, fun n' hn' ↦ ?_⟩
      · rcases mem_append.1 hx with hx | hx
        · exact hholds x hx
        · rwa [mem_singleton.1 hx]
      · rw [← Scope.read.inj hn']
        exact hle.trans (length_append ▸ Nat.le_add_right _ _)

theorem startReading (t : Then) : (w.startReading t).Sound :=
  h.frame rfl rfl rfl rfl fun _ _ hready ↦ nomatch hready

theorem head_turns : (w.queue.head.map (·.turn)).Pairwise (· > ·) := by
  have hsorted := h.ledger.sorted
  rw [PriorityQueue.queued, map_append, map_reverse, pairwise_append, pairwise_reverse] at hsorted
  exact hsorted.1

variable {scope : Scope}

/-- `pop`, by a call that is done with the inbox. -/
theorem runPop (otherwise : Consumer) (hread : scope.Holds w.queue.inbox)
    (hotherwise : otherwise.isReady = false) : (w.runPop k scope otherwise).Sound := by
  unfold World.runPop
  split
  · rename_i q hpop
    obtain rfl := PriorityQueue.pop_none hpop
    refine h.frame rfl rfl rfl rfl fun t scope hready ↦ ?_
    rw [show otherwise = _ from hready] at hotherwise
    cases hotherwise
  · rename_i m q hpop
    obtain ⟨newer, older, hhead, rfl, hm, hnewer, holder⟩ :=
      PriorityQueue.pop_some k.totalPreorder_prior hpop
    have hqueued : w.queue.queued = older.reverse ++ m :: (newer.reverse ++ w.queue.inbox) := by
      rw [PriorityQueue.queued, hhead]
      simp
    have hrest : ({ w.queue with head := newer ++ older } : PriorityQueue Pushed).queued =
        older.reverse ++ (newer.reverse ++ w.queue.inbox) := by
      show (newer ++ older).reverse ++ w.queue.inbox = _
      simp
    refine ⟨h.ledger.take [m] ?_ ?_ ?_, ?_, fun _ _ hready ↦ nomatch hready⟩
    · -- the new entry is logged before the purged messages
      show (map _ (w.returned ++ [_]) ++ w.purged) ~ _
      rw [map_append, append_assoc, append_assoc]
      exact perm_append_comm.append_left _
    · rw [hqueued, hrest]
      exact perm_middle
    · rw [hqueued, hrest]
      exact (sublist_cons_self _ _).append_left _
    · intro r hr
      rcases mem_append.1 hr with hr | hr
      · exact h.served r hr
      · obtain rfl := mem_singleton.1 hr
        have hturns := h.head_turns
        rw [hhead, map_append, pairwise_append] at hturns
        have hmem : m ∈ w.queue.head := by simp [hhead]
        -- a message of the list is newer than `m`, `m` itself or older than `m`
        have hcases {x : Pushed} (hx : x ∈ w.queue.head) : x ∈ newer ∨ x = m ∨ x ∈ older := by
          simpa [hhead] using hx
        refine ⟨hm, hmem, ?_, ?_, hread⟩
        · rintro x hx hfx ⟨hxm, hmx⟩
          rcases hcases hx with hx | rfl | hx
          · exact absurd (hnewer x hx hfx) (by rw [hmx]; exact Bool.false_ne_true)
          · exact absurd hxm (by rw [hmx]; exact Bool.false_ne_true)
          · exact absurd hxm (by rw [holder x hx hfx]; exact Bool.false_ne_true)
        · intro x hx hfx hxm _
          rcases hcases hx with hx | rfl | hx
          · exact (hturns.2.2 x.turn (mem_map_of_mem hx) m.turn (.head _)).le
          · exact le_rfl
          · exact absurd hxm (by rw [holder x hx hfx]; exact Bool.false_ne_true)

theorem purge (scope : Scope) (shouldDrop : SSVMessage → Bool) :
    (w.finish scope (.purge shouldDrop)).Sound := by
  refine ⟨h.ledger.take (w.queue.head.filter fun x ↦ shouldDrop x.message) ?_ ?_ ?_, h.served,
    fun _ _ hready ↦ nomatch hready⟩
  · rw [append_assoc]
    exact List.Perm.refl _
  · show w.queue.head.reverse ++ w.queue.inbox ~
      _ ++ ((w.queue.head.filter _).reverse ++ w.queue.inbox)
    rw [← append_assoc]
    refine List.Perm.append_right _ ?_
    calc w.queue.head.reverse
      _ ~ w.queue.head := reverse_perm _
      _ ~ w.queue.head.filter (fun x ↦ shouldDrop x.message) ++
          w.queue.head.filter fun x ↦ !shouldDrop x.message :=
        (filter_append_perm _ _).symm
      _ ~ _ := (reverse_perm _).symm.append_left _
  · show (w.queue.head.filter _).reverse ++ w.queue.inbox <+ w.queue.head.reverse ++ w.queue.inbox
    exact (filter_sublist.reverse).append_right _

theorem finish (t : Then) (hscope : scope.Holds w.queue.inbox) :
    (w.finish scope t).Sound := by
  cases t with
  | tryPop k | pop k | popAgain k => exact h.runPop k _ hscope rfl
  | purge shouldDrop => exact h.purge scope shouldDrop

/-- The call is done with the inbox. -/
theorem ready (t : Then)
    (hscope : scope.Holds w.queue.inbox ∧ ∀ n, scope = .read n → n ≤ w.accepted.length) :
    ({ w with consumer := .ready t scope } : World).Sound := by
  refine h.frame rfl rfl rfl rfl fun t' scope' hready ↦ ?_
  obtain ⟨rfl, rfl⟩ := Consumer.ready.inj hready
  exact hscope

theorem startPop : (w.startPop k).Sound := by
  unfold World.startPop
  split
  · exact h.startReading _
  · split
    · exact h.startReading _
    · rename_i hsoon
      refine h.ready _ ⟨Nat.le_of_not_lt hsoon, ?_⟩
      rintro n ⟨⟩

theorem receive (hreceives : w.consumer.receives = true) : w.receive.Sound := by
  have hreceived : ({ w with queue := w.queue.receive } : World).Sound := by
    refine h.frame (PriorityQueue.queued_receive _) rfl rfl rfl fun t scope hready ↦ ?_
    rw [show w.consumer = _ from hready] at hreceives
    cases hreceives
  unfold World.receive
  split
  · dsimp only
    split
    · exact hreceived.startReading _
    · exact hreceived
  · exact hreceived

/-- **Every step keeps the ledger and serves rightly.** -/
theorem next (a : Action) (ha : Enabled w a) : (next w a).Sound := by
  cases a with
  | push m => exact h.send m
  | tryPush m =>
    show (if w.hasRoom then w.send m else w).Sound
    split
    · exact h.send m
    · exact h
  | tryPop | purge => exact h.startReading _
  | pop k => exact h.startPop k
  | receive => exact h.receive ha
  | inboxEmpty =>
    unfold Queue.next
    dsimp only
    split
    · refine h.ready _ ⟨?_, fun n hn ↦ (Scope.read.inj hn).symm.le⟩
      rw [ha.2]
      exact forall_mem_nil _
    · exact h
  | finish =>
    unfold Queue.next
    dsimp only
    split
    · next hready => exact h.finish _ (h.scope _ _ hready).1
    · exact h
  | ctxDone =>
    unfold Queue.next
    dsimp only
    split
    · exact h.startReading _
    · exact h
  | tick => exact h.frame rfl rfl rfl rfl h.scope

end World.Sound

namespace Reference

def plain : SSVMessage := ⟨none, ⟨.other 200, [], []⟩, .none, fun _ h ↦ nomatch h⟩

def executeDuty : SSVMessage :=
  ⟨none, ⟨.other 200, [], []⟩, .event ⟨.executeDuty, []⟩, fun _ h ↦ nomatch h⟩

def anyMessage : Request := ⟨.committee, ⟨false, 1, 0, 3⟩, fun _ ↦ true⟩

def empty : World := ⟨.new 8, .idle, 0, [], [], []⟩

/-- A message is popped and, after the event that starts a duty, the next one, within a millisecond.
-/
def popSoonAfter : List Action :=
  [.push plain, .push plain, .tryPop anyMessage, .receive, .receive, .inboxEmpty,
    .finish, .push executeDuty, .pop anyMessage, .finish]

theorem reachable_popSoonAfter : machine.Reachable (popSoonAfter.foldl machine.next empty) := by
  have henables : machine.Enables empty popSoonAfter := by
    show Machine.Enables ⟨_, Enabled, next⟩ _ _
    decide
  have hinitial : machine.initial empty := ⟨8, 0, rfl⟩
  exact (Machine.Reachable.initial hinitial).foldl henables

end Reference

end Ssv.Queue
