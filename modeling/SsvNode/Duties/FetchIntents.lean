import SsvNode.Duties.Attester
import SsvNode.Validation.ReferenceSpec
import SsvNode.Lib.Latch
import SsvNode.Lib.Machine

/-!
# When a tick fetches the duties of its epoch

A tick is **covered** if the duties of its epoch were fetched since they were last invalidated, or
are fetched in the tick first. An entry of the map of intents goes at the last slot of its epoch,
which leaves two gaps: a tick more than an epoch after the one before it, and a reorg handled in the
last slot before its tick. Runs without these are `Timely`.
-/

namespace Ssv.Duties.Attester

open Handler Act.Yields List

/-! ### Freshness -/

/-- What an event says of the duties of an epoch. A reorg touches the next epoch, and the current
one if its dependent root changed. -/
def Event.freshness (epoch : ℕ) : Event → Option Bool
  | .attesterDuties e _ ok => if e = epoch ∧ ok then some true else none
  | .indicesChange e => if epoch = e ∨ epoch = e + 1 then some false else none
  | .reorg e event =>
    if epoch = e ∧ event.previousDutyDependentRootChanged ∨ epoch = e + 1 then some false else none
  | .submitBeaconCommitteeSubscriptions _ => none
  | .executeDuties _ _ => none

/-- The duties of the epoch were fetched since they were last invalidated. -/
def fetchedSince (evs : List Event) (epoch : ℕ) : Bool := latch (Event.freshness epoch) false evs

variable {epoch : ℕ} {es : List Event}

theorem fetchedSince_append {past : List Event} :
    fetchedSince (past ++ es) epoch = latch (Event.freshness epoch) (fetchedSince past epoch) es :=
  latch_append

/-! ### Fetches -/

/-- Nobody is eligible, the beacon node does not answer, or it does. -/
inductive Fetched (view : View) (epoch : ℕ) : List Event → Except Err Bool → Prop
  | notEligible (h : eligibleIndices view epoch = []) : Fetched view epoch [] (.ok false)
  | failed {e : Err} (h : eligibleIndices view epoch ≠ []) :
      Fetched view epoch [.attesterDuties epoch (eligibleIndices view epoch) false] (.error e)
  | answered {es : List Event} (h : eligibleIndices view epoch ≠ [])
      (hes : ∀ ev ∈ es, ∃ subscriptions, ev = .submitBeaconCommitteeSubscriptions subscriptions) :
      Fetched view epoch (.attesterDuties epoch (eligibleIndices view epoch) true :: es) (.ok true)

theorem fetch_spec (view : View) (slot epoch : ℕ) (h : Handler AttesterDuty) :
    (fetchAndProcessDuties view slot epoch).wp
      (fun h' es r ↦ h'.dutyFetchIntents = h.dutyFetchIntents ∧ Fetched view epoch es r) h := by
  unfold fetchAndProcessDuties
  rw [Act.wp_ite]
  split
  · next hnone => exact ⟨rfl, .notEligible (isEmpty_iff.1 hnone)⟩
  · next hsome =>
    have hne : eligibleIndices view epoch ≠ [] := fun h ↦ hsome (isEmpty_iff.2 h)
    rw [Act.wp_bind, Act.wp_emit, Act.wp_bind, Act.wp_lift]
    cases hduties : view.attesterDuties with
    | error => exact ⟨rfl, .failed hne⟩
    | ok =>
      show Act.wp _ _ _
      rw [Act.wp_bind, Act.wp_update, Act.wp_bind, Act.wp_read]
      show Act.wp _ _ _
      rw [Act.wp_ite]
      split
      · exact ⟨rfl, .answered hne nofun⟩
      · refine ⟨rfl, .answered hne fun ev hev ↦ ?_⟩
        exact ⟨_, mem_singleton.1 hev⟩

theorem Fetched.fetchedSince_eq {view : View} {r : Except Err Bool}
    (h : Fetched view epoch es r) (past : List Event) (e : ℕ) :
    fetchedSince (past ++ es) e = (fetchedSince past e || decide (e = epoch ∧ r = .ok true)) := by
  cases h with
  | notEligible => simp
  | failed => simp [fetchedSince_append, Event.freshness]
  | answered _ hes =>
    have hrest : ∀ ev ∈ (_ : List Event), ev.freshness e = none := fun ev hev ↦ by
      obtain ⟨subscriptions, rfl⟩ := hes ev hev
      rfl
    rw [fetchedSince_append, latch_cons, latch_eq_self hrest]
    by_cases he : e = epoch
    · simp [Event.freshness, he]
    · simp [Event.freshness, he, Ne.symm he]

theorem eligibleIndices_ne_nil {view : View} :
    eligibleIndices view epoch ≠ [] ↔ view.Eligible epoch := by
  simp [eligibleIndices, View.Eligible]

/-! ### What holds of the intents -/

/-- A fulfilled intent stands for fresh duties, those in `need` have an intent, and those with
either are in `known`. -/
structure Holds (need known : ℕ → Prop) (h : Handler AttesterDuty) (past : List Event) : Prop where
  sound : ∀ e, h.dutyFetchIntents.lookup e = some true → fetchedSince past e
  present : ∀ e, need e → (h.dutyFetchIntents.lookup e).isSome
  known : ∀ e, ((h.dutyFetchIntents.lookup e).isSome ∨ fetchedSince past e) → known e

section

variable {net : Network} {need known : ℕ → Prop} {view : View} {slot epoch : ℕ}
  {P : Handler AttesterDuty → List Event → Prop}

variable {h : Handler AttesterDuty} {past : List Event} {e : ℕ}

theorem Holds.mono {need' known' : ℕ → Prop} (hh : Holds need known h past)
    (hneed : ∀ e, need' e → need e) (hknown : ∀ e, known e → known' e) :
    Holds need' known' h past :=
  ⟨hh.sound, fun e he ↦ hh.present e (hneed e he), fun e he ↦ hknown e (hh.known e he)⟩

/-- The intents are all that matters of the handler, and fetches and invalidations of the events. -/
theorem Holds.congr {h' : Handler AttesterDuty} {past' : List Event}
    (hh : Holds need known h past) (hintents : h'.dutyFetchIntents = h.dutyFetchIntents)
    (hpast : ∀ e, fetchedSince past' e = fetchedSince past e) : Holds need known h' past' := by
  refine ⟨fun e he ↦ ?_, fun e he ↦ ?_, fun e he ↦ ?_⟩
  · rw [hpast]
    exact hh.sound e (hintents ▸ he)
  · rw [hintents]
    exact hh.present e he
  · rw [hintents, hpast] at he
    exact hh.known e he

/-- **Preparing an epoch** keeps all that. An intent is fulfilled only by a fetch that ran. -/
theorem prepareEpoch_yields : Act.Yields (Holds need known) (fun _ ↦ Holds need known)
    (prepareEpoch (fetchAndProcessDuties view slot epoch) epoch) := by
  refine bind_read fun h₀ ↦ ite (fun hopen ↦ ?_) fun _ ↦ ?_
  · -- the fetch leaves the intent open, with fresh duties if it ran
    refine bind (Q := fun r h past ↦ h.dutyFetchIntents.lookup epoch = some false ∧
      Holds need known h past ∧ (r = .ok true → fetchedSince past epoch)) ?_ fun r ↦ ?_
    · refine attempt ?_
      rintro h₁ past ⟨rfl, hh⟩
      refine Act.wp_mono (fetch_spec view slot epoch h₁) fun h es r ⟨hintents, hfetched⟩ ↦ ?_
      have hsince := hfetched.fetchedSince_eq past
      refine ⟨hintents ▸ hopen, ⟨fun e he ↦ ?_, fun e he ↦ ?_, fun e he ↦ ?_⟩, fun hr ↦ ?_⟩
      · rw [hsince, hh.sound e (hintents ▸ he), Bool.true_or]
      · rw [hintents]
        exact hh.present e he
      · rw [hintents, hsince, Bool.or_eq_true, decide_eq_true_eq] at he
        rcases he with he | he | ⟨rfl, -⟩
        · exact hh.known e (.inl he)
        · exact hh.known e (.inr he)
        · exact hh.known e (.inl (by rw [hopen]; rfl))
      · simp [hsince, hr]
    · split
      · refine update fun h past ⟨hlookup, hh, hfetched⟩ ↦ ?_
        refine ⟨fun e he ↦ ?_, fun e he ↦ ?_, fun e he ↦ ?_⟩
        · rw [lookup_fulfilIntent] at he
          split at he
          · next heq => exact heq ▸ hfetched rfl
          · exact hh.sound e he
        · rw [lookup_fulfilIntent]
          split
          · rfl
          · exact hh.present e he
        · refine hh.known e (he.imp_left fun he ↦ ?_)
          rw [lookup_fulfilIntent] at he
          split at he
          · next heq =>
            rw [heq, hlookup]
            rfl
          · exact he
      · exact pure fun h past hh ↦ hh.2.1
  · exact pure fun h past hh ↦ hh.1 ▸ hh.2

theorem prepareNextEpoch_yields : Act.Yields (Holds need known) (fun _ ↦ Holds need known)
    (prepareNextEpoch net (fetchAndProcessDuties view slot (epoch + 1)) epoch slot) :=
  ite (fun _ ↦ prepareEpoch_yields) fun _ ↦ pure fun _ _ hh ↦ hh

/-- The handler from which the prefetch at a slot starts to fetch. -/
def pruned (net : Network) (slot : ℕ) (h : Handler AttesterDuty) : Handler AttesterDuty :=
  if atLastSlotOfCurrentEpoch net slot then h.deleteIntent (net.estimatedEpochAtSlot slot) else h

theorem prefetch_yields (hP : ∀ h past, P h past → Holds need known (pruned net slot h) past) :
    Act.Yields P (fun _ ↦ Holds need known) (prefetch net (fetchAndProcessDuties view slot)
      slot) := by
  refine ite (fun hlast ↦ ?_) fun hlast ↦ ?_
  · refine bind (update fun h past hh ↦ ?_) fun _ ↦ prepareNextEpoch_yields
    have := hP h past hh
    rwa [pruned, if_pos hlast] at this
  · refine prepareEpoch_yields.mono (fun h past hh ↦ ?_) fun _ _ _ hh ↦ hh
    have := hP h past hh
    rwa [pruned, if_neg hlast] at this

/-- **Declaring intents.** The epochs that are neither declared nor dropped stay as they were. -/
theorem Holds.declare (declared dropped : ℕ → Prop) [DecidablePred declared] [DecidablePred dropped]
    {h' : Handler AttesterDuty} {past' : List Event} (hh : Holds need known h past)
    (hlookup : ∀ e, h'.dutyFetchIntents.lookup e =
      if dropped e then none else if declared e then some false else h.dutyFetchIntents.lookup e)
    (hpast : ∀ e, fetchedSince past' e = if declared e then false else fetchedSince past e) :
    Holds (fun e ↦ (need e ∨ declared e) ∧ ¬ dropped e)
      (fun e ↦ (known e ∨ declared e) ∧ ¬ (dropped e ∧ declared e)) h' past' := by
  refine ⟨fun e he ↦ ?_, fun e he ↦ ?_, fun e he ↦ ?_⟩
  · rw [hlookup] at he
    rw [hpast]
    split at he
    · cases he
    · split at he
      · cases he
      · next hdeclared =>
        rw [if_neg hdeclared]
        exact hh.sound e he
  · rw [hlookup, if_neg he.2]
    split
    · rfl
    · next hdeclared => exact hh.present e (he.1.resolve_right hdeclared)
  · rw [hlookup, hpast] at he
    by_cases hdeclared : declared e
    · by_cases hdropped : dropped e
      · simp [hdeclared, hdropped] at he
      · exact ⟨.inr hdeclared, fun h ↦ hdropped h.1⟩
    · rw [if_neg hdeclared, if_neg hdeclared] at he
      refine ⟨.inl (hh.known e (he.imp_left fun he ↦ ?_)), fun h ↦ hdeclared h.2⟩
      split at he
      · cases he
      · exact he

abbrev Ends (net : Network) (slot e : ℕ) : Prop :=
  atLastSlotOfCurrentEpoch net slot ∧ e = net.estimatedEpochAtSlot slot

theorem lookup_pruned : (pruned net slot h).dutyFetchIntents.lookup e =
      if Ends net slot e then none else h.dutyFetchIntents.lookup e := by
  unfold pruned
  by_cases hlast : atLastSlotOfCurrentEpoch net slot
  · rw [if_pos hlast, lookup_deleteIntent]
    by_cases he : e = net.estimatedEpochAtSlot slot
    · rw [if_pos he, if_pos ⟨hlast, he⟩]
    · rw [if_neg he, if_neg fun h ↦ he h.2]
  · rw [if_neg hlast, if_neg fun h ↦ hlast h.1]

abbrev Lookahead (net : Network) (slot e : ℕ) : Prop :=
  e = net.estimatedEpochAtSlot slot ∨ e = net.estimatedEpochAtSlot slot + 1

theorem lookup_pruned_lookahead :
    (pruned net slot ((h.declareIntent (net.estimatedEpochAtSlot slot)).declareIntent
      (net.estimatedEpochAtSlot slot + 1))).dutyFetchIntents.lookup e =
      if Ends net slot e then none
      else if Lookahead net slot e then some false else h.dutyFetchIntents.lookup e := by
  rw [lookup_pruned, lookup_declareIntent, lookup_declareIntent]
  congr 1
  by_cases hnext : e = net.estimatedEpochAtSlot slot + 1
  · rw [if_pos hnext, if_pos (.inr hnext)]
  · rw [if_neg hnext]
    by_cases hcurrent : e = net.estimatedEpochAtSlot slot
    · rw [if_pos hcurrent, if_pos (.inl hcurrent)]
    · rw [if_neg hcurrent, if_neg (not_or.2 ⟨hcurrent, hnext⟩)]

theorem fetchedSince_indicesChange :
    fetchedSince (past ++ [.indicesChange (net.estimatedEpochAtSlot slot)]) e =
      if Lookahead net slot e then false else fetchedSince past e := by
  rw [fetchedSince_append, latch_cons, latch_nil, Event.freshness]
  by_cases he : Lookahead net slot e
  · rw [if_pos he, if_pos he]
    rfl
  · rw [if_neg he, if_neg he]
    rfl

theorem handleIndicesChange_yields : Act.Yields (Holds need known)
    (fun _ ↦ Holds (fun e ↦ (need e ∨ Lookahead net slot e) ∧ ¬ Ends net slot e)
      (fun e ↦ known e ∨ Lookahead net slot e))
    (handleIndicesChange net view slot) := by
  refine bind (emit (Q := fun _ h past ↦ ∃ past₀, Holds need known h past₀ ∧
    past = past₀ ++ [.indicesChange (net.estimatedEpochAtSlot slot)])
    fun h past hh ↦ ⟨past, hh, rfl⟩) fun _ ↦ ?_
  refine bind (update (Q := fun _ h past ↦ Holds _ _ (pruned net slot h) past)
    ?_) fun _ ↦ prefetch_yields fun _ _ hh ↦ hh
  rintro h _ ⟨past, hh, rfl⟩
  refine (hh.declare (Lookahead net slot) (Ends net slot)
    (fun _ ↦ lookup_pruned_lookahead) fun _ ↦ fetchedSince_indicesChange).mono ?_ ?_
  · exact fun _ he ↦ he
  · exact fun _ he ↦ he.1

theorem handleInitialDuties_yields {h₀ : Handler AttesterDuty}
    (h₀_empty : h₀.dutyFetchIntents = ∅) :
    Act.Yields (fun h past ↦ h = h₀ ∧ past = [])
      (fun _ ↦ Holds (fun e ↦ Lookahead net slot e ∧ ¬ Ends net slot e) (Lookahead net slot))
      (handleInitialDuties net view slot) := by
  have hstart : Holds (fun _ ↦ False) (fun _ ↦ False) h₀ [] := by
    refine ⟨fun e he ↦ ?_, nofun, fun e he ↦ ?_⟩
    · rw [h₀_empty] at he
      cases he
    · rw [h₀_empty] at he
      exact he.elim nofun nofun
  refine bind (update (Q := fun _ h past ↦ Holds _ _ (pruned net slot h) past)
    ?_) fun _ ↦ prefetch_yields fun _ _ hh ↦ hh
  rintro h past ⟨rfl, rfl⟩
  refine (hstart.declare (Lookahead net slot) (Ends net slot) (fun _ ↦ lookup_pruned_lookahead)
    fun e ↦ show fetchedSince [] e = _ from (ite_self false).symm).mono ?_ ?_
  · exact fun _ he ↦ ⟨.inr he.1, he.2⟩
  · exact fun _ he ↦ he.1.resolve_left id

abbrev Reorged (net : Network) (slot : ℕ) (event : ReorgEvent) (e : ℕ) : Prop :=
  e = net.estimatedEpochAtSlot slot ∧ event.previousDutyDependentRootChanged ∨
    e = net.estimatedEpochAtSlot slot + 1

theorem fetchedSince_reorg {event : ReorgEvent} :
    fetchedSince (past ++ [.reorg (net.estimatedEpochAtSlot slot) event]) e =
      if Reorged net slot event e then false else fetchedSince past e := by
  rw [fetchedSince_append, latch_cons, latch_nil, Event.freshness]
  by_cases he : Reorged net slot event e
  · rw [if_pos he, if_pos he]
    rfl
  · rw [if_neg he, if_neg he]
    rfl

theorem handleReorg_yields {event : ReorgEvent} : Act.Yields (Holds need known)
    (fun _ ↦ Holds (fun e ↦ (need e ∨ Reorged net slot event e) ∧ ¬ Ends net slot e)
      (fun e ↦ (known e ∨ Reorged net slot event e) ∧
        ¬ (Ends net slot e ∧ Reorged net slot event e)))
    (handleReorg net view event slot) := by
  refine bind (emit (Q := fun _ h past ↦ ∃ past₀, Holds need known h past₀ ∧
    past = past₀ ++ [.reorg (net.estimatedEpochAtSlot slot) event])
    fun h past hh ↦ ⟨past, hh, rfl⟩) fun _ ↦ ?_
  refine bind (update (Q := fun _ h past ↦
    Holds _ _ (pruned net slot (h.declareIntent (net.estimatedEpochAtSlot slot + 1))) past) ?_)
    fun _ ↦ bind (update fun _ _ hh ↦ hh) fun _ ↦ prefetch_yields fun _ _ hh ↦ hh
  rintro h _ ⟨past, hh, rfl⟩
  refine hh.declare (Reorged net slot event) (Ends net slot) (fun e ↦ ?_) fun _ ↦ fetchedSince_reorg
  rw [lookup_pruned, lookup_declareIntent]
  congr 1
  by_cases hnext : e = net.estimatedEpochAtSlot slot + 1
  · rw [if_pos hnext, if_pos (.inr hnext)]
  · rw [if_neg hnext]
    by_cases hchanged : event.previousDutyDependentRootChanged
    · rw [if_pos hchanged, lookup_declareIntent]
      by_cases hcurrent : e = net.estimatedEpochAtSlot slot
      · rw [if_pos hcurrent, if_pos (.inl ⟨hcurrent, hchanged⟩)]
      · rw [if_neg hcurrent, if_neg (not_or.2 ⟨fun h ↦ hcurrent h.1, hnext⟩)]
    · rw [if_neg hchanged, if_neg (not_or.2 ⟨fun h ↦ hchanged h.2, hnext⟩)]

theorem executeAggregatorDuties_yields {env : Execution} : Act.Yields (Holds need known)
    (fun _ ↦ Holds need known) (executeAggregatorDuties net env epoch slot) := by
  refine bind_read fun h₀ ↦ ite (fun _ ↦ ?_) fun _ ↦ ?_
  · exact pure fun h past hh ↦ hh.1 ▸ hh.2
  · refine emit fun h past hh ↦ (hh.1 ▸ hh.2).congr rfl fun e ↦ ?_
    rw [fetchedSince_append, latch_eq_self fun ev hev ↦ mem_singleton.1 hev ▸ rfl]

/-- **A tick** keeps the intents of later epochs, announces the next, and drops its own in its last
slot. -/
theorem handleTick_yields {env : TickEnv} : Act.Yields (Holds need known)
    (fun _ ↦ Holds
      (fun e ↦ (need e ∧ net.estimatedEpochAtSlot slot ≤ e ∨
        e = net.estimatedEpochAtSlot slot + 1) ∧
        ¬ Ends net slot e)
      (fun e ↦ known e ∨ Lookahead net slot e))
    (handleTick net env slot) := by
  obtain ⟨current, execution, next, indicesChange⟩ := env
  refine bind prepareEpoch_yields fun _ ↦ ?_
  refine bind (Q := fun _ ↦ Holds need known) (ite (fun _ ↦ ?_) fun _ ↦ ?_)
    fun _ ↦ ?_
  · exact pure fun _ _ hh ↦ hh
  · exact executeAggregatorDuties_yields
  refine bind prepareNextEpoch_yields fun _ ↦ ?_
  -- the clean-up only touches the epoch before
  refine bind (update (Q := fun _ ↦
    Holds (fun e ↦ need e ∧ net.estimatedEpochAtSlot slot ≤ e) known) fun h past hh ↦ ?_) fun _ ↦ ?_
  · refine ⟨fun e he ↦ ?_, fun e he ↦ ?_, fun e he ↦ ?_⟩
    · rw [lookup_cleanUp] at he
      split at he
      · cases he
      · exact hh.sound e he
    · rw [lookup_cleanUp, if_neg fun h ↦ by omega]
      exact hh.present e he.1
    · refine hh.known e (he.imp_left fun he ↦ ?_)
      rw [lookup_cleanUp] at he
      split at he
      · cases he
      · exact he
  refine bind (update (Q := fun _ ↦ Holds
    (fun e ↦ need e ∧ net.estimatedEpochAtSlot slot ≤ e ∨ e = net.estimatedEpochAtSlot slot + 1)
    fun e ↦ known e ∨ Lookahead net slot e) fun h past hh ↦ ?_) fun _ ↦ ?_
  · refine ⟨fun e he ↦ ?_, fun e he ↦ ?_, fun e he ↦ ?_⟩
    · rw [lookup_scheduleIntent] at he
      split at he
      · next heq =>
        refine hh.sound e (heq ▸ ?_)
        exact (Option.getD_eq_iff.1 (Option.some.inj he)).resolve_right fun h ↦ Bool.noConfusion h.2
      · exact hh.sound e he
    · rw [lookup_scheduleIntent]
      split
      · rfl
      · next hne => exact hh.present e (he.resolve_right hne)
    · rw [lookup_scheduleIntent] at he
      split at he
      · next heq => exact .inr (.inr heq)
      · exact .inl (hh.known e he)
  cases indicesChange with
  | none =>
    show Act.Yields (Holds _ _) (fun _ ↦ Holds _ _) (pure ())
    exact pure fun _ _ hh ↦ hh.mono (fun e he ↦ he.1) fun _ he ↦ he
  | some =>
    refine handleIndicesChange_yields.mono (fun _ _ hh ↦ hh) fun _ _ _ hh ↦
      hh.mono (fun e he ↦ ?_) ?_
    · exact ⟨.inl he.1, he.2⟩
    · exact fun e he ↦ he.elim id .inr

end

/-! ### Runs -/

structure Run where
  handler : Handler AttesterDuty
  /-- The slot of the last tick, at first that of the start. -/
  lastTick : ℕ
  events : List Event

/-- What happens to the handler. A reorg has the slot of the clock. -/
inductive Action where
  | tick (slot : ℕ) (env : TickEnv)
  | reorg (slot : ℕ) (event : ReorgEvent) (view : View)

def Run.perform (s : Run) (x : Method) : Run :=
  { s with
    handler := (x.run s.handler).state
    events := s.events ++ (x.run s.handler).events }

/-- A handler after `HandleInitialDuties`. -/
def start (net : Network) (exporterMode : Bool) (view : View) (slot : ℕ) : Run :=
  Run.perform ⟨{ exporterMode := exporterMode }, slot, []⟩ (handleInitialDuties net view slot)

/-- The handler, with ticks in increasing slots. -/
def machine (net : Network) : Machine Run Action where
  initial s := ∃ exporterMode view slot, s = start net exporterMode view slot
  enabled s
    | .tick slot _ => s.lastTick < slot
    | .reorg _ _ _ => True
  next s
    | .tick slot env => { s.perform (handleTick net env slot) with lastTick := slot }
    | .reorg slot event view => s.perform (handleReorg net view event slot)

/-- The event is a fetch for the epoch, whether it succeeds or not. -/
def Event.isFetch (epoch : ℕ) : Event → Bool
  | .attesterDuties e _ _ => e = epoch
  | _ => false

/-- The duties are fresh, or their fetch is the first thing the tick attempts. -/
def Covered (net : Network) (s : Run) (slot : ℕ) (env : TickEnv) : Prop :=
  fetchedSince s.events (net.estimatedEpochAtSlot slot) ∨
    ∃ ev ∈ ((Handler.prepareCurrentEpoch
        (fetchAndProcessDuties env.current slot (net.estimatedEpochAtSlot slot))
        (net.estimatedEpochAtSlot slot)).run s.handler).events,
      ev.isFetch (net.estimatedEpochAtSlot slot)

instance {net : Network} {s : Run} {slot : ℕ} {env : TickEnv} :
    Decidable (Covered net s slot env) :=
  inferInstanceAs (Decidable (_ ∨ _))

/-- A tick comes at most an epoch after the last, and a reorg in the last slot of an epoch after its
tick. -/
def Timely (net : Network) (s : Run) : Action → Prop
  | .tick slot _ => net.estimatedEpochAtSlot slot ≤ net.estimatedEpochAtSlot s.lastTick + 1
  | .reorg slot _ _ => atLastSlotOfCurrentEpoch net slot → slot ≤ s.lastTick

section

variable {net : Network} {s : Run} {slot : ℕ} {env : TickEnv}

theorem Run.perform_of_yields {x : Method} {P : Handler AttesterDuty → List Event → Prop}
    {Q : Unit → Handler AttesterDuty → List Event → Prop} (hx : Act.Yields P Q x)
    (hs : P s.handler s.events) : Q () (s.perform x).handler (s.perform x).events := by
  obtain ⟨_, -, hq⟩ := hx s.handler s.events hs
  exact hq

theorem isFetch_prepareCurrentEpoch {view : View} {h : Handler AttesterDuty} {epoch : ℕ} :
    (∃ ev ∈ ((prepareCurrentEpoch (fetchAndProcessDuties view slot epoch) epoch).run h).events,
      ev.isFetch epoch) ↔ h.dutyFetchIntents.lookup epoch = some false ∧ view.Eligible epoch := by
  show Act.wp (prepareEpoch _ _) (fun _ es _ ↦ (∃ ev ∈ es, Event.isFetch epoch ev) ↔ _) h
  unfold prepareEpoch
  rw [Act.wp_bind, Act.wp_read]
  show Act.wp _ _ _
  rw [Act.wp_ite, ← eligibleIndices_ne_nil]
  split
  · next hopen =>
    rw [Act.wp_attempt_bind]
    refine Act.wp_mono (fetch_spec view slot epoch h) fun h' es r ⟨_, hfetched⟩ ↦ ?_
    cases hfetched with
    | notEligible hnone =>
      show (∃ ev ∈ [], _) ↔ _
      simp [hnone]
    | failed hsome =>
      show (∃ ev ∈ [Event.attesterDuties _ _ _], _) ↔ _
      simp [hopen, hsome, Event.isFetch]
    | @answered subs hsome hsubs =>
      refine iff_of_true ⟨.attesterDuties epoch (eligibleIndices view epoch) true, ?_, ?_⟩
        ⟨hopen, hsome⟩
      · exact .head _
      · simp [Event.isFetch]
  · next hopen =>
    show (∃ ev ∈ [], _) ↔ _
    simp [hopen]


/-- A tick is covered as long as there is an intent or the duties are fresh. -/
theorem covered_iff_intent
    (hsound : ∀ e, s.handler.dutyFetchIntents.lookup e = some true → fetchedSince s.events e)
    (heligible : env.current.Eligible (net.estimatedEpochAtSlot slot)) :
    Covered net s slot env ↔
      (s.handler.dutyFetchIntents.lookup (net.estimatedEpochAtSlot slot)).isSome ∨
        fetchedSince s.events (net.estimatedEpochAtSlot slot) := by
  unfold Covered
  rw [isFetch_prepareCurrentEpoch]
  constructor
  · rintro (hfresh | ⟨hopen, -⟩)
    · exact .inr hfresh
    · exact .inl (by rw [hopen]; rfl)
  · rintro (hsome | hfresh)
    · obtain ⟨fulfilled, hlookup⟩ := Option.isSome_iff_exists.1 hsome
      cases fulfilled with
      | true => exact .inl (hsound _ hlookup)
      | false => exact .inr ⟨hlookup, heligible⟩
    · exact .inl hfresh

theorem not_covered (hnone : ¬ (
      (s.handler.dutyFetchIntents.lookup (net.estimatedEpochAtSlot slot)).isSome ∨
      fetchedSince s.events (net.estimatedEpochAtSlot slot))) :
    ¬ Covered net s slot env := by
  unfold Covered
  rw [isFetch_prepareCurrentEpoch]
  rintro (hfresh | ⟨hopen, -⟩)
  · exact hnone (.inr hfresh)
  · exact hnone (.inl (by rw [hopen]; rfl))

/-- The epochs that ticks and reorgs have spoken of. -/
def Known (net : Network) (s : Run) (e : ℕ) : Prop :=
  e ≤ net.estimatedEpochAtSlot s.lastTick + 1 ∨ ∃ c event, .reorg c event ∈ s.events ∧ e ≤ c + 1

/-- The epochs that the next ticks can be in, unless they come late. -/
def Expected (net : Network) (s : Run) (e : ℕ) : Prop :=
  Lookahead net s.lastTick e ∧ ¬ Ends net s.lastTick e

theorem Expected.of_timely (hslot : s.lastTick < slot)
    (htimely : net.estimatedEpochAtSlot slot ≤ net.estimatedEpochAtSlot s.lastTick + 1) :
    Expected net s (net.estimatedEpochAtSlot slot) := by
  have hmono := epoch_mono net hslot.le
  refine ⟨by unfold Lookahead; omega, fun hends ↦ ?_⟩
  have hlt := epoch_lt_of_atLastSlot hends.1 hslot
  exact absurd hends.2 (Nat.ne_of_gt hlt)

variable {e : ℕ}

theorem Expected.not_ends (he : Expected net s e) (hslot : slot ≤ s.lastTick) :
    ¬ Ends net slot e := by
  rintro ⟨hlast, hepoch⟩
  rcases hslot.lt_or_eq with hlt | rfl
  · have hepochs := epoch_lt_of_atLastSlot hlast hlt
    rcases he.1 with h | h <;> omega
  · exact he.2 ⟨hlast, hepoch⟩

theorem Known.of_lookahead (h : Lookahead net s.lastTick e) : Known net s e :=
  .inl (by rcases h with h | h <;> omega)

theorem Known.tick (hslot : s.lastTick < slot) (h : Known net s e ∨ Lookahead net slot e) :
    Known net ((machine net).next s (.tick slot env)) e := by
  have hmono := epoch_mono net hslot.le
  rcases h with (h | ⟨c, event, hmem, h⟩) | h
  · exact .inl (h.trans (Nat.succ_le_succ hmono))
  · exact .inr ⟨c, event, mem_append_left _ hmem, h⟩
  · exact .of_lookahead h

theorem Known.reorg {event : ReorgEvent} {view : View}
    (h : Known net s e ∨ Reorged net slot event e) :
    Known net ((machine net).next s (.reorg slot event view)) e := by
  rcases h with (h | ⟨c, event', hmem, h⟩) | h
  · exact .inl h
  · exact .inr ⟨c, event', mem_append_left _ hmem, h⟩
  · refine .inr ⟨net.estimatedEpochAtSlot slot, event, ?_, by rcases h with h | h <;> omega⟩
    exact mem_append_right _ (.head _)

theorem holds_known (hs : (machine net).Reachable s) :
    Holds (fun _ ↦ False) (Known net s) s.handler s.events := by
  refine hs.invariant (P := fun s ↦ Holds (fun _ ↦ False) (Known net s) s.handler s.events) ?_ ?_
  · rintro _ ⟨exporterMode, view, slot, rfl⟩
    refine (Run.perform_of_yields (handleInitialDuties_yields rfl) ⟨rfl, rfl⟩).mono nofun fun e he ↦
      ?_
    exact .of_lookahead he
  · rintro s (⟨slot, env⟩ | ⟨slot, event, view⟩) - hh ha
    · refine (Run.perform_of_yields handleTick_yields hh).mono nofun fun e he ↦ ?_
      exact .tick ha he
    · refine (Run.perform_of_yields handleReorg_yields hh).mono nofun fun e he ↦ ?_
      exact .reorg he.1

/-- In a timely run the epoch of the last tick, until it ends, and the next have an intent. -/
theorem holds_expected (hs : ((machine net).restrict (Timely net)).Reachable s) :
    Holds (Expected net s) (fun _ ↦ True) s.handler s.events := by
  refine hs.invariant (P := fun s ↦ Holds (Expected net s) (fun _ ↦ True) s.handler s.events) ?_ ?_
  · rintro _ ⟨exporterMode, view, slot, rfl⟩
    refine (Run.perform_of_yields (handleInitialDuties_yields rfl) ⟨rfl, rfl⟩).mono ?_ fun _ _ ↦
      trivial
    exact fun e he ↦ he
  · rintro s (⟨slot, env⟩ | ⟨slot, event, view⟩) - hh ⟨ha, htimely⟩
    · refine (Run.perform_of_yields handleTick_yields hh).mono ?_ fun _ _ ↦ trivial
      rintro e ⟨rfl | hnext, hends⟩
      · exact ⟨.inl ⟨.of_timely ha htimely, le_rfl⟩, hends⟩
      · exact ⟨.inr hnext, hends⟩
    · refine (Run.perform_of_yields handleReorg_yields hh).mono ?_ fun _ _ ↦ trivial
      exact fun e he ↦ ⟨.inl he, fun hends ↦ he.not_ends (htimely hends.1) hends⟩

end

/-- **Timely runs cover every tick, and only they do**: no tick is covered that comes more than an
epoch after the last, unless a reorg was handled in between, or after a reorg in the same, last slot
of its epoch. -/
theorem covered_of_timely (net : Network) :
    (∀ (s : Run) (slot : ℕ) (env : TickEnv), ((machine net).restrict (Timely net)).Reachable s →
      s.lastTick < slot → Timely net s (.tick slot env) →
      env.current.Eligible (net.estimatedEpochAtSlot slot) → Covered net s slot env) ∧
    (∀ (s : Run) (slot : ℕ) (env : TickEnv), (machine net).Reachable s →
      (∀ c event, .reorg c event ∈ s.events → c ≤ net.estimatedEpochAtSlot s.lastTick) →
      ¬ Timely net s (.tick slot env) → ¬ Covered net s slot env) ∧
    ∀ (s : Run) (slot : ℕ) (event : ReorgEvent) (view : View) (env : TickEnv),
      (machine net).Reachable s → event.previousDutyDependentRootChanged →
      ¬ Timely net s (.reorg slot event view) →
      ¬ Covered net ((machine net).next s (.reorg slot event view)) slot env := by
  refine ⟨fun s slot env hs hslot htimely heligible ↦ ?_, fun s slot env hs hreorgs hlate ↦ ?_,
    fun s slot event view env hs hchanged hearly ↦ ?_⟩
  · have hh := holds_expected hs
    rw [covered_iff_intent hh.sound heligible]
    exact .inl (hh.present _ (.of_timely hslot htimely))
  · refine not_covered fun hfound ↦ hlate ?_
    show net.estimatedEpochAtSlot slot ≤ net.estimatedEpochAtSlot s.lastTick + 1
    rcases (holds_known hs).known _ hfound with hle | ⟨c, event, hmem, hle⟩
    · exact hle
    · exact hle.trans (Nat.succ_le_succ (hreorgs c event hmem))
  · have hlast : atLastSlotOfCurrentEpoch net slot := by
      by_contra hnot
      exact hearly fun hlast ↦ absurd hlast hnot
    have hh := Run.perform_of_yields (x := handleReorg net view event slot) handleReorg_yields
      (holds_known hs)
    exact not_covered fun hfound ↦ (hh.known _ hfound).2 ⟨⟨hlast, rfl⟩, .inl ⟨rfl, hchanged⟩⟩

/-! ### A jump over an epoch -/

namespace Reference

open Validation.Reference (network)

def share : Share where
  validatorIndex := 7
  validatorPubKey := [1]
  committee := []
  domainType := []
  status := .activeOngoing
  ownerAddress := 0

def view : View := ⟨[share], .ok []⟩

def env : TickEnv := ⟨view, ⟨0, fun _ ↦ none, .stored⟩, view, none⟩

/-- The node starts in slot 0 and ticks in slot 1. -/
def atSlotOne : Run := (machine network).next (start network false view 0) (.tick 1 env)

theorem atSlotOne_reachable :
    ((machine network).restrict (Timely network)).Reachable atSlotOne := by
  have hstart : ((machine network).restrict (Timely network)).Reachable
      (start network false view 0) :=
    .initial ⟨false, view, 0, rfl⟩
  have hin : 0 < 1 ∧ network.estimatedEpochAtSlot 1 ≤ network.estimatedEpochAtSlot 0 + 1 := by
    decide
  exact hstart.step (a := Action.tick 1 env) hin

theorem view_eligible (epoch : ℕ) : view.Eligible epoch := ⟨share, mem_singleton.2 rfl, rfl⟩

theorem covered_in_time : Covered network atSlotOne 63 env := by
  refine (covered_of_timely network).1 atSlotOne 63 env atSlotOne_reachable (by decide) ?_
    (view_eligible _)
  show network.estimatedEpochAtSlot 63 ≤ network.estimatedEpochAtSlot 1 + 1
  decide

/-- Epoch 2 has been jumped over, and the tick of slot 64 does not fetch its duties. -/
theorem jump_not_covered : (machine network).Reachable atSlotOne ∧ atSlotOne.lastTick < 64 ∧
    env.current.Eligible (network.estimatedEpochAtSlot 64) ∧ ¬ Covered network atSlotOne 64 env :=
  ⟨atSlotOne_reachable.of_restrict, by decide, view_eligible _, by decide +kernel⟩

end Reference

end Ssv.Duties.Attester
