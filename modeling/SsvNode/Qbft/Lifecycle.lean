import SsvNode.Qbft.Calls
import SsvNode.Qbft.Votes

/-!
# The life of an instance in its controller

`Controller.WellFormed` is the invariant of the window. What a call means for a single instance,
message and decision:

* `Origin`: an undecided instance was there before, or has just been started or taken one step;
* `SentBy`: a message was sent by an undecided instance of the window or one just started;
* `MarkedBy`: a decision is one of an undecided instance, or that of a decided message.

A height is `Closed` when its instance has decided or left the window, and stays so.
-/

namespace Ssv

open SsvSpec Instances List

variable [SsvSpec]

/-! ### Transitions keep committee and height -/

namespace Instance

variable {now : ℕ} {input : Input} {i i' : Instance} {es : List Event} {m : Message}

theorem Step.sent_unique {m' : Message} (h : i.Step now input i' es) (hm : Sent es m)
    (hm' : Sent es m') : m = m' := by
  rcases h.causes with ⟨sends, -⟩ | ⟨_, _, rfl, -⟩
  · exact sends.unique hm hm'
  · exact absurd hm not_sent_markDecided

theorem Sends.isSigned {P : Message → Prop} {sm : SignedSSVMessage} {slot : ℕ} (h : i.Sends P es)
    (he : Event.broadcast sm slot ∈ es) :
    slot = i.getHeight ∧ ∃ m, IsSigned i.state.committeeMember.operatorID m sm ∧
      m.height = slot := by
  rcases h with rfl | ⟨sm', m, rfl, hsigned, hheight, -⟩
  · simp at he
  · obtain ⟨rfl, rfl⟩ : sm = sm' ∧ slot = i.state.height := by simpa using he
    exact ⟨rfl, m, hsigned, hheight⟩

theorem Step.isSigned {sm : SignedSSVMessage} {slot : ℕ} (h : i.Step now input i' es)
    (he : Event.broadcast sm slot ∈ es) :
    slot = i.getHeight ∧ ∃ m, IsSigned i.state.committeeMember.operatorID m sm ∧
      m.height = slot := by
  rcases h.causes with ⟨sends, -⟩ | ⟨_, _, rfl, -⟩
  · exact sends.isSigned he
  · simp at he

theorem Step.of_mark {height r : ℕ} {v : Data} (h : i.Step now input i' es)
    (he : Event.markDecided height r v ∈ es) : height = i.getHeight ∧ i'.state.decided = true := by
  rcases h.causes with ⟨rfl | ⟨sm, m, rfl, -⟩, -⟩ | ⟨_, _, rfl, hdecided⟩
  · simp at he
  · simp at he
  · exact ⟨(Event.markDecided.inj (mem_singleton.1 he)).1, hdecided⟩

theorem Step.undecided_of_sent (h : i.Step now input i' es) (hund : i.state.decided = false)
    (hm : Sent es m) : i'.state.decided = false := by
  rcases h.causes with ⟨-, hsame⟩ | ⟨_, _, rfl, -⟩
  · exact hsame.trans hund
  · exact absurd hm not_sent_markDecided

theorem Concluded.scope_eq {msg : ProcessingMessage} (h : i.Concluded msg i') :
    i'.scope = i.scope := by
  obtain ⟨c, rfl⟩ := h
  rfl

theorem Concluded.decided {msg : ProcessingMessage} (h : i.Concluded msg i') :
    i'.state.decided = true := by
  obtain ⟨c, rfl⟩ := h
  rfl

end Instance

namespace Controller

variable {c c' : Controller} {call : Call} {es : List Event} {ok : Bool} {x inst : Instance}
  {m : Message} {h : ℕ}

theorem Announces.not_sent (hes : Announces es) : ¬ Sent es m := by
  rintro ⟨e, he, sm, slot, rfl, -⟩
  obtain ⟨_, _, heq⟩ := hes _ he
  simp at heq

abbrev items (c : Controller) : List Instance := c.recentInstances.items

/-- What every call keeps. -/
structure WellFormed (c : Controller) : Prop where
  ordered : c.recentInstances.Ordered
  le_latest : ∀ x ∈ c.items, x.getHeight ≤ c.latestInstanceHeight
  /-- The latest height is that of an instance, or nothing has happened yet. -/
  latest : (c.items = [] ∧ c.latestInstanceHeight = firstHeight) ∨
    ∃ x ∈ c.items, x.getHeight = c.latestInstanceHeight
  scope : ∀ x ∈ c.items, x.state.committeeMember = c.committeeMember

namespace WellFormed

theorem find_iff (hc : c.WellFormed) :
    c.recentInstances.findInstance h = some inst ↔ inst ∈ c.items ∧ inst.getHeight = h :=
  findInstance_eq_some_iff hc.ordered

theorem newController {identifier : Bytes} {fn : Option (ℕ → Bytes)} {cm : CommitteeMember}
    {config : Config} {signer : OperatorSigner} :
    (newController identifier fn cm config signer).WellFormed where
  ordered := List.Pairwise.nil
  le_latest _ hx := nomatch hx
  latest := .inl ⟨rfl, rfl⟩
  scope _ hx := nomatch hx

theorem withInstance {inst' : Instance} (hc : c.WellFormed) (hinst : inst ∈ c.items)
    (hscope : inst'.scope = inst.scope) : (c.withInstance inst').WellFormed := by
  have hheight : inst'.getHeight = inst.getHeight := congrArg Scope.height hscope
  have hmem : ∀ {x}, x ∈ (c.withInstance inst').items ↔
      x = inst' ∨ (x ∈ c.items ∧ x.getHeight ≠ inst'.getHeight) :=
    mem_set hc.ordered hinst hheight
  refine ⟨hc.ordered.set inst', ?_, .inr ?_, ?_⟩
  · intro x hx
    rcases hmem.1 hx with rfl | ⟨hx, -⟩
    · rw [hheight]
      exact hc.le_latest inst hinst
    · exact hc.le_latest x hx
  · rcases hc.latest with ⟨hnil, -⟩ | ⟨y, hy, hlatest⟩
    · simp [hnil] at hinst
    · by_cases hyi : y.getHeight = inst'.getHeight
      · exact ⟨inst', hmem.2 (.inl rfl), by rw [← hyi]; exact hlatest⟩
      · exact ⟨y, hmem.2 (.inr ⟨hy, hyi⟩), hlatest⟩
  · intro x hx
    rcases hmem.1 hx with rfl | ⟨hx, -⟩
    · exact (congrArg Scope.committeeMember hscope).trans (hc.scope inst hinst)
    · exact hc.scope x hx

theorem markRecentInstancesIrrelevant (hc : c.WellFormed) :
    c.markRecentInstancesIrrelevant.WellFormed := by
  have hmem : ∀ {x}, x ∈ c.markRecentInstancesIrrelevant.items ↔
      ∃ y ∈ c.items, y.markIrrelevant = x := mem_map
  refine ⟨?_, ?_, ?_, ?_⟩
  · have : c.markRecentInstancesIrrelevant.items.map (·.getHeight) = c.items.map (·.getHeight) :=
      map_map ..
    unfold Instances.Ordered
    rw [this]
    exact hc.ordered
  · intro x hx
    obtain ⟨y, hy, rfl⟩ := hmem.1 hx
    exact hc.le_latest y hy
  · rcases hc.latest with ⟨hnil, hlat⟩ | ⟨y, hy, hlatest⟩
    · exact .inl ⟨by simp [Controller.markRecentInstancesIrrelevant, hnil], hlat⟩
    · exact .inr ⟨y.markIrrelevant, hmem.2 ⟨y, hy, rfl⟩, hlatest⟩
  · intro x hx
    obtain ⟨y, hy, rfl⟩ := hmem.1 hx
    exact hc.scope y hy

theorem withNewInstance {latest : ℕ} (hc : c.WellFormed)
    (hnew : ∀ x ∈ c.items, x.getHeight ≠ inst.getHeight)
    (hcm : inst.state.committeeMember = c.committeeMember)
    (hlatest : latest = max c.latestInstanceHeight inst.getHeight) :
    (c.withNewInstance inst latest).WellFormed := by
  subst hlatest
  have hof : ∀ {x}, x ∈ (c.withNewInstance inst
      (max c.latestInstanceHeight inst.getHeight)).items → x = inst ∨ x ∈ c.items :=
    mem_of_mem_addNewInstance
  have hle : ∀ x, x = inst ∨ x ∈ c.items → x.getHeight ≤ max c.latestInstanceHeight
      inst.getHeight := by
    rintro x (rfl | hx)
    · exact le_max_right _ _
    · exact (hc.le_latest x hx).trans (le_max_left _ _)
  refine ⟨hc.ordered.addNewInstance hnew, fun x hx ↦ hle x (hof hx), .inr ?_, ?_⟩
  · -- the greatest height is never ejected
    have hkeep : ∀ x, x = inst ∨ x ∈ c.items →
        x.getHeight = max c.latestInstanceHeight inst.getHeight →
        x ∈ (c.withNewInstance inst (max c.latestInstanceHeight inst.getHeight)).items := by
      intro x hx heq
      rcases mem_or_lt_of_addNewInstance hc.ordered hnew hx with hin | ⟨y, hy, hlt⟩
      · exact hin
      · have := hle y (hof hy)
        omega
    rcases le_total c.latestInstanceHeight inst.getHeight with hmax | hmax
    · have heq : inst.getHeight = max c.latestInstanceHeight inst.getHeight :=
        (max_eq_right hmax).symm
      exact ⟨inst, hkeep inst (.inl rfl) heq, heq⟩
    · rcases hc.latest with ⟨-, hzero⟩ | ⟨y, hy, hylat⟩
      · have heq : inst.getHeight = max c.latestInstanceHeight inst.getHeight := by
          rw [hzero] at hmax ⊢
          exact (max_eq_right (Nat.zero_le _)).symm
        exact ⟨inst, hkeep inst (.inl rfl) heq, heq⟩
      · have heq : y.getHeight = max c.latestInstanceHeight inst.getHeight := by
          rw [hylat]
          exact (max_eq_left hmax).symm
        exact ⟨y, hkeep y (.inr hy) heq, heq⟩
  · intro x hx
    rcases hof hx with rfl | hx
    · exact hcm
    · exact hc.scope x hx

theorem absent_iff : c.recentInstances.findInstance h = none ↔ ∀ x ∈ c.items, x.getHeight ≠ h :=
  findInstance_eq_none_iff

theorem absent_irrelevant (habsent : ∀ x ∈ c.items, x.getHeight ≠ h) :
    ∀ x ∈ c.markRecentInstancesIrrelevant.items, x.getHeight ≠ h := by
  intro x hx
  obtain ⟨y, hy, rfl⟩ := mem_map.1 hx
  exact habsent y hy

theorem step (hc : c.WellFormed) (hstep : c.Step call c' es ok) : c'.WellFormed := by
  cases hstep with
  | skip | decideLost => exact hc
  | start le absent =>
    exact hc.markRecentInstancesIrrelevant.withNewInstance (absent_irrelevant (absent_iff.1 absent))
      rfl
      (max_eq_right le).symm
  | onMessage decoded found undecided hinst | onTimeout found undecided le hinst =>
    exact hc.withInstance (hc.find_iff.1 found).1 hinst.scope_eq
  | decideNew decoded absent valid concluded =>
    have hheight := congrArg Scope.height concluded.scope_eq
    refine hc.withNewInstance ?_ (congrArg Scope.committeeMember concluded.scope_eq) ?_
    · intro x hx heq
      exact absent_iff.1 absent x hx (heq.trans hheight)
    · exact congrArg (max c.latestInstanceHeight) hheight.symm
  | decideKnown decoded found undecided valid concluded =>
    exact hc.withInstance (hc.find_iff.1 found).1 concluded.scope_eq
  | recordDecided found => exact hc.withInstance (hc.find_iff.1 found).1 rfl

end WellFormed

theorem Step.latest_le (hstep : c.Step call c' es ok) :
    c.latestInstanceHeight ≤ c'.latestInstanceHeight := by
  cases hstep with
  | start le => exact le
  | decideNew => exact le_max_left _ _
  | _ => exact le_rfl

theorem items_withNewInstance_ne_nil {latest : ℕ} (hc : c.WellFormed)
    (hnew : ∀ x ∈ c.items, x.getHeight ≠ inst.getHeight) :
    (c.withNewInstance inst latest).items ≠ [] := by
  rcases mem_or_lt_of_addNewInstance hc.ordered hnew (.inl rfl) with hin | ⟨y, hy, -⟩
  · exact ne_nil_of_mem hin
  · exact ne_nil_of_mem hy

theorem Step.items_ne_nil (hc : c.WellFormed) (hstep : c.Step call c' es ok)
    (hne : c.items ≠ []) : c'.items ≠ [] := by
  have hset : ∀ {y y' : Instance}, y ∈ c.items → y'.getHeight = y.getHeight →
      (c.withInstance y').items ≠ [] := fun hy hh ↦
    ne_nil_of_mem ((mem_set hc.ordered hy hh).2 (.inl rfl))
  cases hstep with
  | skip | decideLost => exact hne
  | start le absent =>
    exact items_withNewInstance_ne_nil hc.markRecentInstancesIrrelevant
      (WellFormed.absent_irrelevant (WellFormed.absent_iff.1 absent))
  | onMessage decoded found undecided hinst =>
    exact hset (hc.find_iff.1 found).1 hinst.height_eq
  | onTimeout found undecided le hinst => exact hset (hc.find_iff.1 found).1 hinst.height_eq
  | decideNew decoded absent valid concluded =>
    refine items_withNewInstance_ne_nil hc fun x hx heq ↦ ?_
    exact WellFormed.absent_iff.1 absent x hx (heq.trans (congrArg Scope.height concluded.scope_eq))
  | decideKnown decoded found undecided valid concluded =>
    exact hset (hc.find_iff.1 found).1 (congrArg Scope.height concluded.scope_eq)
  | @recordDecided now sm msg inst container _ found decided =>
    have hheight : (inst.withCommits container).getHeight = inst.getHeight := rfl
    exact hset (hc.find_iff.1 found).1 hheight

theorem Step.committeeMember_eq (hstep : c.Step call c' es ok) :
    c'.committeeMember = c.committeeMember := by
  cases hstep <;> rfl

/-! ### Where an instance comes from -/

/-- How an undecided instance `x` of the window after a call came about. -/
inductive Origin (c : Controller) (call : Call) (es : List Event) (x : Instance) : Prop
  /-- It was there, and nothing was sent for its height. -/
  | kept {y : Instance} (mem : y ∈ c.items) (same : x = y ∨ x = y.markIrrelevant)
      (quiet : ∀ m, Sent es m → m.height ≠ y.getHeight)
  | started {now h : ℕ} {value : Data} {checker : ValueChecker}
      (call_eq : call = .startNewInstance now h value checker)
      (le : c.latestInstanceHeight ≤ h) (absent : ∀ y ∈ c.items, y.getHeight ≠ h)
      (eq : x = (c.newInstance h).withStart value checker)
      (sends : (c.newInstance h).Sends (fun m ↦ m.msgType = .proposal) es)
  | stepped {y : Instance} {now : ℕ} {input : Instance.Input} {es₀ : List Event}
      (mem : y ∈ c.items) (undecided : y.state.decided = false)
      (hands : Hands call y.getHeight input) (step : y.Step now input x es₀)
      (events : ∀ {m}, Sent es m ↔ Sent es₀ m)

theorem sent_append_announces {ds : List Event} (hds : Announces ds) :
    Sent (es ++ ds) m ↔ Sent es m := by
  rw [sent_append]
  exact or_iff_left hds.not_sent

theorem Step.origin (hc : c.WellFormed) (hstep : c.Step call c' es ok) (hx : x ∈ c'.items)
    (hund : x.state.decided = false) : Origin c call es x := by
  cases hstep with
  | skip => exact .kept hx (.inl rfl) fun m hm ↦ absurd hm not_sent_nil
  | start le absent sends =>
    have habsent := WellFormed.absent_iff.1 absent
    rcases mem_of_mem_addNewInstance hx with rfl | hx
    · exact .started rfl le habsent rfl sends
    · obtain ⟨y, hy, rfl⟩ := mem_map.1 hx
      refine .kept hy (.inr rfl) fun m hm heq ↦ habsent y hy ?_
      rw [← heq]
      exact (sends.of_sent hm).1
  | @onMessage now sm msg inst inst' es ds _ decoded found undecided hinst announces =>
    obtain ⟨hmem, hheight⟩ := hc.find_iff.1 found
    rcases (mem_set hc.ordered hmem hinst.height_eq).1 hx with rfl | ⟨hx, hne⟩
    · exact .stepped hmem undecided (hheight ▸ .message decoded) hinst
        (sent_append_announces announces)
    · refine .kept hx (.inl rfl) fun m hm heq ↦ hne ?_
      rw [hinst.height_eq, ← heq]
      exact hinst.height_of_sent ((sent_append_announces announces).1 hm)
  | onTimeout found undecided le hinst =>
    obtain ⟨hmem, hheight⟩ := hc.find_iff.1 found
    rcases (mem_set hc.ordered hmem hinst.height_eq).1 hx with rfl | ⟨hx, hne⟩
    · exact .stepped hmem undecided (hheight ▸ .timeout) hinst Iff.rfl
    · refine .kept hx (.inl rfl) fun m hm heq ↦ hne ?_
      rw [hinst.height_eq, ← heq]
      exact hinst.height_of_sent hm
  | decideNew decoded absent valid concluded =>
    rcases mem_of_mem_addNewInstance hx with rfl | hx
    · simp [concluded.decided] at hund
    · exact .kept hx (.inl rfl) fun m hm ↦ absurd hm not_sent_markDecided
  | decideLost => exact .kept hx (.inl rfl) fun m hm ↦ absurd hm not_sent_markDecided
  | decideKnown decoded found undecided valid concluded =>
    obtain ⟨hmem, -⟩ := hc.find_iff.1 found
    have hheight := congrArg Scope.height concluded.scope_eq
    rcases (mem_set hc.ordered hmem hheight).1 hx with rfl | ⟨hx, -⟩
    · simp [concluded.decided] at hund
    · exact .kept hx (.inl rfl) fun m hm ↦ absurd hm not_sent_markDecided
  | @recordDecided now sm msg inst container _ found decided =>
    obtain ⟨hmem, -⟩ := hc.find_iff.1 found
    have hheight : (inst.withCommits container).getHeight = inst.getHeight := rfl
    rcases (mem_set hc.ordered hmem hheight).1 hx with rfl | ⟨hx, -⟩
    · have : inst.state.decided = false := hund
      simp [decided] at this
    · exact .kept hx (.inl rfl) fun m hm ↦ absurd hm not_sent_nil

/-- Who sent a message: an undecided instance of the window, or one just started. -/
inductive SentBy (c : Controller) (call : Call) (c' : Controller) (es : List Event) (m : Message) :
    Prop
  | step {inst inst' : Instance} {now : ℕ} {input : Instance.Input} {es₀ : List Event}
      (mem : inst ∈ c.items) (undecided : inst.state.decided = false)
      (height : m.height = inst.getHeight) (hands : Hands call inst.getHeight input)
      (step : inst.Step now input inst' es₀) (mem' : inst' ∈ c'.items)
      (events : ∀ {m'}, Sent es m' ↔ Sent es₀ m')
  | start (proposal : m.msgType = .proposal) (le : c.latestInstanceHeight ≤ m.height)
      (absent : ∀ y ∈ c.items, y.getHeight ≠ m.height)
      (latest : c'.latestInstanceHeight = m.height) (ne_nil : c'.items ≠ [])
      (unique : ∀ {m'}, Sent es m' → m' = m)

theorem Step.sentBy (hc : c.WellFormed) (hstep : c.Step call c' es ok) (hm : Sent es m) :
    SentBy c call c' es m := by
  cases hstep with
  | skip | recordDecided => exact absurd hm not_sent_nil
  | start le absent sends =>
    obtain ⟨hheight, htype⟩ := sends.of_sent hm
    have hheight : m.height = _ := hheight
    have habsent := WellFormed.absent_iff.1 absent
    refine .start htype (hheight ▸ le) (hheight ▸ habsent) hheight.symm ?_
      fun hm' ↦ sends.unique hm' hm
    exact items_withNewInstance_ne_nil hc.markRecentInstancesIrrelevant
      (WellFormed.absent_irrelevant habsent)
  | @onMessage now sm msg inst inst' es ds _ decoded found undecided hinst announces =>
    obtain ⟨hmem, hheight⟩ := hc.find_iff.1 found
    have hsent := (sent_append_announces (m := m) announces).1 hm
    exact .step hmem undecided (hinst.height_of_sent hsent) (hheight ▸ .message decoded) hinst
      ((mem_set hc.ordered hmem hinst.height_eq).2 (.inl rfl))
      (sent_append_announces announces)
  | @onTimeout now slot round inst inst' es _ found undecided le hinst =>
    obtain ⟨hmem, hheight⟩ := hc.find_iff.1 found
    exact .step hmem undecided (hinst.height_of_sent hm) (hheight ▸ .timeout) hinst
      ((mem_set hc.ordered hmem hinst.height_eq).2 (.inl rfl)) Iff.rfl
  | decideNew | decideLost | decideKnown => exact absurd hm not_sent_markDecided

/-- **What is handed to the network** is from an undecided instance of the window, or one just
started. -/
theorem Step.broadcast_origin {sm : SignedSSVMessage} {slot : ℕ} (hc : c.WellFormed)
    (hstep : c.Step call c' es ok) (he : Event.broadcast sm slot ∈ es) :
    (∃ m, IsSigned c.committeeMember.operatorID m sm ∧ m.height = slot) ∧
      ((∃ inst ∈ c.items, inst.state.decided = false ∧ slot = inst.getHeight) ∨
        (c.latestInstanceHeight ≤ slot ∧ ∀ y ∈ c.items, y.getHeight ≠ slot)) := by
  have hof : ∀ {inst inst' : Instance} {now h : ℕ} {input : Instance.Input} {es₀ : List Event},
      c.recentInstances.findInstance h = some inst → inst.state.decided = false →
      inst.Step now input inst' es₀ → Event.broadcast sm slot ∈ es₀ →
      (∃ m, IsSigned c.committeeMember.operatorID m sm ∧ m.height = slot) ∧
        ∃ inst ∈ c.items, inst.state.decided = false ∧ slot = inst.getHeight := by
    intro inst inst' now h input es₀ found hund hinst hmem
    have hitem := (hc.find_iff.1 found).1
    obtain ⟨hslot, hsigned⟩ := hinst.isSigned hmem
    exact ⟨hc.scope inst hitem ▸ hsigned, inst, hitem, hund, hslot⟩
  cases hstep with
  | skip | decideNew | decideLost | decideKnown | recordDecided => simp at he
  | start le absent sends =>
    obtain ⟨rfl, hsigned⟩ := sends.isSigned he
    exact ⟨hsigned, .inr ⟨le, WellFormed.absent_iff.1 absent⟩⟩
  | onMessage decoded found undecided hinst announces =>
    rcases mem_append.1 he with he | he
    · exact (hof found undecided hinst he).imp_right .inl
    · obtain ⟨_, _, heq⟩ := announces _ he
      simp at heq
  | onTimeout found undecided le hinst => exact (hof found undecided hinst he).imp_right .inl

/-- Why a decision was marked: the commits of an undecided instance, or a decided message. -/
inductive MarkedBy (c : Controller) (call : Call) (h r : ℕ) (v : Data) : Prop
  | commits {inst inst' : Instance} {now : ℕ} {input : Instance.Input} {es₀ : List Event}
      (mem : inst ∈ c.items) (undecided : inst.state.decided = false)
      (hands : Hands call inst.getHeight input) (step : inst.Step now input inst' es₀)
      (mark : Event.markDecided h r v ∈ es₀)
  | decidedMsg {now : ℕ} {sm : SignedSSVMessage} {msg : ProcessingMessage}
      (call_eq : call = .processMsg now sm) (decoded : newProcessingMessage sm = .ok msg)
      (valid : c.validateDecided msg = .ok ()) (height : h = msg.qbftMessage.height)
      (round : r = msg.qbftMessage.round) (value : v = msg.signedMessage.fullData)

theorem Step.markedBy {r : ℕ} {v : Data} (hc : c.WellFormed) (hstep : c.Step call c' es ok)
    (hmark : Event.markDecided h r v ∈ es) : MarkedBy c call h r v := by
  cases hstep with
  | skip | recordDecided => simp at hmark
  | start le absent sends =>
    rcases sends with rfl | ⟨sm, m, rfl, -⟩ <;> simp at hmark
  | onMessage decoded found undecided hinst announces =>
    obtain ⟨hmem, hheight⟩ := hc.find_iff.1 found
    rcases mem_append.1 hmark with hmark | hmark
    · exact .commits hmem undecided (hheight ▸ .message decoded) hinst hmark
    · obtain ⟨_, _, heq⟩ := announces _ hmark
      simp at heq
  | onTimeout found undecided le hinst =>
    obtain ⟨hmem, hheight⟩ := hc.find_iff.1 found
    exact .commits hmem undecided (hheight ▸ .timeout) hinst hmark
  | decideNew decoded absent valid | decideLost decoded valid =>
    obtain ⟨hh, hr, hv⟩ := Event.markDecided.inj (mem_singleton.1 hmark)
    exact .decidedMsg rfl decoded valid hh hr hv
  | decideKnown decoded found undecided valid =>
    obtain ⟨hh, hr, hv⟩ := Event.markDecided.inj (mem_singleton.1 hmark)
    exact .decidedMsg rfl decoded valid (hh.trans (hc.find_iff.1 found).2) hr hv

/-! ### Closed heights -/

/-- The instance of the height has decided, or has left the window. -/
def Closed (c : Controller) (h : ℕ) : Prop :=
  (∃ x ∈ c.items, x.getHeight = h ∧ x.state.decided = true) ∨
    (h < c.latestInstanceHeight ∧ ∀ x ∈ c.items, x.getHeight ≠ h)

theorem Closed.not_broadcast {sm : SignedSSVMessage} {slot : ℕ} (hclosed : c.Closed h)
    (hc : c.WellFormed) (hstep : c.Step call c' es ok) (he : Event.broadcast sm slot ∈ es) :
    slot ≠ h := by
  rintro rfl
  rcases (hstep.broadcast_origin hc he).2 with ⟨inst, hinst, hund, hheight⟩ | ⟨hle, habsent⟩
  · rcases hclosed with ⟨x, hx, hxh, hdec⟩ | ⟨-, habsent⟩
    · have := hc.ordered.eq_of_height hx hinst (hxh.trans hheight)
      subst this
      simp [hund] at hdec
    · exact habsent inst hinst hheight.symm
  · rcases hclosed with ⟨x, hx, hxh, -⟩ | ⟨hlt, -⟩
    · exact habsent x hx hxh
    · omega

theorem closed_withNewInstance {latest : ℕ} (hc : c.WellFormed)
    (hnew : ∀ x ∈ c.items, x.getHeight ≠ inst.getHeight)
    (hcm : inst.state.committeeMember = c.committeeMember)
    (hlatest : latest = max c.latestInstanceHeight inst.getHeight) (hx : x = inst ∨ x ∈ c.items)
    (hdec : x.state.decided = true) : (c.withNewInstance inst latest).Closed x.getHeight := by
  have hwf := hc.withNewInstance hnew hcm hlatest
  rcases mem_or_lt_of_addNewInstance hc.ordered hnew hx with hin | ⟨y, hy, hlt⟩
  · exact .inl ⟨x, hin, rfl, hdec⟩
  by_cases hin : ∃ z ∈ (c.withNewInstance inst latest).items, z.getHeight = x.getHeight
  · obtain ⟨z, hz, hzx⟩ := hin
    -- heights are distinct, before and after: `z` can only be `x`
    have hzeq : z = x := by
      rcases mem_of_mem_addNewInstance hz with rfl | hz' <;> rcases hx with rfl | hx
      · rfl
      · exact absurd hzx.symm (hnew x hx)
      · exact absurd hzx (hnew z hz')
      · exact hc.ordered.eq_of_height hz' hx hzx
    subst hzeq
    exact .inl ⟨z, hz, rfl, hdec⟩
  · exact .inr ⟨lt_of_lt_of_le hlt (hwf.le_latest y hy), fun z hz hzx ↦ hin ⟨z, hz, hzx⟩⟩

theorem absent_withNewInstance {latest : ℕ}
    (hlatest : latest = max c.latestInstanceHeight inst.getHeight)
    (hlt : h < c.latestInstanceHeight) (habsent : ∀ x ∈ c.items, x.getHeight ≠ h)
    (hne : inst.getHeight ≠ h) : (c.withNewInstance inst latest).Closed h := by
  refine .inr ⟨lt_of_lt_of_le hlt (hlatest ▸ le_max_left _ _), fun x hx ↦ ?_⟩
  rcases mem_of_mem_addNewInstance hx with rfl | hx
  · exact hne
  · exact habsent x hx

theorem closed_withInstance {inst' : Instance} (hclosed : c.Closed h) (hc : c.WellFormed)
    (hinst : inst ∈ c.items) (hheight : inst'.getHeight = inst.getHeight)
    (hdec : inst.state.decided = true → inst'.state.decided = true) :
    (c.withInstance inst').Closed h := by
  have hmem : ∀ {x}, x ∈ (c.withInstance inst').items ↔
      x = inst' ∨ (x ∈ c.items ∧ x.getHeight ≠ inst'.getHeight) :=
    mem_set hc.ordered hinst hheight
  rcases hclosed with ⟨x, hx, rfl, hxdec⟩ | ⟨hlt, habsent⟩
  · by_cases hxi : x.getHeight = inst'.getHeight
    · have := hc.ordered.eq_of_height hx hinst (hxi.trans hheight)
      subst this
      exact .inl ⟨inst', hmem.2 (.inl rfl), hheight, hdec hxdec⟩
    · exact .inl ⟨x, hmem.2 (.inr ⟨hx, hxi⟩), rfl, hxdec⟩
  · refine .inr ⟨hlt, fun x hx ↦ ?_⟩
    rcases hmem.1 hx with rfl | ⟨hx, -⟩
    · rw [hheight]
      exact habsent inst hinst
    · exact habsent x hx

/-- **A closed height stays closed.** -/
theorem Closed.step (hclosed : c.Closed h) (hc : c.WellFormed) (hstep : c.Step call c' es ok) :
    c'.Closed h := by
  cases hstep with
  | skip | decideLost => exact hclosed
  | @start now h' value checker es _ le absent sends =>
    have hnew := WellFormed.absent_irrelevant (WellFormed.absent_iff.1 absent)
    rcases hclosed with ⟨x, hx, rfl, hdec⟩ | ⟨hlt, habsent⟩
    · exact closed_withNewInstance (x := x.markIrrelevant) hc.markRecentInstancesIrrelevant hnew
        rfl (max_eq_right le).symm (.inr (mem_map.2 ⟨x, hx, rfl⟩)) hdec
    · exact absent_withNewInstance (c := c.markRecentInstancesIrrelevant) (max_eq_right le).symm hlt
        (WellFormed.absent_irrelevant habsent) (lt_of_lt_of_le hlt le).ne'
  | onMessage decoded found undecided hinst | onTimeout found undecided le hinst =>
    exact closed_withInstance hclosed hc (hc.find_iff.1 found).1 hinst.height_eq
      (by simp [undecided])
  | @decideNew now sm msg inst' _ decoded absent valid concluded =>
    have hheight : inst'.getHeight = msg.qbftMessage.height :=
      congrArg Scope.height concluded.scope_eq
    have hnew : ∀ x ∈ c.items, x.getHeight ≠ inst'.getHeight := by
      rw [hheight]
      exact WellFormed.absent_iff.1 absent
    have hcm := congrArg Scope.committeeMember concluded.scope_eq
    have hmax : max c.latestInstanceHeight msg.qbftMessage.height =
        max c.latestInstanceHeight inst'.getHeight := by rw [hheight]
    rcases hclosed with ⟨x, hx, rfl, hdec⟩ | ⟨hlt, habsent⟩
    · exact closed_withNewInstance hc hnew hcm hmax (.inr hx) hdec
    · by_cases hh : inst'.getHeight = h
      · have := closed_withNewInstance hc hnew hcm hmax (.inl rfl) concluded.decided
        rwa [hh] at this
      · exact absent_withNewInstance hmax hlt habsent hh
  | decideKnown decoded found undecided valid concluded =>
    exact closed_withInstance hclosed hc (hc.find_iff.1 found).1
      (congrArg Scope.height concluded.scope_eq) (by simp [undecided])
  | recordDecided found =>
    exact closed_withInstance hclosed hc (hc.find_iff.1 found).1 rfl fun hd ↦ hd

theorem Step.closed_of_marked {r : ℕ} {v : Data} (hc : c.WellFormed)
    (hstep : c.Step call c' es true) (hmark : Event.markDecided h r v ∈ es) : c'.Closed h := by
  have hin : ∀ {y y' : Instance}, y ∈ c.items → y'.getHeight = y.getHeight →
      y'.state.decided = true → (c.withInstance y').Closed y.getHeight := fun hy hh hd ↦
    .inl ⟨_, (mem_set hc.ordered hy hh).2 (.inl rfl), hh, hd⟩
  have hquiet : ∀ {i : Instance} {P : Message → Prop}, i.Sends P es → False := by
    rintro i P (rfl | ⟨sm, m, rfl, -⟩) <;> simp at hmark
  generalize hok : true = okay at hstep
  cases hstep with
  | skip | recordDecided => simp at hmark
  | start le absent sends => exact (hquiet sends).elim
  | onMessage decoded found undecided hinst announces =>
    rcases mem_append.1 hmark with hmark | hmark
    · obtain ⟨rfl, hdec⟩ := hinst.of_mark hmark
      exact hin (hc.find_iff.1 found).1 hinst.height_eq hdec
    · obtain ⟨_, _, heq⟩ := announces _ hmark
      simp at heq
  | onTimeout found undecided le hinst =>
    obtain ⟨rfl, hdec⟩ := hinst.of_mark hmark
    exact hin (hc.find_iff.1 found).1 hinst.height_eq hdec
  | @decideNew now sm msg inst' _ decoded absent valid concluded =>
    have hheight : inst'.getHeight = msg.qbftMessage.height :=
      congrArg Scope.height concluded.scope_eq
    obtain ⟨rfl, -⟩ : h = _ ∧ _ := by simpa using hmark
    rw [← hheight]
    refine closed_withNewInstance hc ?_ (congrArg Scope.committeeMember concluded.scope_eq) rfl
      (.inl rfl) concluded.decided
    rw [hheight]
    exact WellFormed.absent_iff.1 absent
  | decideLost => simp at hok
  | decideKnown decoded found undecided valid concluded =>
    obtain ⟨rfl, -⟩ : h = _ ∧ _ := by simpa using hmark
    exact hin (hc.find_iff.1 found).1 (congrArg Scope.height concluded.scope_eq) concluded.decided

end Controller

end Ssv
