import SsvNode.Qbft.Replay

/-!
# Runs of the controller's window

`WindowRun` is a controller with the instances that have left its window and the heights that were
started. `StartNewInstance` marks all instances irrelevant before it lets one go, but an instance
pushed out by a decided message **is not marked**; without such steps (`keepsRelevant`) a start
leaves every older instance irrelevant.
-/

namespace Ssv

open SsvSpec List

variable [SsvSpec]

/-! ### What an insertion pushes out -/

namespace Instances

variable {ic : Instances} {inst x : Instance}

theorem length_insertByHeight (inst : Instance) (l : List Instance) :
    (insertByHeight inst l).length = l.length + 1 := by
  induction l with
  | nil => rfl
  | cons e l ih =>
    unfold insertByHeight
    split
    · rfl
    · rw [length_cons, ih, length_cons]

theorem lowest_of_not_mem_take {l : List Instance} {n : ℕ}
    (hl : (l.map (·.getHeight)).Pairwise (· > ·)) (hlength : l.length ≤ n + 1) (hx : x ∈ l)
    (hdrop : x ∉ l.take n) : l.length = n + 1 ∧ ∀ y ∈ l, x.getHeight ≤ y.getHeight := by
  have hsplit : l = l.take n ++ l.drop n := (take_append_drop n l).symm
  have hmem : x ∈ l.drop n := by
    rw [hsplit, mem_append] at hx
    exact hx.resolve_left hdrop
  have hdropLength : (l.drop n).length = 1 := by
    have := length_pos_of_mem hmem
    rw [length_drop] at this ⊢
    omega
  obtain ⟨z, hz⟩ := length_eq_one_iff.1 hdropLength
  obtain rfl : x = z := mem_singleton.1 (hz ▸ hmem)
  rw [hz] at hsplit
  refine ⟨by rw [length_drop] at hdropLength; omega, fun y hy ↦ ?_⟩
  rw [hsplit, map_append, pairwise_append] at hl
  rw [hsplit, mem_append] at hy
  rcases hy with hy | hy
  · exact (hl.2.2 _ (mem_map_of_mem hy) _ (mem_map_of_mem (.head _))).le
  · exact (congrArg Instance.getHeight (mem_singleton.1 hy)).ge

/-- **What an insertion pushes out**: the lowest instance of a full window, which is below the new
one. -/
theorem pushed_out (hic : ic.Ordered) (hlength : ic.items.length ≤ ic.cap)
    (hnew : ∀ x ∈ ic.items, x.getHeight ≠ inst.getHeight) (hx : x ∈ ic.items)
    (hdrop : x ∉ (ic.addNewInstance inst).items) :
    ic.items.length = ic.cap ∧ x.getHeight < inst.getHeight ∧
      ∀ y ∈ ic.items, x.getHeight ≤ y.getHeight := by
  have hcap : (ic.addNewInstance inst).cap = ic.cap := by
    have := length_pos_of_mem hx
    exact if_neg (by omega)
  have hitems : (ic.addNewInstance inst).items = (insertByHeight inst ic.items).take ic.cap := by
    rw [← hcap]
    rfl
  rw [hitems] at hdrop
  have hlowest := lowest_of_not_mem_take (pairwise_insertByHeight hic hnew)
    (by rw [length_insertByHeight]; omega) (mem_insertByHeight.2 (.inr hx)) hdrop
  rw [length_insertByHeight] at hlowest
  refine ⟨by omega, ?_, fun y hy ↦ hlowest.2 y (mem_insertByHeight.2 (.inr hy))⟩
  exact lt_of_le_of_ne (hlowest.2 inst (mem_insertByHeight.2 (.inl rfl))) (hnew x hx)

end Instances

/-! ### Runs -/

namespace Controller

/-- The instances when a call lets go of some; a start has marked them irrelevant. -/
def held (c : Controller) (call : Call) : List Instance :=
  match call with
  | .startNewInstance _ _ _ _ =>
    if ((perform call).run c).result.isOk then c.markRecentInstancesIrrelevant.items else c.items
  | _ => c.items

def startedBy (c : Controller) (call : Call) : Option ℕ :=
  match call with
  | .startNewInstance _ height _ _ =>
    if ((perform call).run c).result.isOk then some height else none
  | _ => none

/-- A decided message pushes out no instance that is still relevant. -/
def keepsRelevant (c : Controller) : Call → Bool
  | .processMsg _ sm =>
    match newProcessingMessage sm with
    | .error _ => true
    | .ok msg =>
      !c.isDecidedMsg msg || (c.recentInstances.findInstance msg.qbftMessage.height).isSome ||
        decide (c.items.length < c.recentInstances.cap) ||
        c.items.all fun x ↦ x.markedIrrelevant || decide (msg.qbftMessage.height ≤ x.getHeight) ||
          c.items.any fun y ↦ decide (y.getHeight < x.getHeight)
  | _ => true

end Controller

/-- A controller with what has left its window and what was started. -/
structure WindowRun where
  controller : Controller
  /-- The instances that have left the window, as they were then. -/
  left : List Instance
  /-- The heights of the starts, the last one first. -/
  started : List ℕ

namespace WindowRun

def next (run : WindowRun) (call : Call) : WindowRun where
  controller := ((Controller.perform call).run run.controller).state
  left := run.left ++ (run.controller.held call).filter fun x ↦
    ((Controller.perform call).run run.controller).state.items.all fun y ↦
      decide (y.getHeight ≠ x.getHeight)
  started := (run.controller.startedBy call).toList ++ run.started

def machine : Machine WindowRun Call where
  initial run := run.controller.items = [] ∧ run.controller.latestInstanceHeight = firstHeight ∧
    run.left = [] ∧ run.started = []
  enabled _ _ := True
  next := next

end WindowRun

/-! ### One call -/

namespace Controller

variable {c c' : Controller} {call : Call} {es : List Event} {ok : Bool}

/-- A start succeeds only for a height that is neither behind nor there. -/
theorem perform_startNewInstance (c : Controller) (now h : ℕ) (value : Data)
    (checker : ValueChecker) :
    (perform (.startNewInstance now h value checker)).wp (fun c' _ r ↦
      (r.isOk = true ∧ c.latestInstanceHeight ≤ h ∧ c.recentInstances.findInstance h = none ∧
        c' = c.markRecentInstancesIrrelevant.withNewInstance
          ((c.newInstance h).withStart value checker) h) ∨
      (r.isOk = false ∧ c' = c)) c := by
  unfold perform startNewInstance startInstance
  simp only [Act.wp_bind, Act.wp_lift, Act.wp_read, Act.wp_ite, Act.wp_fail, Act.wp_update,
    wp_onFresh, Act.wp_pure]
  rcases checker now value with e | u
  · exact .inr ⟨rfl, trivial⟩
  change if _ then _ else _
  split
  · exact .inr ⟨rfl, trivial⟩
  · rename_i hle
    split
    · exact .inr ⟨rfl, trivial⟩
    · rename_i habsent
      refine Instance.wp_start fun es _ _ ↦ ?_
      exact .inl ⟨rfl, by omega, by simpa using habsent, rfl⟩

/-- A message or timeout leaves the heights, or is a decided message for one that is not there. -/
theorem Step.heights (hstep : c.Step call c' es ok)
    (hcall : ∀ now h value checker, call ≠ .startNewInstance now h value checker) :
    c'.items.map (·.getHeight) = c.items.map (·.getHeight) ∧
        c'.recentInstances.cap = c.recentInstances.cap ∨
      ∃ now sm msg inst, call = .processMsg now sm ∧ newProcessingMessage sm = .ok msg ∧
        c.isDecidedMsg msg = true ∧ c.recentInstances.findInstance msg.qbftMessage.height = none ∧
        inst.getHeight = msg.qbftMessage.height ∧
        c' = c.withNewInstance inst (max c.latestInstanceHeight msg.qbftMessage.height) := by
  have hset : ∀ inst, (c.withInstance inst).items.map (·.getHeight) = c.items.map (·.getHeight) ∧
      (c.withInstance inst).recentInstances.cap = c.recentInstances.cap :=
    fun inst ↦ ⟨Instances.heights_replaceFirst, rfl⟩
  cases hstep with
  | skip | decideLost => exact .inl ⟨rfl, rfl⟩
  | start => exact absurd rfl (hcall _ _ _ _)
  | onMessage | onTimeout | decideKnown | recordDecided => exact .inl (hset _)
  | decideNew decoded absent valid concluded =>
    simp only [validateDecided, Checks.bind_eq_ok, Checks.exists_check, Checks.require_eq_ok]
      at valid
    exact .inr ⟨_, _, _, _, rfl, decoded, valid.1, absent,
      congrArg Scope.height concluded.scope_eq, rfl⟩

/-- A call starts a height, takes in the instance of a decided message, or leaves the heights. -/
inductive WindowStep (c : Controller) (call : Call) : Prop
  | start {h : ℕ} {inst : Instance} (started : c.startedBy call = some h)
      (held : c.held call = c.markRecentInstancesIrrelevant.items)
      (le : c.latestInstanceHeight ≤ h) (absent : c.recentInstances.findInstance h = none)
      (height : inst.getHeight = h)
      (state : ((perform call).run c).state = c.markRecentInstancesIrrelevant.withNewInstance
        inst h)
  | decide {now : ℕ} {sm : SignedSSVMessage} {msg : ProcessingMessage} {inst : Instance}
      (started : c.startedBy call = none) (held : c.held call = c.items)
      (call_eq : call = .processMsg now sm) (decoded : newProcessingMessage sm = .ok msg)
      (decided : c.isDecidedMsg msg = true)
      (absent : c.recentInstances.findInstance msg.qbftMessage.height = none)
      (height : inst.getHeight = msg.qbftMessage.height)
      (state : ((perform call).run c).state =
        c.withNewInstance inst (max c.latestInstanceHeight msg.qbftMessage.height))
  | keep (started : c.startedBy call = none) (held : c.held call = c.items)
      (heights : ((perform call).run c).state.items.map (·.getHeight) = c.items.map (·.getHeight))
      (cap : ((perform call).run c).state.recentInstances.cap = c.recentInstances.cap)

theorem windowStep (c : Controller) (call : Call) : c.WindowStep call := by
  have hother (hcall : ∀ now h value checker, call ≠ .startNewInstance now h value checker)
      (hstarted : c.startedBy call = none) (hheld : c.held call = c.items) : c.WindowStep call := by
    rcases (step_perform c call).heights hcall with
      ⟨hheights, hcap⟩ | ⟨_, _, _, _, rfl, hdecoded, hdecided, habsent, hheight, hstate⟩
    · exact .keep hstarted hheld hheights hcap
    · exact .decide hstarted hheld rfl hdecoded hdecided habsent hheight hstate
  cases call with
  | processMsg | onQBFTRoundTimeout => exact hother (fun _ _ _ _ ↦ nofun) rfl rfl
  | startNewInstance now h value checker =>
    rcases perform_startNewInstance c now h value checker with
      ⟨hok, hle, habsent, hstate⟩ | ⟨hok, hstate⟩
    · exact .start (if_pos hok) (if_pos hok) hle habsent rfl hstate
    · have hnot : ¬ ((perform (.startNewInstance now h value checker)).run c).result.isOk =
          true := by
        rw [hok]
        exact Bool.false_ne_true
      exact .keep (if_neg hnot) (if_neg hnot) (by rw [hstate]) (by rw [hstate])

theorem WellFormed.head_latest (hc : c.WellFormed) :
    ∀ x ∈ c.items.head?, x.getHeight = c.latestInstanceHeight := by
  intro x hx
  obtain ⟨rest, hitems⟩ := head?_eq_some_iff.1 hx
  have hle := hc.le_latest x (mem_of_head? hx)
  rcases hc.latest with ⟨hnil, -⟩ | ⟨y, hy, hlatest⟩
  · simp [hnil] at hitems
  · have hordered := hc.ordered
    unfold Instances.Ordered at hordered
    rw [show c.recentInstances.items = x :: rest from hitems, map_cons, pairwise_cons] at hordered
    rcases mem_cons.1 (hitems ▸ hy) with rfl | hy
    · exact hlatest
    · have := hordered.1 _ (mem_map_of_mem hy)
      omega

/-- No relevant instance is pushed out by a decided message, by `keepsRelevant`. -/
theorem irrelevant_of_keepsRelevant {now : ℕ} {sm : SignedSSVMessage} {msg : ProcessingMessage}
    {x : Instance} (h : c.keepsRelevant (.processMsg now sm) = true)
    (hdecoded : newProcessingMessage sm = .ok msg) (hdecided : c.isDecidedMsg msg = true)
    (habsent : c.recentInstances.findInstance msg.qbftMessage.height = none) (hx : x ∈ c.items)
    (hfull : c.items.length = c.recentInstances.cap) (hlt : x.getHeight < msg.qbftMessage.height)
    (hlowest : ∀ y ∈ c.items, x.getHeight ≤ y.getHeight) : x.markedIrrelevant = true := by
  simp only [keepsRelevant, hdecoded, hdecided, habsent, hfull, Bool.not_true, Bool.false_or,
    Option.isSome_none, Nat.lt_irrefl, decide_false, all_eq_true, Bool.or_eq_true,
    decide_eq_true_eq, any_eq_true] at h
  rcases h x hx with (hirrelevant | hle) | ⟨y, hy, hlt'⟩
  · exact hirrelevant
  · omega
  · have := hlowest y hy
    omega

end Controller

/-! ### All runs -/

namespace WindowRun

variable {run : WindowRun}

structure Invariant (run : WindowRun) : Prop where
  wellFormed : run.controller.WellFormed
  within : run.controller.items.length ≤ run.controller.recentInstances.cap
  started : run.started.Pairwise (· > ·)
  started_le : ∀ h ∈ run.started, h ≤ run.controller.latestInstanceHeight
  items_ne_nil : run.started ≠ [] → run.controller.items ≠ []

theorem Invariant.of_initial (h : machine.initial run) : run.Invariant := by
  obtain ⟨hitems, hlatest, -, hstarted⟩ := h
  have hnone : ∀ x, x ∉ run.controller.items := fun x hx ↦ by simp [hitems] at hx
  refine ⟨⟨?_, fun x hx ↦ absurd hx (hnone x), .inl ⟨hitems, hlatest⟩,
    fun x hx ↦ absurd hx (hnone x)⟩, ?_, ?_, ?_, fun hne ↦ absurd hstarted hne⟩
  · unfold Instances.Ordered
    rw [show run.controller.recentInstances.items = [] from hitems]
    exact List.Pairwise.nil
  · rw [hitems]
    exact Nat.zero_le _
  · rw [hstarted]
    exact List.Pairwise.nil
  · rw [hstarted]
    exact fun h hh ↦ nomatch hh

theorem Invariant.next (hrun : run.Invariant) (call : Call) : (run.next call).Invariant := by
  have hstep := Controller.step_perform run.controller call
  have hwell := hrun.wellFormed.step hstep
  have hlatest := hstep.latest_le
  -- a call that starts nothing leaves the log of starts
  have hquiet (hstarted : run.controller.startedBy call = none)
      (hwithin : (run.next call).controller.items.length ≤
        (run.next call).controller.recentInstances.cap) : (run.next call).Invariant := by
    have heq : (run.next call).started = run.started := by
      rw [WindowRun.next, hstarted]
      rfl
    refine ⟨hwell, hwithin, heq ▸ hrun.started, fun h hh ↦ ?_, fun hne ↦ ?_⟩
    · exact (hrun.started_le h (heq ▸ hh)).trans hlatest
    · exact hstep.items_ne_nil hrun.wellFormed (hrun.items_ne_nil (heq ▸ hne))
  cases run.controller.windowStep call with
  | decide started held call_eq decoded decided absent height state =>
    refine hquiet started ?_
    simp only [WindowRun.next, state]
    exact length_take_le _ _
  | keep started held heights cap =>
    refine hquiet started ?_
    have hlength := congrArg length heights
    rw [length_map, length_map] at hlength
    simp only [WindowRun.next, hlength, cap]
    exact hrun.within
  | @start h inst started held le absent height state =>
    have heq : (run.next call).started = h :: run.started := by
      rw [WindowRun.next, started]
      rfl
    have hnew : (run.next call).controller =
        run.controller.markRecentInstancesIrrelevant.withNewInstance inst h := state
    -- the latest height is there, so that a height that is not there is above it
    have hlt : ∀ h' ∈ run.started, h' < h := by
      intro h' hh'
      have hne := hrun.items_ne_nil (ne_nil_of_mem hh')
      rcases hrun.wellFormed.latest with ⟨hnil, -⟩ | ⟨x, hx, hxlatest⟩
      · exact absurd hnil hne
      · have := Controller.WellFormed.absent_iff.1 absent x hx
        have := hrun.started_le h' hh'
        omega
    refine ⟨hwell, ?_, ?_, ?_, fun _ ↦ ?_⟩
    · rw [hnew]
      exact length_take_le _ _
    · rw [heq]
      exact pairwise_cons.2 ⟨hlt, hrun.started⟩
    · rw [heq, hnew]
      intro h' hh'
      rcases mem_cons.1 hh' with rfl | hh'
      · exact le_rfl
      · exact (hlt h' hh').le
    · rw [hnew]
      refine Controller.items_withNewInstance_ne_nil
        hrun.wellFormed.markRecentInstancesIrrelevant fun x hx ↦ ?_
      obtain ⟨y, hy, rfl⟩ := mem_map.1 hx
      rw [height]
      exact Controller.WellFormed.absent_iff.1 absent y hy

theorem mem_left_next {call : Call} {x : Instance} (hx : x ∈ (run.next call).left) :
    x ∈ run.left ∨ x ∈ run.controller.held call ∧
      ∀ y ∈ (run.next call).controller.items, y.getHeight ≠ x.getHeight := by
  rcases mem_append.1 hx with hx | hx
  · exact .inl hx
  · obtain ⟨hheld, hgone⟩ := mem_filter.1 hx
    exact .inr ⟨hheld, fun y hy ↦ of_decide_eq_true (all_eq_true.1 hgone y hy)⟩

theorem irrelevant_of_mem_mark {c : Controller} {x : Instance}
    (hx : x ∈ c.markRecentInstancesIrrelevant.items) : x.markedIrrelevant = true := by
  obtain ⟨y, -, rfl⟩ := mem_map.1 hx
  rfl

/-- Only irrelevant instances leave the window, if decided messages push out no others. -/
theorem left_irrelevant_next {call : Call} (hrun : run.Invariant)
    (hleft : ∀ x ∈ run.left, x.markedIrrelevant = true)
    (hkeeps : run.controller.keepsRelevant call = true) :
    ∀ x ∈ (run.next call).left, x.markedIrrelevant = true := by
  intro x hx
  rcases mem_left_next hx with hx | ⟨hheld, hgone⟩
  · exact hleft x hx
  cases run.controller.windowStep call with
  | start started held => exact irrelevant_of_mem_mark (held ▸ hheld)
  | keep started held heights =>
    rw [held] at hheld
    have hmem : x.getHeight ∈ (run.next call).controller.items.map (·.getHeight) := by
      simp only [WindowRun.next, heights]
      exact mem_map_of_mem hheld
    obtain ⟨y, hy, heq⟩ := mem_map.1 hmem
    exact absurd heq (hgone y hy)
  | @decide now sm msg inst started held call_eq decoded decided absent height state =>
    subst call_eq
    rw [held] at hheld
    have hnew : ∀ y ∈ run.controller.items, y.getHeight ≠ inst.getHeight := by
      rw [height]
      exact Controller.WellFormed.absent_iff.1 absent
    obtain ⟨hfull, hlt, hlowest⟩ := Instances.pushed_out hrun.wellFormed.ordered hrun.within hnew
      hheld fun hin ↦ hgone x (by simp only [WindowRun.next, state]; exact hin) rfl
    exact Controller.irrelevant_of_keepsRelevant hkeeps decoded decided absent hheld hfull
      (height ▸ hlt) hlowest

/-! ### The result -/

/-- **The window in every run**: heights decrease strictly and fit the capacity, the first is the
latest height, which never decreases, and no height is started twice. **If decided messages push out
no relevant instance**, a start leaves every other instance irrelevant. -/
theorem window_of_runs :
    (∀ run, machine.Reachable run →
      (run.controller.items.map (·.getHeight)).Pairwise (· > ·) ∧
      run.controller.items.length ≤ run.controller.recentInstances.cap ∧
      (∀ x ∈ run.controller.items.head?, x.getHeight = run.controller.latestInstanceHeight) ∧
      run.started.Nodup ∧
      ∀ call, run.controller.latestInstanceHeight ≤
        (run.next call).controller.latestInstanceHeight) ∧
    ∀ run, (machine.restrict fun run call ↦
        run.controller.keepsRelevant call = true).Reachable run →
      ∀ call h, run.controller.startedBy call = some h →
      ∀ x ∈ (run.next call).controller.items ++ (run.next call).left, x.getHeight ≠ h →
        x.markedIrrelevant = true := by
  refine ⟨fun run hrun ↦ ?_, fun run hrun call h hstarted x hx hne ↦ ?_⟩
  · have hinv : run.Invariant :=
      hrun.invariant (fun _ ↦ Invariant.of_initial) fun run call _ h _ ↦ h.next call
    refine ⟨hinv.wellFormed.ordered, hinv.within, ?_, hinv.started.imp ne_of_gt, fun call ↦
      (Controller.step_perform run.controller call).latest_le⟩
    exact hinv.wellFormed.head_latest
  · have hinv : run.Invariant ∧ ∀ x ∈ run.left, x.markedIrrelevant = true := by
      refine hrun.invariant (P := fun run ↦
        run.Invariant ∧ ∀ x ∈ run.left, x.markedIrrelevant = true) (fun run hinit ↦ ?_) ?_
      · refine ⟨Invariant.of_initial hinit, fun x hx ↦ ?_⟩
        rw [hinit.2.2.1] at hx
        exact nomatch hx
      · rintro run call - ⟨hinv, hleft⟩ ⟨-, hkeeps⟩
        exact ⟨hinv.next call, left_irrelevant_next hinv hleft hkeeps⟩
    cases run.controller.windowStep call with
    | decide started | keep started =>
      rw [started] at hstarted
      cases hstarted
    | @start _ inst started held le absent height state =>
      obtain rfl := Option.some.inj (hstarted.symm.trans started)
      rcases List.mem_append.1 hx with hx | hx
      · have hmem : x ∈
            (run.controller.markRecentInstancesIrrelevant.withNewInstance inst h).items := by
          rw [← state]
          exact hx
        rcases Instances.mem_of_mem_addNewInstance hmem with rfl | hold
        · exact absurd height hne
        · exact irrelevant_of_mem_mark hold
      · rcases mem_left_next hx with hx | ⟨hheld, -⟩
        · exact hinv.2 x hx
        · exact irrelevant_of_mem_mark (held ▸ hheld)

end WindowRun

end Ssv

/-! ### Two runs of a controller -/

namespace Ssv.Reference

local instance windowSpec : SsvSpec := spec

def decidedAt (height : ℕ) : SignedSSVMessage :=
  let sm := signed 4 { message .commit 1 (hashDataRoot value) with height := height } value
  { sm with
    operatorIDs := [2, 3, 4]
    signatures := [2, 3, 4].map (signature · sm.ssvMessage) }

def emptyWindow : WindowRun where
  controller := (fourOperators.start 1).controller
  left := []
  started := []

def windowRunOf (calls : List Call) : WindowRun := calls.foldl WindowRun.next emptyWindow

def startCall (height : ℕ) : Call := .startNewInstance 0 height value nonEmpty

theorem reachable_windowRunOf {M : Machine WindowRun Call} {calls : List Call}
    (hinit : M.initial emptyWindow) (hnext : M.next = WindowRun.next)
    (h : M.Enables emptyWindow calls) : M.Reachable (windowRunOf calls) := by
  rw [windowRunOf, ← hnext]
  exact (Machine.Reachable.initial hinit).foldl h

/-- Three starts in a window of two; a decided message pushes out nothing. -/
theorem window_of_runs_threeStarts :
    (windowRunOf [startCall 1, .processMsg 0 (decidedAt 1), startCall 2, startCall 3]).left.length =
      1 ∧
    (∀ x ∈ (windowRunOf [startCall 1, .processMsg 0 (decidedAt 1), startCall 2, startCall 3]).left,
      x.getHeight ≠ 3 → x.markedIrrelevant = true) ∧
    (windowRunOf [startCall 1, .processMsg 0 (decidedAt 1), startCall 2,
      startCall 3]).started.Nodup := by
  refine ⟨by decide +kernel, fun x hx ↦ ?_, ?_⟩
  · refine WindowRun.window_of_runs.2
      (windowRunOf [startCall 1, .processMsg 0 (decidedAt 1), startCall 2])
      (reachable_windowRunOf ⟨rfl, rfl, rfl, rfl⟩ rfl ?_) (startCall 3) 3 (by decide +kernel) x
      (List.mem_append_right _ hx)
    exact ⟨⟨trivial, by decide +kernel⟩, ⟨trivial, by decide +kernel⟩, ⟨trivial, by decide +kernel⟩,
      trivial⟩
  · refine (WindowRun.window_of_runs.1 _ (reachable_windowRunOf ⟨rfl, rfl, rfl, rfl⟩ rfl
      ?_)).2.2.2.1
    exact ⟨trivial, trivial, trivial, trivial, trivial⟩

/-- Heights `2` to `4` push the instance of height `1` out while it is relevant. -/
theorem pushed_out_instance_relevant :
    WindowRun.machine.Reachable
      (windowRunOf [startCall 1, .processMsg 0 (decidedAt 2), .processMsg 0 (decidedAt 3)]) ∧
    (windowRunOf [startCall 1, .processMsg 0 (decidedAt 2),
      .processMsg 0 (decidedAt 3)]).controller.startedBy (startCall 4) = some 4 ∧
    ∃ x ∈ ((windowRunOf [startCall 1, .processMsg 0 (decidedAt 2),
      .processMsg 0 (decidedAt 3)]).next (startCall 4)).left,
      x.getHeight = 1 ∧ x.markedIrrelevant = false := by
  refine ⟨reachable_windowRunOf ⟨rfl, rfl, rfl, rfl⟩ rfl ⟨trivial, trivial, trivial, trivial⟩,
    by decide +kernel, by decide +kernel⟩

end Ssv.Reference
