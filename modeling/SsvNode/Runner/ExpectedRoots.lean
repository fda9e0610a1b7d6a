import SsvNode.Lib.Checks
import SsvNode.Validation.SignerState

/-!
# The roots a packet of partial signatures must have

Before consensus `verifyExpectedRoot` compares sorted lists, so that **the order does not matter and
repetitions count**. After consensus `verifyExpectedPostConsensusRoots` looks every entry up; there
a root may be optional, and none may occur twice. Objects and domains are arbitrary (`SigningEnv`).
-/

namespace Ssv

open Checks List Finset

/-! ### The checks -/

/-- What signing roots are computed from: the duty's slot, the configuration, the beacon node and
`ssv-spec`. -/
structure SigningEnv (Obj Dom : Type) where
  dutySlot : ℕ
  estimatedEpochAtSlot : ℕ → ℕ
  domainData : ℕ → Dom → Except Err Bytes
  computeETHSigningRoot : Obj → Bytes → Except Err Root

structure PostConsensusRoot (Obj Dom : Type) where
  root : Obj
  domain : Dom
  optional : Bool

structure ExpectedSigningRoot (Obj Dom : Type) extends PostConsensusRoot Obj Dom where
  signingRoot : Root

/-- The roots in the order of their bytes. -/
def sortRoots (roots : List Root) : List Root := roots.insertionSort fun a b ↦ a.toNat ≤ b.toNat

section

variable {Obj Dom : Type} (env : SigningEnv Obj Dom)

/-- The expected roots of `verifyExpectedRoot`, before they are sorted. -/
def expectedSigningRoots (expectedRootObjs : List Obj) (domain : Dom) : Except Err (List Root) := do
  let epoch := env.estimatedEpochAtSlot env.dutySlot
  let d ← (env.domainData epoch domain).mapError (.wrap "could not get pre consensus root domain")
  expectedRootObjs.mapM fun rootI ↦
    (env.computeETHSigningRoot rootI d).mapError (.wrap "could not compute ETH signing root")

def verifyExpectedRoot (psigMsgs : Validation.PartialSignatureMessages)
    (expectedRootObjs : List Obj) (domain : Dom) : Except Err Unit := do
  require (expectedRootObjs.length = psigMsgs.messages.length)
    (.newError .wrongRootsCount "wrong expected roots count")
  let sortedExpectedRoots := sortRoots (← expectedSigningRoots env expectedRootObjs domain)
  let sortedRoots := sortRoots (psigMsgs.messages.map (·.signingRoot))
  forM (sortedExpectedRoots.zip sortedRoots) fun (expected, r) ↦
    require (expected = r) (.newError .wrongSigningRoot "wrong signing root")

def resolvePostConsensusSigningRoots (expected : List (PostConsensusRoot Obj Dom)) :
    Except Err (List (ExpectedSigningRoot Obj Dom)) :=
  let epoch := env.estimatedEpochAtSlot env.dutySlot
  expected.mapM fun e ↦ do
    let domain ← (env.domainData epoch e.domain).mapError
      (.wrap "could not get post consensus root domain")
    let signingRoot ← (env.computeETHSigningRoot e.root domain).mapError
      (.wrap "could not compute ETH signing root")
    return { e with signingRoot := signingRoot }

/-- The body of the loop over a packet's entries: find the expected root, and cover it. -/
def coverRoot (signingRoots : List (ExpectedSigningRoot Obj Dom)) (covered : Finset Root)
    (root : Root) : Except Err (Finset Root) :=
  match signingRoots.find? fun sr ↦ decide (sr.signingRoot = root) with
  | none => .error (.newError .wrongSigningRoot "unexpected signing root")
  | some sr =>
    if sr.signingRoot ∈ covered then
      .error (.newError .wrongRootsCount "duplicate expected signing root")
    else .ok (insert sr.signingRoot covered)

def verifyExpectedPostConsensusRoots (psigMsgs : Validation.PartialSignatureMessages)
    (expected : List (PostConsensusRoot Obj Dom)) : Except Err Unit := do
  require (¬ psigMsgs.messages.length > expected.length)
    (.newError .wrongRootsCount "wrong expected roots count")
  let signingRoots ← resolvePostConsensusSigningRoots env expected
  let covered ← (psigMsgs.messages.map (·.signingRoot)).foldlM (coverRoot signingRoots) ∅
  forM signingRoots fun sr ↦
    require (sr.optional ∨ sr.signingRoot ∈ covered)
      (.newError .wrongRootsCount "missing required signing root")

end

/-! ### Sorted lists -/

instance : Std.Total fun a b : Root ↦ a.toNat ≤ b.toNat := ⟨fun a b ↦ le_total a.toNat b.toNat⟩

instance : IsTrans Root fun a b ↦ a.toNat ≤ b.toNat := ⟨fun _ _ _ ↦ le_trans⟩

theorem sortRoots_perm (roots : List Root) : (sortRoots roots).Perm roots :=
  perm_insertionSort _ roots

@[simp] theorem length_sortRoots (roots : List Root) : (sortRoots roots).length = roots.length :=
  (sortRoots_perm roots).length_eq

/-- **Sorting compares multisets.** -/
theorem sortRoots_eq_iff {roots roots' : List Root} :
    sortRoots roots = sortRoots roots' ↔ roots.Perm roots' := by
  constructor
  · intro h
    exact (sortRoots_perm roots).symm.trans (h ▸ sortRoots_perm roots')
  · intro h
    have hperm : (sortRoots roots).Perm (sortRoots roots') :=
      (sortRoots_perm roots).trans (h.trans (sortRoots_perm roots').symm)
    exact hperm.eq_of_pairwise (fun a b _ _ hab hba ↦ BitVec.eq_of_toNat_eq (le_antisymm hab hba))
      (pairwise_insertionSort _ roots) (pairwise_insertionSort _ roots')

theorem forall_zip_eq_iff {α : Type} {l l' : List α} (hlen : l.length = l'.length) :
    (∀ p ∈ l.zip l', p.1 = p.2) ↔ l = l' := by
  induction l generalizing l' with
  | nil =>
    have hnil : l' = [] := length_eq_zero_iff.1 hlen.symm
    simp [hnil]
  | cons a l ih =>
    obtain ⟨b, l', rfl⟩ := exists_cons_of_length_eq_add_one hlen.symm
    have hlen : l.length = l'.length := Nat.succ_injective hlen
    rw [List.zip_cons_cons, List.forall_mem_cons, ih hlen, List.cons.injEq]

/-! ### The covered roots -/

section

variable {Obj Dom : Type} {signingRoots : List (ExpectedSigningRoot Obj Dom)}

theorem coverRoot_eq_ok {covered covered' : Finset Root} {root : Root} :
    coverRoot signingRoots covered root = .ok covered' ↔
      root ∈ signingRoots.map (·.signingRoot) ∧ root ∉ covered ∧
        covered' = insert root covered := by
  unfold coverRoot
  split
  · next hnone =>
    have hout : root ∉ signingRoots.map (·.signingRoot) := by
      simpa using hnone
    simp [hout]
  · next sr hsome =>
    have hroot : sr.signingRoot = root := by
      simpa using find?_some hsome
    have hin : root ∈ signingRoots.map (·.signingRoot) :=
      mem_map.2 ⟨sr, mem_of_find?_eq_some hsome, hroot⟩
    rw [hroot]
    split
    · next hdup => simp [hdup]
    · next hnew => simp [hin, hnew, eq_comm]

/-- **The loop** goes through exactly if the entries are expected, distinct and new. -/
theorem foldlM_coverRoot_eq_ok {roots : List Root} {covered covered' : Finset Root} :
    roots.foldlM (coverRoot signingRoots) covered = .ok covered' ↔
      (∀ r ∈ roots, r ∈ signingRoots.map (·.signingRoot)) ∧ roots.Nodup ∧
        (∀ r ∈ roots, r ∉ covered) ∧ covered' = covered ∪ roots.toFinset := by
  -- the set grows along the list, so the induction is for every set to start with
  induction roots generalizing covered with
  | nil => simp [eq_comm, pure, Except.pure]
  | cons root roots ih =>
    simp only [List.foldlM_cons, bind_eq_ok, coverRoot_eq_ok, ih, List.forall_mem_cons,
      nodup_cons, toFinset_cons]
    constructor
    · rintro ⟨_, ⟨hin, hnew, rfl⟩, hrest, hnodup, hfresh, rfl⟩
      refine ⟨⟨hin, hrest⟩, ⟨fun hmem ↦ hfresh root hmem (Finset.mem_insert_self _ _), hnodup⟩,
        ⟨hnew, fun r hr hold ↦ hfresh r hr (Finset.mem_insert_of_mem hold)⟩, ?_⟩
      rw [Finset.insert_union, Finset.union_insert]
    · rintro ⟨⟨hin, hrest⟩, ⟨hout, hnodup⟩, ⟨hnew, hfresh⟩, rfl⟩
      refine ⟨_, ⟨hin, hnew, rfl⟩, hrest, hnodup, fun r hr hmem ↦ ?_, ?_⟩
      · rcases mem_insert.1 hmem with rfl | hold
        · exact hout hr
        · exact hfresh r hr hold
      · rw [insert_union, union_insert]

end

/-! ### What is accepted -/

variable {Obj Dom : Type} (env : SigningEnv Obj Dom)
    (psigMsgs : Validation.PartialSignatureMessages)

theorem length_expectedSigningRoots {objs : List Obj} {domain : Dom} {roots : List Root}
    (h : expectedSigningRoots env objs domain = .ok roots) : roots.length = objs.length := by
  simp only [expectedSigningRoots, bind_eq_ok] at h
  obtain ⟨d, -, h⟩ := h
  exact length_of_mapM_eq_ok h

/-- Before consensus the roots must be the expected ones, as multisets. -/
theorem verifyExpectedRoot_iff {objs : List Obj} {domain : Dom} :
    verifyExpectedRoot env psigMsgs objs domain = .ok () ↔
      ∃ roots, expectedSigningRoots env objs domain = .ok roots ∧
        (psigMsgs.messages.map (·.signingRoot)).Perm roots := by
  simp only [verifyExpectedRoot, bind_eq_ok, exists_check, require_eq_ok, forM_eq_ok]
  constructor
  · rintro ⟨hlen, roots, hroots, heach⟩
    have hlens : (sortRoots roots).length =
        (sortRoots (psigMsgs.messages.map (·.signingRoot))).length := by
      simp [length_expectedSigningRoots env hroots, hlen]
    have hsorted := (forall_zip_eq_iff hlens).1 heach
    exact ⟨roots, hroots, (sortRoots_eq_iff.1 hsorted).symm⟩
  · rintro ⟨roots, hroots, hperm⟩
    have hlen : objs.length = psigMsgs.messages.length := by
      rw [← length_expectedSigningRoots env hroots, ← hperm.length_eq, length_map]
    have hsorted := sortRoots_eq_iff.2 hperm.symm
    refine ⟨hlen, roots, hroots, (forall_zip_eq_iff ?_).2 hsorted⟩
    rw [hsorted]

/-- After consensus they must be distinct and expected, and miss no required one. -/
theorem verifyExpectedPostConsensusRoots_iff {expected : List (PostConsensusRoot Obj Dom)} :
    verifyExpectedPostConsensusRoots env psigMsgs expected = .ok () ↔
      ∃ resolved, resolvePostConsensusSigningRoots env expected = .ok resolved ∧
        (psigMsgs.messages.map (·.signingRoot)).Nodup ∧
        (∀ r ∈ psigMsgs.messages.map (·.signingRoot), r ∈ resolved.map (·.signingRoot)) ∧
        ∀ sr ∈ resolved, sr.optional = false →
          sr.signingRoot ∈ psigMsgs.messages.map (·.signingRoot) := by
  simp only [verifyExpectedPostConsensusRoots, bind_eq_ok, exists_check, require_eq_ok, forM_eq_ok,
    foldlM_coverRoot_eq_ok]
  constructor
  · rintro ⟨-, resolved, hresolved, _, ⟨hin, hnodup, -, rfl⟩, hcovered⟩
    refine ⟨resolved, hresolved, hnodup, hin, fun sr hsr hrequired ↦ ?_⟩
    simpa [hrequired] using hcovered sr hsr
  · rintro ⟨resolved, hresolved, hnodup, hin, hcovered⟩
    -- distinct roots among the expected ones are not more than those
    have hle : psigMsgs.messages.length ≤ expected.length := by
      have hsub := (subperm_of_subset hnodup hin).length_le
      rwa [length_map, length_map, length_of_mapM_eq_ok hresolved] at hsub
    refine ⟨Nat.not_lt.2 hle, resolved, hresolved, _, ⟨hin, hnodup, by simp, rfl⟩, ?_⟩
    intro sr hsr
    cases hoptional : sr.optional with
    | true => exact .inl rfl
    | false => exact .inr (by simpa using hcovered sr hsr hoptional)

/-- **The accepted packets.** A post-consensus packet is accepted exactly if its roots are distinct,
expected and miss no required one, a pre-consensus packet if they are the expected ones as a
multiset. -/
theorem verifyExpectedRoots_iff (expected : List (PostConsensusRoot Obj Dom)) (objs : List Obj)
    (domain : Dom) :
    (verifyExpectedPostConsensusRoots env psigMsgs expected = .ok () ↔
      ∃ resolved, resolvePostConsensusSigningRoots env expected = .ok resolved ∧
        (psigMsgs.messages.map (·.signingRoot)).Nodup ∧
        (∀ r ∈ psigMsgs.messages.map (·.signingRoot), r ∈ resolved.map (·.signingRoot)) ∧
        ∀ sr ∈ resolved, sr.optional = false →
          sr.signingRoot ∈ psigMsgs.messages.map (·.signingRoot)) ∧
    (verifyExpectedRoot env psigMsgs objs domain = .ok () ↔
      ∃ roots, expectedSigningRoots env objs domain = .ok roots ∧
        (psigMsgs.messages.map (·.signingRoot) : Multiset Root) = roots) := by
  refine ⟨verifyExpectedPostConsensusRoots_iff env psigMsgs, ?_⟩
  simp only [verifyExpectedRoot_iff, Multiset.coe_eq_coe]

end Ssv
