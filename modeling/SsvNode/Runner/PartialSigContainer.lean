import SsvNode.Lib.Checks
import SsvNode.Lib.GoMap
import SsvNode.Spec.Duties
import SsvNode.Validation.SignerState

/-!
# Collecting partial signatures

Partial signatures are stored **without being verified** (`basePartialSigMsgProcessing`), a second
one of a signer is resolved in favour of one that verifies, and only a failed reconstruction has the
stored ones verified (`fallBackAndVerifyEachSignature`) and is tried again (`reconstructQuorumSig`).
The BLS library is `ThresholdSpec`; `nil` maps are empty.
-/

namespace Ssv

open Checks Validation List Function

/-- What the runners call of the BLS library. -/
class ThresholdSpec where
  PublicKey : Type
  Sign : Type
  ID : Type
  deserializeBLSPublicKey : Bytes → Except Err PublicKey
  deserialize : Bytes → Except Err Sign
  serialize : Sign → Bytes
  verifyByte : Sign → PublicKey → Root → Bool
  /-- `ID.SetDecString` of an operator's identifier. -/
  setDecString : OperatorID → Except Err ID
  recover : List Sign → List ID → Except Err Sign
  /-- A serialized signature has 96 bytes. -/
  length_of_deserialize {b : Bytes} {s : Sign} : deserialize b = .ok s → b.length = 96

/-- `spectypes.Share`, as far as it is read here. -/
structure Share where
  validatorIndex : ℕ
  validatorPubKey : Bytes
  committee : List ShareMember
  deriving DecidableEq

/-- `BaseRunner.Share`: the shares by the index of their validator. -/
structure ShareMap where
  entries : List Share
  nodup : (entries.map (·.validatorIndex)).Nodup

def ShareMap.get (m : ShareMap) (v : ℕ) : Option Share :=
  m.entries.find? fun s ↦ decide (s.validatorIndex = v)

theorem ShareMap.validatorIndex_of_get {m : ShareMap} {v : ℕ} {s : Share} (h : m.get v = some s) :
    s.validatorIndex = v := by
  have := find?_some h
  exact of_decide_eq_true this

/-! ### The container -/

structure PartialSigContainer where
  /-- `Signatures[validatorIndex][signingRoot]`. -/
  signatures : ℕ × Root → GoMap OperatorID Bytes
  quorum : ℕ

/-- `copy` into a slice of 96 bytes. -/
def copy96 (b : Bytes) : Bytes := (b ++ List.replicate 96 0).take 96

theorem copy96_of_length {b : Bytes} (h : b.length = 96) : copy96 b = b := by
  rw [copy96, ← h, take_left]

namespace PartialSigContainer

def new (quorum : ℕ) : PartialSigContainer := ⟨fun _ ↦ ∅, quorum⟩

variable (ps : PartialSigContainer)

variable (validatorIndex : ℕ)

def getSignatures (signingRoot : Root) : GoMap OperatorID Bytes :=
  ps.signatures (validatorIndex, signingRoot)

def setSignatures (signingRoot : Root) (m : GoMap OperatorID Bytes) : PartialSigContainer :=
  { ps with signatures := Function.update ps.signatures (validatorIndex, signingRoot) m }

def addSignature (sigMsg : PartialSignatureMessage) : PartialSigContainer :=
  let m := ps.getSignatures sigMsg.validatorIndex sigMsg.signingRoot
  if (m.lookup sigMsg.signer).isNone then
    ps.setSignatures sigMsg.validatorIndex sigMsg.signingRoot
      (m.insert sigMsg.signer (copy96 sigMsg.partialSignature))
  else ps

def getSignature (signer : OperatorID) (signingRoot : Root) : Option Bytes :=
  (ps.getSignatures validatorIndex signingRoot).lookup signer

def hasSignature (signer : OperatorID) (signingRoot : Root) : Bool :=
  (ps.getSignature validatorIndex signer signingRoot).isSome

def remove (signer : OperatorID) (signingRoot : Root) : PartialSigContainer :=
  ps.setSignatures validatorIndex signingRoot
    ((ps.getSignatures validatorIndex signingRoot).erase signer)

def hasQuorum (root : Root) : Bool :=
  decide ((ps.getSignatures validatorIndex root).len ≥ ps.quorum)

variable {ps}

variable {m : GoMap OperatorID Bytes} {root : Root} {v : ℕ}

theorem getSignatures_set {v' : ℕ} {root' : Root} :
    (ps.setSignatures v root m).getSignatures v' root' =
      if v' = v ∧ root' = root then m else ps.getSignatures v' root' := by
  unfold setSignatures getSignatures
  by_cases hpair : (v', root') = (v, root)
  · cases hpair
    rw [if_pos ⟨rfl, rfl⟩]
    exact update_self ..
  · rw [if_neg fun h ↦ hpair (Prod.ext h.1 h.2)]
    exact update_of_ne hpair ..

@[simp] theorem getSignatures_set_self : (ps.setSignatures v root m).getSignatures v root = m := by
  rw [getSignatures_set, if_pos ⟨rfl, rfl⟩]

@[simp] theorem set_getSignatures : ps.setSignatures v root (ps.getSignatures v root) = ps := by
  unfold setSignatures getSignatures
  rw [update_eq_self]

@[simp] theorem set_set {m' : GoMap OperatorID Bytes} :
    (ps.setSignatures v root m).setSignatures v root m' = ps.setSignatures v root m' := by
  unfold setSignatures
  rw [update_idem]

theorem getSignature_remove {v' : ℕ} {op op' : OperatorID} {root' : Root} :
    (ps.remove v op root).getSignature v' op' root' =
      if (v' = v ∧ root' = root) ∧ op' = op then none else ps.getSignature v' op' root' := by
  unfold remove getSignature
  rw [getSignatures_set]
  by_cases hpair : v' = v ∧ root' = root
  · obtain ⟨rfl, rfl⟩ := hpair
    by_cases hop : op' = op
    · subst hop
      simp
    · simp [hop, AList.lookup_erase_ne hop]
  · simp [hpair]

theorem getSignature_addSignature {m : PartialSignatureMessage} {op : OperatorID} :
    (ps.addSignature m).getSignature v op root =
      if ((v = m.validatorIndex ∧ root = m.signingRoot) ∧ op = m.signer) ∧
          (ps.getSignature v op root).isNone then some (copy96 m.partialSignature)
      else ps.getSignature v op root := by
  unfold addSignature
  by_cases hnew : ((ps.getSignatures m.validatorIndex m.signingRoot).lookup m.signer).isNone
  · rw [if_pos hnew, getSignature, getSignatures_set]
    by_cases hpair : v = m.validatorIndex ∧ root = m.signingRoot
    · obtain ⟨rfl, rfl⟩ := hpair
      by_cases hop : op = m.signer
      · subst hop
        simp [getSignature, hnew]
      · simp [getSignature, hop]
    · simp [getSignature, hpair]
  · rw [if_neg hnew, if_neg]
    rintro ⟨⟨⟨rfl, rfl⟩, rfl⟩, hnone⟩
    exact hnew hnone

@[simp] theorem quorum_addSignature {m : PartialSignatureMessage} :
    (ps.addSignature m).quorum = ps.quorum := by
  unfold addSignature
  simp only
  split <;> rfl

theorem hasQuorum_of_isSome {ps' : PartialSigContainer} (hquorum : ps.quorum = ps'.quorum)
    (h : ∀ op, (ps'.getSignature v op root).isSome → (ps.getSignature v op root).isSome)
    (hq : ps'.hasQuorum v root) : ps.hasQuorum v root := by
  have hle := of_decide_eq_true hq
  have hlen : (ps'.getSignatures v root).len ≤ (ps.getSignatures v root).len := GoMap.len_le_len h
  exact decide_eq_true (by omega)

end PartialSigContainer

/-! ### Verifying and combining -/

variable [ThresholdSpec]

open ThresholdSpec

def verifyBeaconPartialSignature (signer : OperatorID) (signature : Bytes) (root : Root)
    (committee : List ShareMember) : Except Err Unit :=
  match committee.find? fun n ↦ decide (n.signer = signer) with
  | none => .error { text := "unknown signer" }
  | some n => do
    let pk ← (deserializeBLSPublicKey n.sharePubKey).mapError (.wrap "could not deserialized pk")
    let sig ← (deserialize signature).mapError (.wrap "could not deserialized Signature")
    require (verifyByte sig pk root = true) { text := "wrong signature" }

def verifies (committee : List ShareMember) (root : Root) (signer : OperatorID)
    (signature : Bytes) : Bool :=
  (verifyBeaconPartialSignature signer signature root committee).isOk

variable {committee : List ShareMember} {root : Root} {v : ℕ}

theorem exists_of_verifies {signer : OperatorID}
    {signature : Bytes} (h : verifies committee root signer signature) :
    ∃ n pk sig, committee.find? (fun n ↦ decide (n.signer = signer)) = some n ∧
      deserializeBLSPublicKey n.sharePubKey = .ok pk ∧ deserialize signature = .ok sig ∧
      verifyByte sig pk root := by
  unfold verifies at h
  rcases hok : verifyBeaconPartialSignature signer signature root committee with e | u
  · rw [hok] at h
    cases h
  unfold verifyBeaconPartialSignature at hok
  rcases hn : committee.find? (fun n ↦ decide (n.signer = signer)) with - | n
  · rw [hn] at hok
    cases hok
  · simp only [hn, bind_eq_ok, mapError_eq_ok] at hok
    obtain ⟨pk, hpk, sig, hsig, hverify⟩ := hok
    exact ⟨n, pk, sig, hn, hpk, hsig, require_eq_ok.1 hverify⟩

theorem copy96_of_verifies {signer : OperatorID} {signature : Bytes}
    (h : verifies committee root signer signature) : copy96 signature = signature := by
  obtain ⟨_, _, _, -, -, hsig, -⟩ := exists_of_verifies h
  exact copy96_of_length (length_of_deserialize hsig)

def reconstructSignatures (signatures : List ((_ : OperatorID) × Bytes)) : Except Err Sign := do
  let vecs ← signatures.mapM fun e ↦ do
    let blsID ← setDecString e.1
    let blsSig ← deserialize e.2
    return (blsSig, blsID)
  recover (vecs.map Prod.fst) (vecs.map Prod.snd)

def verifyReconstructedSignature (sig : Sign) (validatorPubKey : Bytes) (root : Root) :
    Except Err Unit := do
  let pk ← (deserializeBLSPublicKey validatorPubKey).mapError
    (.wrap "could not deserialize validator pk")
  require (verifyByte sig pk root = true)
    (.newError .reconstructSignature "could not reconstruct a valid signature")

/-- `ReconstructSignature`, with the order in which the signatures are taken. -/
def PartialSigContainer.reconstructSignature (ps : PartialSigContainer)
    (order : MapOrder ((_ : OperatorID) × Bytes)) (root : Root) (validatorPubKey : Bytes)
    (validatorIndex : ℕ) : Except Err Bytes := do
  let rootSigs := ps.getSignatures validatorIndex root
  let signature ← (reconstructSignatures (order.iterate rootSigs.entries)).mapError
    (.wrap "reconstruct signatures")
  (verifyReconstructedSignature signature validatorPubKey root).mapError
    (.wrap "verify reconstructed signature")
  return serialize signature

def reconstructBeaconSig (order : MapOrder ((_ : OperatorID) × Bytes))
    (container : PartialSigContainer) (root : Root) (validatorPubKey : Bytes) (validatorIndex : ℕ) :
    Except Err Bytes :=
  (container.reconstructSignature order root validatorPubKey validatorIndex).mapError
    (.wrap "could not reconstruct beacon sig")

/-! ### `BaseRunner` and the container -/

def resolveDuplicateSignature (shares : ShareMap) (container : PartialSigContainer)
    (msg : PartialSignatureMessage) : PartialSigContainer :=
  match shares.get msg.validatorIndex with
  | none => container.remove msg.validatorIndex msg.signer msg.signingRoot
  | some share =>
    let ok := verifies share.committee msg.signingRoot msg.signer
    if (container.getSignature msg.validatorIndex msg.signer msg.signingRoot).any ok then container
    else
      let removed := container.remove msg.validatorIndex msg.signer msg.signingRoot
      if ok msg.partialSignature then removed.addSignature msg else removed

/-- What `basePartialSigMsgProcessing` does to the container for one message. -/
def storePartialSig (shares : ShareMap) (container : PartialSigContainer)
    (msg : PartialSignatureMessage) : PartialSigContainer :=
  if container.hasSignature msg.validatorIndex msg.signer msg.signingRoot then
    resolveDuplicateSignature shares container msg
  else container.addSignature msg

/-- The body of the loop of `basePartialSigMsgProcessing`, with the roots that reached a quorum. -/
def processPartialSig (shares : ShareMap) (acc : PartialSigContainer × List Root)
    (msg : PartialSignatureMessage) : PartialSigContainer × List Root :=
  let quorumReachedPreviously := acc.1.hasQuorum msg.validatorIndex msg.signingRoot
  let container' := storePartialSig shares acc.1 msg
  let hasQuorum := container'.hasQuorum msg.validatorIndex msg.signingRoot
  (container',
    if !quorumReachedPreviously && hasQuorum then acc.2.insert msg.signingRoot else acc.2)

/-- `basePartialSigMsgProcessing`: some quorum is new if there is a root. -/
def basePartialSigMsgProcessing (shares : ShareMap) (messages : List PartialSignatureMessage)
    (container : PartialSigContainer) : PartialSigContainer × List Root :=
  messages.foldl (processPartialSig shares) (container, [])

def fallBackAndVerifyEachSignature (container : PartialSigContainer) (root : Root)
    (committee : List ShareMember) (validatorIndex : ℕ) : PartialSigContainer :=
  (container.getSignatures validatorIndex root).entries.foldl
    (fun c e ↦ if verifies committee root e.1 e.2 then c else c.remove validatorIndex e.1 root)
    container

theorem fallBack_eq {container : PartialSigContainer} :
    fallBackAndVerifyEachSignature container root committee v =
      container.setSignatures v root
        ((container.getSignatures v root).purge (verifies committee root)) := by
  -- the loop over any list of entries, on the whole container and on the map it is about
  have hloop : ∀ (l : List ((_ : OperatorID) × Bytes)) (c : PartialSigContainer),
      l.foldl (fun c e ↦ if verifies committee root e.1 e.2 then c else c.remove v e.1 root) c =
        c.setSignatures v root
          (l.foldl (GoMap.purgeStep (verifies committee root)) (c.getSignatures v root)) := by
    intro l
    induction l with
    | nil =>
      intro c
      exact PartialSigContainer.set_getSignatures.symm
    | cons e l ih =>
      intro c
      rw [foldl_cons, foldl_cons, ih]
      unfold GoMap.purgeStep
      split
      · rfl
      · simp [PartialSigContainer.remove]
  exact hloop _ _

theorem getSignatures_fallBack {container : PartialSigContainer} :
    (fallBackAndVerifyEachSignature container root committee v).getSignatures v root =
      (container.getSignatures v root).purge (verifies committee root) := by
  rw [fallBack_eq, PartialSigContainer.getSignatures_set_self]

/-- What `reconstructQuorumSig` fails with: `recoverableReconstructError` or not. -/
structure ReconstructError where
  err : Err
  recoverable : Bool

def reconstructQuorumSig (order : MapOrder ((_ : OperatorID) × Bytes))
    (container : PartialSigContainer) (root : Root) (share : Share) (phase : String) :
    PartialSigContainer × Except ReconstructError Bytes :=
  match reconstructBeaconSig order container root share.validatorPubKey share.validatorIndex with
  | .ok sig => (container, .ok (copy96 sig))
  | .error e =>
    let err := e.wrap ("got " ++ phase ++ " quorum but it has invalid signatures")
    let shares := (container.getSignatures share.validatorIndex root).len
    let container' := fallBackAndVerifyEachSignature container root share.committee
      share.validatorIndex
    if !container'.hasQuorum share.validatorIndex root then (container', .error ⟨err, true⟩)
    else if _hkept : (container'.getSignatures share.validatorIndex root).len = shares then
      (container', .error ⟨err, false⟩)
    else reconstructQuorumSig order container' root share phase
termination_by (container.getSignatures share.validatorIndex root).len
decreasing_by
  -- a retry follows only on a share that was dropped
  rw [getSignatures_fallBack] at _hkept ⊢
  exact lt_of_le_of_ne GoMap.len_purge_le _hkept

/-! ### Dropping what does not verify -/

/-- The signature is one of the operator for the validator and root. -/
def validShare (shares : ShareMap) (v : ℕ) (root : Root) (op : OperatorID) (signature : Bytes) :
    Bool :=
  match shares.get v with
  | none => false
  | some share => verifies share.committee root op signature

variable {shares : ShareMap}

theorem validShare_of_get {share : Share} (h : shares.get v = some share) :
    validShare shares v root = verifies share.committee root := by
  funext op signature
  simp only [validShare, h]

/-- Only signatures that do not verify have been dropped from `c`. -/
structure Purged (shares : ShareMap) (c c' : PartialSigContainer) : Prop where
  quorum : c'.quorum = c.quorum
  kept : ∀ v root op, c'.getSignature v op root = c.getSignature v op root ∨
    c'.getSignature v op root = none ∧
      ∀ sig, c.getSignature v op root = some sig → validShare shares v root op sig = false

namespace Purged

variable {c c' c'' : PartialSigContainer}

theorem refl : Purged shares c c := ⟨rfl, fun _ _ _ ↦ .inl rfl⟩

theorem trans (h : Purged shares c c') (h' : Purged shares c' c'') : Purged shares c c'' := by
  refine ⟨h'.quorum.trans h.quorum, fun v root op ↦ ?_⟩
  rcases h'.kept v root op with heq' | ⟨hnone', hinvalid'⟩ <;>
    rcases h.kept v root op with heq | ⟨hnone, hinvalid⟩
  · exact .inl (heq'.trans heq)
  · exact .inr ⟨heq'.trans hnone, hinvalid⟩
  · exact .inr ⟨hnone', fun sig hsig ↦ hinvalid' sig (heq.trans hsig)⟩
  · exact .inr ⟨hnone', hinvalid⟩

theorem hasQuorum (h : Purged shares c c') (hq : c'.hasQuorum v root) : c.hasQuorum v root := by
  refine PartialSigContainer.hasQuorum_of_isSome h.quorum.symm (fun op hop ↦ ?_) hq
  rcases h.kept v root op with heq | ⟨hnone, -⟩
  · rw [← heq]
    exact hop
  · rw [hnone] at hop
    cases hop

end Purged

variable {c : PartialSigContainer} {root : Root} {share : Share} {v : ℕ}

theorem purged_fallBack (hshare : shares.get v = some share) :
    Purged shares c (fallBackAndVerifyEachSignature c root share.committee v) := by
  refine ⟨by rw [fallBack_eq]; rfl, fun v' root' op ↦ ?_⟩
  rw [fallBack_eq]
  unfold PartialSigContainer.getSignature
  rw [PartialSigContainer.getSignatures_set]
  by_cases hpair : v' = v ∧ root' = root
  · obtain ⟨rfl, rfl⟩ := hpair
    rw [if_pos ⟨rfl, rfl⟩, GoMap.lookup_purge, validShare_of_get hshare]
    rcases hsig : (c.getSignatures v' root').lookup op with - | sig
    · exact .inl rfl
    · rcases hv : verifies share.committee root' op sig with - | -
      · refine .inr ⟨by simp [hv], fun sig' hsig' ↦ ?_⟩
        cases hsig'
        exact hv
      · exact .inl (by simp [hv])
  · rw [if_neg hpair]
    exact .inl rfl

/-- **Combining any quorum of valid shares gives a valid signature** of the validator. -/
def Combines (quorum : ℕ) (share : Share) (root : Root) : Prop :=
  ∀ sigs : List ((_ : OperatorID) × Bytes), (sigs.map (·.1)).Nodup →
    (∀ e ∈ sigs, verifies share.committee root e.1 e.2) → quorum ≤ sigs.length →
    ∃ s, reconstructSignatures sigs = .ok s ∧
      verifyReconstructedSignature s share.validatorPubKey root = .ok ()

/-- The bytes are a signature of the validator over the root. -/
def ValidatorSignature (share : Share) (root : Root) (signature : Bytes) : Prop :=
  ∃ s, verifyReconstructedSignature s share.validatorPubKey root = .ok () ∧
    signature = copy96 (serialize s)

theorem validatorSignature_of_reconstruct {order : MapOrder ((_ : OperatorID) × Bytes)}
    {sig : Bytes}
    (h : reconstructBeaconSig order c root share.validatorPubKey share.validatorIndex = .ok sig) :
    ValidatorSignature share root (copy96 sig) := by
  simp only [reconstructBeaconSig, PartialSigContainer.reconstructSignature, mapError_eq_ok,
    bind_eq_ok, pure_eq_ok] at h
  obtain ⟨s, -, _, hverify, rfl⟩ := h
  exact ⟨s, hverify, rfl⟩

theorem reconstruct_of_verified (order : MapOrder ((_ : OperatorID) × Bytes))
    (hcombine : Combines c.quorum share root)
    (hquorum : c.hasQuorum share.validatorIndex root)
    (hvalid : ∀ op sig, c.getSignature share.validatorIndex op root = some sig →
      verifies share.committee root op sig) :
    ∃ sig, reconstructBeaconSig order c root share.validatorPubKey share.validatorIndex =
      .ok sig := by
  have hperm := order.perm (c.getSignatures share.validatorIndex root).entries
  obtain ⟨s, hs, hverify⟩ := hcombine
    (order.iterate (c.getSignatures share.validatorIndex root).entries)
    ((hperm.map Sigma.fst).nodup_iff.2 (c.getSignatures share.validatorIndex root).keys_nodup)
    (fun e he ↦ hvalid e.1 e.2 (AList.mem_lookup_iff.2 (hperm.mem_iff.1 he)))
    (by
      rw [order.length_iterate, ← length_map Sigma.fst]
      exact of_decide_eq_true hquorum)
  refine ⟨serialize s, ?_⟩
  simp only [reconstructBeaconSig, PartialSigContainer.reconstructSignature, mapError_eq_ok,
    bind_eq_ok, pure_eq_ok]
  exact ⟨s, hs, (), hverify, rfl⟩

/-! ### Storing a packet -/

/-- A valid signature of the operator is stored. -/
def Holds (shares : ShareMap) (c : PartialSigContainer) (v : ℕ) (root : Root) (op : OperatorID) :
    Prop :=
  ∃ sig, c.getSignature v op root = some sig ∧ validShare shares v root op sig

variable {op : OperatorID}

theorem Purged.holds {c' : PartialSigContainer} (h : Purged shares c c')
    (hc : Holds shares c v root op) : Holds shares c' v root op := by
  obtain ⟨sig, hsig, hvalid⟩ := hc
  rcases h.kept v root op with heq | ⟨-, hinvalid⟩
  · exact ⟨sig, heq.trans hsig, hvalid⟩
  · rw [hinvalid sig hsig] at hvalid
    cases hvalid

theorem hasQuorum_of_holds {signers : List OperatorID}
    (hnodup : signers.Nodup) (hlen : c.quorum ≤ signers.length)
    (h : ∀ op ∈ signers, Holds shares c v root op) : c.hasQuorum v root := by
  refine decide_eq_true (le_trans hlen (GoMap.length_le_len hnodup fun op hop ↦ ?_))
  obtain ⟨sig, hsig, -⟩ := h op hop
  exact Option.isSome_iff_exists.2 ⟨sig, hsig⟩

section

variable {c : PartialSigContainer} {m : PartialSignatureMessage}

theorem store_cases {P : PartialSigContainer → Prop} (hkeep : P c) (hadd : P (c.addSignature m))
    (hremove : P (c.remove m.validatorIndex m.signer m.signingRoot))
    (hreplace : P ((c.remove m.validatorIndex m.signer m.signingRoot).addSignature m)) :
    P (storePartialSig shares c m) := by
  unfold storePartialSig resolveDuplicateSignature
  split
  · split
    · exact hremove
    · dsimp only
      split
      · exact hkeep
      · split
        · exact hreplace
        · exact hremove
  · exact hadd

@[simp] theorem quorum_store : (storePartialSig shares c m).quorum = c.quorum :=
  store_cases (P := fun c' ↦ c'.quorum = c.quorum) rfl PartialSigContainer.quorum_addSignature rfl
    PartialSigContainer.quorum_addSignature

theorem getSignature_store_of_ne
    (h : ¬ ((v = m.validatorIndex ∧ root = m.signingRoot) ∧ op = m.signer)) :
    (storePartialSig shares c m).getSignature v op root = c.getSignature v op root := by
  have hadd : ∀ c : PartialSigContainer,
      (c.addSignature m).getSignature v op root = c.getSignature v op root := fun c ↦ by
    rw [PartialSigContainer.getSignature_addSignature, if_neg fun h' ↦ h h'.1]
  have hremove : (c.remove m.validatorIndex m.signer m.signingRoot).getSignature v op root =
      c.getSignature v op root := by
    rw [PartialSigContainer.getSignature_remove, if_neg h]
  exact store_cases (P := fun c' ↦ c'.getSignature v op root = c.getSignature v op root) rfl
    (hadd c)
    hremove ((hadd _).trans hremove)

/-- **A valid signature is stored, and stays.** -/
theorem holds_store_self
    (h : Holds shares c m.validatorIndex m.signingRoot m.signer ∨
      validShare shares m.validatorIndex m.signingRoot m.signer m.partialSignature) :
    Holds shares (storePartialSig shares c m) m.validatorIndex m.signingRoot m.signer := by
  have hcopy : ∀ share, shares.get m.validatorIndex = some share →
      verifies share.committee m.signingRoot m.signer m.partialSignature →
      validShare shares m.validatorIndex m.signingRoot m.signer (copy96 m.partialSignature) :=
    fun share hshare hv ↦ by
      rw [validShare_of_get hshare, copy96_of_verifies hv]
      exact hv
  have hshare : ∃ share, shares.get m.validatorIndex = some share := by
    have hvalid : ∃ sig, validShare shares m.validatorIndex m.signingRoot m.signer sig :=
      h.elim (fun ⟨sig, _, hv⟩ ↦ ⟨sig, hv⟩) fun hv ↦ ⟨_, hv⟩
    obtain ⟨sig, hv⟩ := hvalid
    rcases hget : shares.get m.validatorIndex with - | share
    · simp [validShare, hget] at hv
    · exact ⟨share, rfl⟩
  obtain ⟨share, hshare⟩ := hshare
  simp only [Holds, validShare_of_get hshare] at h hcopy ⊢
  unfold storePartialSig resolveDuplicateSignature PartialSigContainer.hasSignature
  rcases hprev : c.getSignature m.validatorIndex m.signer m.signingRoot with - | prev
  · -- nothing of the signer is stored
    have hv := h.resolve_left fun ⟨sig, hsig, _⟩ ↦ by simp [hprev] at hsig
    refine ⟨copy96 m.partialSignature, ?_, hcopy share hshare hv⟩
    simp [PartialSigContainer.getSignature_addSignature, hprev]
  · rcases hold : verifies share.committee m.signingRoot m.signer prev with - | -
    · have hv := h.resolve_left fun ⟨sig, hsig, hvalid⟩ ↦ by
        obtain rfl := Option.some.inj (hprev.symm.trans hsig)
        rw [hold] at hvalid
        cases hvalid
      refine ⟨copy96 m.partialSignature, ?_, hcopy share hshare hv⟩
      simp [hshare, hold, hv, PartialSigContainer.getSignature_addSignature,
        PartialSigContainer.getSignature_remove]
    · exact ⟨prev, by simp [hshare, hold, hprev], hold⟩

theorem Holds.store (h : Holds shares c v root op) :
    Holds shares (storePartialSig shares c m) v root op := by
  by_cases hm : (v = m.validatorIndex ∧ root = m.signingRoot) ∧ op = m.signer
  · obtain ⟨⟨rfl, rfl⟩, rfl⟩ := hm
    exact holds_store_self (.inl h)
  · obtain ⟨sig, hsig, hvalid⟩ := h
    exact ⟨sig, (getSignature_store_of_ne hm).trans hsig, hvalid⟩

end

/-- What messages do to a container `c`, with `roots` reported before. -/
structure PacketStored (shares : ShareMap) (messages : List PartialSignatureMessage)
    (c : PartialSigContainer) (roots : List Root) (acc : PartialSigContainer × List Root) :
      Prop where
  quorum : acc.1.quorum = c.quorum
  holds : ∀ v root op, Holds shares c v root op → Holds shares acc.1 v root op
  stored : ∀ m ∈ messages, validShare shares m.validatorIndex m.signingRoot m.signer
    m.partialSignature →
    Holds shares acc.1 m.validatorIndex m.signingRoot m.signer
  reported : ∀ root ∈ roots, root ∈ acc.2
  crossed : ∀ v root, acc.1.hasQuorum v root → c.hasQuorum v root ∨ root ∈ acc.2

theorem processPartialSig_stored {roots : List Root} {m : PartialSignatureMessage} :
    PacketStored shares [m] c roots (processPartialSig shares (c, roots) m) where
  quorum := quorum_store
  holds _ _ _ h := h.store
  stored m' hm' hvalid := by
    obtain rfl := mem_singleton.1 hm'
    exact holds_store_self (.inr hvalid)
  reported root hroot := by
    unfold processPartialSig
    simp only
    split
    · exact mem_insert_of_mem hroot
    · exact hroot
  crossed v root hq := by
    by_cases hpair : v = m.validatorIndex ∧ root = m.signingRoot
    · obtain ⟨rfl, rfl⟩ := hpair
      rcases hprev : c.hasQuorum m.validatorIndex m.signingRoot with - | -
      · refine .inr ?_
        unfold processPartialSig at hq ⊢
        simp only at hq ⊢
        rw [hprev, hq]
        exact mem_insert_self
      · exact .inl rfl
    · refine .inl (PartialSigContainer.hasQuorum_of_isSome quorum_store.symm (fun op hop ↦ ?_) hq)
      rwa [← getSignature_store_of_ne fun h ↦ hpair h.1]

/-- **A packet**, by induction on its messages. -/
theorem foldl_processPartialSig_stored {messages : List PartialSignatureMessage}
    {roots : List Root} :
    PacketStored shares messages c roots (messages.foldl (processPartialSig shares)
      (c, roots)) := by
  induction messages generalizing c roots with
  | nil => exact ⟨rfl, fun _ _ _ h ↦ h, nofun, fun _ h ↦ h, fun _ _ h ↦ .inl h⟩
  | cons m messages ih =>
    have hfirst : PacketStored shares [m] c roots (processPartialSig shares (c, roots) m) :=
      processPartialSig_stored
    rw [foldl_cons]
    generalize processPartialSig shares (c, roots) m = acc at hfirst ⊢
    have hrest : PacketStored shares messages acc.1 acc.2 _ := ih
    refine ⟨hrest.quorum.trans hfirst.quorum, fun v root op h ↦
      hrest.holds _ _ _ (hfirst.holds _ _ _ h),
      fun m' hm' hvalid ↦ ?_, fun root h ↦ hrest.reported root (hfirst.reported root h),
      fun v root hq ↦ ?_⟩
    · rcases mem_cons.1 hm' with rfl | hm'
      · exact hrest.holds _ _ _ (hfirst.stored m' (.head _) hvalid)
      · exact hrest.stored m' hm' hvalid
    · rcases hrest.crossed v root hq with hq' | hroot
      · exact (hfirst.crossed v root hq').imp_right (hrest.reported root)
      · exact .inr hroot

end Ssv
