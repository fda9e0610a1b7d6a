import Mathlib.Data.List.Basic

/-!
# Chains of checks

A validator is a chain of checks in `Except ε`. The lemmas below **read a successful chain back**:
each turns `chain = .ok r` into what the chain has established, as a `@[simp]` equivalence, so that
`simp only` takes a chain of any length apart.
-/

namespace Checks

open List

variable {ε ε' α β : Type}

/-- One check: pass when `p` holds, otherwise fail with `e`. -/
def require (p : Prop) [Decidable p] (e : ε) : Except ε Unit :=
  if p then .ok () else .error e

variable {e : ε} {p : Prop} {x : Except ε Unit} {f : α → Except ε β} {a : α} {y : Except ε α}
  {l : List α} {out : List β}

@[simp] theorem require_eq_ok [Decidable p] : require p e = .ok () ↔ p := by
  unfold require
  split <;> simp_all

theorem require_of [Decidable p] (h : p) : require p e = .ok () := if_pos h

theorem error_of_require [Decidable p] {e' : ε} (h : require p e = .error e') : e = e' := by
  unfold require at h
  split at h
  · cases h
  · exact Except.error.inj h

theorem andThen_ok_eq_error : (do x; .ok () : Except ε Unit) = .error e ↔ x = .error e := by
  cases x with
  | error => rfl
  | ok => exact ⟨nofun, nofun⟩

variable {b : β}

@[simp] theorem bind_eq_ok {x : Except ε α} : (x >>= f) = .ok b ↔ ∃ a, x = .ok a ∧ f a = .ok b := by
  cases x with
  | error | ok => simp [bind, Except.bind]

/-- `bind_eq_ok` at a check, without its witness. -/
@[simp] theorem exists_check {p : Unit → Prop} : (∃ u, x = .ok u ∧ p u) ↔ x = .ok () ∧ p () :=
  ⟨fun ⟨_, hx, hp⟩ ↦ ⟨hx, hp⟩, fun ⟨hx, hp⟩ ↦ ⟨_, hx, hp⟩⟩

@[simp] theorem pure_eq_ok {b : α} : (pure a : Except ε α) = .ok b ↔ a = b := by
  simp [pure, Except.pure]

@[simp] theorem throw_ne_ok : (throw e : Except ε α) ≠ .ok a := by
  simp [throw, throwThe, MonadExceptOf.throw]

theorem when_eq_ok [Decidable p] :
    (if p then x >>= fun _ ↦ y else y) = .ok a ↔ (p → x = .ok ()) ∧ y = .ok a := by
  by_cases hp : p
  · rw [if_pos hp, bind_eq_ok, exists_check]
    exact and_congr_left' ⟨fun h _ ↦ h, fun h ↦ h hp⟩
  · rw [if_neg hp]
    exact ⟨fun h ↦ ⟨fun hp' ↦ absurd hp' hp, h⟩, fun h ↦ h.2⟩

theorem when_bind_eq_ok [Decidable p] {x : Except ε β} {check : β → Except ε Unit} :
    (if p then x >>= fun b ↦ check b >>= fun _ ↦ y else y) = .ok a ↔
      (p → (x >>= check) = .ok ()) ∧ y = .ok a := by
  rw [← when_eq_ok, bind_assoc]

/-- Rewording an error changes no success. -/
@[simp] theorem mapError_eq_ok {g : ε → ε'} {x : Except ε α} :
    x.mapError g = .ok a ↔ x = .ok a := by
  rcases x with e | b
  · simp [Except.mapError]
  · simp [Except.mapError]

@[simp] theorem forM_eq_ok {f : α → Except ε Unit} : forM l f = .ok () ↔ ∀ a ∈ l, f a = .ok () := by
  induction l with
  | nil => simp
  | cons a l ih =>
    rw [forM_cons, bind_eq_ok, forall_mem_cons, ← ih]
    exact ⟨fun ⟨_, ha, hl⟩ ↦ ⟨ha, hl⟩, fun ⟨ha, hl⟩ ↦ ⟨_, ha, hl⟩⟩

/-- What comes out of a loop that decodes its input came from the input. -/
theorem mem_of_mapM_eq_ok (h : l.mapM f = .ok out) (hb : b ∈ out) : ∃ a ∈ l, f a = .ok b := by
  induction l generalizing out with
  | nil =>
    simp only [mapM_nil, pure_eq_ok] at h
    subst h
    simp at hb
  | cons a l ih =>
    simp only [mapM_cons, bind_eq_ok, pure_eq_ok] at h
    obtain ⟨b₀, hb₀, bs, hbs, rfl⟩ := h
    rcases mem_cons.1 hb with rfl | hb
    · exact ⟨a, by simp, hb₀⟩
    · obtain ⟨a', ha', hf⟩ := ih hbs hb
      exact ⟨a', by simp [ha'], hf⟩

theorem mapM_map_eq_ok {γ : Type} {l : List γ} {g : γ → α} {h : γ → β}
    (hf : ∀ x ∈ l, f (g x) = .ok (h x)) : (l.map g).mapM f = .ok (l.map h) := by
  induction l with
  | nil => rfl
  | cons x l ih =>
    rw [map_cons, mapM_cons, bind_eq_ok]
    refine ⟨h x, hf x (.head _), bind_eq_ok.2 ⟨l.map h, ?_, rfl⟩⟩
    exact ih fun y hy ↦ hf y (.tail _ hy)

/-- What results share with their inputs, the lists share. -/
theorem map_eq_of_mapM_eq_ok {γ : Type} {g : α → γ} {h : β → γ}
    (hf : ∀ a b, f a = .ok b → h b = g a) (hout : l.mapM f = .ok out) : out.map h = l.map g := by
  induction l generalizing out with
  | nil =>
    simp only [mapM_nil, pure_eq_ok] at hout
    rw [← hout, map_nil, map_nil]
  | cons a l ih =>
    simp only [mapM_cons, bind_eq_ok, pure_eq_ok] at hout
    obtain ⟨b, hb, bs, hbs, rfl⟩ := hout
    rw [map_cons, map_cons, hf a b hb, ih hbs]

theorem length_of_mapM_eq_ok (h : l.mapM f = .ok out) : out.length = l.length := by
  have hmap : out.map (fun _ ↦ ()) = l.map fun _ ↦ () := map_eq_of_mapM_eq_ok (fun _ _ _ ↦ rfl) h
  simpa using congrArg length hmap

theorem foldlM_invariant {I : β → Prop} {f : β → α → Except ε β}
    (hf : ∀ b a b', f b a = .ok b' → I b → I b') {b' : β}
    (h : l.foldlM f b = .ok b') (hb : I b) : I b' := by
  induction l generalizing b with
  | nil =>
    cases h
    exact hb
  | cons a l ih =>
    rw [foldlM_cons, bind_eq_ok] at h
    obtain ⟨b₁, hfirst, hrest⟩ := h
    exact ih hrest (hf b a b₁ hfirst hb)

/-! ### The errors of a chain -/

/-- Every error that comes out has the property. -/
def FailsOnly (P : ε → Prop) (x : Except ε α) : Prop := ∀ e, x = .error e → P e

variable {P : ε → Prop}

theorem failsOnly_ok (a : α) : FailsOnly P (.ok a : Except ε α) := nofun

theorem failsOnly_require [Decidable p] (h : ¬ p → P e) : FailsOnly P (require p e) := by
  intro e' he
  unfold require at he
  split at he
  · cases he
  · next hp => exact Except.error.inj he ▸ h hp

/-- A chain fails with an error of its first part, or of the rest. -/
theorem failsOnly_bind {x : Except ε α} (hx : FailsOnly P x)
    (hf : ∀ a, x = .ok a → FailsOnly P (f a)) : FailsOnly P (x >>= f) := by
  cases x with
  | error => exact fun e' he ↦ hx e' (congrArg Except.error (Except.error.inj he))
  | ok a => exact hf a rfl

theorem failsOnly_forM {f : α → Except ε Unit} (h : ∀ a ∈ l, FailsOnly P (f a)) :
    FailsOnly P (forM l f) := by
  induction l with
  | nil => exact failsOnly_ok ()
  | cons a l ih =>
    rw [forM_cons]
    exact failsOnly_bind (h a (.head _)) fun _ _ ↦ ih fun b hb ↦ h b (.tail _ hb)

end Checks
