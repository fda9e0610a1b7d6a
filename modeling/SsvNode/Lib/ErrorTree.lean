/-!
# Wrapped and joined errors

An error is often wrapped in another one that says what was being done, and errors of several tries
are joined into one. What a caller can still ask is whether the tree contains a given leaf: in Go
`errors.Is`, here `ErrorTree.Is`.
-/

/-- An error over leaves `κ`. -/
inductive ErrorTree (κ : Type) where
  /-- An error that wraps no other. -/
  | leaf (kind : κ)
  /-- An error with a message in front of another one's. -/
  | wrap (context : String) (err : ErrorTree κ)
  | join (first second : ErrorTree κ)
  deriving DecidableEq

namespace ErrorTree

variable {κ : Type}

/-- The tree has a leaf of this kind. -/
def Is (kind : κ) : ErrorTree κ → Prop
  | .leaf k => k = kind
  | .wrap _ err => err.Is kind
  | .join first second => first.Is kind ∨ second.Is kind

instance decidableIs [DecidableEq κ] (kind : κ) : ∀ err : ErrorTree κ, Decidable (err.Is kind)
  | .leaf k => inferInstanceAs (Decidable (k = kind))
  | .wrap _ err => decidableIs kind err
  | .join first second =>
    have := decidableIs kind first
    have := decidableIs kind second
    inferInstanceAs (Decidable (first.Is kind ∨ second.Is kind))

@[simp] theorem is_leaf {kind k : κ} : (leaf k).Is kind ↔ k = kind := Iff.rfl

@[simp] theorem is_wrap {kind : κ} {context : String} {err : ErrorTree κ} :
    (wrap context err).Is kind ↔ err.Is kind := Iff.rfl

/-- The first leaf that `f` knows something about: in Go `errors.As`. -/
def as {α : Type} (f : κ → Option α) : ErrorTree κ → Option α
  | .leaf k => f k
  | .wrap _ err => err.as f
  | .join first second => first.as f <|> second.as f

def add (errs : Option (ErrorTree κ)) (err : ErrorTree κ) : ErrorTree κ :=
  match errs with
  | none => err
  | some errs => .join errs err

theorem is_add {kind : κ} {errs : Option (ErrorTree κ)} {err : ErrorTree κ} :
    (add errs err).Is kind ↔ (∃ e ∈ errs, e.Is kind) ∨ err.Is kind := by
  cases errs with
  | none => simp [add]
  | some => simp [add, Is]

end ErrorTree
