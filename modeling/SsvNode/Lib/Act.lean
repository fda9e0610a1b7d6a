import Mathlib.Data.List.Basic

/-!
# Actions: state, events and errors

A method changes its object, does things the outside can see, and may stop with an error. `Act ε ω σ
α` is such a method as a function of the state `σ`; its `Outcome` has the state, the list of
**events** and an error or a result. An error does **not** undo anything.

`Act.wp x Q s` says that running `x` from `s` ends in an outcome satisfying `Q`. The rules
`wp_bind`, `wp_pure`, … compute it through a `do` block.
-/

/-- What running an action leaves behind. -/
structure Outcome (ε ω σ α : Type) where
  /-- The state at the end, also when an error ended the action. -/
  state : σ
  events : List ω
  result : Except ε α

/-- A method on a state `σ` that causes events `ω` and may fail with `ε`. -/
def Act (ε ω σ α : Type) : Type := σ → Outcome ε ω σ α

namespace Act

variable {ε ω σ τ α β : Type}

variable (x : Act ε ω σ α)

def run (s : σ) : Outcome ε ω σ α := x s

/-- Sequencing: an error ends the action where it stands. -/
def bind (f : α → Act ε ω σ β) : Act ε ω σ β := fun s ↦
  match (x s).result with
  | .error e => ⟨(x s).state, (x s).events, .error e⟩
  | .ok a =>
    let o := f a (x s).state
    ⟨o.state, (x s).events ++ o.events, o.result⟩

instance : Monad (Act ε ω σ) where
  pure a := fun s ↦ ⟨s, [], .ok a⟩
  bind := bind

def read : Act ε ω σ σ := fun s ↦ ⟨s, [], .ok s⟩

def write (s : σ) : Act ε ω σ Unit := fun _ ↦ ⟨s, [], .ok ()⟩

def update (f : σ → σ) : Act ε ω σ Unit := fun s ↦ ⟨f s, [], .ok ()⟩

def emit (w : ω) : Act ε ω σ Unit := fun s ↦ ⟨s, [w], .ok ()⟩

def fail (e : ε) : Act ε ω σ α := fun s ↦ ⟨s, [], .error e⟩

/-- A computation that touches no state. -/
def lift (x : Except ε α) : Act ε ω σ α := fun s ↦ ⟨s, [], x⟩

/-- Reword the error, leaving state and events alone. -/
def mapError (f : ε → ε) (x : Act ε ω σ α) : Act ε ω σ α := fun s ↦
  ⟨(x s).state, (x s).events, (x s).result.mapError f⟩

/-- Run `x` and hand its error back as a value, so that the caller goes on. -/
def attempt : Act ε ω σ (Except ε α) := fun s ↦
  ⟨(x s).state, (x s).events, .ok (x s).result⟩

/-- Run an action of a part, which `put` stores back. -/
def onPart (s : τ) (put : τ → σ → σ) (x : Act ε ω τ α) : Act ε ω σ α := fun w ↦
  ⟨put (x s).state w, (x s).events, (x s).result⟩

/-! ### Weakest preconditions -/

/-- Running `x` from `s` ends in an outcome that satisfies `Q`. -/
def wp (Q : σ → List ω → Except ε α → Prop) (s : σ) : Prop :=
  Q (x.run s).state (x.run s).events (x.run s).result

variable {s : σ} {x : Act ε ω σ α}

theorem wp_iff {Q : σ → List ω → Except ε α → Prop} :
    x.wp Q s ↔ Q (x.run s).state (x.run s).events (x.run s).result := Iff.rfl

/-- The sequencing rule. The events of the first part come first. -/
theorem wp_bind {f : α → Act ε ω σ β} {Q : σ → List ω → Except ε β → Prop} : (x >>= f).wp Q s ↔
      x.wp (fun s' es r ↦ match r with
        | .error e => Q s' es (.error e)
        | .ok a => (f a).wp (fun s'' es' r' ↦ Q s'' (es ++ es') r') s') s := by
  change (bind x f).wp Q s ↔ _
  unfold wp run bind
  cases (x s).result with
  | error | ok => exact Iff.rfl

theorem wp_mono {Q Q' : σ → List ω → Except ε α → Prop}
    (h : x.wp Q s) (hQ : ∀ s' es r, Q s' es r → Q' s' es r) : x.wp Q' s :=
  hQ _ _ _ h

theorem wp_seq {f : α → Act ε ω σ β} {P : σ → List ω → Except ε α → Prop}
    {Q : σ → List ω → Except ε β → Prop} (hx : x.wp P s)
    (herror : ∀ s' es e, P s' es (.error e) → Q s' es (.error e))
    (hok : ∀ s' es a, P s' es (.ok a) → (f a).wp (fun s'' es' r ↦ Q s'' (es ++ es') r) s') :
    (x >>= f).wp Q s := by
  refine wp_bind.2 (wp_mono hx fun s' es r h ↦ ?_)
  cases r with
  | error e => exact herror s' es e h
  | ok a => exact hok s' es a h

section Rules

variable {Q : σ → List ω → Except ε α → Prop} {s : σ}

@[simp] theorem wp_pure {a : α} : (pure a : Act ε ω σ α).wp Q s ↔ Q s [] (.ok a) := Iff.rfl

@[simp] theorem wp_fail {e : ε} : (fail e : Act ε ω σ α).wp Q s ↔ Q s [] (.error e) := Iff.rfl

@[simp] theorem wp_lift {x : Except ε α} : (lift x : Act ε ω σ α).wp Q s ↔ Q s [] x := Iff.rfl

@[simp] theorem wp_mapError {f : ε → ε} :
    (x.mapError f).wp Q s ↔ x.wp (fun s' es r ↦ Q s' es (r.mapError f)) s := Iff.rfl

theorem wp_ite {p : Prop} [Decidable p] {y : Act ε ω σ α} :
    (if p then x else y).wp Q s ↔ if p then x.wp Q s else y.wp Q s := by
  split <;> rfl

end Rules

variable {s : σ} {Q : σ → List ω → Except ε Unit → Prop} {x : Act ε ω σ α} {f : ε → ε}

@[simp] theorem wp_read {Q : σ → List ω → Except ε σ → Prop} :
    (read : Act ε ω σ σ).wp Q s ↔ Q s [] (.ok s) := Iff.rfl

@[simp] theorem wp_write {t : σ} : (write t : Act ε ω σ Unit).wp Q s ↔ Q t [] (.ok ()) := Iff.rfl

@[simp] theorem wp_update {f : σ → σ} :
    (update f : Act ε ω σ Unit).wp Q s ↔ Q (f s) [] (.ok ()) := Iff.rfl

@[simp] theorem wp_emit {w : ω} : (emit w : Act ε ω σ Unit).wp Q s ↔ Q s [w] (.ok ()) := Iff.rfl

@[simp] theorem wp_attempt {Q : σ → List ω → Except ε (Except ε α) → Prop} :
    x.attempt.wp Q s ↔ x.wp (fun s' es r ↦ Q s' es (.ok r)) s := Iff.rfl

theorem wp_attempt_bind {f : Except ε α → Act ε ω σ β} {Q : σ → List ω → Except ε β → Prop} :
    (x.attempt >>= f).wp Q s ↔
      x.wp (fun s' es r ↦ (f r).wp (fun s'' es' r' ↦ Q s'' (es ++ es') r') s') s := Iff.rfl

@[simp] theorem wp_onPart {x : Act ε ω τ α} {put : τ → σ → σ} {t : τ}
    {Q : σ → List ω → Except ε α → Prop} :
    (onPart t put x).wp Q s ↔ x.wp (fun t' es r ↦ Q (put t' s) es r) t := Iff.rfl

@[simp] theorem lift_ok_bind {a : α} {f : α → Act ε ω σ β} : (lift (.ok a) >>= f) = f a := rfl

variable {r : Except ε α}

theorem mapError_lift :
    (lift r : Act ε ω σ α).mapError f = lift (r.mapError f) := by
  cases r <;> rfl

/-- A loop keeps what each of its actions keeps, and succeeds if they do. -/
theorem wp_forM {l : List α} {f : α → Act ε ω σ Unit} {I : σ → Prop}
    (hf : ∀ a ∈ l, ∀ s, I s → (f a).wp (fun s' _ r ↦ r = .ok () ∧ I s') s) (s : σ) (hs : I s) :
    (forM l f : Act ε ω σ Unit).wp (fun s' _ r ↦ r = .ok () ∧ I s') s := by
  induction l generalizing s with
  | nil => exact ⟨rfl, hs⟩
  | cons a l ih =>
    rw [List.forM_cons]
    refine wp_seq (hf a (.head _) s hs) ?_ ?_
    · rintro s' _ e ⟨hr, -⟩
      cases hr
    · rintro s' _ _ ⟨-, hs'⟩
      exact ih (fun b hb ↦ hf b (.tail _ hb)) s' hs'

theorem state_forM {l : List α} {f : α → Act ε ω σ Unit}
    (hf : ∀ a ∈ l, ∀ s, ((f a).run s).result = .ok ()) (s : σ) :
    ((forM l f : Act ε ω σ Unit).run s).state = l.foldl (fun s a ↦ ((f a).run s).state) s := by
  induction l generalizing s with
  | nil => rfl
  | cons a l ih =>
    change (forM (a :: l) f : Act ε ω σ Unit).wp (fun s' _ _ ↦ s' = _) s
    rw [List.forM_cons, wp_bind, wp_iff, hf a List.mem_cons_self s]
    exact ih (fun b hb ↦ hf b (.tail _ hb)) _

/-! ### Accesses

Most primitive methods either read something or write something, and may fail without effect. -/

theorem lift_spec (s : σ) :
    (lift r : Act ε ω σ α).wp (fun s' es r' ↦ s' = s ∧ es = [] ∧ r' = r) s :=
  ⟨rfl, rfl, rfl⟩

/-- `x` changes nothing and, if it succeeds, returns `v`. -/
def Reads (s : σ) (v : α) : Prop :=
  x.wp (fun s' es r ↦ s' = s ∧ es = [] ∧ ∀ a, r = .ok a → a = v) s

/-- `x` fails without effect or leaves the state `t`. -/
def Writes (s t : σ) : Prop :=
  x.wp (fun s' es r ↦ es = [] ∧ ((s' = s ∧ ∃ e, r = .error e) ∨ s' = t)) s

theorem Reads.mapError {v : α} (h : x.Reads s v) : (x.mapError f).Reads s v := by
  refine ⟨h.1, h.2.1, fun a ha ↦ h.2.2 a ?_⟩
  change (x s).result.mapError f = .ok a at ha
  change (x s).result = .ok a
  cases hr : (x s).result with
  | error => simp [hr, Except.mapError] at ha
  | ok => simpa [hr, Except.mapError] using ha

theorem Reads.bind {v : α} {g : α → Act ε ω σ β} {Q : σ → List ω → Except ε β → Prop}
    (h : x.Reads s v) (herror : ∀ e, Q s [] (.error e)) (hok : (g v).wp Q s) :
    (x >>= g).wp Q s := by
  refine wp_seq h ?_ ?_
  · rintro s' es e ⟨rfl, rfl, -⟩
    exact herror e
  · rintro s' es a ⟨rfl, rfl, ha⟩
    obtain rfl := ha a rfl
    exact hok

theorem Writes.mapError {t : σ} (h : x.Writes s t) : (x.mapError f).Writes s t := by
  refine ⟨h.1, h.2.imp_left fun ⟨hs, e, he⟩ ↦ ⟨hs, f e, ?_⟩⟩
  change (x s).result.mapError f = .error (f e)
  rw [show (x s).result = .error e from he]
  rfl

/-! ### Quiet actions

Many methods cause no event at all, and what matters is where they can leave the state. -/

/-- From a state in `P`, `x` causes no event and ends in `Q`, whether it fails or not. -/
def Quiet (P Q : σ → Prop) (x : Act ε ω σ α) : Prop :=
  ∀ s, P s → x.wp (fun s' es _ ↦ es = [] ∧ Q s') s

namespace Quiet

variable {P Q R : σ → Prop} {x y : Act ε ω σ α}

/-- The first part of a sequence may fail, so its states have to do for the whole. -/
theorem bind {f : α → Act ε ω σ β} (hx : Quiet P Q x) (hQR : ∀ s, Q s → R s)
    (hf : ∀ a, Quiet Q R (f a)) : Quiet P R (x >>= f) := by
  intro s hs
  refine wp_seq (hx s hs) ?_ ?_
  · rintro s' es e ⟨rfl, h⟩
    exact ⟨rfl, hQR s' h⟩
  · rintro s' es a ⟨rfl, h⟩
    exact hf a s' h

section

variable (h : ∀ s, P s → Q s)
include h

theorem lift : Quiet P Q (lift r : Act ε ω σ α) :=
  fun s hs ↦ ⟨rfl, h s hs⟩

theorem pure {a : α} : Quiet P Q (pure a : Act ε ω σ α) :=
  fun s hs ↦ ⟨rfl, h s hs⟩

theorem fail {e : ε} : Quiet P Q (fail e : Act ε ω σ α) :=
  fun s hs ↦ ⟨rfl, h s hs⟩

theorem read : Quiet P Q (read : Act ε ω σ σ) :=
  fun s hs ↦ ⟨rfl, h s hs⟩

end

theorem update {f : σ → σ} (h : ∀ s, P s → Q (f s)) : Quiet P Q (update f : Act ε ω σ Unit) :=
  fun s hs ↦ ⟨rfl, h s hs⟩

theorem mapError (hx : Quiet P Q x) : Quiet P Q (x.mapError f) :=
  fun s hs ↦ hx s hs

theorem ite {p : Prop} [Decidable p] (hx : p → Quiet P Q x) (hy : ¬ p → Quiet P Q y) :
    Quiet P Q (if p then x else y) := by
  split
  · next h => exact hx h
  · next h => exact hy h

theorem bind_read {f : σ → Act ε ω σ α} (h : ∀ s, P s → Quiet (· = s) Q (f s)) :
    Quiet P Q (Act.read >>= f) :=
  fun s hs ↦ h s hs s rfl

theorem bind_lift {f : α → Act ε ω σ β} (hPQ : ∀ s, P s → Q s)
    (h : ∀ a, r = .ok a → Quiet P Q (f a)) : Quiet P Q (Act.lift r >>= f) := by
  cases r with
  | error => exact fun s hs ↦ ⟨rfl, hPQ s hs⟩
  | ok a => exact h a rfl

theorem forM {l : List α} {f : α → Act ε ω σ Unit} (h : ∀ a ∈ l, Quiet P P (f a)) :
    Quiet P P (forM l f : Act ε ω σ Unit) := by
  induction l with
  | nil => exact pure fun _ hs ↦ hs
  | cons a l ih =>
    rw [List.forM_cons]
    exact bind (h a (.head _)) (fun _ hs ↦ hs)
      fun _ ↦ ih fun b hb ↦ h b (.tail _ hb)

end Quiet

/-! ### Success

Sometimes only the runs that end well matter. -/

/-- From a state in `P`, `x` fails or ends in `Q`. -/
def Establishes (P Q : σ → Prop) (x : Act ε ω σ α) : Prop :=
  ∀ s, P s → x.wp (fun s' _ r ↦ ∀ a, r = .ok a → Q s') s

namespace Establishes

variable {P Q R : σ → Prop} {x y : Act ε ω σ α}

theorem bind {f : α → Act ε ω σ β} (hx : Establishes P Q x) (hf : ∀ a, Establishes Q R (f a)) :
    Establishes P R (x >>= f) := by
  intro s hs
  refine wp_seq (hx s hs) (fun _ _ _ _ _ h ↦ nomatch h) fun s' es a hq ↦ ?_
  exact hf a s' (hq a rfl)

theorem lift (h : ∀ s, P s → Q s) : Establishes P Q (lift r : Act ε ω σ α) :=
  fun s hs _ _ ↦ h s hs

theorem pure {a : α} (h : ∀ s, P s → Q s) : Establishes P Q (pure a : Act ε ω σ α) :=
  fun s hs _ _ ↦ h s hs

theorem fail {e : ε} : Establishes P Q (fail e : Act ε ω σ α) :=
  fun _ _ _ h ↦ nomatch h

theorem read (h : ∀ s, P s → Q s) : Establishes P Q (read : Act ε ω σ σ) :=
  fun s hs _ _ ↦ h s hs

theorem update {f : σ → σ} (h : ∀ s, P s → Q (f s)) : Establishes P Q (update f : Act ε ω σ Unit) :=
  fun s hs _ _ ↦ h s hs

theorem mapError (hx : Establishes P Q x) : Establishes P Q (x.mapError f) := by
  intro s hs a ha
  change (x s).result.mapError f = .ok a at ha
  cases hr : (x s).result with
  | error => simp [hr, Except.mapError] at ha
  | ok b => exact hx s hs b hr

theorem ite {p : Prop} [Decidable p] (hx : p → Establishes P Q x) (hy : ¬ p → Establishes P Q y) :
    Establishes P Q (if p then x else y) := by
  split
  · next h => exact hx h
  · next h => exact hy h

theorem of_writes {t : σ} (hx : x.Writes s t) (h : Q t) : Establishes (· = s) Q x := by
  rintro _ rfl a ha
  obtain ⟨-, ⟨-, e, he⟩ | ht⟩ := hx
  · rw [he] at ha
    cases ha
  · exact (congrArg Q ht).mpr h

end Establishes

/-! ### Histories

An action that cannot fail is described by what holds of the state **and of all the events so far**,
those before it included. -/

/-- If `P` holds of the state and the past, `x` succeeds, and `Q` holds of its result, state and
past. -/
def Yields (P : σ → List ω → Prop) (Q : α → σ → List ω → Prop) (x : Act ε ω σ α) : Prop :=
  ∀ s past, P s past → x.wp (fun s' es r ↦ ∃ a, r = .ok a ∧ Q a s' (past ++ es)) s

namespace Yields

variable {P : σ → List ω → Prop} {Q : α → σ → List ω → Prop} {R : β → σ → List ω → Prop}
  {x y : Act ε ω σ α}

theorem bind {f : α → Act ε ω σ β} (hx : Yields P Q x) (hf : ∀ a, Yields (Q a) R (f a)) :
    Yields P R (x >>= f) := by
  intro s past hs
  refine wp_seq (hx s past hs) ?_ ?_
  · rintro s' es e ⟨a, ha, -⟩
    cases ha
  · rintro s' es a ⟨_, ⟨⟩, hq⟩
    refine wp_mono (hf a s' (past ++ es) hq) ?_
    rintro s'' es' r ⟨b, hb, hr⟩
    exact ⟨b, hb, by rwa [← List.append_assoc]⟩

theorem pure {a : α} (h : ∀ s past, P s past → Q a s past) : Yields P Q (pure a : Act ε ω σ α) := by
  intro s past hs
  refine ⟨a, rfl, ?_⟩
  show Q a s (past ++ [])
  rw [List.append_nil]
  exact h s past hs

theorem update {Q : Unit → σ → List ω → Prop} {f : σ → σ}
    (h : ∀ s past, P s past → Q () (f s) past) : Yields P Q (update f : Act ε ω σ Unit) := by
  intro s past hs
  refine ⟨(), rfl, ?_⟩
  show Q () (f s) (past ++ [])
  rw [List.append_nil]
  exact h s past hs

theorem emit {Q : Unit → σ → List ω → Prop} {w : ω}
    (h : ∀ s past, P s past → Q () s (past ++ [w])) : Yields P Q (emit w : Act ε ω σ Unit) :=
  fun s past hs ↦ ⟨(), rfl, h s past hs⟩

theorem bind_read {f : σ → Act ε ω σ α}
    (h : ∀ s, Yields (fun s' past ↦ s' = s ∧ P s past) Q (f s)) : Yields P Q (Act.read >>= f) :=
  fun s past hs ↦ h s s past ⟨rfl, hs⟩

theorem attempt {Q : Except ε α → σ → List ω → Prop}
    (h : ∀ s past, P s past → x.wp (fun s' es r ↦ Q r s' (past ++ es)) s) : Yields P Q x.attempt :=
  fun s past hs ↦ ⟨_, rfl, h s past hs⟩

theorem ite {p : Prop} [Decidable p] (hx : p → Yields P Q x) (hy : ¬ p → Yields P Q y) :
    Yields P Q (if p then x else y) := by
  split
  · next h => exact hx h
  · next h => exact hy h

theorem mono {P' : σ → List ω → Prop} {Q' : α → σ → List ω → Prop} (hx : Yields P Q x)
    (hP : ∀ s past, P' s past → P s past) (hQ : ∀ a s past, Q a s past → Q' a s past) :
    Yields P' Q' x := by
  intro s past hs
  refine wp_mono (hx s past (hP s past hs)) ?_
  rintro s' es r ⟨a, ha, hq⟩
  exact ⟨a, ha, hQ a s' _ hq⟩

end Yields

end Act
