import Mathlib.Data.Nat.Notation

/-!
# Byte codecs

A `Codec` writes values as bytes and reads them back from the front of a longer input
(`read_write`), so codecs compose by concatenation. Numbers are written in base 128, lists after
their length.
-/

/-- A way to write values of `α` as bytes and to read them back. -/
structure Codec (α : Type) where
  write : α → List UInt8
  /-- The value at the front of the input, and the rest of the input. -/
  read : List UInt8 → Option (α × List UInt8)
  read_write : ∀ a rest, read (write a ++ rest) = some (a, rest)

namespace Codec

variable {α β γ : Type}

/-- The value of an input with nothing after it. -/
def readAll (c : Codec α) (bytes : List UInt8) : Option α :=
  match c.read bytes with
  | some (a, []) => some a
  | _ => none

theorem readAll_write (c : Codec α) (a : α) : c.readAll (c.write a) = some a := by
  have h := c.read_write a []
  rw [List.append_nil] at h
  simp [readAll, h]

def byte : Codec UInt8 where
  write b := [b]
  read
    | [] => none
    | b :: rest => some (b, rest)
  read_write _ _ := rfl

def pair (c : Codec α) (d : Codec β) : Codec (α × β) where
  write p := c.write p.1 ++ d.write p.2
  read bytes :=
    match c.read bytes with
    | none => none
    | some (a, rest) =>
      match d.read rest with
      | none => none
      | some (b, rest') => some ((a, b), rest')
  read_write p rest := by
    rw [List.append_assoc]
    simp only [c.read_write, d.read_write]

def via (c : Codec α) (f : α → β) (g : β → α) (hfg : ∀ b, f (g b) = b) : Codec β where
  write b := c.write (g b)
  read bytes :=
    match c.read bytes with
    | none => none
    | some (a, rest) => some (f a, rest)
  read_write b rest := by simp only [c.read_write, hfg]

/-! ### Numbers -/

/-- The digits of `n` in base 128, at most `fuel + 1` of them. -/
def writeDigits : ℕ → ℕ → List UInt8
  | 0, n => [UInt8.ofNat n]
  | fuel + 1, n =>
    if n < 128 then [UInt8.ofNat n]
    else UInt8.ofNat (n % 128 + 128) :: writeDigits fuel (n / 128)

def readDigits : List UInt8 → Option (ℕ × List UInt8)
  | [] => none
  | b :: rest =>
    if b.toNat < 128 then some (b.toNat, rest)
    else
      match readDigits rest with
      | none => none
      | some (n, rest') => some (b.toNat - 128 + 128 * n, rest')

theorem toNat_ofNat_of_lt {n : ℕ} (h : n < 256) : (UInt8.ofNat n).toNat = n := Nat.mod_eq_of_lt h

theorem readDigits_writeDigits {fuel n : ℕ} (h : n ≤ fuel) (rest : List UInt8) :
    readDigits (writeDigits fuel n ++ rest) = some (n, rest) := by
  induction fuel generalizing n with
  | zero =>
    obtain rfl : n = 0 := by omega
    rfl
  | succ fuel ih =>
    unfold writeDigits
    split
    · rename_i hlt
      have hb := toNat_ofNat_of_lt (show n < 256 by omega)
      simp [readDigits, hb, hlt]
    · have hb := toNat_ofNat_of_lt (show n % 128 + 128 < 256 by omega)
      have hrest := ih (n := n / 128) (by omega)
      simp only [List.cons_append, readDigits, hb, hrest, show ¬ n % 128 + 128 < 128 by omega,
        if_false, Option.some.injEq, Prod.mk.injEq, and_true]
      omega

/-- Natural numbers; no number needs more digits than itself. -/
def nat : Codec ℕ where
  write n := writeDigits n n
  read := readDigits
  read_write _ rest := readDigits_writeDigits (Nat.le_refl _) rest

/-! ### Lists and options -/

def readN (c : Codec α) : ℕ → List UInt8 → Option (List α × List UInt8)
  | 0, bytes => some ([], bytes)
  | n + 1, bytes =>
    match c.read bytes with
    | none => none
    | some (a, rest) =>
      match readN c n rest with
      | none => none
      | some (l, rest') => some (a :: l, rest')

theorem readN_flatMap (c : Codec α) (l : List α) (rest : List UInt8) :
    readN c l.length (l.flatMap c.write ++ rest) = some (l, rest) := by
  induction l with
  | nil => rfl
  | cons a l ih => simp only [List.length_cons, readN, List.flatMap_cons, List.append_assoc,
      c.read_write, ih]

def list (c : Codec α) : Codec (List α) where
  write l := nat.write l.length ++ l.flatMap c.write
  read bytes :=
    match nat.read bytes with
    | none => none
    | some (n, rest) => readN c n rest
  read_write l rest := by
    rw [List.append_assoc]
    simp only [nat.read_write, readN_flatMap]

def option (c : Codec α) : Codec (Option α) :=
  c.list.via List.head? Option.toList fun o ↦ by cases o <;> rfl

end Codec
