import Mathlib.Tactic.Common

/-!
# What a call can do

A Rust function that returns `Result<T, E>` ends in one of three ways : with a value,
with an error that its caller handles, or in a panic that no caller handles.
`Outcome` keeps the three apart, so that "returns an error" and "panics" are different
statements. Binding runs the next computation on a value and passes an error or a panic
through, as `?` does.
-/

namespace Rust

/-- How a call ends. -/
inductive Outcome (ε α : Type) where
  | ok (a : α)
  | err (e : ε)
  | panic (message : String)
deriving DecidableEq, Repr

namespace Outcome

variable {ε α β : Type}

/-- Run `f` on the value of `x`, if it has one. -/
def bind (x : Outcome ε α) (f : α → Outcome ε β) : Outcome ε β :=
  match x with
  | ok a => f a
  | err e => err e
  | panic m => panic m

instance : Monad (Outcome ε) where
  pure := ok
  bind := bind

@[simp] theorem pure_eq (a : α) : (pure a : Outcome ε α) = ok a :=
  rfl

@[simp] theorem ok_bind (a : α) (f : α → Outcome ε β) : (ok a >>= f) = f a :=
  rfl

@[simp] theorem err_bind (e : ε) (f : α → Outcome ε β) : (err e >>= f) = err e :=
  rfl

@[simp] theorem panic_bind (m : String) (f : α → Outcome ε β) :
    ((panic m : Outcome ε α) >>= f) = panic m :=
  rfl

instance : LawfulMonad (Outcome ε) :=
  LawfulMonad.mk' _ (fun x => by cases x <;> rfl) (fun _ _ => rfl)
    (fun x _ _ => by cases x <;> rfl)

@[simp] theorem map_ok (f : α → β) (a : α) : f <$> (ok a : Outcome ε α) = ok (f a) :=
  rfl

@[simp] theorem map_err (f : α → β) (e : ε) : f <$> (err e : Outcome ε α) = err e :=
  rfl

@[simp] theorem map_panic (f : α → β) (m : String) :
    f <$> (panic m : Outcome ε α) = panic m :=
  rfl

/-- A sequence returns a value exactly when both of its parts do. -/
theorem bind_eq_ok {x : Outcome ε α} {f : α → Outcome ε β} {b : β} :
    (x >>= f) = ok b ↔ ∃ a, x = ok a ∧ f a = ok b := by
  cases x <;> simp

theorem map_eq_ok {x : Outcome ε α} {f : α → β} {b : β} :
    f <$> x = ok b ↔ ∃ a, x = ok a ∧ f a = b := by
  cases x <;> simp

/-- The call returns a value. -/
def IsOk (x : Outcome ε α) : Prop :=
  ∃ a, x = ok a

@[simp] theorem isOk_ok (a : α) : (ok a : Outcome ε α).IsOk :=
  ⟨a, rfl⟩

@[simp] theorem not_isOk_err (e : ε) : ¬(err e : Outcome ε α).IsOk := by
  rintro ⟨a, h⟩
  cases h

@[simp] theorem not_isOk_panic (m : String) : ¬(panic m : Outcome ε α).IsOk := by
  rintro ⟨a, h⟩
  cases h

/-- The call returns an error. -/
def IsErr (x : Outcome ε α) : Prop :=
  ∃ e, x = err e

@[simp] theorem isErr_err (e : ε) : (err e : Outcome ε α).IsErr :=
  ⟨e, rfl⟩

@[simp] theorem not_isErr_ok (a : α) : ¬(ok a : Outcome ε α).IsErr := by
  rintro ⟨e, h⟩
  cases h

/-- The call panics. -/
def IsPanic (x : Outcome ε α) : Prop :=
  ∃ m, x = panic m

@[simp] theorem isPanic_panic (m : String) : (panic m : Outcome ε α).IsPanic :=
  ⟨m, rfl⟩

@[simp] theorem not_isPanic_ok (a : α) : ¬(ok a : Outcome ε α).IsPanic := by
  rintro ⟨m, h⟩
  cases h

@[simp] theorem not_isPanic_err (e : ε) : ¬(err e : Outcome ε α).IsPanic := by
  rintro ⟨m, h⟩
  cases h

/-- A sequence panics exactly when one of its parts does. -/
theorem isPanic_bind {x : Outcome ε α} {f : α → Outcome ε β} :
    (x >>= f).IsPanic ↔ x.IsPanic ∨ ∃ a, x = ok a ∧ (f a).IsPanic := by
  cases x <;> simp

theorem isPanic_map {x : Outcome ε α} {f : α → β} : (f <$> x).IsPanic ↔ x.IsPanic := by
  cases x <;> simp

/-- `Option::ok_or` : the value, or the error `e`. -/
def ofOption (e : ε) : Option α → Outcome ε α
  | some a => ok a
  | none => err e

@[simp] theorem ofOption_eq_ok {e : ε} {x : Option α} {a : α} :
    ofOption e x = ok a ↔ x = some a := by
  cases x <;> simp [ofOption]

theorem not_isPanic_ofOption (e : ε) (x : Option α) : ¬(ofOption e x : Outcome ε α).IsPanic := by
  cases x <;> simp [ofOption]

/-- `Option::unwrap` : the value, or a panic. -/
def unwrap (m : String) : Option α → Outcome ε α
  | some a => ok a
  | none => panic m

@[simp] theorem unwrap_eq_ok {m : String} {x : Option α} {a : α} :
    (unwrap m x : Outcome ε α) = ok a ↔ x = some a := by
  cases x <;> simp [unwrap]

/-- A result, which is not a panic. -/
def ofExcept : Except ε α → Outcome ε α
  | .ok a => ok a
  | .error e => err e

@[simp] theorem ofExcept_ok (a : α) : (ofExcept (.ok a) : Outcome ε α) = ok a :=
  rfl

@[simp] theorem ofExcept_error (e : ε) : (ofExcept (.error e) : Outcome ε α) = err e :=
  rfl

@[simp] theorem ofExcept_eq_ok {x : Except ε α} {a : α} : ofExcept x = ok a ↔ x = .ok a := by
  cases x <;> simp [ofExcept]

theorem not_isPanic_ofExcept (x : Except ε α) : ¬(ofExcept x : Outcome ε α).IsPanic := by
  cases x <;> simp

/-- `Result::expect` : the value, or a panic. -/
def expect {ε' : Type} (m : String) : Except ε' α → Outcome ε α
  | .ok a => ok a
  | .error _ => panic m

theorem isPanic_expect {ε' : Type} {m : String} {x : Except ε' α} :
    (expect m x : Outcome ε α).IsPanic ↔ ∃ e, x = .error e := by
  cases x <;> simp [expect]

@[simp] theorem expect_eq_ok {ε' : Type} {m : String} {x : Except ε' α} {a : α} :
    (expect m x : Outcome ε α) = ok a ↔ x = .ok a := by
  cases x <;> simp [expect]

/-- `wrap_err` : an error is reported as `message`. -/
def wrapErr (message : ε) : Outcome ε α → Outcome ε α
  | ok a => ok a
  | err _ => err message
  | panic m => panic m

@[simp] theorem isPanic_wrapErr {message : ε} {x : Outcome ε α} :
    (wrapErr message x).IsPanic ↔ x.IsPanic := by
  cases x <;> simp [wrapErr]

@[simp] theorem wrapErr_eq_ok {message : ε} {x : Outcome ε α} {a : α} :
    wrapErr message x = ok a ↔ x = ok a := by
  cases x <;> simp [wrapErr]

/-- `map_err` : an error is reported as `f` of it. -/
def mapErr (f : ε → ε) : Outcome ε α → Outcome ε α
  | ok a => ok a
  | err e => err (f e)
  | panic m => panic m

@[simp] theorem mapErr_eq_ok {f : ε → ε} {x : Outcome ε α} {a : α} :
    mapErr f x = ok a ↔ x = ok a := by
  cases x <;> simp [mapErr]

@[simp] theorem isPanic_mapErr {f : ε → ε} {x : Outcome ε α} :
    (mapErr f x).IsPanic ↔ x.IsPanic := by
  cases x <;> simp [mapErr]

/-- `assert!` : a panic unless `c` holds. -/
def assert (c : Prop) [Decidable c] (m : String) : Outcome ε Unit :=
  if c then ok () else panic m

@[simp] theorem assert_eq_ok {c : Prop} [Decidable c] {m : String} {u : Unit} :
    (assert c m : Outcome ε Unit) = ok u ↔ c := by
  unfold assert
  split_ifs with h <;> simp [h]

end Outcome

end Rust
