/-!
# Calls that may raise or bring the process down

A call on a state of type `σ` returns a value, raises, or crashes the process. A
call that raises leaves the state as it was at that point.

* `Returns` is the total reading of a postcondition: the call returns, and the
  postcondition holds. `returns_bind` and `returns_ofExcept` take it apart along a
  body.
* `Leaves` is the partial reading: the postcondition holds of every state the call
  leaves behind, whether it returns or raises. `leaves_bind_ofExcept` and
  `leaves_bind_mapState` are its rules for sequences.
* `Settles` is the total one of these: the call does not crash, and the postcondition
  holds of the state it leaves behind.
-/

/-- The outcome of a call: `φ` is what it can raise. -/
inductive Outcome (φ σ α : Type)
  | ok (a : α) (s : σ)
  | raised (f : φ) (s : σ)
  | crashed
deriving DecidableEq, Repr

namespace Outcome

variable {φ σ τ α β : Type}

/-- Go on from a call that returns. -/
def bind (o : Outcome φ σ α) (f : α → σ → Outcome φ σ β) : Outcome φ σ β :=
  match o with
  | .ok a s => f a s
  | .raised e s => .raised e s
  | .crashed => .crashed

/-- A computation that may raise and does not touch the state. -/
def ofExcept (x : Except φ α) (s : σ) : Outcome φ σ α :=
  match x with
  | .ok a => .ok a s
  | .error e => .raised e s

/-- A call on a part of the state, seen from the whole. -/
def mapState (g : τ → σ) : Outcome φ τ α → Outcome φ σ α
  | .ok a s => .ok a (g s)
  | .raised e s => .raised e (g s)
  | .crashed => .crashed

/-- The state behind a call, when the process lives on: an exception is caught by
the caller. -/
def after : Outcome φ σ α → Option σ
  | .ok _ s => some s
  | .raised _ s => some s
  | .crashed => none

/-- The state behind a call whose exceptions nobody catches. -/
def afterUncaught : Outcome φ σ α → Option σ
  | .ok _ s => some s
  | .raised _ _ => none
  | .crashed => none

@[simp] theorem ok_bind (a : α) (s : σ) (f : α → σ → Outcome φ σ β) :
    (ok a s).bind f = f a s := rfl

@[simp] theorem ofExcept_ok (a : α) (s : σ) : (ofExcept (.ok a) s : Outcome φ σ α) = .ok a s := rfl

/-! ## Total postconditions -/

/-- The call returns, and `Q` holds of the value and the state. -/
def Returns (o : Outcome φ σ α) (Q : α → σ → Prop) : Prop :=
  match o with
  | .ok a s => Q a s
  | .raised _ _ => False
  | .crashed => False

@[simp] theorem returns_ok (a : α) (s : σ) (Q : α → σ → Prop) :
    (ok a s : Outcome φ σ α).Returns Q ↔ Q a s := Iff.rfl

@[simp] theorem returns_raised (e : φ) (s : σ) (Q : α → σ → Prop) :
    (raised e s : Outcome φ σ α).Returns Q ↔ False := Iff.rfl

@[simp] theorem returns_crashed (Q : α → σ → Prop) :
    (crashed : Outcome φ σ α).Returns Q ↔ False := Iff.rfl

@[simp] theorem returns_bind (o : Outcome φ σ α) (f : α → σ → Outcome φ σ β) (Q : β → σ → Prop) :
    (o.bind f).Returns Q ↔ o.Returns fun a s => (f a s).Returns Q := by
  cases o <;> rfl

theorem returns_ofExcept (x : Except φ α) (s : σ) (Q : α → σ → Prop) :
    (ofExcept x s).Returns Q ↔ ∃ a, x = .ok a ∧ Q a s := by
  cases x with
  | ok a => simp [ofExcept]
  | error e => simp [ofExcept]

/-- A sequence of reads returns when each of them does. -/
theorem except_bind_eq_ok_iff {x : Except φ α} {f : α → Except φ β} {b : β} :
    (x >>= f) = .ok b ↔ ∃ a, x = .ok a ∧ f a = .ok b := by
  cases x with
  | ok a => simp [Bind.bind, Except.bind]
  | error e => simp [Bind.bind, Except.bind]

/-- A sequence of reads does not raise what none of them raises. -/
theorem except_bind_ne_error {x : Except φ α} {f : α → Except φ β} {e : φ} (hx : x ≠ .error e)
    (hf : ∀ a, f a ≠ .error e) : (x >>= f) ≠ .error e := by
  cases x with
  | ok a => exact hf a
  | error e' =>
    intro h
    exact hx (congrArg Except.error (Except.error.inj h))

/-! ## Partial postconditions -/

/-- `Q` holds of every state the call leaves behind. -/
def Leaves (o : Outcome φ σ α) (Q : σ → Prop) : Prop := ∀ t, o.after = some t → Q t

@[simp] theorem leaves_ok (a : α) (s : σ) (Q : σ → Prop) :
    (ok a s : Outcome φ σ α).Leaves Q ↔ Q s := by
  simp [Leaves, after]

@[simp] theorem leaves_raised (e : φ) (s : σ) (Q : σ → Prop) :
    (raised e s : Outcome φ σ α).Leaves Q ↔ Q s := by
  simp [Leaves, after]

@[simp] theorem leaves_crashed (Q : σ → Prop) : (crashed : Outcome φ σ α).Leaves Q := by
  simp [Leaves, after]

/-- A call on a part of the state leaves the part as the call leaves it. -/
theorem after_mapState (o : Outcome φ τ α) (g : τ → σ) : (o.mapState g).after = o.after.map g := by
  cases o <;> rfl

/-- Reading something keeps what holds of the state. -/
theorem leaves_bind_ofExcept {x : Except φ α} {s : σ} {f : α → σ → Outcome φ σ β} {Q : σ → Prop}
    (hs : Q s) (hf : ∀ a, x = .ok a → (f a s).Leaves Q) : ((ofExcept x s).bind f).Leaves Q := by
  cases x with
  | ok a => exact hf a rfl
  | error e => exact (leaves_raised e s Q).mpr hs

/-- A call on a part of the state leaves nothing but that part changed. -/
theorem leaves_bind_mapState {o : Outcome φ τ α} {g : τ → σ} {f : α → σ → Outcome φ σ β}
    {Q : σ → Prop} (hpart : ∀ v, Q (g v)) (hf : ∀ a v, (f a (g v)).Leaves Q) :
    ((o.mapState g).bind f).Leaves Q := by
  cases o with
  | ok a v => exact hf a v
  | raised e v => exact (leaves_raised e (g v) Q).mpr (hpart v)
  | crashed => exact leaves_crashed Q

/-- The call returns or raises, and `Q` holds of the state it leaves behind. -/
def Settles (o : Outcome φ σ α) (Q : σ → Prop) : Prop := ∃ t, o.after = some t ∧ Q t

@[simp] theorem settles_ok (a : α) (s : σ) (Q : σ → Prop) :
    (ok a s : Outcome φ σ α).Settles Q ↔ Q s := by
  simp [Settles, after]

@[simp] theorem settles_raised (e : φ) (s : σ) (Q : σ → Prop) :
    (raised e s : Outcome φ σ α).Settles Q ↔ Q s := by
  simp [Settles, after]

theorem settles_bind_ofExcept {x : Except φ α} {s : σ} {f : α → σ → Outcome φ σ β} {Q : σ → Prop}
    (hs : Q s) (hf : ∀ a, x = .ok a → (f a s).Settles Q) : ((ofExcept x s).bind f).Settles Q := by
  cases x with
  | ok a => exact hf a rfl
  | error e => exact (settles_raised e s Q).mpr hs

end Outcome
