import Mathlib.Data.List.Nodup
import Mathlib.Logic.Function.Basic

/-!
# Loops that fill a table

`fill f as` makes the assignments `as` to the table `f`, one after another. An entry
nobody assigns to stays (`fill_of_notMem`); when no entry is assigned to twice, each
holds what was assigned to it (`fill_of_mem`).

Rows laid out one behind the other cover a table in order: `flatMap_rows`. A loop whose
rounds may fail gives all of its rounds or nothing: `mapM_eq_some_iff`.
-/

namespace Scatter

variable {κ β : Type} [DecidableEq κ]

/-- Make the assignments to the table in order. -/
def fill (f : κ → β) (as : List (κ × β)) : κ → β :=
  as.foldl (fun f a => Function.update f a.1 a.2) f

@[simp] theorem fill_nil (f : κ → β) : fill f [] = f := rfl

@[simp] theorem fill_cons (f : κ → β) (a : κ × β) (as : List (κ × β)) :
    fill f (a :: as) = fill (Function.update f a.1 a.2) as := rfl

/-- An entry that nothing is assigned to stays. -/
theorem fill_of_notMem {as : List (κ × β)} {k : κ} (h : k ∉ as.map Prod.fst) (f : κ → β) :
    fill f as k = f k := by
  induction as generalizing f with
  | nil => rfl
  | cons a as ih =>
    rw [List.map_cons, List.mem_cons, not_or] at h
    rw [fill_cons, ih h.2, Function.update_of_ne h.1]

/-- When no entry is assigned to twice, each holds what was assigned to it. -/
theorem fill_of_mem {as : List (κ × β)} (hnodup : (as.map Prod.fst).Nodup) {k : κ} {b : β}
    (h : (k, b) ∈ as) (f : κ → β) : fill f as k = b := by
  induction as generalizing f with
  | nil => cases h
  | cons a as ih =>
    obtain ⟨hfirst, hrest⟩ := List.nodup_cons.mp hnodup
    rw [fill_cons]
    rcases List.mem_cons.mp h with rfl | h
    · rw [fill_of_notMem hfirst, Function.update_self]
    · exact ih hrest h _

/-- A loop gives a result exactly when each of its rounds does. -/
theorem mapM_eq_some_iff {α γ : Type} {f : α → Option γ} {l : List α} {l' : List γ} :
    l.mapM f = some l' ↔ l.map f = l'.map some := by
  induction l generalizing l' with
  | nil => cases l' <;> simp
  | cons a l ih =>
    cases hf : f a with
    | none => cases l' <;> simp [hf]
    | some b =>
      cases l' with
      | nil => simp [hf, Option.bind_eq_some_iff]
      | cons c l' => simp [hf, Option.bind_eq_some_iff, ih, and_comm]

/-- `m` rows of `n` entries, one row behind the other, are the first `m * n` entries. -/
theorem flatMap_rows (m n : Nat) :
    ((List.range m).flatMap fun i => (List.range n).map fun j => i * n + j) =
      List.range (m * n) := by
  induction m with
  | zero => simp
  | succ m ih =>
    rw [List.range_succ, List.flatMap_append, ih, Nat.succ_mul, List.range_add]
    simp

end Scatter
