/-!
# Tables with a signed index

A vector that is indexed by a C++ `int` and tested with
`idx < 0 || idx >= v.size()` before each access. `lookup` is the access behind
that test and `update` writes one entry in place.
-/

namespace Table

variable {α : Type}

/-- The entry at a signed index; `none` when the range test fails. -/
def lookup (l : List α) (idx : Int) : Option α :=
  if idx < 0 then none else l[idx.toNat]?

/-- Rewrite the entry at a signed index, when there is one. -/
def update (l : List α) (idx : Int) (f : α → α) : List α :=
  if idx < 0 then l else l.modify idx.toNat f

/-- Signed indices in range are told apart by their natural number. -/
theorem toNat_ne {i j : Int} (hi : 0 ≤ i) (hj : 0 ≤ j) (hij : i ≠ j) : i.toNat ≠ j.toNat := by
  omega

theorem lookup_nonneg {l : List α} {idx : Int} {a : α} (h : lookup l idx = some a) :
    0 ≤ idx := by
  unfold lookup at h
  split at h
  · cases h
  · omega

theorem lookup_lt {l : List α} {idx : Int} {a : α} (h : lookup l idx = some a) :
    idx < l.length := by
  have hn := lookup_nonneg h
  unfold lookup at h
  rw [if_neg (by omega)] at h
  have := (List.getElem?_eq_some_iff.mp h).1
  omega

theorem ne_neg_one {l : List α} {idx : Int} {a : α} (h : lookup l idx = some a) : idx ≠ -1 := by
  have hn := lookup_nonneg h
  omega

theorem lookup_mem {l : List α} {idx : Int} {a : α} (h : lookup l idx = some a) : a ∈ l := by
  unfold lookup at h
  split at h
  · cases h
  · exact List.mem_of_getElem? h

/-- Entries that differ in pairs are found at one index only. -/
theorem lookup_inj {l : List α} {i j : Int} {a : α} (hl : l.Nodup) (hi : lookup l i = some a)
    (hj : lookup l j = some a) : i = j := by
  have hi₀ := lookup_nonneg hi
  have hj₀ := lookup_nonneg hj
  have hlt := lookup_lt hi
  unfold lookup at hi hj
  rw [if_neg (by omega)] at hi hj
  have hsame := (List.getElem?_inj (show i.toNat < l.length by omega) hl).mp (hi.trans hj.symm)
  omega

@[simp] theorem lookup_natCast (l : List α) (n : Nat) : lookup l (n : Int) = l[n]? := by
  unfold lookup
  rw [if_neg (by omega), Int.toNat_natCast]

@[simp] theorem lookup_nil (idx : Int) : lookup ([] : List α) idx = none := by
  unfold lookup
  split <;> simp

/-- The first entry, and the entries behind it. -/
theorem lookup_cons (a : α) (l : List α) (idx : Int) :
    lookup (a :: l) idx = if idx = 0 then some a else lookup l (idx - 1) := by
  rcases Int.lt_trichotomy idx 0 with hneg | rfl | hpos
  · rw [if_neg (by omega), lookup, lookup, if_pos hneg, if_pos (by omega)]
  · rfl
  · rw [if_neg (by omega), lookup, lookup, if_neg (by omega), if_neg (by omega),
      show idx.toNat = (idx - 1).toNat + 1 by omega, List.getElem?_cons_succ]

theorem lookup_update_self {l : List α} {idx : Int} {a : α} (f : α → α)
    (h : lookup l idx = some a) : lookup (update l idx f) idx = some (f a) := by
  have hn := lookup_nonneg h
  unfold lookup at h ⊢
  unfold update
  rw [if_neg (by omega)] at h ⊢
  rw [if_neg (by omega), List.getElem?_modify_eq, h]
  rfl

theorem lookup_update_ne {l : List α} {i j : Int} (f : α → α) (hij : i ≠ j) :
    lookup (update l i f) j = lookup l j := by
  unfold lookup update
  by_cases hj : j < 0
  · simp [hj]
  · by_cases hi : i < 0
    · simp [hi]
    · rw [if_neg hj, if_neg hj, if_neg hi]
      exact List.getElem?_modify_ne f l (toNat_ne (by omega) (by omega) hij)

/-- What a table that grew by one holds at an index. -/
theorem lookup_append (l : List α) (a : α) (i : Int) :
    lookup (l ++ [a]) i = if i = l.length then some a else lookup l i := by
  by_cases hi : i = l.length
  · subst hi
    simp
  · rw [if_neg hi]
    unfold lookup
    split
    · rfl
    · rcases Nat.lt_or_ge i.toNat l.length with hlt | hge
      · rw [List.getElem?_append_left hlt]
      · rw [List.getElem?_eq_none (by simp; omega), List.getElem?_eq_none hge]

/-- `m` is the table `l` with `b` at index `i`. -/
def Sets (l m : List α) (i : Int) (b : α) : Prop :=
  ∀ j, lookup m j = if j = i then some b else lookup l j

section Sets

variable {l m : List α} {i j : Int} {a b : α}

theorem sets_update (f : α → α) (h : lookup l i = some a) : Sets l (update l i f) i (f a) := by
  intro j
  by_cases hj : j = i
  · rw [if_pos hj, hj, lookup_update_self f h]
  · rw [if_neg hj, lookup_update_ne f (Ne.symm hj)]

theorem sets_append (l : List α) (b : α) : Sets l (l ++ [b]) l.length b :=
  lookup_append l b

/-- A table has its own entries. -/
theorem sets_self (h : lookup l i = some a) : Sets l l i a := by
  intro j
  by_cases hj : j = i
  · rw [if_pos hj, hj, h]
  · rw [if_neg hj]

theorem Sets.at (h : Sets l m i b) : lookup m i = some b := by rw [h, if_pos rfl]

theorem Sets.of_ne (h : Sets l m i b) (hj : j ≠ i) : lookup m j = lookup l j := by
  rw [h, if_neg hj]

/-- An entry is the new one, or an old one at another index. -/
theorem Sets.cases (h : Sets l m i b) (hj : lookup m j = some a) :
    (j = i ∧ a = b) ∨ (j ≠ i ∧ lookup l j = some a) := by
  by_cases hji : j = i
  · subst hji
    rw [h.at] at hj
    exact .inl ⟨rfl, (Option.some.inj hj).symm⟩
  · rw [h.of_ne hji] at hj
    exact .inr ⟨hji, hj⟩

end Sets

theorem lookup_map {β : Type} (f : α → β) (l : List α) (i : Int) :
    lookup (l.map f) i = (lookup l i).map f := by
  unfold lookup
  split
  · rfl
  · rw [List.getElem?_map]

/-- An update that keeps what `f` reads of an entry keeps what it reads of the table. -/
theorem map_update {β : Type} {f : α → β} {g : α → α} (l : List α) (i : Int)
    (h : ∀ a, f (g a) = f a) : (update l i g).map f = l.map f := by
  unfold update
  split
  · rfl
  · refine List.ext_getElem? fun n => ?_
    rw [List.getElem?_map, List.getElem?_map, List.getElem?_modify]
    cases l[n]? with
    | none => rfl
    | some a =>
      split
      · exact congrArg some (h a)
      · rfl

end Table
