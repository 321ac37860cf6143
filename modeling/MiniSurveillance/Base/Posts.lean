import Mathlib.Logic.Function.Basic
import Mathlib.Data.List.Induction

/-!
# Posted references

A producer writes values into cells and posts references to the cells; a consumer takes the
references one by one, in their order, and finds what the cells hold by then. A post is
known by its cell and the value written with it.

* `Behind.post`, `Behind.take`: what a post and a delivery leave.
* `newest_spec`: what the consumer finds is the value of a post of the same cell, its own or
  a later one, behind which there is none of that cell.
-/

namespace Posts

variable {ι α : Type} [DecidableEq ι]

/-- The cells, and the references under way. -/
structure Box (ι α : Type) where
  cells : ι → Option α
  posted : List ι

def Box.empty : Box ι α := ⟨fun _ => none, []⟩

/-- Write a value into a cell and post a reference to it. -/
def Box.post (i : ι) (a : α) (b : Box ι α) : Box ι α where
  cells := Function.update b.cells i (some a)
  posted := b.posted ++ [i]

/-- The value of the last post of a cell. -/
def newest (i : ι) (posts : List (ι × α)) : Option α :=
  (posts.filter fun post => post.1 = i).getLast?.map Prod.snd

/-- A box behind posts, of which the first `taken` were taken. -/
structure Behind (posts : List (ι × α)) (taken : Nat) (b : Box ι α) : Prop where
  taken_le : taken ≤ posts.length
  posted : b.posted = (posts.drop taken).map Prod.fst
  cells : ∀ i, b.cells i = newest i posts

theorem behind_empty : Behind ([] : List (ι × α)) 0 Box.empty where
  taken_le := Nat.le_refl 0
  posted := rfl
  cells _ := rfl

theorem newest_snoc (i j : ι) (a : α) (posts : List (ι × α)) :
    newest i (posts ++ [(j, a)]) = if j = i then some a else newest i posts := by
  unfold newest
  rw [List.filter_append]
  by_cases h : j = i
  · simp [h]
  · simp [h]

theorem Behind.post {posts : List (ι × α)} {taken : Nat} {b : Box ι α}
    (h : Behind posts taken b) (i : ι) (a : α) :
    Behind (posts ++ [(i, a)]) taken (b.post i a) where
  taken_le := by
    have := h.taken_le
    rw [List.length_append]
    omega
  posted := by
    rw [Box.post, h.posted, List.drop_append_of_le_length h.taken_le, List.map_append]
    rfl
  cells j := by
    rw [newest_snoc]
    show Function.update b.cells i (some a) j = _
    by_cases hj : j = i
    · rw [hj, Function.update_self, if_pos rfl]
    · rw [Function.update_of_ne hj, h.cells, if_neg fun h => hj h.symm]

/-- The reference that is taken is that of the first post not taken yet. -/
theorem Behind.take {posts : List (ι × α)} {taken : Nat} {b : Box ι α} {i : ι} {rest : List ι}
    (h : Behind posts taken b) (hposted : b.posted = i :: rest) :
    (∃ a, posts[taken]? = some (i, a)) ∧ Behind posts (taken + 1) { b with posted := rest } := by
  have hdrop := h.posted.symm.trans hposted
  rcases Nat.lt_or_ge taken posts.length with hlt | hge
  · rw [List.drop_eq_getElem_cons hlt, List.map_cons, List.cons.injEq] at hdrop
    refine ⟨⟨posts[taken].2, ?_⟩, hlt, hdrop.2.symm, h.cells⟩
    rw [List.getElem?_eq_getElem hlt, ← hdrop.1]
  · rw [List.drop_eq_nil_of_le hge] at hdrop
    cases hdrop

/-- The value found for a post is that of a post of its cell, itself or a later one, behind
which there is none of that cell. -/
theorem newest_spec {posts : List (ι × α)} {k : Nat} {i : ι} {a : α}
    (h : posts[k]? = some (i, a)) :
    ∃ j b, k ≤ j ∧ posts[j]? = some (i, b) ∧ newest i posts = some b ∧
      ∀ l c, j < l → posts[l]? ≠ some (i, c) := by
  induction posts using List.reverseRecOn with
  | nil => cases h
  | append_singleton posts post ih =>
    obtain ⟨i', b⟩ := post
    by_cases hlast : i' = i
    · subst hlast
      have hlen (l : Nat) (c : α) (hl : (posts ++ [(i', b)])[l]? = some (i', c)) :
          l < posts.length + 1 := by
        simpa using (List.getElem?_eq_some_iff.mp hl).1
      refine ⟨posts.length, b, Nat.le_of_lt_succ (hlen k a h), by simp,
        by rw [newest_snoc, if_pos rfl], fun l c hl hc => ?_⟩
      exact absurd (hlen l c hc) (by omega)
    · -- the post behind them is of another cell
      have hback (l : Nat) (c : α) (hl : (posts ++ [(i', b)])[l]? = some (i, c)) :
          posts[l]? = some (i, c) := by
        rcases Nat.lt_or_ge l posts.length with hlt | hge
        · rwa [List.getElem?_append_left hlt] at hl
        · rw [List.getElem?_append_right hge] at hl
          obtain ⟨hmem, hget⟩ := List.getElem?_eq_some_iff.mp hl
          simp only [List.getElem_singleton, Prod.mk.injEq] at hget
          exact absurd hget.1 hlast
      obtain ⟨j, b', hle, hj, hnewest, hnone⟩ := ih (hback k a h)
      have hlt := (List.getElem?_eq_some_iff.mp hj).1
      exact ⟨j, b', hle, by rwa [List.getElem?_append_left hlt],
        by rw [newest_snoc, if_neg hlast, hnewest], fun l c hl hc => hnone l c hl (hback l c hc)⟩

end Posts
