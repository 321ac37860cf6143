/-!
# Words and lines

The words of a list are its longest parts without a separator, as a stream operator
reads them that skips white space. `words_lines`: lines that are words come back as
they were written; `sep_of_mem_words`: a word never holds a separator.
-/

namespace Words

variable {α : Type} {sep : α → Bool}

def words (sep : α → Bool) (l : List α) : List (List α) :=
  (l.splitOnP sep).filter fun w => !w.isEmpty

@[simp] theorem words_nil : words sep [] = [] := rfl

/-- A word in front of a separator is read first. -/
theorem words_append {w : List α} {s : α} (hw : ∀ x ∈ w, sep x = false) (hne : w ≠ [])
    (hs : sep s = true) (rest : List α) : words sep (w ++ s :: rest) = w :: words sep rest := by
  rw [words, List.splitOnP_append_cons_of_forall_mem hw s hs, List.filter_cons_of_pos, words]
  simpa using hne

/-- Lines that are words are read back. -/
theorem words_lines {lines : List (List α)} {s : α} (hs : sep s = true)
    (hlines : ∀ w ∈ lines, w ≠ [] ∧ ∀ x ∈ w, sep x = false) :
    words sep (lines.flatMap fun w => w ++ [s]) = lines := by
  induction lines with
  | nil => rfl
  | cons w lines ih =>
    obtain ⟨hw, hrest⟩ := List.forall_mem_cons.mp hlines
    rw [List.flatMap_cons, List.append_assoc, List.singleton_append,
      words_append hw.2 hw.1 hs, ih hrest]

theorem sep_of_mem_splitOnP {l w : List α} (hw : w ∈ l.splitOnP sep) : ∀ x ∈ w, sep x = false := by
  induction l generalizing w with
  | nil => simp_all
  | cons a l ih =>
    rw [List.splitOnP_cons_eq_if_modifyHead] at hw
    split at hw
    · rcases List.mem_cons.mp hw with rfl | hw
      · exact nofun
      · exact ih hw
    · next hkeep =>
      obtain ⟨u, us, hsplit⟩ := List.exists_cons_of_ne_nil (List.splitOnP_ne_nil sep l)
      rw [hsplit, List.modifyHead_cons] at hw
      rcases List.mem_cons.mp hw with rfl | hw
      · have hu := ih (hsplit ▸ List.mem_cons_self)
        exact List.forall_mem_cons.mpr ⟨by simpa using hkeep, hu⟩
      · exact ih (hsplit ▸ List.mem_cons_of_mem u hw)

/-- No word holds a separator. -/
theorem sep_of_mem_words {l w : List α} (hw : w ∈ words sep l) : ∀ x ∈ w, sep x = false :=
  sep_of_mem_splitOnP (List.mem_filter.mp hw).1

end Words
