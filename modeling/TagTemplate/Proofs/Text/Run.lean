/-!
# Runs at the ends of a text

Where a text goes on with a character of another kind, taking characters of a kind stops, and
dropping them leaves what goes on. So the last run of a text and what stands before it are told by
the text.
-/
namespace TagTemplate.Text

variable {p : Char → Bool} {run rest : List Char}

theorem takeWhile_eq_nil_of_head? (h : ∀ c ∈ rest.head?, p c = false) : rest.takeWhile p = [] := by
  cases rest with
  | nil => rfl
  | cons c rest => exact List.takeWhile_cons_of_neg (by simp [h c rfl])

theorem dropWhile_eq_self_of_head? (h : ∀ c ∈ rest.head?, p c = false) :
    rest.dropWhile p = rest := by
  cases rest with
  | nil => rfl
  | cons c rest => exact List.dropWhile_cons_of_neg (by simp [h c rfl])

theorem takeWhile_append_of_head? (hrun : ∀ c ∈ run, p c = true)
    (hrest : ∀ c ∈ rest.head?, p c = false) : (run ++ rest).takeWhile p = run := by
  rw [List.takeWhile_append_of_pos hrun, takeWhile_eq_nil_of_head? hrest, List.append_nil]

theorem dropWhile_append_of_head? (hrun : ∀ c ∈ run, p c = true)
    (hrest : ∀ c ∈ rest.head?, p c = false) : (run ++ rest).dropWhile p = rest := by
  rw [List.dropWhile_append_of_pos hrun, dropWhile_eq_self_of_head? hrest]

theorem eq_of_append_cons_eq {before before' run' : List Char} {c c' : Char}
    (hrun : ∀ d ∈ run, p d = true) (hrun' : ∀ d ∈ run', p d = true) (hc : p c = false)
    (hc' : p c' = false) (h : before ++ c :: run = before' ++ c' :: run') :
    before = before' ∧ c = c' ∧ run = run' := by
  have hreverse : run.reverse ++ c :: before.reverse = run'.reverse ++ c' :: before'.reverse := by
    simpa using congrArg List.reverse h
  have hall : ∀ d ∈ run.reverse, p d = true := fun d hd => hrun d (List.mem_reverse.1 hd)
  have hall' : ∀ d ∈ run'.reverse, p d = true := fun d hd => hrun' d (List.mem_reverse.1 hd)
  have htake := congrArg (List.takeWhile p) hreverse
  have hdrop := congrArg (List.dropWhile p) hreverse
  rw [takeWhile_append_of_head? hall (by simp [hc]),
    takeWhile_append_of_head? hall' (by simp [hc'])] at htake
  rw [dropWhile_append_of_head? hall (by simp [hc]),
    dropWhile_append_of_head? hall' (by simp [hc'])] at hdrop
  obtain ⟨heq, hbefore⟩ := List.cons.inj hdrop
  exact ⟨List.reverse_inj.1 hbefore, heq, List.reverse_inj.1 htake⟩

end TagTemplate.Text
