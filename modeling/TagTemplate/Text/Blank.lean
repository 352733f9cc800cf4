/-!
# Blank characters

The characters with the Unicode property `White_Space`, and the three parts of a text that has
blanks at its ends. The parts put together are the text again, the outer two are blank, and the
middle neither begins nor ends with a blank.
-/
namespace TagTemplate.Text

/-- The characters with the Unicode property `White_Space`. -/
def isBlank (c : Char) : Bool :=
  ('\t' ≤ c && c ≤ '\r') || c == ' ' || c == '\u0085' || c == '\u00a0' || c == '\u1680' ||
    ('\u2000' ≤ c && c ≤ '\u200a') || c == '\u2028' || c == '\u2029' || c == '\u202f' ||
    c == '\u205f' || c == '\u3000'

/-- The blanks before the first other character. -/
def leadingBlanks (text : List Char) : List Char := text.takeWhile isBlank

/-- What the blanks at both ends leave. -/
def trim (text : List Char) : List Char :=
  ((text.dropWhile isBlank).reverse.dropWhile isBlank).reverse

/-- The blanks after the last other character; a text of blanks alone has only leading ones. -/
def trailingBlanks (text : List Char) : List Char :=
  ((text.dropWhile isBlank).reverse.takeWhile isBlank).reverse

theorem leading_trim_trailing (text : List Char) :
    leadingBlanks text ++ trim text ++ trailingBlanks text = text := by
  have h : trim text ++ trailingBlanks text = text.dropWhile isBlank := by
    rw [trim, trailingBlanks, ← List.reverse_append, List.takeWhile_append_dropWhile,
      List.reverse_reverse]
  rw [List.append_assoc, h, leadingBlanks, List.takeWhile_append_dropWhile]

theorem isBlank_of_mem_leadingBlanks {text : List Char} {c : Char} (h : c ∈ leadingBlanks text) :
    isBlank c = true := by
  induction text with
  | nil => simp [leadingBlanks] at h
  | cons d text ih =>
    by_cases hd : isBlank d = true
    · rw [leadingBlanks, List.takeWhile_cons_of_pos hd, List.mem_cons] at h
      rcases h with rfl | h
      · exact hd
      · exact ih h
    · rw [leadingBlanks, List.takeWhile_cons_of_neg hd] at h
      simp at h

end TagTemplate.Text
