import TagTemplate.Proofs.Text.Run
import TagTemplate.Template.Name
import TagTemplate.Text.Blank

/-!
# Trimmed tag names

No character of a tag name is blank, and none is a brace. So a tag name is just what trimming leaves
of a text in which only blanks stand around it, and the blanks on either side come back as written.
-/
namespace TagTemplate

theorem isAlphanum_of_isTagName {name : List Char} {c : Char} (h : isTagName name = true)
    (hc : c ∈ name) : c.isAlphanum = true := by
  cases name with
  | nil => simp at hc
  | cons d name =>
    simp only [isTagName, Bool.and_eq_true, List.all_eq_true] at h
    rcases List.mem_cons.1 hc with rfl | hc
    · simp [Char.isAlphanum, h.1]
    · exact h.2 c hc

theorem ne_nil_of_isTagName {name : List Char} (h : isTagName name = true) : name ≠ [] := by
  rintro rfl
  simp [isTagName] at h

theorem notMem_of_isTagName {name : List Char} {c : Char} (h : isTagName name = true)
    (hc : c.isAlphanum = false) : c ∉ name := fun hmem => by
  simp [isAlphanum_of_isTagName h hmem] at hc

namespace Text

theorem isBlank_eq_false_of_isAlphanum {c : Char} (h : c.isAlphanum = true) :
    isBlank c = false := by
  have hr : (48 ≤ c.toNat ∧ c.toNat ≤ 57) ∨ (65 ≤ c.toNat ∧ c.toNat ≤ 90) ∨
      (97 ≤ c.toNat ∧ c.toNat ≤ 122) := by
    have hcodes : ((decide (65 ≤ c.val ∧ c.val ≤ 90) || (97 ≤ c.val && c.val ≤ 122)) ||
        (48 ≤ c.val && c.val ≤ 57)) = true := h
    simp only [Bool.or_eq_true, Bool.and_eq_true, decide_eq_true_eq,
      UInt32.le_iff_toNat_le] at hcodes
    change ((65 ≤ c.toNat ∧ c.toNat ≤ 90) ∨ (97 ≤ c.toNat ∧ c.toNat ≤ 122)) ∨
      (48 ≤ c.toNat ∧ c.toNat ≤ 57) at hcodes
    omega
  simp only [isBlank, Bool.or_eq_false_iff, Bool.and_eq_false_iff, decide_eq_false_iff_not,
    Char.le_def, UInt32.le_iff_toNat_le, beq_eq_false_iff_ne, ne_eq, Char.ext_iff,
    ← UInt32.toNat_inj]
  simp only [Char.reduceVal, UInt32.reduceToNat, Char.toNat_val]
  omega

def Blank (text : List Char) : Prop := ∀ c ∈ text, isBlank c = true

instance (text : List Char) : Decidable (Blank text) :=
  List.decidableBAll (fun c => isBlank c = true) text

variable {left name right text : List Char}

theorem Blank.notMem {c : Char} (h : Blank text) (hc : isBlank c = false) : c ∉ text :=
  fun hmem => by simp [h c hmem] at hc

theorem blank_leadingBlanks (text : List Char) : Blank (leadingBlanks text) :=
  fun _ => isBlank_of_mem_leadingBlanks

theorem blank_trailingBlanks (text : List Char) : Blank (trailingBlanks text) := by
  intro c hc
  rw [trailingBlanks, List.mem_reverse] at hc
  exact isBlank_of_mem_leadingBlanks hc

theorem Blank.reverse (h : Blank text) : Blank text.reverse :=
  fun c hc => h c (List.mem_reverse.1 hc)

theorem isBlank_eq_false_of_mem_tagName {c : Char} (h : isTagName name = true) (hc : c ∈ name) :
    isBlank c = false := isBlank_eq_false_of_isAlphanum (isAlphanum_of_isTagName h hc)

theorem isBlank_eq_false_of_mem_reverse_tagName {c : Char} (h : isTagName name = true)
    (hc : c ∈ name.reverse) : isBlank c = false :=
  isBlank_eq_false_of_mem_tagName h (List.mem_reverse.1 hc)

theorem reverse_ne_nil_of_isTagName (h : isTagName name = true) : name.reverse ≠ [] := by
  simpa using ne_nil_of_isTagName h

section Core

variable {core rest : List Char}

theorem isBlank_eq_false_of_head? (hne : core ≠ []) (hcore : ∀ c ∈ core, isBlank c = false) :
    ∀ c ∈ (core ++ rest).head?, isBlank c = false := by
  cases core with
  | nil => exact absurd rfl hne
  | cons d core =>
    rintro c ⟨⟩
    exact hcore d List.mem_cons_self

theorem takeWhile_isBlank_append (hl : Blank left) (hne : core ≠ [])
    (hcore : ∀ c ∈ core, isBlank c = false) :
    (left ++ (core ++ rest)).takeWhile isBlank = left :=
  takeWhile_append_of_head? hl (isBlank_eq_false_of_head? hne hcore)

theorem dropWhile_isBlank_append (hl : Blank left) (hne : core ≠ [])
    (hcore : ∀ c ∈ core, isBlank c = false) :
    (left ++ (core ++ rest)).dropWhile isBlank = core ++ rest :=
  dropWhile_append_of_head? hl (isBlank_eq_false_of_head? hne hcore)

end Core

section Marker

variable (hl : Blank left) (hn : isTagName name = true) (hr : Blank right)

include hl hn

theorem leadingBlanks_marker : leadingBlanks (left ++ name ++ right) = left := by
  rw [leadingBlanks, List.append_assoc]
  exact takeWhile_isBlank_append hl (ne_nil_of_isTagName hn)
    (fun c => isBlank_eq_false_of_mem_tagName hn)

theorem dropWhile_isBlank_marker : (left ++ name ++ right).dropWhile isBlank = name ++ right := by
  rw [List.append_assoc]
  exact dropWhile_isBlank_append hl (ne_nil_of_isTagName hn)
    (fun c => isBlank_eq_false_of_mem_tagName hn)

include hr

/-- What stands between the blanks of a marker is its name. -/
theorem trim_marker : trim (left ++ name ++ right) = name := by
  rw [trim, dropWhile_isBlank_marker hl hn, List.reverse_append, ← List.append_nil name.reverse,
    dropWhile_isBlank_append hr.reverse (reverse_ne_nil_of_isTagName hn)
      (fun c => isBlank_eq_false_of_mem_reverse_tagName hn)]
  simp

theorem trailingBlanks_marker : trailingBlanks (left ++ name ++ right) = right := by
  rw [trailingBlanks, dropWhile_isBlank_marker hl hn, List.reverse_append,
    ← List.append_nil name.reverse,
    takeWhile_isBlank_append hr.reverse (reverse_ne_nil_of_isTagName hn)
      (fun c => isBlank_eq_false_of_mem_reverse_tagName hn), List.reverse_reverse]

end Marker

end Text
end TagTemplate
