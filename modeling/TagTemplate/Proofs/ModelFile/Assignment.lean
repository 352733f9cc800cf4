import TagTemplate.ModelFile.Basic
import TagTemplate.Proofs.Result
import TagTemplate.Proofs.Text.Trim

/-!
# Assignments

An assignment is read exactly if it is a tag name, blanks around it aside, then an equals sign and
then the value. So what is written as a name, an equals sign and a value is read back as them, and
the only fault of an assignment is that it is none.
-/
namespace TagTemplate

def assignText (entry : String × String) : String := entry.1 ++ "=" ++ entry.2

namespace ModelFile

variable {text : String} {entry : String × String} {e : LoadError}

theorem parseAssignment_eq_ok_iff :
    parseAssignment text = .ok entry ↔
      ∃ left right, Text.Blank left ∧ isTagName entry.1.toList = true ∧ Text.Blank right ∧
        text.toList = left ++ entry.1.toList ++ right ++ '=' :: entry.2.toList := by
  constructor
  · intro h
    unfold parseAssignment at h
    split at h
    · cases h
    · rename_i c value hdrop
      dsimp only at h
      split at h
      · rename_i hname
        obtain rfl := Except.ok.inj h
        obtain rfl : c = '=' := by
          have hhead := List.head?_dropWhile_not (· != '=') text.toList
          rw [hdrop] at hhead
          simpa using hhead
        have htext : text.toList.takeWhile (· != '=') ++ '=' :: value = text.toList := by
          rw [← hdrop, List.takeWhile_append_dropWhile]
        let before := text.toList.takeWhile (· != '=')
        refine ⟨Text.leadingBlanks before, Text.trailingBlanks before,
          Text.blank_leadingBlanks _, ?_, Text.blank_trailingBlanks _, ?_⟩
        · rwa [String.toList_ofList]
        · rw [String.toList_ofList, Text.leading_trim_trailing, String.toList_ofList, htext]
      · cases h
  · rintro ⟨left, right, hl, hn, hr, htext⟩
    have hrun : ∀ c ∈ left ++ entry.1.toList ++ right, (c != '=') = true := by
      intro c hc
      rw [bne_iff_ne]
      rintro rfl
      simp only [List.mem_append] at hc
      rcases hc with (hc | hc) | hc
      · exact hl.notMem rfl hc
      · exact notMem_of_isTagName hn rfl hc
      · exact hr.notMem rfl hc
    have hstop : ∀ c ∈ ('=' :: entry.2.toList).head?, (c != '=') = false := by simp
    rw [parseAssignment, htext, Text.dropWhile_append_of_head? hrun hstop,
      Text.takeWhile_append_of_head? hrun hstop]
    simp only [Text.trim_marker hl hn hr, hn, if_true, String.ofList_toList]

theorem isTagName_of_parseAssignment (h : parseAssignment text = .ok entry) :
    isTagName entry.1.toList = true := by
  obtain ⟨left, right, -, hn, -⟩ := parseAssignment_eq_ok_iff.1 h
  exact hn

theorem parseAssignment_assignText (h : isTagName entry.1.toList = true) :
    parseAssignment (assignText entry) = .ok entry := by
  rw [parseAssignment_eq_ok_iff]
  refine ⟨[], [], by simp [Text.Blank], h, by simp [Text.Blank], ?_⟩
  simp [assignText, String.toList_append]

theorem eq_invalidAssignment_of_parseAssignment (h : parseAssignment text = .error e) :
    e = .invalidAssignment text := by
  unfold parseAssignment at h
  split at h
  · exact (Except.error.inj h).symm
  · dsimp only at h
    split at h
    · cases h
    · exact (Except.error.inj h).symm

theorem eq_invalidAssignment_of_set {model : ModelFile} (h : model.set text = .error e) :
    e = .invalidAssignment text :=
  eq_invalidAssignment_of_parseAssignment (Result.map_eq_error_iff.1 h)

end ModelFile
end TagTemplate
