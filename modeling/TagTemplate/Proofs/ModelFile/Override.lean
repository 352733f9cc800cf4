import TagTemplate.Proofs.ModelFile.Assignment
import TagTemplate.Proofs.Template.Marker

/-!
# Assignments as overrides

A text assigns a value to a name if it is the name between blanks, an equals sign and the value. No
text assigns in two ways: neither blanks nor names have equals signs, so the first sign in the text
is the one, and a name has no blanks that might be taken for those around it. All other texts are
reported as they are. What is assigned is the value to the last character, the values of other names
stay, and markers for the name put the value in their place.
-/
namespace TagTemplate

def Assigns (text name value : String) : Prop :=
  isTagName name.toList = true ∧ ∃ left right : String, Text.Blank left.toList ∧
    Text.Blank right.toList ∧ text = left ++ name ++ right ++ "=" ++ value

namespace ModelFile

variable {model : ModelFile} {text name value name' value' : String} {e : LoadError}

theorem parseAssignment_eq_ok_iff_assigns :
    parseAssignment text = .ok (name, value) ↔ Assigns text name value := by
  rw [parseAssignment_eq_ok_iff]
  constructor
  · rintro ⟨left, right, hl, hn, hr, htext⟩
    refine ⟨hn, String.ofList left, String.ofList right, ?_, ?_, ?_⟩
    · rwa [String.toList_ofList]
    · rwa [String.toList_ofList]
    · rw [← String.ofList_toList (s := text), htext]
      simp [String.ofList_append, String.append_assoc]
  · rintro ⟨hn, left, right, hl, hr, rfl⟩
    exact ⟨left.toList, right.toList, hl, hn, hr, by simp [String.toList_append]⟩

theorem Assigns.unique (h : Assigns text name value) (h' : Assigns text name' value') :
    name' = name ∧ value' = value := by
  have heq := (parseAssignment_eq_ok_iff_assigns.2 h').symm.trans
    (parseAssignment_eq_ok_iff_assigns.2 h)
  exact Prod.mk.inj (Except.ok.inj heq)

theorem parseAssignment_eq_error_iff : parseAssignment text = .error e ↔
    (∀ name value, ¬Assigns text name value) ∧ e = .invalidAssignment text := by
  constructor
  · intro h
    refine ⟨fun name value hassigns => ?_, eq_invalidAssignment_of_parseAssignment h⟩
    rw [parseAssignment_eq_ok_iff_assigns.2 hassigns] at h
    cases h
  · rintro ⟨hnone, rfl⟩
    cases h : parseAssignment text with
    | ok entry => exact absurd (parseAssignment_eq_ok_iff_assigns.1 h) (hnone entry.1 entry.2)
    | error e => rw [eq_invalidAssignment_of_parseAssignment h]

theorem set_assignText (hn : isTagName name.toList = true) :
    model.set (assignText (name, value)) = .ok ⟨model.values.insert name value⟩ := by
  rw [set, parseAssignment_assignText hn]
  rfl

/-- A text is read as an assignment just if it is one, and then in the one way in which it is. An
assignment changes its name alone, and to just its value. -/
theorem parseAssignment_exact :
    (∀ text name value, parseAssignment text = .ok (name, value) ↔ Assigns text name value) ∧
    (∀ text name value name' value', Assigns text name value → Assigns text name' value' →
      name' = name ∧ value' = value) ∧
    (∀ text e, parseAssignment text = .error e ↔
      (∀ name value, ¬Assigns text name value) ∧ e = .invalidAssignment text) ∧
    ∀ (model : ModelFile) (name value : String), isTagName name.toList = true →
      ∃ model', model.set (name ++ "=" ++ value) = .ok model' ∧
        model'.values.lookup name = some value ∧
        (∀ other, other ≠ name → model'.values.lookup other = model.values.lookup other) ∧
        Model.Emits model'.values name value := by
  refine ⟨fun _ _ _ => parseAssignment_eq_ok_iff_assigns, fun _ _ _ _ _ => Assigns.unique,
    fun _ _ => parseAssignment_eq_error_iff, fun model name value hn => ?_⟩
  have hlookup : (model.values.insert name value).lookup name = some value := by
    rw [Table.lookup_insert, if_pos rfl]
  refine ⟨⟨model.values.insert name value⟩, set_assignText hn, hlookup, fun other hother => ?_,
    Model.emits_of_lookup hn hlookup⟩
  rw [Table.lookup_insert, if_neg hother]

theorem parseAssignment_exact_sample :
    Assigns "\n\u3000k =a=\nb " "k" "a=\nb " ∧ (∀ name value, ¬Assigns "k l=1" name value) ∧
      ∃ model', (⟨Table.ofList [("k", "1"), ("l", "2")]⟩ : ModelFile).set ("k" ++ "=" ++ "=\x7b") =
          .ok model' ∧ model'.values.lookup "l" = some "2" ∧
        render model'.values ("é" ++ marker " " "k" "\n" ++ "\x7b") =
          .ok ("é" ++ "=\x7b" ++ "\x7b") := by
  obtain ⟨hassigns, -, herror, hset⟩ := parseAssignment_exact
  obtain ⟨model', hmodel, -, hothers, hemits⟩ :=
    hset ⟨Table.ofList [("k", "1"), ("l", "2")]⟩ "k" "=\x7b" (by decide)
  refine ⟨(hassigns _ _ _).1 (by decide), ((herror _ _).1 rfl).1, model', hmodel, ?_, ?_⟩
  · rw [hothers "l" (by decide)]
    rfl
  · obtain rfl := Except.ok.inj (hmodel.symm.trans rfl)
    exact hemits "é" " " "\n" "\x7b" "é" "\x7b" (by decide) (by decide) (by decide)
      (by decide +kernel) (by decide +kernel)

end ModelFile
end TagTemplate
