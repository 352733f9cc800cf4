import TagTemplate.ModelFile.Load
import TagTemplate.Proofs.ModelFile.Override
import TagTemplate.Proofs.ModelFile.Validation

/-!
# Changes to a model

A change is the text of a document or of an assignment. Whether it can be made, what it binds and
what is wrong with it are up to the document or the assignment that the text is read as, and not to
the model. Of a document either all that counts is bound, each key to the text of its last value, or
nothing is, wherever the entry at fault stands.
-/
namespace TagTemplate.ModelFile

inductive Change where
  | yaml (text : String)
  | json (text : String)
  | set (text : String)

namespace Change

/-- Whether a change is a text that is read as a document, sound or not. -/
def Reads : Change → Document → Prop
  | yaml text, document => Yaml.readDocument text.toList = .ok document
  | json text, document => Json.readDocument text.toList = .ok document
  | set _, _ => False

inductive Sound : Change → Prop where
  | document {change : Change} {document : Document} (hread : change.Reads document)
      (hsound : IsSound document) : Sound change
  | assignment {text name value : String} (h : Assigns text name value) : Sound (.set text)

inductive Binds : Change → String → String → Prop where
  | document {change : Change} {document : Document} {name text : String} {value : Value}
      (hread : change.Reads document) (hsound : IsSound document)
      (hcounts : Counts document name value) (htext : value.HasText text) : Binds change name text
  | assignment {text name value : String} (h : Assigns text name value) :
      Binds (.set text) name value

inductive Fails : Change → LoadError → Prop where
  | yaml {text : String} {fault : Yaml.Fault} (h : Yaml.readDocument text.toList = .error fault) :
      Fails (.yaml text) (.yaml fault)
  | json {text : String} {fault : Json.Fault} (h : Json.readDocument text.toList = .error fault) :
      Fails (.json text) (.json fault)
  | entry {change : Change} {document : Document} {name : String} {e : LoadError}
      (hread : change.Reads document) (h : IsLeastFault document name e) : Fails change e
  | assignment {text : String} (h : ∀ name value, ¬Assigns text name value) :
      Fails (.set text) (.invalidAssignment text)

variable {change : Change} {document : Document} {file' : ModelFile} {name value text : String}
  {e : LoadError}

theorem Binds.isTagName (h : change.Binds name value) : isTagName name.toList = true := by
  cases h with
  | document hread hsound hcounts htext => exact (hsound _ _ hcounts).1
  | assignment h => exact h.1

theorem Binds.sound (h : change.Binds name value) : change.Sound := by
  cases h with
  | document hread hsound hcounts htext => exact .document hread hsound
  | assignment h => exact .assignment h

theorem sound_set_iff : (set text).Sound ↔ ∃ name value, Assigns text name value := by
  constructor
  · intro h
    cases h with
    | document hread => exact hread.elim
    | assignment h => exact ⟨_, _, h⟩
  · rintro ⟨name, value, h⟩
    exact .assignment h

theorem binds_set_iff : (set text).Binds name value ↔ Assigns text name value := by
  constructor
  · intro h
    cases h with
    | document hread => exact hread.elim
    | assignment h => exact h
  · exact .assignment

theorem fails_set_iff : (set text).Fails e ↔
    (∀ name value, ¬Assigns text name value) ∧ e = .invalidAssignment text := by
  constructor
  · intro h
    cases h with
    | entry hread => exact hread.elim
    | assignment h => exact ⟨h, rfl⟩
  · rintro ⟨h, rfl⟩
    exact .assignment h

def file : Change → Except LoadError ModelFile
  | yaml text => ofYaml text
  | json text => ofJson text
  | set text => (parseAssignment text).map fun entry => ⟨Table.ofList [entry]⟩

theorem file_of_reads (h : change.Reads document) : change.file = ofDocument document := by
  cases change with
  | yaml text =>
    have hread : Yaml.readDocument text.toList = .ok document := h
    rw [file, ofYaml, hread]
  | json text =>
    have hread : Json.readDocument text.toList = .ok document := h
    rw [file, ofJson, hread]
  | set text => exact h.elim

theorem file_of_assigns (h : Assigns text name value) :
    (set text).file = .ok ⟨Table.ofList [(name, value)]⟩ := by
  rw [file, parseAssignment_eq_ok_iff_assigns.2 h, Result.map_ok]

theorem file_of_fails (h : change.Fails e) : change.file = .error e := by
  cases h with
  | yaml h => rw [file, ofYaml, h]
  | json h => rw [file, ofJson, h]
  | entry hread h => rw [file_of_reads hread, ofDocument_eq_error_iff.2 ⟨_, h⟩]
  | assignment h => rw [file, parseAssignment_eq_error_iff.2 ⟨h, rfl⟩, Result.map_error]

/-- A text is read as a document, or it is an assignment, or else it is reported. -/
theorem reads_or_assigns_or_fails (change : Change) : (∃ document, change.Reads document) ∨
    (∃ text name value, change = .set text ∧ Assigns text name value) ∨
    ∃ e, change.Fails e := by
  cases change with
  | yaml text =>
    cases h : Yaml.readDocument text.toList with
    | ok document => exact .inl ⟨document, h⟩
    | error fault => exact .inr (.inr ⟨_, .yaml h⟩)
  | json text =>
    cases h : Json.readDocument text.toList with
    | ok document => exact .inl ⟨document, h⟩
    | error fault => exact .inr (.inr ⟨_, .json h⟩)
  | set text =>
    cases h : parseAssignment text with
    | ok entry =>
      exact .inr (.inl ⟨text, _, _, rfl, parseAssignment_eq_ok_iff_assigns.1 h⟩)
    | error e => exact .inr (.inr ⟨_, .assignment (parseAssignment_eq_error_iff.1 h).1⟩)

theorem exists_file_iff_sound : (∃ file', change.file = .ok file') ↔ change.Sound := by
  constructor
  · rintro ⟨file', h⟩
    rcases change.reads_or_assigns_or_fails with
      ⟨document, hread⟩ | ⟨text, name, value, rfl, hassigns⟩ | ⟨e, hfails⟩
    · rw [file_of_reads hread] at h
      exact .document hread (exists_ofDocument_iff.1 ⟨file', h⟩)
    · exact .assignment hassigns
    · rw [file_of_fails hfails] at h
      cases h
  · intro h
    cases h with
    | document hread hsound =>
      rw [file_of_reads hread]
      exact exists_ofDocument_iff.2 hsound
    | assignment h => exact ⟨_, file_of_assigns h⟩

theorem file_eq_error_iff_fails : change.file = .error e ↔ change.Fails e := by
  refine ⟨fun h => ?_, file_of_fails⟩
  rcases change.reads_or_assigns_or_fails with
    ⟨document, hread⟩ | ⟨text, name, value, rfl, hassigns⟩ | ⟨e', hfails⟩
  · rw [file_of_reads hread] at h
    obtain ⟨name, hleast⟩ := ofDocument_eq_error_iff.1 h
    exact .entry hread hleast
  · rw [file_of_assigns hassigns] at h
    cases h
  · rw [file_of_fails hfails] at h
    exact Except.error.inj h ▸ hfails

/-- What is looked up in the values of a change is what it binds. -/
theorem exists_lookup_file_iff_binds :
    (∃ file', change.file = .ok file' ∧ file'.values.lookup name = some value) ↔
      change.Binds name value := by
  constructor
  · rintro ⟨file', h, hvalue⟩
    cases exists_file_iff_sound.1 ⟨file', h⟩ with
    | document hread hsound =>
      rw [file_of_reads hread] at h
      obtain ⟨bound, hcounts, htext⟩ := (lookup_ofDocument_iff h).1 hvalue
      exact .document hread hsound hcounts htext
    | assignment hassigns =>
      rw [file_of_assigns hassigns] at h
      cases h
      rw [Table.lookup_ofList, lastSome?_singleton, Table.valueAt?_eq_some_iff] at hvalue
      cases hvalue
      exact .assignment hassigns
  · intro h
    cases h with
    | document hread hsound hcounts htext =>
      obtain ⟨file', hfile⟩ := exists_ofDocument_iff.2 hsound
      exact ⟨file', (file_of_reads hread).trans hfile,
        (lookup_ofDocument_iff hfile).2 ⟨_, hcounts, htext⟩⟩
    | assignment h =>
      refine ⟨_, file_of_assigns h, ?_⟩
      rw [Table.lookup_ofList, lastSome?_singleton, Table.valueAt?_eq_some_iff]

theorem reads_yaml_sample : (yaml "a: 1\nb: x").Reads
    [("a", .number (.integer 1)), ("b", .string "x")] := by
  have htokens : Yaml.tokens "a: 1\nb: x".toList = .ok [.blockMappingStart, .key, .scalar true "a",
      .value, .scalar true "1", .key, .scalar true "b", .value, .scalar true "x", .blockEnd] := by
    decide +kernel
  rw [Reads, Yaml.readDocument, if_neg (by decide +kernel), htokens]
  unfold Yaml.entriesOfRoot Yaml.Expansion.rootEntries Yaml.Expansion.value
  rfl

theorem binds_yaml_sample : (yaml "a: 1\nb: x").Binds "a" "1" :=
  .document reads_yaml_sample (exists_ofDocument_iff.1 ⟨_, rfl⟩)
    ⟨[], [("b", .string "x")], rfl, by simp⟩ (.number rfl)

end Change
end TagTemplate.ModelFile
