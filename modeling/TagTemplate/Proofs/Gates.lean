import TagTemplate.Proofs.Engine.Step
import TagTemplate.Proofs.ModelFile.Assignment
import TagTemplate.Proofs.ModelFile.Document
import TagTemplate.Proofs.Template.Marker

/-!
# The gates for names

Names come in by engines, model files and assignments, and they are used in templates. Each gate
looks at a text in its own way, and yet they all let through the same names: an ASCII letter and
ASCII letters and digits after it. So what is stored can be used, and what can be used can be stored.
-/
namespace TagTemplate

def IsAsciiLetter (c : Char) : Prop := ('a' ≤ c ∧ c ≤ 'z') ∨ ('A' ≤ c ∧ c ≤ 'Z')

def IsAsciiDigit (c : Char) : Prop := '0' ≤ c ∧ c ≤ '9'

def IsAsciiName (name : String) : Prop :=
  ∃ first rest, name.toList = first :: rest ∧ IsAsciiLetter first ∧
    ∀ c ∈ rest, IsAsciiLetter c ∨ IsAsciiDigit c

variable {name value : String}

theorem isAlpha_iff {c : Char} : c.isAlpha = true ↔ IsAsciiLetter c := by
  change (decide (65 ≤ c.val ∧ c.val ≤ 90) || (97 ≤ c.val && c.val ≤ 122)) = true ↔
    (97 ≤ c.val ∧ c.val ≤ 122) ∨ (65 ≤ c.val ∧ c.val ≤ 90)
  simp [or_comm]

theorem isDigit_iff {c : Char} : c.isDigit = true ↔ IsAsciiDigit c := by
  change (48 ≤ c.val && c.val ≤ 57) = true ↔ 48 ≤ c.val ∧ c.val ≤ 57
  simp

theorem isAlphanum_iff {c : Char} : c.isAlphanum = true ↔ IsAsciiLetter c ∨ IsAsciiDigit c := by
  rw [← isAlpha_iff, ← isDigit_iff, ← Bool.or_eq_true]
  rfl

theorem isTagName_iff : isTagName name.toList = true ↔ IsAsciiName name := by
  rw [IsAsciiName]
  cases name.toList with
  | nil => simp [isTagName]
  | cons c rest =>
    simp only [isTagName, Bool.and_eq_true, List.all_eq_true, isAlpha_iff, isAlphanum_iff]
    constructor
    · rintro ⟨hfirst, hrest⟩
      exact ⟨c, rest, rfl, hfirst, hrest⟩
    · rintro ⟨first, rest', heq, hfirst, hrest⟩
      obtain ⟨rfl, rfl⟩ := List.cons.inj heq
      exact ⟨hfirst, hrest⟩

namespace ModelFile

theorem exists_checkEntry_string_iff :
    (∃ checked, checkEntry (name, .string value) = .ok checked) ↔ isTagName name.toList = true := by
  simp [checkEntry_eq_ok_iff, valueText]

theorem parseAssignment_assignText_iff :
    parseAssignment (assignText (name, value)) = .ok (name, value) ↔ isTagName name.toList = true :=
  ⟨isTagName_of_parseAssignment, fun h => parseAssignment_assignText h⟩

end ModelFile

theorem scan_marker_iff :
    scan (marker "" name "") = [.ok (.tag ⟨name, 0, (marker "" name "").utf8ByteSize⟩)] ↔
      isTagName name.toList = true := by
  constructor
  · intro h
    exact isTagName_of_mem_scan (h ▸ List.mem_singleton.2 rfl)
  · intro h
    exact scan_marker (by simp [Text.Blank]) h (by simp [Text.Blank])

section Stored

theorem lookup_table_insert (t : Table String) (name value : String) :
    Model.lookup (t.insert name value) name = some value :=
  (Table.lookup_insert t name value name).trans (if_pos rfl)

theorem Engine.fills_of_insert {engine engine' : Engine}
    (h : engine.insert name value = .ok engine') : Model.Fills engine'.model name value := by
  have hname := exists_insert_eq_ok_iff.1 ⟨engine', h⟩
  rw [insert_of_isTagName hname] at h
  obtain rfl := Except.ok.inj h
  exact (Model.fills_iff hname).2 (lookup_table_insert _ _ _)

theorem ModelFile.fills_of_ofTable {entries : Table Value} {file : ModelFile}
    (h : ofTable entries = .ok file) (hvalue : file.values.lookup name = some value) :
    Model.Fills file.values name value :=
  (Model.fills_iff (isTagName_of_ofTable h hvalue)).2 hvalue

theorem ModelFile.lookup_of_ofTable_string {entries : Table Value} {file : ModelFile}
    (h : ofTable entries = .ok file) (hvalue : entries.lookup name = some (.string value)) :
    file.values.lookup name = some value := by
  obtain ⟨text, htext, hlookup⟩ := lookup_of_ofTable h hvalue
  obtain rfl := Except.ok.inj htext
  exact hlookup

theorem ModelFile.exists_set_fills {text : String} (h : parseAssignment text = .ok (name, value))
    (model : ModelFile) :
    ∃ model', model.set text = .ok model' ∧ Model.Fills model'.values name value := by
  refine ⟨⟨model.values.insert name value⟩, ?_, ?_⟩
  · rw [set, h]
    rfl
  · exact (Model.fills_iff (isTagName_of_parseAssignment h)).2 (lookup_table_insert _ _ _)

end Stored

/-- All gates let through the same names. What they store can be used in a template, and what a
scanner hands out can be stored. -/
theorem gates_agree (name value : String) :
    (∀ engine : Engine,
      (∃ engine', engine.insert name value = .ok engine') ↔ IsAsciiName name) ∧
    (∀ entries : Table Value,
      (∃ file, ModelFile.ofTable (entries.insert name (.string value)) = .ok file) ↔
        IsAsciiName name ∧ ∀ entry ∈ entries.toList, entry.1 ≠ name →
          ∃ checked, ModelFile.checkEntry entry = .ok checked) ∧
    (ModelFile.parseAssignment (name ++ "=" ++ value) = .ok (name, value) ↔ IsAsciiName name) ∧
    (scan (marker "" name "") = [.ok (.tag ⟨name, 0, (marker "" name "").utf8ByteSize⟩)] ↔
      IsAsciiName name) ∧
    (∀ engine engine' : Engine, engine.insert name value = .ok engine' →
      Model.Fills engine'.model name value) ∧
    (∀ (entries : Table Value) (file : ModelFile), ModelFile.ofTable entries = .ok file →
      (entries.lookup name = some (.string value) → file.values.lookup name = some value) ∧
      (file.values.lookup name = some value → Model.Fills file.values name value)) ∧
    (∀ text, ModelFile.parseAssignment text = .ok (name, value) → ∀ model : ModelFile,
      ∃ model', model.set text = .ok model' ∧ Model.Fills model'.values name value) ∧
    ∀ template calls tag, some (.ok (.tag tag)) ∈ (Scanner.ofString template).take calls →
      ∀ engine : Engine, ∃ engine', engine.insert tag.name value = .ok engine' := by
  refine ⟨fun engine => ?_, fun entries => ?_, ?_, ?_, fun _ _ => Engine.fills_of_insert,
    fun _ _ h => ⟨ModelFile.lookup_of_ofTable_string h, ModelFile.fills_of_ofTable h⟩,
    fun _ => ModelFile.exists_set_fills, fun template calls tag h engine => ?_⟩
  · rw [Engine.exists_insert_eq_ok_iff, isTagName_iff]
  · rw [ModelFile.exists_ofTable_insert_iff, ModelFile.exists_checkEntry_string_iff, isTagName_iff]
  · rw [← isTagName_iff]
    exact ModelFile.parseAssignment_assignText_iff
  · rw [scan_marker_iff, isTagName_iff]
  · exact Engine.exists_insert_eq_ok_iff.2 (isTagName_of_mem_take h)

theorem gates_agree_sample :
    render (Table.ofList [("k9", "v")]) (marker " " "k9" "") = .ok "v" ∧
      (∃ file, ModelFile.ofTable (Table.ofList [("k9", .string "v"), ("n", .null)]) = .ok file ∧
        Model.Fills file.values "k9" "v") ∧
      (∃ model, ModelFile.empty.set "\u00a0k9 =v" = .ok model ∧
        Model.Fills model.values "k9" "v") ∧
      ∃ engine, Engine.empty.insert "k9" "v" = .ok engine := by
  obtain ⟨-, -, -, -, hinsert, htable, hset, hscan⟩ := gates_agree "k9" "v"
  refine ⟨?_, ⟨_, rfl, ?_⟩, ?_, ?_⟩
  · exact hinsert .empty ⟨Table.ofList [("k9", "v")]⟩ rfl " " "" (by decide) (by decide)
  · exact (htable (Table.ofList [("k9", .string "v"), ("n", .null)]) _ rfl).2 (by decide)
  · exact hset "\u00a0k9 =v" (by decide) .empty
  · exact hscan "\x7b\x7bk9\x7d\x7d" 1 ⟨"k9", 0, 6⟩ (by decide +kernel) .empty

end TagTemplate
