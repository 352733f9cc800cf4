import TagTemplate.Proofs.ModelFile.Document
import TagTemplate.Proofs.Text.Order

/-!
# Validation of documents

A document is taken as a whole or not at all, and of the entries of a key only the last one counts.
If all that count are sound, the model has their keys and no others, each with the text of its
value. Otherwise the least key at fault in byte order is reported: as a name if it is no tag name,
whatever its value is, and else for its value. So neither the order of the keys matters nor what
stands before the last entry of a key.
-/
namespace TagTemplate

/-- The text that a value stands for. Sequences, mappings and numbers that may have been rounded
stand for none. -/
inductive Value.HasText : Value → String → Prop where
  | null : HasText .null ""
  | false : HasText (.bool false) "false"
  | true : HasText (.bool true) "true"
  | number {n : Number} (h : n.isExact = true) : HasText (.number n) n.text
  | nan : HasText (.nonFinite .nan) ".nan"
  | infinity : HasText (.nonFinite (.infinity false)) ".inf"
  | negativeInfinity : HasText (.nonFinite (.infinity true)) "-.inf"
  | string (text : String) : HasText (.string text) text

namespace ModelFile

/-- Whether an entry of a document is the last one for its key. -/
def Counts (document : Document) (name : String) (value : Value) : Prop :=
  ∃ before after, document = before ++ (name, value) :: after ∧ ∀ e ∈ after, e.1 ≠ name

def IsSound (document : Document) : Prop :=
  ∀ name value, Counts document name value →
    isTagName name.toList = true ∧ ∃ text, value.HasText text

/-- What is wrong with an entry. Its value is looked at only if its key is a tag name. -/
inductive Fault (name : String) : Value → LoadError → Prop where
  | name {value : Value} (h : isTagName name.toList = false) :
      Fault name value (.invalidTagName name)
  | number {n : Number} (hname : isTagName name.toList = true) (h : n.isExact = false) :
      Fault name (.number n) (.inexactNumber name)
  | sequence {items : List Value} (hname : isTagName name.toList = true) :
      Fault name (.sequence items) (.unsupportedValue name)
  | mapping {entries : List (String × Value)} (hname : isTagName name.toList = true) :
      Fault name (.mapping entries) (.unsupportedValue name)

structure IsLeastFault (document : Document) (name : String) (e : LoadError) : Prop where
  fault : ∃ value, Counts document name value ∧ Fault name value e
  least : ∀ other value e', Counts document other value → Fault other value e' →
    other = name ∨ Text.bytes name.toList < Text.bytes other.toList

section Entry

variable {name text : String} {value : Value} {e : LoadError}

theorem valueText_eq_ok_iff : valueText name value = .ok text ↔ value.HasText text := by
  constructor
  · intro h
    unfold valueText at h
    split at h
    · exact Except.ok.inj h ▸ .null
    · rename_i b
      cases b
      · exact Except.ok.inj h ▸ .false
      · exact Except.ok.inj h ▸ .true
    · split_ifs at h with hexact
      exact Except.ok.inj h ▸ .number hexact
    · rename_i x
      obtain rfl := Except.ok.inj h
      match x with
      | .nan => exact .nan
      | .infinity false => exact .infinity
      | .infinity true => exact .negativeInfinity
    · exact Except.ok.inj h ▸ .string _
    · cases h
    · cases h
  · intro h
    cases h with
    | number hexact => rw [valueText, if_pos hexact]
    | null | false | true | nan | infinity | negativeInfinity | string => rfl

theorem fault_of_valueText (hname : isTagName name.toList = true)
    (h : valueText name value = .error e) : Fault name value e := by
  unfold valueText at h
  split at h
  · cases h
  · cases h
  · split_ifs at h with hexact
    exact Except.error.inj h ▸ .number hname (eq_false_of_ne_true hexact)
  · cases h
  · cases h
  · exact Except.error.inj h ▸ .sequence hname
  · exact Except.error.inj h ▸ .mapping hname

theorem checkEntry_eq_error_iff : checkEntry (name, value) = .error e ↔ Fault name value e := by
  rw [checkEntry]
  constructor
  · intro h
    split_ifs at h with hname
    · exact fault_of_valueText hname (Result.map_eq_error_iff.1 h)
    · exact Except.error.inj h ▸ .name (eq_false_of_ne_true hname)
  · intro h
    cases h with
    | name hname => rw [if_neg (by simp [hname])]
    | number hname hexact => rw [if_pos hname, valueText, if_neg (by simp [hexact])]; rfl
    | sequence hname => rw [if_pos hname]; rfl
    | mapping hname => rw [if_pos hname]; rfl

theorem exists_checkEntry_iff : (∃ checked, checkEntry (name, value) = .ok checked) ↔
    isTagName name.toList = true ∧ ∃ text, value.HasText text := by
  simp only [checkEntry_eq_ok_iff, valueText_eq_ok_iff]
  constructor
  · rintro ⟨⟨_, text⟩, hname, -, htext⟩
    exact ⟨hname, text, htext⟩
  · rintro ⟨hname, text, htext⟩
    exact ⟨(name, text), hname, rfl, htext⟩

end Entry

section Table

variable {t : Table Value} {file : ModelFile} {name text : String} {e : LoadError}

/-- The values of a model are the texts of the bindings that it was made of. -/
theorem lookup_ofTable_iff (h : ofTable t = .ok file) : file.values.lookup name = some text ↔
    ∃ value, t.lookup name = some value ∧ value.HasText text := by
  constructor
  · intro htext
    obtain ⟨values, hvalues, rfl⟩ := Result.map_eq_ok_iff.1 h
    have hmem : (name, text) ∈ values :=
      Table.mem_of_mem_toList_ofList (Table.mem_toList_iff.2 htext)
    obtain ⟨⟨key, value⟩, hentry, hcheck⟩ :=
      Result.exists_left_of_mem (Result.mapM_eq_ok_iff.1 hvalues) hmem
    obtain ⟨-, rfl, hvalue⟩ := checkEntry_eq_ok_iff.1 hcheck
    exact ⟨value, Table.mem_toList_iff.1 hentry, valueText_eq_ok_iff.1 hvalue⟩
  · rintro ⟨value, hvalue, htext⟩
    obtain ⟨text', htext', hlookup⟩ := lookup_of_ofTable h hvalue
    rw [valueText_eq_ok_iff.2 htext] at htext'
    rw [hlookup, Except.ok.inj htext']

/-- Bindings are checked in the order of their keys, so the first at fault has the least key. -/
theorem ofTable_eq_error_iff : ofTable t = .error e ↔
    ∃ name value, t.lookup name = some value ∧ Fault name value e ∧
      ∀ other value' e', t.lookup other = some value' → Fault other value' e' →
        other = name ∨ name < other := by
  rw [ofTable, Result.map_eq_error_iff, Result.mapM_eq_error_iff]
  constructor
  · rintro ⟨before, ⟨name, value⟩, after, htable, hbefore, hfault⟩
    have hmem : (name, value) ∈ t.toList := by simp [htable]
    refine ⟨name, value, Table.mem_toList_iff.1 hmem, checkEntry_eq_error_iff.1 hfault, ?_⟩
    intro other value' e' hvalue' hfault'
    have hother : (other, value') ∈ t.toList := Table.mem_toList_iff.2 hvalue'
    rw [htable, List.mem_append, List.mem_cons] at hother
    rcases hother with hother | heq | hother
    · obtain ⟨checked, hchecked⟩ := hbefore _ hother
      rw [checkEntry_eq_error_iff.2 hfault'] at hchecked
      cases hchecked
    · exact .inl (congrArg Prod.fst heq)
    · exact .inr ((Table.lt_of_toList_eq htable).2 _ hother)
  · rintro ⟨name, value, hvalue, hfault, hleast⟩
    obtain ⟨before, after, htable, -⟩ := Table.exists_toList_eq_of_lookup hvalue
    refine ⟨before, (name, value), after, htable, fun entry hentry => ?_,
      checkEntry_eq_error_iff.2 hfault⟩
    have hlt : entry.1 < name := (Table.lt_of_toList_eq htable).1 entry hentry
    have hlookup : t.lookup entry.1 = some entry.2 :=
      Table.mem_toList_iff.1 (htable ▸ List.mem_append_left _ hentry)
    cases hcheck : checkEntry entry with
    | ok checked => exact ⟨checked, rfl⟩
    | error e' =>
      rcases hleast _ _ _ hlookup (checkEntry_eq_error_iff.1 hcheck) with heq | hgt
      · exact absurd (heq ▸ hlt) (String.lt_irrefl name)
      · exact absurd (String.lt_trans hlt hgt) (String.lt_irrefl entry.1)

end Table

variable {document other : Document} {name : String} {value : Value} {e : LoadError}

/-- The entries that count are what a table keeps of a document. -/
theorem counts_iff : Counts document name value ↔
    (Table.ofList document).lookup name = some value := by
  rw [Table.lookup_ofList, lastSome?_eq_some_iff, Counts]
  simp only [Table.valueAt?_eq_some_iff, Table.valueAt?_eq_none_iff]
  constructor
  · rintro ⟨before, after, h, hafter⟩
    exact ⟨before, (name, value), after, h, rfl, hafter⟩
  · rintro ⟨before, entry, after, h, rfl, hafter⟩
    exact ⟨before, after, h, hafter⟩

theorem exists_ofDocument_iff : (∃ file, ofDocument document = .ok file) ↔ IsSound document := by
  rw [ofDocument, exists_ofTable_eq_ok_iff]
  simp only [Prod.forall, Table.mem_toList_iff, ← counts_iff, exists_checkEntry_iff, IsSound]

theorem lookup_ofDocument_iff {file : ModelFile} {text : String}
    (h : ofDocument document = .ok file) : file.values.lookup name = some text ↔
      ∃ value, Counts document name value ∧ value.HasText text := by
  simp only [counts_iff]
  exact lookup_ofTable_iff h

theorem ofDocument_eq_error_iff :
    ofDocument document = .error e ↔ ∃ name, IsLeastFault document name e := by
  rw [ofDocument, ofTable_eq_error_iff]
  simp only [← counts_iff, ← Text.bytes_toList_lt_iff]
  constructor
  · rintro ⟨name, value, hcounts, hfault, hleast⟩
    exact ⟨name, ⟨value, hcounts, hfault⟩, hleast⟩
  · rintro ⟨name, ⟨value, hcounts, hfault⟩, hleast⟩
    exact ⟨name, value, hcounts, hfault, hleast⟩

theorem ofDocument_congr
    (h : ∀ name value, Counts other name value ↔ Counts document name value) :
    ofDocument other = ofDocument document := by
  have htable : Table.ofList other = Table.ofList document := by
    apply Table.eq_of_lookup_eq
    intro name
    apply Option.ext
    intro value
    simp only [← counts_iff, h]
  rw [ofDocument, ofDocument, htable]

/-- A document is taken if all entries that count are sound, and then each key has the text of its
last value. Otherwise the least key at fault is reported. Only the entries that count decide. -/
theorem ofDocument_all_or_nothing (document : Document) :
    ((∃ file, ofDocument document = .ok file) ↔
      ∀ name value, Counts document name value →
        isTagName name.toList = true ∧ ∃ text, value.HasText text) ∧
    (∀ file, ofDocument document = .ok file → ∀ name text,
      file.values.lookup name = some text ↔
        ∃ value, Counts document name value ∧ value.HasText text) ∧
    (∀ e, ofDocument document = .error e ↔ ∃ name, IsLeastFault document name e) ∧
    ∀ other : Document, (∀ name value, Counts other name value ↔ Counts document name value) →
      ofDocument other = ofDocument document :=
  ⟨exists_ofDocument_iff, fun _ h _ _ => lookup_ofDocument_iff h,
    fun _ => ofDocument_eq_error_iff, fun _ => ofDocument_congr⟩

theorem ofDocument_all_or_nothing_sample :
    (∃ name, IsLeastFault [("b", .sequence []), ("a b", .mapping []), ("\u00e9", .null),
      ("A", .mapping []), ("b", .number (.integer 7))] name (.unsupportedValue "A")) ∧
    (∃ file, ofDocument [("x", .mapping []), ("y", .bool true), ("x", .nonFinite .nan)] = .ok file ∧
      file.values.lookup "x" = some ".nan") ∧
    ofDocument [("y", .null), ("x", .sequence []), ("9", .null)] =
      ofDocument [("9", .string "z"), ("x", .sequence []), ("9", .null), ("y", .null)] := by
  have hfile : ofDocument [("x", .mapping []), ("y", .bool true), ("x", .nonFinite .nan)] =
      .ok ⟨Table.ofList [("x", ".nan"), ("y", "true")]⟩ := rfl
  refine ⟨((ofDocument_all_or_nothing _).2.2.1 _).1 rfl, ⟨_, hfile, ?_⟩, ?_⟩
  · refine ((ofDocument_all_or_nothing _).2.1 _ hfile "x" ".nan").2 ⟨_, ?_, .nan⟩
    exact ⟨[("x", .mapping []), ("y", .bool true)], [], rfl, by simp⟩
  · apply (ofDocument_all_or_nothing _).2.2.2
    intro name value
    rw [counts_iff, counts_iff]
    rfl

end ModelFile
end TagTemplate
