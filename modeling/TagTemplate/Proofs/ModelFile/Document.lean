import TagTemplate.ModelFile.Basic
import TagTemplate.Proofs.Result
import TagTemplate.Proofs.Table

/-!
# Documents as model files

A document is loaded if the entries that count are sound, and then a name has the text of its last
value.
-/
namespace TagTemplate.ModelFile

variable {name : String} {value : Value} {file : ModelFile}

theorem checkEntry_eq_ok_iff {entry : String × Value} {checked : String × String} :
    checkEntry entry = .ok checked ↔ isTagName entry.1.toList = true ∧
      checked.1 = entry.1 ∧ valueText entry.1 entry.2 = .ok checked.2 := by
  rw [checkEntry]
  split_ifs with hname
  · rw [Result.map_eq_ok_iff]
    constructor
    · rintro ⟨text, htext, rfl⟩
      exact ⟨hname, rfl, htext⟩
    · rintro ⟨-, hkey, htext⟩
      exact ⟨checked.2, htext, Prod.ext hkey.symm rfl⟩
  · constructor
    · intro h
      exact absurd h (by simp)
    · rintro ⟨h, -⟩
      exact absurd h hname

section Table

variable {t : Table Value}

theorem exists_ofTable_eq_ok_iff :
    (∃ file, ofTable t = .ok file) ↔
      ∀ entry ∈ t.toList, ∃ checked, checkEntry entry = .ok checked := by
  rw [← Result.exists_mapM_eq_ok_iff]
  simp only [ofTable, Result.map_eq_ok_iff]
  constructor
  · rintro ⟨_, values, hvalues, -⟩
    exact ⟨values, hvalues⟩
  · rintro ⟨values, hvalues⟩
    exact ⟨_, values, hvalues, rfl⟩

/-- The names of a loaded table are tag names. -/
theorem isTagName_of_ofTable {text : String} (h : ofTable t = .ok file)
    (htext : file.values.lookup name = some text) : isTagName name.toList = true := by
  obtain ⟨values, hvalues, rfl⟩ := Result.map_eq_ok_iff.1 h
  have hmem : (name, text) ∈ values := Table.mem_of_mem_toList_ofList (Table.mem_toList_iff.2 htext)
  obtain ⟨entry, -, hcheck⟩ := Result.exists_left_of_mem (Result.mapM_eq_ok_iff.1 hvalues) hmem
  obtain ⟨hname, hkey, -⟩ := checkEntry_eq_ok_iff.1 hcheck
  dsimp only at hkey
  rwa [hkey]

/-- An entry is judged by itself, whatever else is in the table. -/
theorem exists_ofTable_insert_iff :
    (∃ file, ofTable (t.insert name value) = .ok file) ↔
      (∃ checked, checkEntry (name, value) = .ok checked) ∧
        ∀ entry ∈ t.toList, entry.1 ≠ name → ∃ checked, checkEntry entry = .ok checked := by
  simp only [exists_ofTable_eq_ok_iff, Table.mem_toList_insert_iff]
  constructor
  · intro h
    exact ⟨h _ (.inl rfl), fun entry hentry hne => h entry (.inr ⟨hne, hentry⟩)⟩
  · rintro ⟨hown, hothers⟩ entry (rfl | ⟨hne, hentry⟩)
    · exact hown
    · exact hothers entry hentry hne

theorem lookup_of_ofTable (h : ofTable t = .ok file) (hvalue : t.lookup name = some value) :
    ∃ text, valueText name value = .ok text ∧ file.values.lookup name = some text := by
  obtain ⟨values, hvalues, rfl⟩ := Result.map_eq_ok_iff.1 h
  obtain ⟨before, after, htable, hafter⟩ := Table.exists_toList_eq_of_lookup hvalue
  have hchecks := Result.mapM_eq_ok_iff.1 hvalues
  rw [htable] at hchecks
  obtain ⟨valuesBefore, checked, valuesAfter, rfl, hchecked, hrest⟩ :=
    Result.forall₂_append_cons_left hchecks
  obtain ⟨-, hkey, htext⟩ := checkEntry_eq_ok_iff.1 hchecked
  obtain ⟨key, text⟩ := checked
  cases hkey
  refine ⟨text, htext, Table.lookup_ofList_append_cons valuesBefore fun e he => ?_⟩
  -- Checks keep the keys, and in the table no later entry has this one.
  obtain ⟨entry, hentry, hcheck⟩ := Result.exists_left_of_mem hrest he
  rw [(checkEntry_eq_ok_iff.1 hcheck).2.1]
  exact hafter entry hentry

end Table

section Document

variable {before after : Document}

theorem lookup_of_ofDocument (h : ofDocument (before ++ (name, value) :: after) = .ok file)
    (hafter : ∀ e ∈ after, e.1 ≠ name) :
    ∃ text, valueText name value = .ok text ∧ file.values.lookup name = some text :=
  lookup_of_ofTable h (Table.lookup_ofList_append_cons before hafter)

/-- A document with one entry is loaded if that entry is sound. -/
theorem exists_ofDocument_singleton_iff :
    (∃ file, ofDocument [(name, value)] = .ok file) ↔
      ∃ checked, checkEntry (name, value) = .ok checked := by
  rw [ofDocument, exists_ofTable_eq_ok_iff]
  constructor
  · intro h
    exact h _ (List.mem_singleton.2 rfl)
  · intro h entry hentry
    rw [List.mem_singleton.1 (Table.mem_of_mem_toList_ofList hentry)]
    exact h

/-- Among sound entries one that counts decides whether a document is loaded. -/
theorem exists_ofDocument_append_cons_iff (hname : isTagName name.toList = true)
    (hbefore : ∀ e ∈ before, ∃ checked, checkEntry e = .ok checked)
    (hafter : ∀ e ∈ after, ∃ checked, checkEntry e = .ok checked) (hne : ∀ e ∈ after, e.1 ≠ name) :
    (∃ file, ofDocument (before ++ (name, value) :: after) = .ok file) ↔
      ∃ text, valueText name value = .ok text := by
  constructor
  · rintro ⟨file, hfile⟩
    obtain ⟨text, htext, -⟩ := lookup_of_ofDocument hfile hne
    exact ⟨text, htext⟩
  · rintro ⟨text, htext⟩
    rw [ofDocument, exists_ofTable_eq_ok_iff]
    intro entry hentry
    rcases List.mem_append.1 (Table.mem_of_mem_toList_ofList hentry) with hmem | hmem
    · exact hbefore entry hmem
    · rcases List.mem_cons.1 hmem with rfl | hmem
      · exact ⟨(name, text), checkEntry_eq_ok_iff.2 ⟨hname, rfl, htext⟩⟩
      · exact hafter entry hmem

end Document
end TagTemplate.ModelFile
