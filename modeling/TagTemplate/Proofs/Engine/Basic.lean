import TagTemplate.Engine
import TagTemplate.Proofs.Table

/-!
# Bindings of an engine

An engine takes a binding exactly if its name is a tag name. Of several bindings it takes those
before the first name at fault, and a whole model only if no name in it is at fault.
-/
namespace TagTemplate.Engine

variable {engine : Engine} {entries before after : List (String × String)} {name value : String}

theorem insert_of_isTagName (h : isTagName name.toList = true) :
    engine.insert name value = .ok ⟨engine.model.insert name value⟩ := if_pos h

theorem insert_of_not_isTagName (h : isTagName name.toList = false) :
    engine.insert name value = .error (.invalidTagName name) := by
  rw [Engine.insert, h]
  rfl

theorem exists_insert_eq_ok_iff :
    (∃ engine', engine.insert name value = .ok engine') ↔ isTagName name.toList = true := by
  cases hname : isTagName name.toList with
  | false => simp [insert_of_not_isTagName hname]
  | true => simp [insert_of_isTagName hname]

/-- Some names are all tag names, or one of them is the first that is not. -/
theorem forall_isTagName_or_exists_first (entries : List (String × String)) :
    (∀ entry ∈ entries, isTagName entry.1.toList = true) ∨
      ∃ before name value after, entries = before ++ (name, value) :: after ∧
        (∀ entry ∈ before, isTagName entry.1.toList = true) ∧ isTagName name.toList = false := by
  rcases forall_or_exists_first (fun entry => isTagName entry.1.toList = true) entries with
    hvalid | ⟨before, ⟨name, value⟩, after, rfl, hbefore, hname⟩
  · exact .inl hvalid
  · exact .inr ⟨before, name, value, after, rfl, hbefore, Bool.eq_false_iff.2 hname⟩

theorem extend_append (hbefore : ∀ entry ∈ before, isTagName entry.1.toList = true)
    (after : List (String × String)) :
    engine.extend (before ++ after) = Engine.extend ⟨engine.model.insertAll before⟩ after := by
  induction before generalizing engine with
  | nil => rfl
  | cons entry before ih =>
    obtain ⟨hentry, hbefore⟩ := List.forall_mem_cons.1 hbefore
    rw [List.cons_append, Engine.extend, insert_of_isTagName hentry]
    exact ih hbefore

/-- The bindings before the first name at fault stay. -/
theorem extend_append_cons (hbefore : ∀ entry ∈ before, isTagName entry.1.toList = true)
    (hname : isTagName name.toList = false) :
    engine.extend (before ++ (name, value) :: after) =
      (⟨engine.model.insertAll before⟩, .error (.invalidTagName name)) := by
  rw [extend_append hbefore, Engine.extend, insert_of_not_isTagName hname]

theorem extend_of_forall_isTagName
    (h : ∀ entry ∈ entries, isTagName entry.1.toList = true) :
    engine.extend entries = (⟨engine.model.insertAll entries⟩, .ok ()) := by
  rw [← List.append_nil entries, extend_append h, List.append_nil]
  rfl

theorem ofModel_eq_ok_iff {model : Table String} :
    ofModel model = .ok engine ↔
      (∀ entry ∈ model.toList, isTagName entry.1.toList = true) ∧ engine = ⟨model⟩ := by
  rcases forall_isTagName_or_exists_first model.toList with
    hvalid | ⟨before, name, value, after, hmodel, hbefore, hname⟩
  · have hextend : empty.model.insertAll model.toList = model := Table.ofList_toList model
    rw [ofModel, extend_of_forall_isTagName hvalid, hextend]
    constructor
    · intro h
      exact ⟨hvalid, (Except.ok.inj h).symm⟩
    · rintro ⟨-, rfl⟩
      rfl
  · rw [ofModel, hmodel, extend_append_cons hbefore hname]
    constructor
    · intro h
      cases h
    · rintro ⟨hvalid, -⟩
      rw [hvalid (name, value) (by simp)] at hname
      cases hname

end TagTemplate.Engine
