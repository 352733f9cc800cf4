import TagTemplate.Proofs.Command.Arguments
import TagTemplate.Proofs.Command.Directory
import TagTemplate.Proofs.Engine

/-!
# The engine of a command

A command has an engine exactly if its model files load with nothing but tag names in them and all
its assignments can be read. The engine binds what the files bind, and the names that are assigned
besides, in whatever order they are. So further assignments add their names and do no harm.
-/
namespace TagTemplate

open Directory

def AreRead (assignments : List String) (entries : List (String × String)) : Prop :=
  List.Forall₂ (fun text entry => ModelFile.parseAssignment text = .ok entry) assignments entries

theorem exists_areRead_iff {assignments : List String} :
    (∃ entries, AreRead assignments entries) ↔
      ∀ text ∈ assignments, ∃ entry, ModelFile.parseAssignment text = .ok entry := by
  rw [← Result.exists_mapM_eq_ok_iff]
  simp only [Result.mapM_eq_ok_iff, AreRead]

theorem AreRead.mem_names_iff {assignments : List String} {entries : List (String × String)}
    (h : AreRead assignments entries) {name : String} :
    name ∈ entries.map Prod.fst ↔
      ∃ text ∈ assignments, ∃ value, ModelFile.parseAssignment text = .ok (name, value) := by
  induction h with
  | nil => simp
  | @cons text entry assignments entries hread _ ih =>
    obtain ⟨key, value⟩ := entry
    have hhead : name = key ↔ ∃ value, ModelFile.parseAssignment text = .ok (name, value) := by
      simp [hread, eq_comm]
    rw [List.map_cons, List.mem_cons, ih, hhead, List.exists_mem_cons_iff]

namespace Sources

variable {d : Directory} {sources : Sources} {engine : Engine} {model result : ModelFile}

theorem assign_eq_ok_iff {assignments : List String} :
    assign model assignments = .ok result ↔
      ∃ entries, AreRead assignments entries ∧ result = ⟨model.values.insertAll entries⟩ := by
  induction assignments generalizing model with
  | nil =>
    constructor
    · intro h
      exact ⟨[], .nil, (Except.ok.inj h).symm⟩
    · rintro ⟨entries, hread, rfl⟩
      rw [List.forall₂_nil_left_iff.1 hread]
      rfl
  | cons text assignments ih =>
    rw [assign, ModelFile.set]
    cases hparse : ModelFile.parseAssignment text with
    | error e =>
      constructor
      · intro h
        cases h
      · rintro ⟨entries, hread, -⟩
        obtain ⟨entry, _, hentry, -⟩ := List.forall₂_cons_left_iff.1 hread
        rw [hparse] at hentry
        cases hentry
    | ok entry =>
      rw [Result.map_ok]
      dsimp only
      rw [ih]
      constructor
      · rintro ⟨entries, hread, rfl⟩
        exact ⟨entry :: entries, .cons hparse hread, rfl⟩
      · rintro ⟨entries, hread, rfl⟩
        obtain ⟨entry', entries, hentry, hrest, rfl⟩ := List.forall₂_cons_left_iff.1 hread
        rw [hparse, Except.ok.injEq] at hentry
        exact ⟨entries, hrest, by rw [hentry]; rfl⟩

theorem engineOf_eq_ok_iff :
    engineOf model = .ok engine ↔
      (∀ name, Model.Binds model.values name → isTagName name.toList = true) ∧
        engine = ⟨model.values⟩ := by
  rw [engineOf, Result.mapError_eq_ok_iff, Engine.ofModel_eq_ok_iff]
  apply and_congr_left
  intro _
  constructor
  · intro h name hbinds
    obtain ⟨entry, hentry, rfl⟩ := List.mem_map.1 (Table.exists_lookup_iff.1 hbinds)
    exact h entry hentry
  · intro h entry hentry
    exact h entry.1 (Table.exists_lookup_iff.2 (List.mem_map_of_mem hentry))

theorem see_loadEngine_eq_ok_iff :
    d.see (sources.loadEngine host) = .ok engine ↔
      ∃ model entries, d.see (loadModels host .empty sources.models) = .ok model ∧
        AreRead sources.assignments entries ∧
        (∀ name, Model.Binds model.values name → isTagName name.toList = true) ∧
        engine = ⟨model.values.insertAll entries⟩ := by
  rw [see_loadEngine]
  constructor
  · intro h
    obtain ⟨model, hmodel, h⟩ := Result.bind_eq_ok_iff.1 h
    obtain ⟨result, hresult, h⟩ := Result.bind_eq_ok_iff.1 h
    obtain ⟨entries, hread, rfl⟩ := assign_eq_ok_iff.1 hresult
    obtain ⟨hvalid, rfl⟩ := engineOf_eq_ok_iff.1 h
    refine ⟨model, entries, hmodel, hread, fun name hname => ?_, rfl⟩
    exact hvalid name (Table.exists_lookup_insertAll_iff.2 (.inr hname))
  · rintro ⟨model, entries, hmodel, hread, hvalid, rfl⟩
    rw [hmodel, Result.bind_ok, assign_eq_ok_iff.2 ⟨entries, hread, rfl⟩, Result.bind_ok,
      engineOf_eq_ok_iff]
    refine ⟨fun name hname => ?_, rfl⟩
    rcases Table.exists_lookup_insertAll_iff.1 hname with hmem | hbinds
    · obtain ⟨text, -, value, hparse⟩ := hread.mem_names_iff.1 hmem
      exact ModelFile.isTagName_of_parseAssignment hparse
    · exact hvalid name hbinds

/-- With further assignments a command has an engine that binds their names besides. -/
theorem exists_loadEngine_of_added {sources' : Sources} {added : List (String × String)}
    (h : d.see (sources.loadEngine host) = .ok engine)
    (hextends : sources.Extends added sources')
    (hadded : ∀ entry ∈ added, isTagName entry.1.toList = true) :
    ∃ engine', d.see (sources'.loadEngine host) = .ok engine' ∧
      ∀ name, Model.Binds engine'.model name ↔
        name ∈ added.map Prod.fst ∨ Model.Binds engine.model name := by
  obtain ⟨model, entries, hmodel, hread, hvalid, rfl⟩ := see_loadEngine_eq_ok_iff.1 h
  have hown := exists_areRead_iff.1 ⟨entries, hread⟩
  obtain ⟨entries', hread'⟩ : ∃ entries', AreRead sources'.assignments entries' := by
    rw [exists_areRead_iff]
    intro text htext
    rcases (hextends.assignments text).1 htext with hold | ⟨entry, hentry, rfl⟩
    · exact hown text hold
    · exact ⟨entry, ModelFile.parseAssignment_assignText (hadded entry hentry)⟩
  have hnames : ∀ name, name ∈ entries'.map Prod.fst ↔
      name ∈ added.map Prod.fst ∨ name ∈ entries.map Prod.fst := by
    intro name
    rw [hread'.mem_names_iff, hread.mem_names_iff, List.mem_map]
    constructor
    · rintro ⟨text, htext, value, hparse⟩
      rcases (hextends.assignments text).1 htext with hold | ⟨entry, hentry, rfl⟩
      · exact .inr ⟨text, hold, value, hparse⟩
      · rw [ModelFile.parseAssignment_assignText (hadded entry hentry), Except.ok.injEq] at hparse
        exact .inl ⟨entry, hentry, congrArg Prod.fst hparse⟩
    · rintro (⟨entry, hentry, rfl⟩ | ⟨text, htext, value, hparse⟩)
      · exact ⟨_, (hextends.assignments _).2 (.inr ⟨entry, hentry, rfl⟩), entry.2,
          ModelFile.parseAssignment_assignText (hadded entry hentry)⟩
      · exact ⟨text, (hextends.assignments text).2 (.inl htext), value, hparse⟩
  refine ⟨⟨model.values.insertAll entries'⟩, see_loadEngine_eq_ok_iff.2
    ⟨model, entries', hextends.models ▸ hmodel, hread', hvalid, rfl⟩, fun name => ?_⟩
  have hbinds : Model.Binds (model.values.insertAll entries) name ↔
      name ∈ entries.map Prod.fst ∨ Model.Binds model.values name :=
    Table.exists_lookup_insertAll_iff
  have hbinds' : Model.Binds (model.values.insertAll entries') name ↔
      name ∈ entries'.map Prod.fst ∨ Model.Binds model.values name :=
    Table.exists_lookup_insertAll_iff
  rw [hbinds, hbinds', hnames, or_assoc]

end Sources

end TagTemplate
