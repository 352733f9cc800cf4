import TagTemplate.Proofs.Command.Arguments

/-!
# Options on one side of a subcommand

If all models and assignments of a command line stand before the name of the subcommand, or all
after it, or if no subcommand is named, then the sources are these models and these assignments,
each kind in the order in which it is given. What stands between them does not matter.
-/
namespace TagTemplate.Arguments

def modelsOf : List SourceOption → List String
  | [] => []
  | .model path :: options => path :: modelsOf options
  | _ :: options => modelsOf options

inductive IsOption (scope : Scope) (purpose : Purpose) (value : String) : List String → Prop where
  | attached {text : String} (htext : Argument.of scope text = .option purpose (some value)) :
      IsOption scope purpose value [text]
  | apart {text : String} (htext : Argument.of scope text = .option purpose none)
      (hvalue : isValue value = true) : IsOption scope purpose value [text, value]

/-- Arguments that spell some options for models, assignments and the template, where options of a
subcommand's own may stand among them. -/
inductive SpellsIn (scope : Scope) : List SourceOption → List String → Prop where
  | nil : SpellsIn scope [] []
  | source {option : SourceOption} {options : List SourceOption} {words rest : List String}
      (hwords : IsOption scope option.purpose option.value words)
      (hrest : SpellsIn scope options rest) : SpellsIn scope (option :: options) (words ++ rest)
  | output {path : String} {options : List SourceOption} {words rest : List String}
      (hwords : IsOption scope .output path words) (hrest : SpellsIn scope options rest) :
      SpellsIn scope options (words ++ rest)
  | check {text : String} {options : List SourceOption} {rest : List String}
      (htext : Argument.of scope text = .option .check none)
      (hrest : SpellsIn scope options rest) : SpellsIn scope options (text :: rest)

def IsBare (options : List SourceOption) : Prop := modelsOf options = [] ∧ assignmentsOf options = []

/-- The names of the subcommands that read a model, with the options that each allows. -/
inductive Subcommand : String → Scope → Prop where
  | render : Subcommand "render" .render
  | tags : Subcommand "tags" .tags

/-- Command lines whose models and assignments are those of some options and stand on one side of
the name of the subcommand, if there is one. -/
inductive OneSided (options : List SourceOption) : List String → Prop where
  | alone {arguments : List String} (h : SpellsIn .top options arguments) :
      OneSided options arguments
  | before {name : String} {scope : Scope} {other : List SourceOption} {front back : List String}
      (hname : Subcommand name scope) (hfront : SpellsIn .top options front) (hother : IsBare other)
      (hback : SpellsIn scope other back) : OneSided options (front ++ name :: back)
  | after {name : String} {scope : Scope} {other : List SourceOption} {front back : List String}
      (hname : Subcommand name scope) (hfront : SpellsIn .top other front) (hother : IsBare other)
      (hback : SpellsIn scope options back) : OneSided options (front ++ name :: back)

structure Side.Gains (side : Side) (options : List SourceOption) (side' : Side) : Prop where
  models : side'.models = side.models ++ modelsOf options
  assignments : side'.assignments = side.assignments ++ assignmentsOf options

variable {scope : Scope} {side side' side'' : Side} {option : SourceOption}
  {options others : List SourceOption} {words rest arguments front back : List String}
  {name value : String} {purpose : Purpose} {result : Rest}

theorem modelsOf_append (options others : List SourceOption) :
    modelsOf (options ++ others) = modelsOf options ++ modelsOf others := by
  induction options with
  | nil => rfl
  | cons option options ih => cases option <;> simp [modelsOf, ih]

theorem assignmentsOf_append (options others : List SourceOption) :
    assignmentsOf (options ++ others) = assignmentsOf options ++ assignmentsOf others := by
  induction options with
  | nil => rfl
  | cons option options ih => cases option <;> simp [assignmentsOf, ih]

theorem Side.Gains.trans (h : side.Gains options side') (h' : side'.Gains others side'') :
    side.Gains (options ++ others) side'' := by
  refine ⟨?_, ?_⟩
  · rw [h'.models, h.models, List.append_assoc, modelsOf_append]
  · rw [h'.assignments, h.assignments, List.append_assoc, assignmentsOf_append]

theorem Side.gains_nil (hmodels : side'.models = side.models)
    (hassignments : side'.assignments = side.assignments) : side.Gains [] side' :=
  ⟨hmodels.trans (List.append_nil _).symm, hassignments.trans (List.append_nil _).symm⟩

theorem Side.gains_of_addValue (h : side.addValue option.value option.purpose = .ok side') :
    side.Gains [option] side' := by
  refine ⟨?_, (of_addValue h).2.2⟩
  cases option with
  | model path =>
    simp only [addValue, SourceOption.purpose] at h
    split at h
    · cases h
    · rw [← Except.ok.inj h]
      rfl
  | assignment text =>
    rw [← Except.ok.inj h]
    exact (List.append_nil _).symm
  | template path =>
    simp only [addValue, SourceOption.purpose] at h
    split at h
    · cases h
    · rw [← Except.ok.inj h]
      exact (List.append_nil _).symm

theorem Side.gains_of_addValue_output (h : side.addValue value .output = .ok side') :
    side.Gains [] side' := by
  rw [addValue] at h
  split at h
  · cases h
  · rw [← Except.ok.inj h]
    exact gains_nil rfl rfl

theorem Side.gains_of_addFlag_check (h : side.addFlag .check = .ok side') :
    side.Gains [] side' := by
  rw [addFlag] at h
  split at h
  · cases h
  · rw [← Except.ok.inj h]
    exact gains_nil rfl rfl

theorem exists_addValue_of_readSide (hwords : IsOption scope purpose value words)
    (hpurpose : purpose.takesValue = true)
    (h : readSide scope side (words ++ rest) = .ok result) :
    ∃ side', side.addValue value purpose = .ok side' ∧ readSide scope side' rest = .ok result := by
  cases hwords with
  | attached htext =>
    rw [List.cons_append, List.nil_append, readSide, htext] at h
    simp only [hpurpose, if_true] at h
    exact Result.bind_eq_ok_iff.1 h
  | apart htext hvalue =>
    rw [List.cons_append, List.cons_append, List.nil_append, readSide, htext] at h
    simp only [hpurpose, if_true, hvalue] at h
    exact Result.bind_eq_ok_iff.1 h

/-- What is read of a side are the options that are spelled, and reading goes on after them. -/
theorem exists_gains_of_readSide (hspells : SpellsIn scope options arguments)
    (h : readSide scope side (arguments ++ rest) = .ok result) :
    ∃ side', side.Gains options side' ∧ readSide scope side' rest = .ok result := by
  -- On how the options are spelled, whatever has been read of the side before.
  induction hspells generalizing side with
  | nil => exact ⟨side, Side.gains_nil rfl rfl, h⟩
  | @source option options words more hwords _ ih =>
    rw [List.append_assoc] at h
    obtain ⟨next, hnext, h⟩ := exists_addValue_of_readSide hwords option.takesValue_purpose h
    obtain ⟨side', hgains, h⟩ := ih h
    exact ⟨side', (Side.gains_of_addValue hnext).trans hgains, h⟩
  | output hwords _ ih =>
    rw [List.append_assoc] at h
    obtain ⟨next, hnext, h⟩ := exists_addValue_of_readSide hwords rfl h
    obtain ⟨side', hgains, h⟩ := ih h
    exact ⟨side', (Side.gains_of_addValue_output hnext).trans hgains, h⟩
  | check htext _ ih =>
    rw [List.cons_append, readSide, htext] at h
    simp only [Purpose.takesValue, Option.isSome_none, Bool.false_eq_true, if_false] at h
    obtain ⟨next, hnext, h⟩ := Result.bind_eq_ok_iff.1 h
    obtain ⟨side', hgains, h⟩ := ih h
    exact ⟨side', (Side.gains_of_addFlag_check hnext).trans hgains, h⟩

theorem readSide_subcommand (hname : Subcommand name scope) :
    readSide .top side (name :: back) = .ok ⟨side, name :: back⟩ := by
  have hword : Argument.of .top name = .word name := by
    cases hname <;> decide
  rw [readSide, hword]

theorem gains_of_readAfter (hspells : SpellsIn scope options back)
    (h : readAfter scope back = .ok side) : Side.empty.Gains options side := by
  obtain ⟨result, hresult, h⟩ := Result.bind_eq_ok_iff.1 h
  rw [← List.append_nil back] at hresult
  obtain ⟨side', hgains, hresult⟩ := exists_gains_of_readSide hspells hresult
  obtain rfl := Except.ok.inj hresult
  obtain rfl := Except.ok.inj h
  exact hgains

variable {sources : Sources} {command : Command}

theorem exists_gains_of_read (hspells : SpellsIn .top options arguments)
    (h : read arguments = .ok ⟨sources, command⟩) :
    ∃ side, Side.empty.Gains options side ∧ sources = side.sources .empty := by
  obtain ⟨result, hresult, h⟩ := Result.bind_eq_ok_iff.1 h
  rw [← List.append_nil arguments] at hresult
  obtain ⟨side, hgains, hresult⟩ := exists_gains_of_readSide hspells hresult
  obtain rfl := Except.ok.inj hresult
  exact ⟨side, hgains, (congrArg Invocation.sources (Except.ok.inj h)).symm⟩

/-- The options on both sides of a subcommand are read each for itself. -/
theorem exists_gains_of_read_subcommand (hname : Subcommand name scope)
    (hfront : SpellsIn .top options front) (hback : SpellsIn scope others back)
    (h : read (front ++ name :: back) = .ok ⟨sources, command⟩) :
    ∃ before after, Side.empty.Gains options before ∧ Side.empty.Gains others after ∧
      sources = before.sources after := by
  obtain ⟨result, hresult, h⟩ := Result.bind_eq_ok_iff.1 h
  obtain ⟨before, hbefore, hresult⟩ := exists_gains_of_readSide hfront hresult
  rw [readSide_subcommand hname] at hresult
  obtain rfl := Except.ok.inj hresult
  cases hname with
  | render =>
    obtain ⟨after, hafter, h⟩ := Result.bind_eq_ok_iff.1 h
    exact ⟨before, after, hbefore, gains_of_readAfter hback hafter,
      (congrArg Invocation.sources (Except.ok.inj h)).symm⟩
  | tags =>
    obtain ⟨after, hafter, h⟩ := Result.bind_eq_ok_iff.1 h
    exact ⟨before, after, hbefore, gains_of_readAfter hback hafter,
      (congrArg Invocation.sources (Except.ok.inj h)).symm⟩

theorem sources_of_bare_after (hbefore : Side.empty.Gains options side)
    (hafter : Side.empty.Gains others side') (hbare : IsBare others) :
    (side.sources side').models = modelsOf options ∧
      (side.sources side').assignments = assignmentsOf options := by
  have hmodels : side'.models = [] := hafter.models.trans hbare.1
  have hassignments : side'.assignments = [] := hafter.assignments.trans hbare.2
  refine ⟨?_, ?_⟩
  · rw [Side.sources, hmodels]
    exact hbefore.models
  · rw [Side.sources, hassignments]
    exact hbefore.assignments

theorem sources_of_bare_before (hbefore : Side.empty.Gains others side)
    (hafter : Side.empty.Gains options side') (hbare : IsBare others) :
    (side.sources side').models = modelsOf options ∧
      (side.sources side').assignments = assignmentsOf options := by
  have hmodels : side.models = [] := hbefore.models.trans hbare.1
  have hassignments : side.assignments = [] := hbefore.assignments.trans hbare.2
  have hmodels' : side'.models = modelsOf options := hafter.models
  have hassignments' : side'.assignments = assignmentsOf options := hafter.assignments
  refine ⟨?_, ?_⟩
  · rw [Side.sources, hmodels, ← hmodels']
    cases side'.models <;> rfl
  · rw [Side.sources, hassignments, ← hassignments']
    cases side'.assignments <;> rfl

theorem OneSided.sources_eq (h : OneSided options arguments)
    (hread : read arguments = .ok ⟨sources, command⟩) :
    sources.models = modelsOf options ∧ sources.assignments = assignmentsOf options := by
  cases h with
  | alone hspells =>
    obtain ⟨side, hgains, rfl⟩ := exists_gains_of_read hspells hread
    exact ⟨hgains.models, hgains.assignments⟩
  | before hname hfront hother hback =>
    obtain ⟨side, side', hgains, hgains', rfl⟩ :=
      exists_gains_of_read_subcommand hname hfront hback hread
    exact sources_of_bare_after hgains hgains' hother
  | after hname hfront hother hback =>
    obtain ⟨side, side', hgains, hgains', rfl⟩ :=
      exists_gains_of_read_subcommand hname hfront hback hread
    exact sources_of_bare_before hgains hgains' hother

end TagTemplate.Arguments
