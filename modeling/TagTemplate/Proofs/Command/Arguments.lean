import TagTemplate.Command.Arguments
import TagTemplate.Proofs.ModelFile.Assignment

/-!
# Options on both sides of a subcommand

Whatever the spelling of the options for models, assignments and the template, a command line is
read as the options themselves: one after the other on each side of the name of the subcommand, the
flag for the check wherever it stands after the name. More assignments among the options of a side
change nothing but its assignments.
-/
namespace TagTemplate

/-- Sources that differ from others by further assignments alone. -/
structure Sources.Extends (added : List (String × String)) (sources sources' : Sources) : Prop where
  models : sources'.models = sources.models
  template : sources'.template = sources.template
  assignments : ∀ text, text ∈ sources'.assignments ↔
    text ∈ sources.assignments ∨ ∃ entry ∈ added, text = assignText entry

namespace Arguments

inductive SourceOption where
  | model (path : String)
  | assignment (text : String)
  | template (path : String)

namespace SourceOption

def purpose : SourceOption → Purpose
  | model _ => .model
  | assignment _ => .set
  | template _ => .template

def value : SourceOption → String
  | model path => path
  | assignment text => text
  | template path => path

theorem takesValue_purpose (option : SourceOption) : option.purpose.takesValue = true := by
  cases option <;> rfl

end SourceOption

/-- Arguments that spell some options, with each value attached to its option or after it. -/
inductive Spells : List SourceOption → List String → Prop where
  | nil : Spells [] []
  | attached {option : SourceOption} {options : List SourceOption} {text : String}
      {rest : List String}
      (htext : ∀ scope, Argument.of scope text = .option option.purpose (some option.value))
      (hrest : Spells options rest) : Spells (option :: options) (text :: rest)
  | apart {option : SourceOption} {options : List SourceOption} {text : String}
      {rest : List String}
      (htext : ∀ scope, Argument.of scope text = .option option.purpose none)
      (hvalue : isValue option.value = true) (hrest : Spells options rest) :
      Spells (option :: options) (text :: option.value :: rest)

theorem Spells.append {options options' : List SourceOption} {arguments arguments' : List String}
    (h : Spells options arguments) (h' : Spells options' arguments') :
    Spells (options ++ options') (arguments ++ arguments') := by
  induction h with
  | nil => exact h'
  | attached htext _ ih => exact .attached htext ih
  | apart htext hvalue _ ih => exact .apart htext hvalue ih

def SpellsWithCheck (options : List SourceOption) (arguments : List String) : Prop :=
  ∃ options₁ options₂ arguments₁ arguments₂, options = options₁ ++ options₂ ∧
    arguments = arguments₁ ++ "--check" :: arguments₂ ∧
    Spells options₁ arguments₁ ∧ Spells options₂ arguments₂

/-- A command line that renders to the output, with options before and after the subcommand. -/
def IsRenderLine (before after : List SourceOption) (arguments : List String) : Prop :=
  ∃ front back, Spells before front ∧ Spells after back ∧ arguments = front ++ "render" :: back

/-- A command line that lists tags and checks them, with the same options in the same places. -/
def IsCheckLine (before after : List SourceOption) (arguments : List String) : Prop :=
  ∃ front back, Spells before front ∧ SpellsWithCheck after back ∧
    arguments = front ++ "tags" :: back

theorem IsCheckLine.exists_isRenderLine {before after : List SourceOption}
    {arguments : List String} (h : IsCheckLine before after arguments) :
    ∃ rendering, IsRenderLine before after rendering := by
  obtain ⟨front, back, hfront, ⟨after₁, after₂, back₁, back₂, rfl, rfl, h₁, h₂⟩, rfl⟩ := h
  exact ⟨front ++ "render" :: (back₁ ++ back₂), front, back₁ ++ back₂, hfront, h₁.append h₂, rfl⟩

def assignmentsOf : List SourceOption → List String
  | [] => []
  | .assignment text :: options => text :: assignmentsOf options
  | _ :: options => assignmentsOf options

namespace Side

def addAll (side : Side) : List SourceOption → Except Stop Side
  | [] => .ok side
  | option :: options =>
    (side.addValue option.value option.purpose).bind fun side => side.addAll options

variable {side side' result : Side} {options options' : List SourceOption}

theorem addAll_append (more : List SourceOption) :
    side.addAll (options ++ more) = (side.addAll options).bind fun side => side.addAll more := by
  induction options generalizing side with
  | nil => rfl
  | cons option options ih =>
    rw [List.cons_append, addAll, addAll]
    cases side.addValue option.value option.purpose with
    | error stop => rfl
    | ok side => exact ih

theorem of_addValue {option : SourceOption}
    (h : side.addValue option.value option.purpose = .ok result) :
    result.output = side.output ∧ result.check = side.check ∧
      result.assignments = side.assignments ++ assignmentsOf [option] := by
  cases option with
  | model path =>
    simp only [addValue, SourceOption.purpose] at h
    split at h
    · cases h
    · rw [← Except.ok.inj h]
      exact ⟨rfl, rfl, (List.append_nil _).symm⟩
  | assignment text =>
    rw [← Except.ok.inj h]
    exact ⟨rfl, rfl, rfl⟩
  | template path =>
    simp only [addValue, SourceOption.purpose] at h
    split at h
    · cases h
    · rw [← Except.ok.inj h]
      exact ⟨rfl, rfl, (List.append_nil _).symm⟩

theorem assignmentsOf_cons (option : SourceOption) (options : List SourceOption) :
    assignmentsOf (option :: options) = assignmentsOf [option] ++ assignmentsOf options := by
  cases option <;> rfl

theorem of_addAll (h : side.addAll options = .ok result) :
    result.output = side.output ∧ result.check = side.check ∧
      result.assignments = side.assignments ++ assignmentsOf options := by
  induction options generalizing side with
  | nil =>
    rw [← Except.ok.inj h]
    exact ⟨rfl, rfl, (List.append_nil _).symm⟩
  | cons option options ih =>
    obtain ⟨next, hnext, h⟩ := Result.bind_eq_ok_iff.1 h
    obtain ⟨houtput, hcheck, hassignments⟩ := of_addValue hnext
    obtain ⟨houtput', hcheck', hassignments'⟩ := ih h
    refine ⟨houtput'.trans houtput, hcheck'.trans hcheck, ?_⟩
    rw [hassignments', hassignments, List.append_assoc, ← assignmentsOf_cons]

/-- The flag for the check is not in the way of options. -/
theorem addAll_check : ({ side with check := true } : Side).addAll options =
    (side.addAll options).map fun side => { side with check := true } := by
  induction options generalizing side with
  | nil => rfl
  | cons option options ih =>
    have hstep : ({ side with check := true } : Side).addValue option.value option.purpose =
        (side.addValue option.value option.purpose).map fun side =>
          { side with check := true } := by
      cases option with
      | assignment text => rfl
      | model path =>
        simp only [addValue, SourceOption.purpose]
        split <;> rfl
      | template path =>
        simp only [addValue, SourceOption.purpose]
        split <;> rfl
    rw [addAll, addAll, hstep]
    cases side.addValue option.value option.purpose with
    | error stop => rfl
    | ok side => exact ih

end Side

section Read

variable {before after : List SourceOption} {front back arguments : List String}

theorem readSide_append {options : List SourceOption} {arguments : List String}
    (h : Spells options arguments) (scope : Scope) (side : Side) (rest : List String) :
    readSide scope side (arguments ++ rest) =
      (side.addAll options).bind fun side => readSide scope side rest := by
  induction h generalizing side with
  | nil => rfl
  | @attached option options text arguments htext _ ih =>
    rw [List.cons_append, readSide, htext scope, Side.addAll]
    simp only [SourceOption.takesValue_purpose, if_true]
    cases side.addValue option.value option.purpose with
    | error stop => rfl
    | ok side => exact ih side
  | @apart option options text arguments htext hvalue _ ih =>
    rw [List.cons_append, List.cons_append, readSide, htext scope, Side.addAll]
    simp only [SourceOption.takesValue_purpose, if_true, hvalue]
    cases side.addValue option.value option.purpose with
    | error stop => rfl
    | ok side => exact ih side

def sourcesOf (before after : List SourceOption) : Except Stop Sources :=
  (Side.empty.addAll before).bind fun b =>
    (Side.empty.addAll after).map fun a => b.sources a

theorem readAfter_of_spells (h : Spells after back) (scope : Scope) :
    readAfter scope back = Side.empty.addAll after := by
  have hread := readSide_append h scope .empty []
  rw [List.append_nil] at hread
  rw [readAfter, hread]
  cases Side.empty.addAll after with
  | error stop => rfl
  | ok side => rfl

theorem readSide_append_withCheck (h : SpellsWithCheck after back) (rest : List String) :
    readSide .tags .empty (back ++ rest) =
      (Side.empty.addAll after).bind fun side => readSide .tags { side with check := true } rest := by
  obtain ⟨after₁, after₂, back₁, back₂, rfl, rfl, h₁, h₂⟩ := h
  rw [List.append_assoc, readSide_append h₁, Side.addAll_append]
  cases hside : Side.empty.addAll after₁ with
  | error stop => rfl
  | ok side =>
    have hcheck : side.check = false := (Side.of_addAll hside).2.1
    have hflag : Argument.of .tags "--check" = .option .check none := by decide
    have hread := readSide_append h₂ .tags { side with check := true } rest
    rw [Side.addAll_check] at hread
    rw [Result.bind_ok, Result.bind_ok, List.cons_append, readSide, hflag]
    simp only [Purpose.takesValue, Side.addFlag, hcheck, if_false, Option.isSome_none,
      Bool.false_eq_true, Result.ok_bind, hread]
    cases side.addAll after₂ with
    | error stop => rfl
    | ok side => rfl

theorem readAfter_of_spellsWithCheck (h : SpellsWithCheck after back) :
    readAfter .tags back =
      (Side.empty.addAll after).map fun side => { side with check := true } := by
  have hread := readSide_append_withCheck h []
  rw [List.append_nil] at hread
  rw [readAfter, hread]
  cases Side.empty.addAll after with
  | error stop => rfl
  | ok side => rfl

/-- Two hyphens may end a command line. -/
theorem readAfter_append_terminator (h : SpellsWithCheck after back) :
    readAfter .tags (back ++ ["--"]) = readAfter .tags back := by
  have hread : readSide .tags .empty (back ++ ["--"]) = readSide .tags .empty (back ++ []) := by
    rw [readSide_append_withCheck h, readSide_append_withCheck h]
    rfl
  rw [readAfter, readAfter, hread, List.append_nil]

theorem read_append {name : String} (h : Spells before front)
    (hname : Argument.of .top name = .word name) :
    read (front ++ name :: back) = (Side.empty.addAll before).bind fun side =>
      if name = "render" then
        (readAfter .render back).map fun after => ⟨side.sources after, .render after.output⟩
      else if name = "tags" then
        (readAfter .tags back).map fun after => ⟨side.sources after, .tags after.check⟩
      else if name = "help" then .error (helpFor back)
      else .error .badUsage := by
  rw [read, readSide_append h]
  cases Side.empty.addAll before with
  | error stop => rfl
  | ok side =>
    rw [Result.bind_ok, Result.bind_ok, readSide, hname]
    simp only [Result.ok_bind]
    rfl

theorem read_render (h : IsRenderLine before after arguments) :
    read arguments = (sourcesOf before after).map fun sources => ⟨sources, .render none⟩ := by
  obtain ⟨front, back, hbefore, hafter, rfl⟩ := h
  rw [read_append hbefore (by decide), sourcesOf]
  cases Side.empty.addAll before with
  | error stop => rfl
  | ok b =>
    rw [Result.bind_ok, Result.bind_ok, if_pos rfl, readAfter_of_spells hafter]
    cases hside : Side.empty.addAll after with
    | error stop => rfl
    | ok a =>
      have houtput : a.output = none := (Side.of_addAll hside).1
      simp only [Result.map_ok, houtput]

theorem read_tags_check (h : IsCheckLine before after arguments) :
    read arguments = (sourcesOf before after).map fun sources => ⟨sources, .tags true⟩ := by
  obtain ⟨front, back, hbefore, hafter, rfl⟩ := h
  rw [read_append hbefore (by decide), sourcesOf]
  cases Side.empty.addAll before with
  | error stop => rfl
  | ok b =>
    rw [Result.bind_ok, Result.bind_ok, if_neg (by decide), if_pos rfl,
      readAfter_of_spellsWithCheck hafter]
    cases Side.empty.addAll after with
    | error stop => rfl
    | ok a => rfl

theorem read_append_terminator (h : IsCheckLine before after arguments) :
    read (arguments ++ ["--"]) = read arguments := by
  obtain ⟨front, back, hbefore, hafter, rfl⟩ := h
  rw [List.append_assoc, List.cons_append, read_append hbefore (by decide),
    read_append hbefore (by decide), readAfter_append_terminator hafter]
  rfl

end Read

section Adds

inductive Adds : List (String × String) → List SourceOption → List SourceOption → Prop where
  | nil : Adds [] [] []
  | keep {added : List (String × String)} {options options' : List SourceOption}
      (option : SourceOption) (h : Adds added options options') :
      Adds added (option :: options) (option :: options')
  | add {added : List (String × String)} {options options' : List SourceOption}
      (entry : String × String) (h : Adds added options options') :
      Adds (entry :: added) options (.assignment (assignText entry) :: options')

/-- Further assignments on the side of those that count: before the name of the subcommand if all
stand there, and else after it. -/
def AddsBeside (added : List (String × String))
    (before after before' after' : List SourceOption) : Prop :=
  (assignmentsOf after = [] ∧ Adds added before before' ∧ after' = after) ∨
    ((assignmentsOf before = [] ∨ assignmentsOf after ≠ []) ∧ before' = before ∧
      Adds added after after')

structure Side.Extends (added : List (String × String)) (side side' : Side) : Prop where
  models : side'.models = side.models
  template : side'.template = side.template
  assignments : ∀ text, text ∈ side'.assignments ↔
    text ∈ side.assignments ∨ ∃ entry ∈ added, text = assignText entry

variable {added earlier : List (String × String)} {side side' result : Side}
  {options options' : List SourceOption}

theorem Side.Extends.addValue {option : SourceOption} (h : side.Extends added side')
    (hadd : side.addValue option.value option.purpose = .ok result) :
    ∃ result', side'.addValue option.value option.purpose = .ok result' ∧
      result.Extends added result' := by
  cases option with
  | model path =>
    simp only [Side.addValue, SourceOption.purpose] at hadd ⊢
    split at hadd
    · cases hadd
    · rename_i hpath
      rw [if_neg hpath, ← Except.ok.inj hadd]
      exact ⟨_, rfl, congrArg (· ++ [path]) h.models, h.template, h.assignments⟩
  | assignment text =>
    rw [← Except.ok.inj hadd]
    refine ⟨_, rfl, h.models, h.template, fun other => ?_⟩
    simp only [SourceOption.value, List.mem_append, h.assignments other]
    exact or_right_comm
  | template path =>
    simp only [Side.addValue, SourceOption.purpose] at hadd ⊢
    split at hadd
    · cases hadd
    · rename_i hpath
      rw [h.template, if_neg hpath, ← Except.ok.inj hadd]
      exact ⟨_, rfl, h.models, rfl, h.assignments⟩

theorem Side.Extends.addAll (hadds : Adds added options options')
    (h : side.Extends earlier side') (hside : side.addAll options = .ok result) :
    ∃ result', side'.addAll options' = .ok result' ∧
      result.Extends (earlier ++ added) result' := by
  induction hadds generalizing earlier side side' with
  | nil =>
    rw [← Except.ok.inj hside, List.append_nil]
    exact ⟨side', rfl, h⟩
  | keep option _ ih =>
    obtain ⟨next, hnext, hside⟩ := Result.bind_eq_ok_iff.1 hside
    obtain ⟨next', hnext', hextends⟩ := h.addValue hnext
    obtain ⟨result', hresult', hextends'⟩ := ih hextends hside
    exact ⟨result', Result.bind_eq_ok_iff.2 ⟨next', hnext', hresult'⟩, hextends'⟩
  | @add added options options' entry _ ih =>
    have hnext : side.Extends (earlier ++ [entry])
        { side' with assignments := side'.assignments ++ [assignText entry] } := by
      refine ⟨h.models, h.template, fun text => ?_⟩
      simp only [List.mem_append, h.assignments text, List.mem_singleton]
      constructor
      · rintro ((hold | ⟨other, hother, rfl⟩) | rfl)
        · exact .inl hold
        · exact .inr ⟨other, .inl hother, rfl⟩
        · exact .inr ⟨entry, .inr rfl, rfl⟩
      · rintro (hold | ⟨other, hother | rfl, rfl⟩)
        · exact .inl (.inl hold)
        · exact .inl (.inr ⟨other, hother, rfl⟩)
        · exact .inr rfl
    obtain ⟨result', hresult', hextends⟩ := ih hnext hside
    rw [List.append_assoc, List.singleton_append] at hextends
    exact ⟨result', hresult', hextends⟩

theorem Side.extends_empty : Side.empty.Extends [] Side.empty :=
  ⟨rfl, rfl, fun text => by simp⟩

theorem Side.assignments_sources {before after : Side}
    (h : before.assignments = [] ∨ after.assignments ≠ []) :
    (before.sources after).assignments = after.assignments := by
  rw [Side.sources]
  dsimp only
  split
  · rename_i hempty
    rw [List.isEmpty_iff] at hempty
    rw [hempty]
    exact h.resolve_right fun hne => hne hempty
  · rfl

theorem exists_sourcesOf_of_addsBeside {before after before' after' : List SourceOption}
    {sources : Sources} (hadds : AddsBeside added before after before' after')
    (h : sourcesOf before after = .ok sources) :
    ∃ sources', sourcesOf before' after' = .ok sources' ∧ sources.Extends added sources' := by
  obtain ⟨b, hb, h⟩ := Result.bind_eq_ok_iff.1 h
  obtain ⟨a, ha, rfl⟩ := Result.map_eq_ok_iff.1 h
  have hbefore : b.assignments = assignmentsOf before := (Side.of_addAll hb).2.2
  have hafter : a.assignments = assignmentsOf after := (Side.of_addAll ha).2.2
  rcases hadds with ⟨hnone, hadds, rfl⟩ | ⟨hcount, rfl, hadds⟩
  · obtain ⟨b', hb', hextends⟩ := Side.extends_empty.addAll hadds hb
    refine ⟨b'.sources a, by rw [sourcesOf, hb', Result.bind_ok, ha]; rfl, ⟨?_, ?_, ?_⟩⟩
    · simp only [Side.sources, hextends.models]
    · simp only [Side.sources, hextends.template]
    · simp only [Side.sources, hafter, hnone]
      exact hextends.assignments
  · obtain ⟨a', ha', hextends⟩ := Side.extends_empty.addAll hadds ha
    refine ⟨b.sources a', by rw [sourcesOf, hb, Result.bind_ok, ha']; rfl,
      ⟨?_, ?_, fun text => ?_⟩⟩
    · simp only [Side.sources, hextends.models]
    · simp only [Side.sources, hextends.template]
    · have hcount : b.assignments = [] ∨ a.assignments ≠ [] := by rwa [hbefore, hafter]
      have hcount' : b.assignments = [] ∨ a'.assignments ≠ [] := by
        refine hcount.imp_right fun hne => ?_
        obtain ⟨other, hother⟩ := List.exists_mem_of_ne_nil _ hne
        exact List.ne_nil_of_mem ((hextends.assignments other).2 (.inl hother))
      rw [Side.assignments_sources hcount, Side.assignments_sources hcount']
      exact hextends.assignments text

end Adds

end Arguments

end TagTemplate
