import TagTemplate.Proofs.Command.Arguments

/-!
# Accepted command lines

What it takes for arguments to be accepted. They are read one by one or two by two, and the options
for models, assignments and the template are the same in each scope. So all that is accepted for
listing tags with the check is some spelling of such options on both sides of the subcommand's name,
save for two hyphens that may end it.
-/
namespace TagTemplate.Arguments

variable {scope scope' : Scope} {purpose : Purpose} {attached : Option String} {text : String}

section Option

theorem allowed_eq_option_iff {found : Option Purpose} {f : Purpose → Option String} :
    (match found.filter (·.isAllowed scope) with
      | some purpose => Argument.option purpose (f purpose)
      | none => .unknown) = .option purpose attached ↔
      purpose.isAllowed scope = true ∧ found = some purpose ∧ f purpose = attached := by
  constructor
  · intro h
    split at h
    · rename_i purpose' hfound
      obtain ⟨rfl, hattached⟩ := Argument.option.inj h
      obtain ⟨hname, hallowed⟩ := Option.filter_eq_some_iff.1 hfound
      exact ⟨hallowed, hname, hattached⟩
    · cases h
  · rintro ⟨hallowed, hname, rfl⟩
    rw [Option.filter_eq_some_iff.2 ⟨hname, hallowed⟩]

theorem ofLong_eq_option_iff {text : List Char} :
    ofLong scope text = .option purpose attached ↔
      purpose.isAllowed scope = true ∧ ofLongName? (text.takeWhile (· != '=')) = some purpose ∧
        (match text.dropWhile (· != '=') with
          | [] => none
          | _ :: value => some (String.ofList value)) = attached :=
  allowed_eq_option_iff

theorem ofShort_eq_option_iff {name : Char} {text : List Char} :
    ofShort scope name text = .option purpose attached ↔
      purpose.isAllowed scope = true ∧ ofShortName? name = some purpose ∧
        (if purpose.takesValue then
          match text with
          | [] => none
          | '=' :: value => some (String.ofList value)
          | value => some (String.ofList value)
        else none) = attached :=
  allowed_eq_option_iff

/-- An option is read alike wherever it is allowed. -/
theorem of_eq_option (h : Argument.of scope text = .option purpose attached) :
    purpose.isAllowed scope = true ∧ ∀ scope', purpose.isAllowed scope' = true →
      Argument.of scope' text = .option purpose attached := by
  unfold Argument.of at h ⊢
  split at h
  · cases h
  · obtain ⟨hallowed, hname⟩ := ofLong_eq_option_iff.1 h
    exact ⟨hallowed, fun scope' hallowed' => ofLong_eq_option_iff.2 ⟨hallowed', hname⟩⟩
  · obtain ⟨hallowed, hname⟩ := ofShort_eq_option_iff.1 h
    exact ⟨hallowed, fun scope' hallowed' => ofShort_eq_option_iff.2 ⟨hallowed', hname⟩⟩
  · cases h

theorem eq_of_of_eq_check (h : Argument.of scope text = .option .check none) :
    text = "--check" := by
  rw [← String.toList_inj]
  unfold Argument.of at h
  split at h
  · cases h
  · rename_i rest hrest htext
    obtain ⟨-, hname, hattached⟩ := ofLong_eq_option_iff.1 h
    have hwhole : rest.dropWhile (· != '=') = [] := by
      split at hattached
      · assumption
      · cases hattached
    have hcheck : rest.takeWhile (· != '=') = "check".toList := by
      unfold ofLongName? at hname
      split_ifs at hname
      all_goals first | assumption | cases hname
    rw [htext, ← List.takeWhile_append_dropWhile (p := (· != '=')) (l := rest), hwhole, hcheck]
    rfl
  · obtain ⟨-, hname, -⟩ := ofShort_eq_option_iff.1 h
    unfold ofShortName? at hname
    split at hname <;> cases hname
  · cases h

theorem eq_of_of_eq_terminator (h : Argument.of scope text = .terminator) : text = "--" := by
  rw [← String.toList_inj]
  unfold Argument.of at h
  split at h
  · rename_i htext
    rw [htext]
    rfl
  · unfold ofLong at h
    dsimp only at h
    split at h <;> cases h
  · unfold ofShort at h
    dsimp only at h
    split at h <;> cases h
  · cases h

theorem exists_sourceOption {side next : Side} {value : String} (hscope : scope ≠ .render)
    (htext : Argument.of scope text = .option purpose attached)
    (hnext : side.addValue value purpose = .ok next) :
    ∃ option : SourceOption, option.purpose = purpose ∧ option.value = value ∧
      ∀ scope', Argument.of scope' text = .option purpose attached := by
  obtain ⟨hallowed, hall⟩ := of_eq_option htext
  cases purpose with
  | model => exact ⟨.model value, rfl, rfl, fun scope' => hall scope' rfl⟩
  | set => exact ⟨.assignment value, rfl, rfl, fun scope' => hall scope' rfl⟩
  | template => exact ⟨.template value, rfl, rfl, fun scope' => hall scope' rfl⟩
  | output => exact absurd (beq_iff_eq.1 hallowed) hscope
  | check => cases hnext
  | help => cases hnext
  | version => cases hnext

theorem of_addFlag {side next : Side} (h : side.addFlag purpose = .ok next) :
    purpose = .check ∧ side.check = false ∧ next = { side with check := true } := by
  cases purpose with
  | check =>
    simp only [Side.addFlag] at h
    split at h
    · cases h
    · rename_i hcheck
      exact ⟨rfl, Bool.eq_false_iff.2 hcheck, (Except.ok.inj h).symm⟩
  | _ => cases h

end Option

inductive Reads (scope : Scope) : Side → List String → Rest → Prop where
  | nil {side : Side} : Reads scope side [] ⟨side, []⟩
  | terminator {side : Side} {text : String} (htext : Argument.of scope text = .terminator) :
      Reads scope side [text] ⟨side, []⟩
  | word {side : Side} {text : String} {rest : List String} :
      Reads scope side (text :: rest) ⟨side, text :: rest⟩
  | attached {side next : Side} {text value : String} {purpose : Purpose} {rest : List String}
      {result : Rest} (htext : Argument.of scope text = .option purpose (some value))
      (hnext : side.addValue value purpose = .ok next) (hrest : Reads scope next rest result) :
      Reads scope side (text :: rest) result
  | apart {side next : Side} {text value : String} {purpose : Purpose} {rest : List String}
      {result : Rest} (htext : Argument.of scope text = .option purpose none)
      (hvalue : isValue value = true) (hnext : side.addValue value purpose = .ok next)
      (hrest : Reads scope next rest result) : Reads scope side (text :: value :: rest) result
  | flag {side next : Side} {text : String} {purpose : Purpose} {rest : List String}
      {result : Rest} (htext : Argument.of scope text = .option purpose none)
      (hnext : side.addFlag purpose = .ok next) (hrest : Reads scope next rest result) :
      Reads scope side (text :: rest) result

variable {side : Side} {arguments : List String} {result : Rest}

theorem reads_of_readSide (h : readSide scope side arguments = .ok result) :
    Reads scope side arguments result := by
  fun_induction readSide scope side arguments with
  | case1 side =>
    rw [← Except.ok.inj h]
    exact .nil
  | case2 => cases h
  | case3 side text rest htext hrest =>
    rw [List.isEmpty_iff.1 hrest, ← Except.ok.inj h]
    exact .terminator htext
  | case4 => cases h
  | case5 =>
    rw [← Except.ok.inj h]
    exact .word
  | case6 side text rest purpose _ value htext ih =>
    obtain ⟨next, hnext, hrest⟩ := Result.bind_eq_ok_iff.1 h
    exact .attached htext hnext (ih next hrest)
  | case7 => cases h
  | case8 side text purpose _ value rest hvalue htext ih =>
    obtain ⟨next, hnext, hrest⟩ := Result.bind_eq_ok_iff.1 h
    exact .apart htext hvalue hnext (ih next hrest)
  | case9 => cases h
  | case10 => cases h
  | case11 side text rest purpose attached htext _ hattached ih =>
    obtain ⟨next, hnext, hrest⟩ := Result.bind_eq_ok_iff.1 h
    rw [Option.not_isSome_iff_eq_none] at hattached
    exact .flag (hattached ▸ htext) hnext (ih next hrest)

/-- What may stand after the options: the words that are left, or two hyphens if there are none. -/
def Rest.IsLeft (result : Rest) (tail : List String) : Prop :=
  tail = result.words ∨ result.words = [] ∧ tail = ["--"]

theorem Reads.exists_spells (h : Reads scope side arguments result) (hscope : scope ≠ .render)
    (hcheck : side.check = true ∨ scope ≠ .tags) :
    ∃ options spelled tail, arguments = spelled ++ tail ∧ Spells options spelled ∧
      result.IsLeft tail := by
  induction h with
  | nil => exact ⟨[], [], [], rfl, .nil, .inl rfl⟩
  | @terminator side text htext =>
    exact ⟨[], [], [text], rfl, .nil, .inr ⟨rfl, by rw [eq_of_of_eq_terminator htext]⟩⟩
  | @word side text rest => exact ⟨[], [], text :: rest, rfl, .nil, .inl rfl⟩
  | @attached side next text value purpose rest result htext hnext _ ih =>
    obtain ⟨option, rfl, rfl, hall⟩ := exists_sourceOption hscope htext hnext
    have hsame : next.check = side.check := (Side.of_addValue hnext).2.1
    obtain ⟨options, spelled, tail, rfl, hspells, hleft⟩ := ih (hsame ▸ hcheck)
    exact ⟨option :: options, text :: spelled, tail, rfl, .attached hall hspells, hleft⟩
  | @apart side next text value purpose rest result htext hvalue hnext _ ih =>
    obtain ⟨option, rfl, rfl, hall⟩ := exists_sourceOption hscope htext hnext
    have hsame : next.check = side.check := (Side.of_addValue hnext).2.1
    obtain ⟨options, spelled, tail, rfl, hspells, hleft⟩ := ih (hsame ▸ hcheck)
    exact ⟨option :: options, text :: option.value :: spelled, tail, rfl,
      .apart hall hvalue hspells, hleft⟩
  | flag htext hnext =>
    obtain ⟨rfl, hfalse, -⟩ := of_addFlag hnext
    have htags : scope = .tags := beq_iff_eq.1 (of_eq_option htext).1
    rw [hfalse] at hcheck
    exact absurd htags (hcheck.resolve_left Bool.false_ne_true)

theorem Spells.append_withCheck {options options' : List SourceOption}
    {arguments arguments' : List String} (h : Spells options arguments)
    (h' : SpellsWithCheck options' arguments') :
    SpellsWithCheck (options ++ options') (arguments ++ arguments') := by
  obtain ⟨options₁, options₂, arguments₁, arguments₂, rfl, rfl, h₁, h₂⟩ := h'
  exact ⟨options ++ options₁, options₂, arguments ++ arguments₁, arguments₂,
    (List.append_assoc ..).symm, (List.append_assoc ..).symm, h.append h₁, h₂⟩

theorem Reads.exists_spellsWithCheck (h : Reads .tags side arguments result)
    (hbefore : side.check = false) (hafter : result.side.check = true) :
    ∃ options spelled tail, arguments = spelled ++ tail ∧ SpellsWithCheck options spelled ∧
      result.IsLeft tail := by
  induction h with
  | nil => exact absurd (hbefore.symm.trans hafter) Bool.false_ne_true
  | terminator => exact absurd (hbefore.symm.trans hafter) Bool.false_ne_true
  | word => exact absurd (hbefore.symm.trans hafter) Bool.false_ne_true
  | @attached side next text value purpose rest result htext hnext _ ih =>
    obtain ⟨option, rfl, rfl, hall⟩ := exists_sourceOption (by decide) htext hnext
    have hsame : next.check = side.check := (Side.of_addValue hnext).2.1
    obtain ⟨options, spelled, tail, rfl, hspells, hleft⟩ := ih (hsame.trans hbefore) hafter
    have hone : Spells [option] [text] := .attached hall .nil
    exact ⟨option :: options, text :: spelled, tail, rfl, hone.append_withCheck hspells, hleft⟩
  | @apart side next text value purpose rest result htext hvalue hnext _ ih =>
    obtain ⟨option, rfl, rfl, hall⟩ := exists_sourceOption (by decide) htext hnext
    have hsame : next.check = side.check := (Side.of_addValue hnext).2.1
    obtain ⟨options, spelled, tail, rfl, hspells, hleft⟩ := ih (hsame.trans hbefore) hafter
    have hone : Spells [option] [text, option.value] := .apart hall hvalue .nil
    exact ⟨option :: options, text :: option.value :: spelled, tail, rfl,
      hone.append_withCheck hspells, hleft⟩
  | flag htext hnext hrest =>
    obtain ⟨rfl, -, rfl⟩ := of_addFlag hnext
    obtain ⟨options, spelled, tail, rfl, hspells, hleft⟩ :=
      hrest.exists_spells (by decide) (.inl rfl)
    rw [eq_of_of_eq_check htext]
    exact ⟨options, "--check" :: spelled, tail, rfl,
      ⟨[], options, [], spelled, rfl, rfl, .nil, hspells⟩, hleft⟩

theorem exists_spellsWithCheck_of_readAfter {back : List String}
    (h : readAfter .tags back = .ok side) (hcheck : side.check = true) :
    ∃ after spelled, SpellsWithCheck after spelled ∧
      (back = spelled ∨ back = spelled ++ ["--"]) := by
  obtain ⟨result, hresult, h⟩ := Result.bind_eq_ok_iff.1 h
  split at h
  · rename_i hwords
    rw [List.isEmpty_iff] at hwords
    rw [← Except.ok.inj h] at hcheck
    obtain ⟨after, spelled, tail, rfl, hspells, hleft⟩ :=
      (reads_of_readSide hresult).exists_spellsWithCheck rfl hcheck
    refine ⟨after, spelled, hspells, ?_⟩
    rcases hleft with hempty | ⟨-, hhyphens⟩
    · rw [hempty, hwords, List.append_nil]
      exact .inl rfl
    · rw [hhyphens]
      exact .inr rfl
  · cases h

/-- Nothing but spelled options is accepted for listing tags with the check, and there is a command
line that renders with the same options. -/
theorem exists_isCheckLine_of_read {sources : Sources}
    (h : read arguments = .ok ⟨sources, .tags true⟩) :
    ∃ before after line rendering, IsCheckLine before after line ∧
      IsRenderLine before after rendering ∧ (arguments = line ∨ arguments = line ++ ["--"]) := by
  obtain ⟨result, hresult, hcommand⟩ := Result.bind_eq_ok_iff.1 h
  obtain ⟨before, front, tail, rfl, hfront, hleft⟩ :=
    (reads_of_readSide hresult).exists_spells (by decide) (.inr (by decide))
  cases hwords : result.words with
  | nil =>
    rw [hwords] at hcommand
    cases hcommand
  | cons name back =>
    have htail : tail = name :: back := by
      rcases hleft with hsame | ⟨hnone, -⟩
      · exact hsame.trans hwords
      · rw [hwords] at hnone
        cases hnone
    rw [hwords] at hcommand
    dsimp only at hcommand
    split_ifs at hcommand with hrender htags hhelp
    · obtain ⟨side, -, hcommand⟩ := Result.bind_eq_ok_iff.1 hcommand
      cases hcommand
    · obtain ⟨side, hside, hcommand⟩ := Result.bind_eq_ok_iff.1 hcommand
      have hcheck : side.check = true :=
        Command.tags.inj (Invocation.mk.inj (Except.ok.inj hcommand)).2
      obtain ⟨after, spelled, hspells, hback⟩ := exists_spellsWithCheck_of_readAfter hside hcheck
      have hline : IsCheckLine before after (front ++ "tags" :: spelled) :=
        ⟨front, spelled, hfront, hspells, rfl⟩
      obtain ⟨rendering, hrendering⟩ := hline.exists_isRenderLine
      refine ⟨before, after, front ++ "tags" :: spelled, rendering, hline, hrendering, ?_⟩
      rw [htail, htags]
      rcases hback with rfl | rfl
      · exact .inl rfl
      · exact .inr (by rw [List.append_assoc, List.cons_append])

end TagTemplate.Arguments
