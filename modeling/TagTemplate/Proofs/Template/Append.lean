import TagTemplate.Proofs.Template.Walk

/-!
# Rendering templates put together

Where no run of opening braces crosses the border, a template after one that is rendered is rendered
as if it stood alone, but for the positions of its errors. A tag without a value and a malformed tag
are there to stay, whatever is put after them; an unterminated one may be closed later.
-/
namespace TagTemplate

def RenderError.moveTo (position : Position) : RenderError → RenderError
  | unknownTag name _ => .unknownTag name position
  | malformedTag raw _ => .malformedTag raw position
  | unterminatedPlaceholder _ => .unterminatedPlaceholder position

theorem RenderError.moveTo_position (e : RenderError) : e.moveTo e.position = e := by
  cases e <;> rfl

theorem Piece.Fault.moveTo_toError (fault : Fault) (position other : Position) :
    (fault.toError position).moveTo other = fault.toError other := by
  cases fault <;> rfl

/-- The place of a position depends only on the text before it. -/
theorem Position.locate_eq_of_append {source source' : String} {before after after' : List Char}
    (h : source.toList = before ++ after) (h' : source'.toList = before ++ after') :
    locate source (Text.size before) = locate source' (Text.size before) := by
  rw [locate, locate, h, h', Text.takeBytes_size_append, Text.takeBytes_size_append]

section Border

variable {piece : Piece} {text rest : List Char}

theorem Piece.border_append (hborder : ¬(piece.print.getLast? = some '{' ∧ text.head? = some '{'))
    (hrest : text = [] → ¬(piece.print.getLast? = some '{' ∧ rest.head? = some '{')) :
    ¬(piece.print.getLast? = some '{' ∧ (text ++ rest).head? = some '{') := by
  cases text with
  | nil => exact hrest rfl
  | cons c text => exact hborder

/-- The border after a piece and a text is that of the text alone, and what follows does not make
the piece meet a brace. -/
theorem Piece.border_of_append
    (hpiece : ¬(piece.print.getLast? = some '{' ∧ text.head? = some '{'))
    (hborder : ¬((piece.print ++ text).getLast? = some '{' ∧ rest.head? = some '{')) :
    ¬(text.getLast? = some '{' ∧ rest.head? = some '{') ∧
      ¬(piece.print.getLast? = some '{' ∧ (text ++ rest).head? = some '{') := by
  constructor
  · by_cases hnil : text = []
    · simp [hnil]
    · rwa [getLast?_append_of_ne_nil hnil] at hborder
  · apply border_append hpiece
    rintro rfl
    simpa only [List.append_nil] using hborder

end Border

variable {M : Type u} [Model M] {model : M} {source : String} {offset : Nat}
  {text rest : List Char}

/-- A text that is rendered leaves what follows it to be rendered on its own. -/
theorem walk_append {out : String} (h : walk model source offset text = .ok out)
    (hborder : ¬(text.getLast? = some '{' ∧ rest.head? = some '{')) :
    walk model source offset (text ++ rest) =
      (walk model source (offset + Text.size text) rest).map (out ++ ·) := by
  induction text using Piece.text_induction generalizing offset out with
  | nil =>
    rw [walk_nil] at h
    rw [← Except.ok.inj h]
    exact (Result.map_eq_self (fun _ => String.empty_append) _).symm
  | fault fault text hfault => simp [walk_fault model source offset hfault] at h
  | piece piece tail hwf hends ih =>
    have hpiece := Piece.border_of_endsBefore hwf hends
    obtain ⟨htail, hjoined⟩ := Piece.border_of_append hpiece hborder
    rw [walk_piece model source offset hwf hpiece] at h
    rw [List.append_assoc, walk_piece model source offset hwf hjoined]
    cases houtput : piece.output model (.locate source offset) with
    | error e =>
      rw [houtput] at h
      cases h
    | ok value =>
      rw [houtput] at h
      obtain ⟨more, hmore, rfl⟩ := Result.map_eq_ok_iff.1 h
      have hrest := ih hmore htail
      simp only [Result.bind_ok, hrest, Result.map_map, Text.size_append, Nat.add_assoc,
        String.append_assoc]

theorem Piece.Fault.at_append {fault : Fault} (h : fault.At text)
    (hne : fault ≠ .unterminated) : fault.At (text ++ rest) := by
  cases fault with
  | unterminated => exact absurd rfl hne
  | malformed interior =>
    obtain ⟨after, rfl, hinterior⟩ := h
    exact ⟨after ++ rest, by simp, hinterior⟩

/-- An error that does not come from the end of the text is there whatever follows. -/
theorem walk_append_of_error {e : RenderError} (h : walk model source offset text = .error e)
    (hne : ∀ position, e ≠ .unterminatedPlaceholder position) :
    walk model source offset (text ++ rest) = .error e := by
  induction text using Piece.text_induction generalizing offset with
  | nil => simp [walk_nil] at h
  | fault fault text hfault =>
    rw [walk_fault model source offset hfault] at h
    have hdefinite : fault ≠ .unterminated := by
      rintro rfl
      exact hne _ (Except.error.inj h).symm
    rw [walk_fault model source offset (Piece.Fault.at_append hfault hdefinite), h]
  | piece piece tail hwf hends ih =>
    have hpiece := Piece.border_of_endsBefore hwf hends
    rw [walk_piece model source offset hwf hpiece] at h
    have hjoined : ¬(piece.print.getLast? = some '{' ∧ (tail ++ rest).head? = some '{') := by
      apply Piece.border_append hpiece
      rintro rfl
      -- With nothing after it only a tag can fail, and a tag ends in a closing brace.
      cases piece with
      | literal text => simp [Piece.output, walk_nil] at h
      | escape length => simp [Piece.output, walk_nil] at h
      | tag left name right => simp [Piece.print, List.getLast?_append, List.getLast?_cons]
    rw [List.append_assoc, walk_piece model source offset hwf hjoined]
    cases houtput : piece.output model (.locate source offset) with
    | error e' =>
      rw [houtput] at h
      exact h
    | ok value =>
      rw [houtput] at h
      have hrest := ih (Result.map_eq_error_iff.1 h)
      simp only [Result.bind_ok, hrest, Result.map_error]

theorem Piece.output_moveTo (piece : Piece) (position other : Position) :
    piece.output model other = (piece.output model position).mapError (·.moveTo other) := by
  cases piece with
  | literal text => rfl
  | escape length => rfl
  | tag left name right =>
    rw [output, output]
    cases Model.lookup model (String.ofList name) with
    | none => rfl
    | some value => rfl

theorem Piece.position_of_output {piece : Piece} {position : Position} {e : RenderError}
    (h : piece.output model position = .error e) : e.position = position := by
  cases piece with
  | literal text => cases h
  | escape length => cases h
  | tag left name right =>
    rw [output] at h
    split at h
    · rw [← Except.error.inj h]
      rfl
    · cases h

/-- Elsewhere in a source, or in another source, only the positions of errors are different. -/
theorem walk_shift (source source' : String) (shift offset : Nat) (text : List Char) :
    walk model source (shift + offset) text =
      (walk model source' offset text).mapError fun e =>
        e.moveTo (.locate source (shift + e.position.offset)) := by
  induction text using Piece.text_induction generalizing offset with
  | nil => rw [walk_nil, walk_nil]; rfl
  | fault fault text h =>
    rw [walk_fault model source _ h, walk_fault model source' _ h]
    simp only [Result.mapError_error, Piece.Fault.moveTo_toError, Piece.Fault.position_toError]
    rfl
  | piece piece rest hwf hends ih =>
    have hpiece := Piece.border_of_endsBefore hwf hends
    rw [walk_piece model source _ hwf hpiece, walk_piece model source' _ hwf hpiece,
      Piece.output_moveTo piece (.locate source' offset)]
    cases houtput : piece.output model (.locate source' offset) with
    | error e =>
      have hposition := Piece.position_of_output houtput
      simp only [Result.mapError_error, Result.bind_error, hposition]
      rfl
    | ok value =>
      simp only [Result.mapError_ok, Result.bind_ok, Nat.add_assoc, ih, Result.mapError_map]

/-- An error stands at the end of some part of the text. -/
theorem exists_append_of_walk_eq_error {e : RenderError}
    (h : walk model source offset text = .error e) :
    ∃ before after, text = before ++ after ∧
      e.position = .locate source (offset + Text.size before) := by
  induction text using Piece.text_induction generalizing offset with
  | nil => simp [walk_nil] at h
  | fault fault text hfault =>
    rw [walk_fault model source offset hfault] at h
    rw [← Except.error.inj h, Piece.Fault.position_toError]
    exact ⟨[], text, rfl, rfl⟩
  | piece piece rest hwf hends ih =>
    rw [walk_piece model source offset hwf (Piece.border_of_endsBefore hwf hends)] at h
    cases houtput : piece.output model (.locate source offset) with
    | error e' =>
      rw [houtput] at h
      rw [← Except.error.inj h]
      exact ⟨[], piece.print ++ rest, rfl, Piece.position_of_output houtput⟩
    | ok value =>
      rw [houtput] at h
      obtain ⟨before, after, rfl, hposition⟩ := ih (Result.map_eq_error_iff.1 h)
      refine ⟨piece.print ++ before, after, (List.append_assoc ..).symm, ?_⟩
      rw [hposition, Text.size_append, Nat.add_assoc]

/-- Templates are rendered one after the other unless a run of braces crosses the border between
them, and a definite error of the first is the error of both. -/
theorem render_append (model : M) (a b : String) :
    (∀ out, render model a = .ok out →
      ¬(a.toList.getLast? = some '{' ∧ b.toList.head? = some '{') →
        render model (a ++ b) =
          match render model b with
          | .ok more => .ok (out ++ more)
          | .error e =>
            .error (e.moveTo (.locate (a ++ b) (Text.size a.toList + e.position.offset)))) ∧
    ∀ e, render model a = .error e →
      (∃ name position, e = .unknownTag name position) ∨
        (∃ raw position, e = .malformedTag raw position) →
      render model (a ++ b) = .error e := by
  simp only [render, scan_eq_resultsFrom, join_fill_resultsFrom, String.toList_append]
  constructor
  · intro out hout hborder
    have ha : walk model (a ++ b) 0 a.toList = .ok out := by
      rw [← Nat.zero_add 0, walk_shift (a ++ b) a 0 0 a.toList, hout]
      rfl
    rw [walk_append ha hborder, Nat.zero_add]
    have hb : walk model (a ++ b) (Text.size a.toList) b.toList =
        (walk model b 0 b.toList).mapError fun e =>
          e.moveTo (.locate (a ++ b) (Text.size a.toList + e.position.offset)) :=
      walk_shift (a ++ b) b (Text.size a.toList) 0 b.toList
    rw [hb]
    cases walk model b 0 b.toList with
    | ok more => rfl
    | error e => rfl
  · intro e he hdefinite
    have hne : ∀ position, e ≠ .unterminatedPlaceholder position := by
      rintro position rfl
      simp at hdefinite
    obtain ⟨before, after, hsplit, hposition⟩ := exists_append_of_walk_eq_error he
    rw [Nat.zero_add] at hposition
    have hplace : Position.locate (a ++ b) (0 + e.position.offset) = e.position := by
      have hoffset : e.position.offset = Text.size before := by rw [hposition]; rfl
      rw [Nat.zero_add, hoffset, hposition]
      have hboth : (a ++ b).toList = before ++ (after ++ b.toList) := by
        rw [String.toList_append, hsplit, List.append_assoc]
      exact Position.locate_eq_of_append hboth hsplit
    have ha : walk model (a ++ b) 0 a.toList = .error e := by
      rw [← Nat.zero_add 0, walk_shift (a ++ b) a 0 0 a.toList, he]
      simp only [Result.mapError_error, hplace, RenderError.moveTo_position]
    exact walk_append_of_error ha hne

theorem render_append_sample :
    render (Table.ofList [("a", "é")]) ("x\n\x7b\x7ba\x7d\x7d" ++ "\x7d\n \x7b\x7bb\x7d\x7d") =
        .error (.unknownTag "b" ⟨10, 3, 2⟩) ∧
      render (Table.ofList [("a", "é")]) ("\x7b\x7bb\x7d\x7d\x7b\x7b" ++ "\x7b") =
        .error (.unknownTag "b" ⟨0, 1, 1⟩) := by
  have hfirst : render (Table.ofList [("a", "é")]) "x\n\x7b\x7ba\x7d\x7d" = .ok "x\né" := by
    decide +kernel
  have hsecond : render (Table.ofList [("a", "é")]) "\x7d\n \x7b\x7bb\x7d\x7d" =
      .error (.unknownTag "b" ⟨3, 2, 2⟩) := by decide +kernel
  have hunknown : render (Table.ofList [("a", "é")]) "\x7b\x7bb\x7d\x7d\x7b\x7b" =
      .error (.unknownTag "b" ⟨0, 1, 1⟩) := by decide +kernel
  constructor
  · have hboth := (render_append (Table.ofList [("a", "é")]) _ "\x7d\n \x7b\x7bb\x7d\x7d").1 _
      hfirst (by decide)
    rw [hsecond] at hboth
    exact hboth.trans (by decide)
  · exact (render_append _ _ "\x7b").2 _ hunknown (.inl ⟨"b", _, rfl⟩)

end TagTemplate
