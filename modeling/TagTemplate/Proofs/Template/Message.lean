import TagTemplate.Proofs.Engine
import TagTemplate.Proofs.Template.Append
import TagTemplate.Proofs.Template.Position
import TagTemplate.Proofs.Text.Decimal

/-!
# Messages of errors

A message is read from its right end: the digits after the last colon are the column, those after
the last space before it are the line, and what stands before that tells the kind of the error and
what it names, whatever an interior holds. Line and column give back the offset, since the error
stands between two characters of the template. So no two errors of a template have the same message.
-/
namespace TagTemplate

/-- The errors that a template can end in, whatever is asked of it and whatever has values. -/
inductive RenderError.IsOf (template : String) : RenderError → Prop where
  | render {M : Type u} [Model M] (model : M) {e : RenderError}
      (h : TagTemplate.render model template = .error e) : IsOf template e
  | placeholders {e : RenderError} (h : TagTemplate.placeholders template = .error e) :
      IsOf template e
  | tagNames {e : RenderError} (h : TagTemplate.tagNames template = .error e) : IsOf template e
  | missingTags (engine : Engine) {e : RenderError} (h : engine.missingTags template = .error e) :
      IsOf template e

variable {template : String} {e e' : RenderError} {p q : Position}

section Place

def Position.IsIn (source : String) (p : Position) : Prop :=
  ∃ before after, source.toList = before ++ after ∧ p = .locate source (Text.size before)

theorem isIn_of_render {M : Type u} [Model M] {model : M} (h : render model template = .error e) :
    e.position.IsIn template := by
  rw [render, scan_eq_resultsFrom, join_fill_resultsFrom] at h
  obtain ⟨before, after, hsplit, hposition⟩ := exists_append_of_walk_eq_error h
  rw [Nat.zero_add] at hposition
  exact ⟨before, after, hsplit, hposition⟩

/-- Where every name has a value rendering fails only at what cannot be scanned. -/
theorem isIn_of_placeholders (h : placeholders template = .error e) :
    e.position.IsIn template := by
  have hrender : render (fun _ : String => some "") template = .error e :=
    render_eq_error_of_placeholders h fun tag _ => ⟨"", rfl⟩
  exact isIn_of_render hrender

theorem RenderError.IsOf.isIn (h : e.IsOf template) : e.position.IsIn template := by
  cases h with
  | render model h => exact isIn_of_render h
  | placeholders h => exact isIn_of_placeholders h
  | tagNames h => exact isIn_of_placeholders (Result.map_eq_error_iff.1 h)
  | missingTags engine h => exact isIn_of_placeholders (Engine.missingTags_eq_error_iff.1 h)

theorem Position.IsIn.eq (hp : p.IsIn template) (hq : q.IsIn template) (hline : p.line = q.line)
    (hcolumn : p.column = q.column) : p = q := by
  obtain ⟨before, after, hsplit, rfl⟩ := hp
  obtain ⟨before', after', hsplit', rfl⟩ := hq
  rw [size_eq_of_locate hsplit hsplit' hline hcolumn]

end Place

section Reading

theorem Position.toList_display (p : Position) :
    p.display.toList = Nat.toDigits 10 p.line ++ ':' :: Nat.toDigits 10 p.column := by
  rw [display, String.toList_append, String.toList_append, Nat.toString_eq_repr,
    Nat.toString_eq_repr, Nat.toList_repr, Nat.toList_repr, List.append_assoc]
  rfl

/-- A place at the end of a text, and what stands before it, are told by the text. -/
theorem Position.eq_of_append_display {before before' : List Char}
    (h : before ++ ' ' :: p.display.toList = before' ++ ' ' :: q.display.toList) :
    before = before' ∧ p.line = q.line ∧ p.column = q.column := by
  have hdigits : ∀ n, ∀ c ∈ Nat.toDigits 10 n, c.isDigit = true := fun n c =>
    Text.isDigit_of_mem_toDigits
  have hlast : (before ++ ' ' :: Nat.toDigits 10 p.line) ++ ':' :: Nat.toDigits 10 p.column =
      (before' ++ ' ' :: Nat.toDigits 10 q.line) ++ ':' :: Nat.toDigits 10 q.column := by
    simpa only [toList_display, List.append_assoc, List.cons_append] using h
  obtain ⟨hfirst, -, hcolumn⟩ :=
    Text.eq_of_append_cons_eq (hdigits p.column) (hdigits q.column) (by decide) (by decide) hlast
  obtain ⟨hbefore, -, hline⟩ :=
    Text.eq_of_append_cons_eq (hdigits p.line) (hdigits q.line) (by decide) (by decide) hfirst
  exact ⟨hbefore, Text.toDigits_injective hline, Text.toDigits_injective hcolumn⟩

end Reading

namespace RenderError

def subject : RenderError → String
  | unknownTag name _ => "unknown tag `" ++ name ++ "` at"
  | malformedTag raw _ => "malformed tag `" ++ raw ++ "` at"
  | unterminatedPlaceholder _ => "unterminated placeholder at"

@[simp] theorem subject_unknownTag (name : String) (p : Position) :
    (unknownTag name p).subject = "unknown tag `" ++ name ++ "` at" := rfl

@[simp] theorem subject_malformedTag (raw : String) (p : Position) :
    (malformedTag raw p).subject = "malformed tag `" ++ raw ++ "` at" := rfl

@[simp] theorem subject_unterminatedPlaceholder (p : Position) :
    (unterminatedPlaceholder p).subject = "unterminated placeholder at" := rfl

theorem toList_message (e : RenderError) :
    e.message.toList = e.subject.toList ++ ' ' :: e.position.display.toList := by
  have hquote : "` at ".toList = "` at".toList ++ [' '] := rfl
  have hplain : "unterminated placeholder at ".toList =
      "unterminated placeholder at".toList ++ [' '] := rfl
  cases e with
  | unknownTag name p =>
    change ("unknown tag `" ++ name ++ "` at " ++ p.display).toList = _
    simp only [subject_unknownTag, position, String.toList_append, hquote, List.append_assoc,
      List.singleton_append]
  | malformedTag raw p =>
    change ("malformed tag `" ++ raw ++ "` at " ++ p.display).toList = _
    simp only [subject_malformedTag, position, String.toList_append, hquote, List.append_assoc,
      List.singleton_append]
  | unterminatedPlaceholder p =>
    change ("unterminated placeholder at " ++ p.display).toList = _
    simp only [subject_unterminatedPlaceholder, position, String.toList_append, hplain,
      List.append_assoc, List.singleton_append]

/-- The kind of an error and what it names are told by how its message begins. -/
theorem moveTo_eq_of_subject_eq (h : e.subject.toList = e'.subject.toList) (position : Position) :
    e.moveTo position = e'.moveTo position := by
  cases e with
  | unknownTag name p =>
    cases e' with
    | unknownTag name' p' =>
      rw [String.toList_inj, subject_unknownTag, subject_unknownTag, String.append_left_inj,
        String.append_right_inj] at h
      rw [h, moveTo, moveTo]
    | malformedTag raw p' => simp at h
    | unterminatedPlaceholder p' => simp at h
  | malformedTag raw p =>
    cases e' with
    | unknownTag name p' => simp at h
    | malformedTag raw' p' =>
      rw [String.toList_inj, subject_malformedTag, subject_malformedTag, String.append_left_inj,
        String.append_right_inj] at h
      rw [h, moveTo, moveTo]
    | unterminatedPlaceholder p' => simp at h
  | unterminatedPlaceholder p =>
    cases e' with
    | unknownTag name p' => simp at h
    | malformedTag raw p' => simp at h
    | unterminatedPlaceholder p' => rfl

/-- No two errors of a template have the same message. -/
theorem eq_of_message_eq (h : e.IsOf template) (h' : e'.IsOf template)
    (hmessage : e.message = e'.message) : e = e' := by
  have hlist := congrArg String.toList hmessage
  rw [toList_message, toList_message] at hlist
  obtain ⟨hsubject, hline, hcolumn⟩ := Position.eq_of_append_display hlist
  have hposition : e.position = e'.position := h.isIn.eq h'.isIn hline hcolumn
  calc e
    _ = e.moveTo e.position := e.moveTo_position.symm
    _ = e'.moveTo e.position := moveTo_eq_of_subject_eq hsubject _
    _ = e'.moveTo e'.position := by rw [hposition]
    _ = e' := e'.moveTo_position

theorem eq_of_message_eq_sample :
    ∃ e e', TagTemplate.render (Table.ofList [("a", "x")])
        "\x7b\x7b a\x7d\x7d\n\x7b\x7b` at 1:9\x7d\x7d" = .error e ∧
      Engine.empty.missingTags "\x7b\x7b a\x7d\x7d\n\x7b\x7b` at 1:9\x7d\x7d" = .error e' ∧
      e.message = "malformed tag `` at 1:9` at 2:1" ∧ e'.message = e.message ∧ e = e' := by
  have hrender : TagTemplate.render (Table.ofList [("a", "x")])
      "\x7b\x7b a\x7d\x7d\n\x7b\x7b` at 1:9\x7d\x7d" =
        .error (.malformedTag "` at 1:9" ⟨7, 2, 1⟩) := by decide +kernel
  have hmissing : Engine.empty.missingTags
      "\x7b\x7b a\x7d\x7d\n\x7b\x7b` at 1:9\x7d\x7d" =
        .error (.malformedTag "` at 1:9" ⟨7, 2, 1⟩) := by decide +kernel
  exact ⟨_, _, hrender, hmissing, by decide, rfl,
    eq_of_message_eq (.render _ hrender) (IsOf.missingTags.{0} _ hmissing) rfl⟩

end RenderError
end TagTemplate
