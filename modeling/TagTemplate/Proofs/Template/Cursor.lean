import TagTemplate.Proofs.Template.Append
import TagTemplate.Proofs.Text.Bytes

/-!
# Scanning by byte offsets

A cursor knows its place in a source by a byte offset alone. It searches the bytes of the slice that
begins there, and takes further slices at the places that it finds. A slice that would begin or end
within a character, or beyond the end, is not taken: such a step has no result. No step is of that
kind, and a cursor hands out what a scanner hands out.
-/
namespace TagTemplate

structure Cursor where
  source : String
  /-- Bytes of the source that have been handed out. -/
  offset : Nat
  failed : Bool

namespace Cursor

def ofString (template : String) : Cursor := ⟨template, 0, false⟩

/-- An error at the place of the cursor, which lies at the end of the slice before it. -/
def fail (c : Cursor) (fault : Piece.Fault) : Option (Except RenderError Segment × Cursor) := do
  let before ← Text.sliceTo? c.offset c.source.toList
  return (.error (fault.toError (.locate (String.ofList before) c.offset)),
    { c with failed := true })

def nextMarker (c : Cursor) : Option (Except RenderError Segment × Cursor) := do
  let rest ← Text.sliceFrom? c.offset c.source.toList
  let run := ((Text.bytes rest).takeWhile (· == 0x7b)).length
  if 2 < run then return (.ok (.text "\x7b"), { c with offset := c.offset + run })
  else
    let body ← Text.sliceFrom? 2 rest
    match Text.findBytes? [0x7d, 0x7d] (Text.bytes body) with
    | none => c.fail .unterminated
    | some close =>
      let interior ← Text.sliceTo? close body
      let name := Text.trim interior
      if isTagName name then
        let stop := c.offset + 2 + close + 2
        return (.ok (.tag ⟨String.ofList name, c.offset, stop⟩), { c with offset := stop })
      else c.fail (.malformed interior)

def next (c : Cursor) : Option (Option (Except RenderError Segment) × Cursor) :=
  if c.failed || Text.size c.source.toList ≤ c.offset then some (none, c)
  else do
    let rest ← Text.sliceFrom? c.offset c.source.toList
    match Text.findBytes? [0x7b, 0x7b] (Text.bytes rest) with
    | none =>
      return (some (.ok (.text (String.ofList rest))),
        { c with offset := Text.size c.source.toList })
    | some 0 =>
      let (result, c) ← c.nextMarker
      return (some result, c)
    | some length =>
      let text ← Text.sliceTo? length rest
      return (some (.ok (.text (String.ofList text))), { c with offset := c.offset + length })

def take (c : Cursor) : Nat → Option (List (Option (Except RenderError Segment)))
  | 0 => some []
  | calls + 1 => do
    let (result, c) ← c.next
    let results ← c.take calls
    return result :: results

end Cursor

def Scanner.cursor (s : Scanner) : Cursor := ⟨s.source, s.offset, s.failed⟩

namespace Cursor

variable {s : Scanner} {before after : List Char}

theorem utf8EncodeChar_open : String.utf8EncodeChar '{' = [0x7b] := rfl

theorem utf8EncodeChar_close : String.utf8EncodeChar '}' = [0x7d] := rfl

theorem size_print_tag (interior : List Char) :
    Text.size (Piece.tag (Text.leadingBlanks interior) (Text.trim interior)
      (Text.trailingBlanks interior)).print = 2 + Text.size interior + 2 := by
  have hclose : Text.size ['}', '}'] = 2 := rfl
  have hopen : ('{').utf8Size = 1 := rfl
  rw [Piece.print, Text.leading_trim_trailing, Text.size_cons, Text.size_cons, Text.size_append,
    hclose, hopen]
  omega

theorem sliceTo?_of_inPlace (h : s.InPlace before) :
    Text.sliceTo? s.offset s.source.toList = some before := by
  rw [h.source_eq, ← h.size_eq, Text.sliceTo?_append]

theorem sliceFrom?_of_inPlace (h : s.InPlace before) :
    Text.sliceFrom? s.offset s.source.toList = some s.rest := by
  rw [h.source_eq, ← h.size_eq, Text.sliceFrom?_append]

theorem fail_cursor (h : s.InPlace before) (fault : Piece.Fault) :
    s.cursor.fail fault = some
      (.error (fault.toError (.locate s.source s.offset)), { s.cursor with failed := true }) := by
  have hslice : Text.sliceTo? s.cursor.offset s.cursor.source.toList = some before :=
    sliceTo?_of_inPlace h
  have hlocate : Position.locate (String.ofList before) s.offset =
      Position.locate s.source s.offset := by
    have hbefore : (String.ofList before).toList = before ++ [] := by
      rw [String.toList_ofList, List.append_nil]
    rw [← h.size_eq]
    exact Position.locate_eq_of_append hbefore h.source_eq
  rw [fail, hslice]
  change some (Except.error (fault.toError (.locate (String.ofList before) s.offset)), _) = _
  rw [hlocate]

/-- At two opening braces a cursor does what is read from the text after them. -/
theorem nextMarker_cursor (h : s.InPlace before) (hrest : s.rest = '{' :: '{' :: after) :
    s.cursor.nextMarker = some
      (match Piece.readMarker after with
      | .error fault => (.error (fault.toError (.locate s.source s.offset)),
          { s.cursor with failed := true })
      | .ok (piece, _) => (.ok (piece.segment s.offset),
          { s.cursor with offset := s.offset + Text.size piece.print })) := by
  have hslice : Text.sliceFrom? s.cursor.offset s.cursor.source.toList =
      some ('{' :: '{' :: after) := hrest ▸ sliceFrom?_of_inPlace h
  have hrun : ((Text.bytes ('{' :: '{' :: after)).takeWhile (· == 0x7b)).length =
      (after.takeWhile (· == '{')).length + 2 := by
    rw [Text.length_takeWhile_bytes utf8EncodeChar_open]
    rfl
  have hbody : Text.sliceFrom? 2 ('{' :: '{' :: after) = some after :=
    Text.sliceFrom?_append ['{', '{'] after
  unfold nextMarker
  rw [hslice]
  simp only [Option.bind_eq_bind, Option.bind_some, hrun, hbody]
  unfold Piece.readMarker
  cases htake : after.takeWhile (· == '{') with
  | nil =>
    rw [if_neg (by simp), Text.findBytes?_pair utf8EncodeChar_close]
    cases hcut : Piece.cutAtPair '}' after with
    | none => exact fail_cursor h .unterminated
    | some parts =>
      obtain ⟨interior, rest⟩ := parts
      have hinterior : Text.sliceTo? (Text.size interior) after = some interior := by
        rw [Piece.eq_of_cutAtPair hcut, Text.sliceTo?_append]
      simp only [Option.map_some, hinterior, Option.bind_some]
      split_ifs with hname
      · simp only [Option.pure_def, Piece.segment, size_print_tag, Scanner.cursor, Nat.add_assoc]
      · exact fail_cursor h (.malformed interior)
  | cons c more =>
    rw [if_pos (by simp)]
    simp only [Option.pure_def, Piece.segment, Piece.print, Text.size_replicate_open,
      List.length_cons]
    rfl

theorem isDone_cursor_iff (h : s.InPlace before) :
    (s.cursor.failed || decide (Text.size s.cursor.source.toList ≤ s.cursor.offset)) = true ↔
      s.IsDone := by
  have hsize : Text.size s.cursor.source.toList = s.cursor.offset + Text.size s.rest := by
    change Text.size s.source.toList = s.offset + Text.size s.rest
    rw [h.source_eq, Text.size_append, h.size_eq]
  rw [Bool.or_eq_true, decide_eq_true_eq, hsize, Scanner.IsDone, ← Text.size_eq_zero_iff]
  apply or_congr_right
  omega

/-- A step of a cursor is the step of the scanner at its place. -/
theorem next_cursor (h : s.InPlace before) :
    s.cursor.next = some (s.next.1, s.next.2.cursor) := by
  by_cases hdone : s.IsDone
  · rw [next, if_pos ((isDone_cursor_iff h).2 hdone), Scanner.next_of_isDone hdone]
  · have hslice : Text.sliceFrom? s.cursor.offset s.cursor.source.toList = some s.rest :=
      sliceFrom?_of_inPlace h
    rw [next, if_neg (mt (isDone_cursor_iff h).1 hdone), hslice, Scanner.next_of_not_isDone hdone]
    simp only [Option.bind_eq_bind, Option.bind_some, Text.findBytes?_pair utf8EncodeChar_open]
    unfold Piece.read
    cases hcut : Piece.cutAtPair '{' s.rest with
    | none =>
      have hend : Text.size s.cursor.source.toList = s.offset + Text.size s.rest := by
        change Text.size s.source.toList = _
        rw [h.source_eq, Text.size_append, h.size_eq]
      simp only [Option.map_none, hend]
      rfl
    | some parts =>
      obtain ⟨first, after⟩ := parts
      have hrest := Piece.eq_of_cutAtPair hcut
      cases first with
      | nil =>
        simp only [Option.map_some, Text.size_nil, nextMarker_cursor h hrest, Option.bind_some]
        cases Piece.readMarker after with
        | error fault => rfl
        | ok result => rfl
      | cons c first =>
        have hpos := c.utf8Size_pos
        obtain ⟨length, hlength⟩ : ∃ length, Text.size (c :: first) = length + 1 :=
          Nat.exists_eq_add_of_le' (by rw [Text.size_cons]; omega)
        have htext : Text.sliceTo? (length + 1) s.rest = some (c :: first) := by
          rw [hrest, ← hlength, Text.sliceTo?_append]
        simp only [Option.map_some, hlength, htext, Option.bind_some, Piece.segment, Piece.print]
        rfl

theorem take_cursor (h : s.InPlace before) (calls : Nat) :
    s.cursor.take calls = some (s.take calls) := by
  induction calls generalizing s before with
  | zero => rfl
  | succ calls ih =>
    obtain ⟨before', hnext⟩ := h.step s.step_next
    rw [take, next_cursor h]
    simp only [Option.bind_eq_bind, Option.bind_some, ih hnext]
    rfl

end Cursor
end TagTemplate
