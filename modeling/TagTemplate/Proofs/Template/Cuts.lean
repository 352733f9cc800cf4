import TagTemplate.Proofs.Template.Cursor

/-!
# Where a scanner cuts its source

The segments that a scanner hands out stand for the parts of its source between byte offsets that
increase from zero, so there is no gap and no overlap, and no character is parted. The last cut is
the end of the source if the scanner is exhausted, and the place of the marker at fault if it has
failed. Whatever is called after that gives nothing.
-/
namespace TagTemplate

open Piece (PairFree)

/-- Whether a maximal run of opening braces stands between two byte offsets. -/
def IsRun (source : String) (start stop : Nat) : Prop :=
  ∃ before length after, source.toList = before ++ List.replicate length '{' ++ after ∧
    Text.size before = start ∧ start + length = stop ∧
    before.getLast? ≠ some '{' ∧ after.head? ≠ some '{'

inductive Segment.Covers (source : String) (start stop : Nat) : Segment → Prop where
  | verbatim {text : List Char} (hslice : Text.slice? start stop source.toList = some text)
      (hne : text ≠ []) (hfree : PairFree '{' text) :
      Covers source start stop (.text (String.ofList text))
  | escape (hrun : IsRun source start stop) (hlength : start + 3 ≤ stop) :
      Covers source start stop (.text "\x7b")
  | tag {left name right : List Char}
      (hslice : Text.slice? start stop source.toList =
        some ('{' :: '{' :: (left ++ name ++ right ++ ['}', '}'])))
      (hleft : Text.Blank left) (hname : isTagName name = true) (hright : Text.Blank right) :
      Covers source start stop (.tag ⟨String.ofList name, start, stop⟩)

/-- Segments that stand one after the other for what lies between the cuts of a source, of which
the first is at a byte offset. -/
structure Tiles (source : String) (start : Nat) (cuts : List Nat) (segments : List Segment) :
    Prop where
  increasing : (start :: cuts).IsChain (· < ·)
  boundary : ∀ cut ∈ start :: cuts, String.Pos.Raw.IsValid source ⟨cut⟩
  covers : List.Forall₂ (fun (span : Nat × Nat) (segment : Segment) =>
    segment.Covers source span.1 span.2) ((start :: cuts).zip cuts) segments

inductive Ending (source : String) (offset : Nat) :
    List (Option (Except RenderError Segment)) → Prop where
  | running : Ending source offset []
  | exhausted (calls : Nat) (hend : offset = source.utf8ByteSize) :
      Ending source offset (List.replicate (calls + 1) none)
  | failed {e : RenderError} (calls : Nat) (hposition : e.position = .locate source offset)
      (hopen : Text.slice? offset (offset + 2) source.toList = some ['{', '{']) :
      Ending source offset (some (.error e) :: List.replicate calls none)

section Tiles

variable {source : String} {start stop : Nat} {cuts : List Nat} {segment : Segment}
  {segments : List Segment}

theorem tiles_nil (h : String.Pos.Raw.IsValid source ⟨start⟩) : Tiles source start [] [] := by
  refine ⟨.singleton start, ?_, .nil⟩
  rwa [List.forall_mem_singleton]

theorem Tiles.cons (hlt : start < stop) (hstart : String.Pos.Raw.IsValid source ⟨start⟩)
    (hcovers : segment.Covers source start stop) (h : Tiles source stop cuts segments) :
    Tiles source start (stop :: cuts) (segment :: segments) := by
  refine ⟨List.isChain_cons_cons.2 ⟨hlt, h.increasing⟩, ?_, .cons hcovers h.covers⟩
  exact List.forall_mem_cons.2 ⟨hstart, h.boundary⟩

end Tiles

/-- A piece stands for what it prints, and for the whole of a run if it is an escape. -/
theorem Piece.covers_segment {source : String} {before rest : List Char} {piece : Piece}
    (hsource : source.toList = before ++ (piece.print ++ rest))
    (hborder : ¬(before.getLast? = some '{' ∧ (piece.print ++ rest).head? = some '{'))
    (hwf : piece.WellFormed) (hends : piece.EndsBefore rest) :
    (piece.segment (Text.size before)).Covers source (Text.size before)
      (Text.size before + Text.size piece.print) := by
  have hslice : Text.slice? (Text.size before) (Text.size before + Text.size piece.print)
      source.toList = some piece.print := by
    rw [hsource, ← List.append_assoc, Text.slice?_append]
  cases piece with
  | literal text => exact .verbatim hslice hwf.1 hwf.2
  | escape length =>
    have hlength : 3 ≤ length := hwf
    have hsize : Text.size (escape length).print = length := Text.size_replicate_open length
    obtain ⟨k, rfl⟩ : ∃ k, length = k + 1 := Nat.exists_eq_add_of_le' (by omega)
    refine .escape ⟨before, k + 1, rest, ?_, rfl, ?_, fun hlast => hborder ⟨hlast, rfl⟩, hends⟩ ?_
    · rw [hsource, List.append_assoc]
      rfl
    · rw [hsize]
    · rw [hsize]
      omega
  | tag left name right => exact .tag hslice hwf.1 hwf.2.1 hwf.2.2

theorem Piece.Fault.slice?_open {fault : Fault} {before text : List Char} (h : fault.At text) :
    Text.slice? (Text.size before) (Text.size before + 2) (before ++ text) = some ['{', '{'] := by
  obtain ⟨after, rfl⟩ : ∃ after, text = '{' :: '{' :: after := by
    cases fault with
    | unterminated =>
      obtain ⟨after, rfl, -⟩ := h
      exact ⟨after, rfl⟩
    | malformed interior =>
      obtain ⟨rest, rfl, -⟩ := h
      exact ⟨_, rfl⟩
  have hslice := Text.slice?_append before ['{', '{'] after
  rwa [List.append_assoc] at hslice

namespace Scanner

variable {s : Scanner} {before : List Char}

theorem InPlace.isValid (h : s.InPlace before) : String.Pos.Raw.IsValid s.source ⟨s.offset⟩ := by
  rw [← Text.exists_splitAt?_iff, h.source_eq, ← h.size_eq]
  exact ⟨_, Text.splitAt?_append before s.rest⟩

/-- From any place on a scanner hands out segments for what lies between its cuts. -/
theorem InPlace.exists_tiles (h : s.InPlace before) (hrunning : s.failed = false) (calls : Nat) :
    ∃ (cuts : List Nat) (segments : List Segment)
      (ending : List (Option (Except RenderError Segment))),
      s.take calls = segments.map (fun segment => some (.ok segment)) ++ ending ∧
      Tiles s.source s.offset cuts segments ∧ Ending s.source (cuts.getLastD s.offset) ending := by
  induction calls generalizing s before with
  | zero => exact ⟨[], [], [], rfl, tiles_nil h.isValid, .running⟩
  | succ calls ih =>
    obtain ⟨result, s', hnext⟩ : ∃ result s', s.next = (result, s') := ⟨_, _, rfl⟩
    have hstep := step_of_next hnext
    obtain ⟨before', hplace⟩ := h.step hstep
    cases hstep with
    | done hdone =>
      refine ⟨[], [], _, ?_, tiles_nil h.isValid, .exhausted calls ?_⟩
      · exact take_of_isDone hdone _
      · have hrest : s.rest = [] := hdone.resolve_left (by simp [hrunning])
        have hsource := h.source_eq
        rw [hrest, List.append_nil] at hsource
        rw [← Text.size_toList, hsource, h.size_eq]
        rfl
    | @fault fault _ hfault =>
      refine ⟨[], [], _, ?_, tiles_nil h.isValid,
        .failed calls (fault.position_toError _) ?_⟩
      · rw [take_of_next hnext, take_of_isDone (.inl rfl)]
        rfl
      · rw [h.source_eq, ← h.size_eq]
        exact Piece.Fault.slice?_open hfault
    | @piece piece rest _ hrest hwf hends =>
      obtain ⟨cuts, segments, ending, htake, htiles, hending⟩ := ih hplace hrunning
      have hpos := Text.size_print_pos hwf
      refine ⟨(s.offset + Text.size piece.print) :: cuts, piece.segment s.offset :: segments,
        ending, ?_, ?_, ?_⟩
      · rw [take_of_next hnext, htake]
        rfl
      · refine .cons (by omega) h.isValid ?_ htiles
        rw [← h.size_eq]
        exact Piece.covers_segment (hrest ▸ h.source_eq) (hrest ▸ h.border) hwf hends
      · rwa [List.getLastD_cons]

/-- However often a scanner is called, its answers are segments that tile its source from the start,
and after them nothing but one error, if anything: the end of the source or the place of the error
is the last cut. All slices by byte offsets that it takes for these answers lie between characters
of the source, and it answers no more often than the source has bytes. -/
theorem take_tiles_source (template : String) :
    (∀ calls, ∃ (cuts : List Nat) (segments : List Segment)
      (ending : List (Option (Except RenderError Segment))),
      (ofString template).take calls =
        segments.map (fun segment => some (.ok segment)) ++ ending ∧
      Tiles template 0 cuts segments ∧ Ending template (cuts.getLastD 0) ending) ∧
    (∀ calls, (Cursor.ofString template).take calls = some ((ofString template).take calls)) ∧
    ∃ total ≤ template.utf8ByteSize, ∀ calls i, i < calls →
      (((ofString template).take calls)[i]? = some none ↔ total ≤ i) := by
  have hplace := inPlace_ofString template
  refine ⟨hplace.exists_tiles rfl, Cursor.take_cursor hplace, ?_⟩
  refine ⟨(scan template).length, ?_, fun calls i hi => ?_⟩
  · calc (scan template).length
      _ ≤ (ofString template).remaining := length_results_le _
      _ = template.toList.length := rfl
      _ ≤ Text.size template.toList := Text.length_le_size _
      _ = template.utf8ByteSize := Text.size_toList template
  · rw [getElem?_take hi, Option.some_inj, List.getElem?_eq_none_iff]
    rfl

end Scanner
end TagTemplate
