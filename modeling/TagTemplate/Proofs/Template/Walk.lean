import TagTemplate.Proofs.Result
import TagTemplate.Proofs.Template.Scan
import TagTemplate.Proofs.Text.Find

/-!
# Rendering one character at a time

`walk` is the rule of rendering as it is told to a user: it looks at what is left of a template,
copies a character, collapses a run of braces or fills in a tag, and goes on with what is left after
it. Rendering cuts templates at far places instead; both give the same text or the same error.
-/
namespace TagTemplate

def openingRun (text : List Char) : Nat := (text.takeWhile (· == '{')).length

variable {M : Type u} [Model M]

/-- The rendered text of what is left of a source after a byte offset. -/
def walk (model : M) (source : String) (offset : Nat) : List Char → Except RenderError String
  | [] => .ok ""
  | c :: text =>
    if 3 ≤ openingRun (c :: text) then
      (walk model source (offset + openingRun (c :: text))
        ((c :: text).drop (openingRun (c :: text)))).map ("\x7b" ++ ·)
    else if openingRun (c :: text) = 2 then
      let body := text.drop 1
      match Text.find? ['}', '}'] body with
      | none => .error (.unterminatedPlaceholder (.locate source offset))
      | some length =>
        let interior := body.take length
        let name := String.ofList (Text.trim interior)
        if isTagName name.toList then
          match Model.lookup model name with
          | none => .error (.unknownTag name (.locate source offset))
          | some value =>
            (walk model source (offset + 2 + Text.size interior + 2)
              (body.drop (length + 2))).map (value ++ ·)
        else .error (.malformedTag (String.ofList interior) (.locate source offset))
    else (walk model source (offset + c.utf8Size) text).map (String.singleton c ++ ·)
termination_by text => text.length
decreasing_by
  all_goals simp only [List.length_drop, List.length_cons]; omega

def Piece.output (model : M) (position : Position) : Piece → Except RenderError String
  | literal text => .ok (String.ofList text)
  | escape _ => .ok "\x7b"
  | tag _ name _ =>
    match Model.lookup model (String.ofList name) with
    | none => .error (.unknownTag (String.ofList name) position)
    | some value => .ok value

section OpeningRun

variable {c : Char} {text rest : List Char}

theorem openingRun_lt_two (h : ¬(c = '{' ∧ text.head? = some '{')) :
    openingRun (c :: text) < 2 := by
  by_cases hc : c = '{'
  · cases text with
    | nil => simp [openingRun, hc]
    | cons d text =>
      have hd : d ≠ '{' := by
        rintro rfl
        exact h ⟨hc, rfl⟩
      simp [openingRun, hc, hd]
  · simp [openingRun, hc]

theorem openingRun_replicate (length : Nat) (h : rest.head? ≠ some '{') :
    openingRun (List.replicate length '{' ++ rest) = length := by
  have hrun : ∀ c ∈ List.replicate length '{', (c == '{') = true := by
    intro c hc
    simp [List.eq_of_mem_replicate hc]
  rw [openingRun, Text.takeWhile_append_of_head? hrun (Piece.forall_head?_beq_eq_false h),
    List.length_replicate]

theorem openingRun_open (h : rest.head? ≠ some '{') : openingRun ('{' :: '{' :: rest) = 2 :=
  openingRun_replicate 2 h

end OpeningRun

section Walk

variable (model : M) (source : String) (offset : Nat)

theorem walk_cons {c : Char} {text : List Char} (h : ¬(c = '{' ∧ text.head? = some '{')) :
    walk model source offset (c :: text) =
      (walk model source (offset + c.utf8Size) text).map (String.singleton c ++ ·) := by
  have hrun := openingRun_lt_two h
  rw [walk, if_neg (by omega), if_neg (by omega)]

/-- Literal text is copied character by character. -/
theorem walk_literal {text rest : List Char} (hfree : Piece.PairFree '{' text)
    (hborder : ¬(text.getLast? = some '{' ∧ rest.head? = some '{')) :
    walk model source offset (text ++ rest) =
      (walk model source (offset + Text.size text) rest).map (String.ofList text ++ ·) := by
  induction text generalizing offset with
  | nil => exact (Result.map_eq_self (fun _ => String.empty_append) _).symm
  | cons c text ih =>
    obtain ⟨hc, hfree⟩ := Piece.pairFree_cons.1 hfree
    have hborder' : ¬(text.getLast? = some '{' ∧ rest.head? = some '{') := by
      cases text with
      | nil => simp
      | cons d text => simpa only [List.getLast?_cons_cons] using hborder
    have hhead : ¬(c = '{' ∧ (text ++ rest).head? = some '{') := by
      cases text with
      | nil => simpa using hborder
      | cons d text => exact hc
    rw [List.cons_append, walk_cons model source offset hhead, ih _ hfree hborder', Result.map_map,
      Text.size_cons, ← Nat.add_assoc]
    simp only [String.ofList_cons, String.append_assoc]

theorem walk_escape {length : Nat} {rest : List Char} (hlength : 3 ≤ length)
    (hrest : rest.head? ≠ some '{') :
    walk model source offset (List.replicate length '{' ++ rest) =
      (walk model source (offset + length) rest).map ("\x7b" ++ ·) := by
  have hrun := openingRun_replicate length hrest
  obtain ⟨k, rfl⟩ : ∃ k, length = k + 1 := Nat.exists_eq_add_of_le' (by omega)
  rw [List.replicate_succ, List.cons_append] at hrun ⊢
  rw [walk, hrun, if_pos hlength]
  congr 2
  rw [← List.cons_append, ← List.replicate_succ, List.drop_left' (List.length_replicate ..)]

/-- At two opening braces that no third one follows, only the first two closing braces matter. -/
theorem walk_open {body : List Char} (hbody : body.head? ≠ some '{') :
    walk model source offset ('{' :: '{' :: body) =
      match Text.find? ['}', '}'] body with
      | none => .error (.unterminatedPlaceholder (.locate source offset))
      | some length =>
        if isTagName (Text.trim (body.take length)) then
          match Model.lookup model (String.ofList (Text.trim (body.take length))) with
          | none => .error (.unknownTag (String.ofList (Text.trim (body.take length)))
              (.locate source offset))
          | some value =>
            (walk model source (offset + 2 + Text.size (body.take length) + 2)
              (body.drop (length + 2))).map (value ++ ·)
        else .error (.malformedTag (String.ofList (body.take length)) (.locate source offset)) := by
  have hrun := openingRun_open hbody
  rw [walk, hrun, if_neg (by omega), if_pos rfl]
  simp only [List.drop_succ_cons, List.drop_zero, String.toList_ofList]

theorem walk_fault {fault : Piece.Fault} {text : List Char} (h : fault.At text) :
    walk model source offset text = .error (fault.toError (.locate source offset)) := by
  cases fault with
  | unterminated =>
    obtain ⟨body, rfl, hhead, hfree⟩ := h
    rw [walk_open model source offset hhead, Text.find?_pair_eq_none_iff.2 hfree]
    rfl
  | malformed interior =>
    obtain ⟨rest, rfl, hhead, hfree, hname⟩ := h
    rw [walk_open model source offset (Piece.head?_append_ne hhead (by simp)),
      Text.find?_append_pair hfree]
    simp [hname, Piece.Fault.toError]

theorem walk_tag {left name right rest : List Char} (h : (Piece.tag left name right).WellFormed) :
    walk model source offset ((Piece.tag left name right).print ++ rest) =
      match Model.lookup model (String.ofList name) with
      | none => .error (.unknownTag (String.ofList name) (.locate source offset))
      | some value =>
        (walk model source (offset + Text.size (Piece.tag left name right).print) rest).map
          (value ++ ·) := by
  have hopen : '{' ∉ left ++ name ++ right := Piece.notMem_interior h rfl rfl
  have hclose : '}' ∉ left ++ name ++ right := Piece.notMem_interior h rfl rfl
  have hfind : Text.find? ['}', '}'] (left ++ name ++ right ++ '}' :: '}' :: rest) =
      some (left ++ name ++ right).length := by
    apply Text.find?_append_pair
    exact Piece.pairFree_snoc.2 ⟨Piece.pairFree_of_notMem hclose, fun hlast =>
      hclose (List.mem_of_getLast? hlast)⟩
  have htext : (Piece.tag left name right).print ++ rest =
      '{' :: '{' :: (left ++ name ++ right ++ '}' :: '}' :: rest) := by
    simp [Piece.print]
  obtain ⟨hl, hn, hr⟩ := h
  rw [htext, walk_open model source offset
    (Piece.head?_append_ne (Piece.head?_ne_of_notMem hopen) (by simp)), hfind]
  have hdrop : (left ++ name ++ right ++ '}' :: '}' :: rest).drop
      ((left ++ name ++ right).length + 2) = rest := by
    rw [← List.drop_drop, List.drop_left]
    rfl
  have hsize : Text.size (Piece.tag left name right).print =
      2 + Text.size (left ++ name ++ right) + 2 := by
    simp only [Piece.print, Text.size_cons, Text.size_append, Text.size_nil, Char.utf8Size]
    simp
    omega
  simp only [List.take_left, Text.trim_marker hl hn hr, hn, if_true, hdrop, hsize, Nat.add_assoc]

theorem walk_nil : walk model source offset [] = .ok "" := by rw [walk]

/-- A piece that no run parts from the text after it gives its output, and that text is rendered as
if it stood alone. -/
theorem walk_piece {piece : Piece} {rest : List Char} (hwf : piece.WellFormed)
    (hborder : ¬(piece.print.getLast? = some '{' ∧ rest.head? = some '{')) :
    walk model source offset (piece.print ++ rest) =
      (piece.output model (.locate source offset)).bind fun value =>
        (walk model source (offset + Text.size piece.print) rest).map (value ++ ·) := by
  cases piece with
  | literal text => exact walk_literal model source offset hwf.2 hborder
  | escape length =>
    have hlength : 3 ≤ length := hwf
    have hrest : rest.head? ≠ some '{' := by
      refine fun hhead => hborder ⟨?_, hhead⟩
      rw [Piece.print, List.getLast?_replicate, if_neg (by omega)]
    rw [Piece.print, walk_escape model source offset hwf hrest, Text.size_replicate_open]
    rfl
  | tag left name right =>
    rw [walk_tag model source offset hwf, Piece.output]
    cases Model.lookup model (String.ofList name) with
    | none => rfl
    | some value => rfl

end Walk

/-- Rendering from any place on gives what walking on from there gives. -/
theorem join_fill_resultsFrom (model : M) (source : String) (offset : Nat) (text : List Char) :
    (fill model source (resultsFrom source offset text)).map String.join =
      walk model source offset text := by
  induction text using Piece.text_induction generalizing offset with
  | nil => simp [fill, walk]
  | fault fault text h =>
    rw [resultsFrom_fault h, walk_fault model source offset h]
    rfl
  | piece piece rest hwf hends ih =>
    rw [resultsFrom_piece hwf hends]
    cases piece with
    | literal text =>
      have hborder := Piece.border_of_endsBefore hwf hends
      rw [Piece.print, walk_literal model source offset hwf.2 hborder, ← ih, Piece.segment, fill,
        Result.map_map, Result.map_map]
      simp only [String.join_cons]
    | escape length =>
      rw [Piece.print, walk_escape model source offset hwf hends, Text.size_replicate_open, ← ih,
        Piece.segment, fill, Result.map_map, Result.map_map]
      simp only [String.join_cons]
    | tag left name right =>
      rw [walk_tag model source offset hwf, Piece.segment, fill]
      cases Model.lookup model (String.ofList name) with
      | none => rfl
      | some value =>
        simp only [← ih, Result.map_map, String.join_cons]

theorem render_eq_walk (model : M) (template : String) :
    render model template = walk model template 0 template.toList := by
  rw [render, scan_eq_resultsFrom, join_fill_resultsFrom]

end TagTemplate
