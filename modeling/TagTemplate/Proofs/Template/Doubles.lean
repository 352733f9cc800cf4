import TagTemplate.Proofs.Result
import TagTemplate.Proofs.Template.Scan
import TagTemplate.Proofs.Text.Find

/-!
# Tags told by their braces

Where the tags of a template stand can be told without scanning it: each maximal run of exactly two
opening braces begins a tag, or is at fault if no tag name stands between it and the first two
closing braces after it. Nothing before a run matters, since a run is never parted by the pieces
before it and no tag has a run inside.
-/
namespace TagTemplate

def IsDouble (text : List Char) (i : Nat) : Prop :=
  text[i]? = some '{' ∧ text[i + 1]? = some '{' ∧ text[i + 2]? ≠ some '{' ∧
    (i = 0 ∨ text[i - 1]? ≠ some '{')

instance (text : List Char) (i : Nat) : Decidable (IsDouble text i) :=
  inferInstanceAs (Decidable (_ ∧ _))

/-- Where the maximal runs of exactly two opening braces begin, counted in characters. -/
def doubles (text : List Char) : List Nat := (List.range text.length).filter (IsDouble text ·)

def interior? (text : List Char) (i : Nat) : Option (List Char) :=
  (Text.find? ['}', '}'] (text.drop (i + 2))).map fun length => (text.drop (i + 2)).take length

/-- Whether a run has no closing braces after it, or no tag name before them. -/
def isBad (text : List Char) (i : Nat) : Bool :=
  (interior? text i).all fun interior => !isTagName (Text.trim interior)

def tagOf (text : List Char) (i : Nat) (interior : List Char) : Tag :=
  ⟨String.ofList (Text.trim interior), Text.size (text.take i),
    Text.size (text.take (i + 2 + interior.length + 2))⟩

def tagAt (text : List Char) (i : Nat) : Tag := tagOf text i ((interior? text i).getD [])

def faultError (position : Position) : Option (List Char) → RenderError
  | none => .unterminatedPlaceholder position
  | some interior => .malformedTag (String.ofList interior) position

def errorAt (template : String) (i : Nat) : RenderError :=
  faultError (.locate template (Text.size (template.toList.take i))) (interior? template.toList i)

section Append

variable {a b : List Char}

-- Of the places that make a run only those next to the border can lie on its other side, and
-- there the border has no brace on one of its sides.
theorem isDouble_append_left (h : ¬(a.getLast? = some '{' ∧ b.head? = some '{')) {i : Nat}
    (hi : i < a.length) : IsDouble (a ++ b) i ↔ IsDouble a i := by
  rw [List.getLast?_eq_getElem?, List.head?_eq_getElem?] at h
  simp only [IsDouble, List.getElem?_append]
  grind

theorem isDouble_append_right (h : ¬(a.getLast? = some '{' ∧ b.head? = some '{')) (i : Nat) :
    IsDouble (a ++ b) (a.length + i) ↔ IsDouble b i := by
  rw [List.getLast?_eq_getElem?, List.head?_eq_getElem?] at h
  simp only [IsDouble, List.getElem?_append]
  grind

theorem doubles_append (h : ¬(a.getLast? = some '{' ∧ b.head? = some '{')) :
    doubles (a ++ b) = doubles a ++ (doubles b).map (a.length + ·) := by
  rw [doubles, List.length_append, List.range_add, List.filter_append, List.filter_map]
  congr 1
  · apply List.filter_congr
    intro i hi
    rw [decide_eq_decide]
    exact isDouble_append_left h (List.mem_range.1 hi)
  · congr 1
    apply List.filter_congr
    intro i _
    simp only [Function.comp_apply, decide_eq_decide]
    exact isDouble_append_right h i

theorem interior?_append (i : Nat) : interior? (a ++ b) (a.length + i) = interior? b i := by
  rw [interior?, interior?, Nat.add_assoc, List.drop_append, List.drop_of_length_le (by omega)]
  simp

theorem isBad_append (i : Nat) : isBad (a ++ b) (a.length + i) = isBad b i := by
  rw [isBad, isBad, interior?_append]

end Append

section Pieces

variable {text rest : List Char} {piece : Piece}

theorem doubles_of_pairFree (h : Piece.PairFree '{' text) : doubles text = [] := by
  rw [doubles, List.filter_eq_nil_iff]
  intro i _ hdouble
  obtain ⟨hfirst, hsecond, -⟩ := of_decide_eq_true hdouble
  obtain ⟨hi, hfirst⟩ := List.getElem?_eq_some_iff.1 hfirst
  obtain ⟨hi', hsecond⟩ := List.getElem?_eq_some_iff.1 hsecond
  have hdrop : text.drop i = '{' :: '{' :: text.drop (i + 2) := by
    rw [List.drop_eq_getElem_cons hi, List.drop_eq_getElem_cons hi', hfirst, hsecond]
  apply h
  refine List.IsInfix.trans ?_ (List.drop_suffix i text).isInfix
  rw [hdrop]
  exact List.prefix_append ['{', '{'] _ |>.isInfix

theorem doubles_replicate {length : Nat} (h : 3 ≤ length) :
    doubles (List.replicate length '{') = [] := by
  rw [doubles, List.filter_eq_nil_iff]
  intro i _ hdouble
  obtain ⟨hfirst, hsecond, hthird, hstart⟩ := of_decide_eq_true hdouble
  simp only [List.getElem?_replicate] at hfirst hsecond hthird hstart
  grind

theorem doubles_open {after : List Char} (h : after.head? ≠ some '{') :
    doubles ('{' :: '{' :: after) = 0 :: (doubles after).map (2 + ·) := by
  have happ := doubles_append (a := ['{', '{']) (b := after) (fun hb => h hb.2)
  rw [show '{' :: '{' :: after = ['{', '{'] ++ after from rfl, happ]
  rfl

/-- A tag has one run, at its start; other pieces have none. -/
theorem doubles_print (hwf : piece.WellFormed) :
    doubles piece.print = match piece with
      | .tag .. => [0]
      | _ => [] := by
  cases piece with
  | literal text => exact doubles_of_pairFree hwf.2
  | escape length => exact doubles_replicate hwf
  | tag left name right =>
    have hopen : '{' ∉ left ++ name ++ right ++ ['}', '}'] := by
      simpa using Piece.notMem_interior hwf rfl rfl
    rw [Piece.print, doubles_open (Piece.head?_ne_of_notMem hopen),
      doubles_of_pairFree (Piece.pairFree_of_notMem hopen)]
    rfl

end Pieces

def Tag.shift (offset : Nat) (tag : Tag) : Tag := ⟨tag.name, offset + tag.start, offset + tag.stop⟩

/-- What the runs of a text tell of the tags in it, if it begins at a byte offset of a source. -/
def tagsByRuns (source : String) (offset : Nat) (text : List Char) :
    Except RenderError (List Tag) :=
  match (doubles text).find? (isBad text) with
  | none => .ok ((doubles text).map fun i => (tagAt text i).shift offset)
  | some i =>
    .error (faultError (.locate source (offset + Text.size (text.take i))) (interior? text i))

section Runs

variable (source : String) (offset : Nat) {a b : List Char}

theorem tagAt_append (i : Nat) :
    tagAt (a ++ b) (a.length + i) = (tagAt b i).shift (Text.size a) := by
  rw [tagAt, tagAt, interior?_append, tagOf, tagOf, Tag.shift]
  simp only [Nat.add_assoc, List.take_length_add_append, Text.size_append]

theorem find?_isBad_append (runs : List Nat) :
    (runs.map (a.length + ·)).find? (isBad (a ++ b)) =
      (runs.find? (isBad b)).map (a.length + ·) := by
  rw [List.find?_map]
  congr 2
  funext i
  exact isBad_append i

/-- A part without runs before a text moves its tags and changes nothing else. -/
theorem tagsByRuns_append (h : ¬(a.getLast? = some '{' ∧ b.head? = some '{'))
    (ha : doubles a = []) :
    tagsByRuns source offset (a ++ b) = tagsByRuns source (offset + Text.size a) b := by
  rw [tagsByRuns, tagsByRuns, doubles_append h, ha, List.nil_append, find?_isBad_append]
  cases (doubles b).find? (isBad b) with
  | none =>
    simp only [Option.map_none, List.map_map]
    congr 1
    apply List.map_congr_left
    intro i _
    simp only [Function.comp_apply, tagAt_append, Tag.shift, Nat.add_assoc]
  | some i =>
    simp only [Option.map_some, interior?_append, List.take_length_add_append, Text.size_append,
      Nat.add_assoc]

theorem interior?_tag {left name right : List Char} (h : (Piece.tag left name right).WellFormed)
    (rest : List Char) :
    interior? ((Piece.tag left name right).print ++ rest) 0 = some (left ++ name ++ right) := by
  have hclose : '}' ∉ left ++ name ++ right := Piece.notMem_interior h rfl rfl
  have hdrop : ((Piece.tag left name right).print ++ rest).drop (0 + 2) =
      left ++ name ++ right ++ '}' :: '}' :: rest := by
    simp [Piece.print]
  rw [interior?, hdrop, Text.find?_append_pair]
  · simp only [Option.map_some, List.take_left]
  · exact Piece.pairFree_snoc.2 ⟨Piece.pairFree_of_notMem hclose, fun hlast =>
      hclose (List.mem_of_getLast? hlast)⟩

theorem tagAt_tag {left name right : List Char} (h : (Piece.tag left name right).WellFormed)
    (rest : List Char) :
    tagAt ((Piece.tag left name right).print ++ rest) 0 =
      ⟨String.ofList name, 0, Text.size (Piece.tag left name right).print⟩ := by
  have hlength : 0 + 2 + (left ++ name ++ right).length + 2 =
      (Piece.tag left name right).print.length := by
    simp [Piece.print]
    omega
  rw [tagAt, interior?_tag h, Option.getD_some, tagOf, Text.trim_marker h.1 h.2.1 h.2.2, hlength,
    List.take_left]
  rfl

theorem tagsByRuns_tag {left name right rest : List Char}
    (h : (Piece.tag left name right).WellFormed) :
    tagsByRuns source offset ((Piece.tag left name right).print ++ rest) =
      (tagsByRuns source (offset + Text.size (Piece.tag left name right).print) rest).map
        (⟨String.ofList name, offset,
          offset + Text.size (Piece.tag left name right).print⟩ :: ·) := by
  have hgood : isBad ((Piece.tag left name right).print ++ rest) 0 = false := by
    rw [isBad, interior?_tag h, Option.all_some, Text.trim_marker h.1 h.2.1 h.2.2, h.2.1]
    rfl
  have hends : (Piece.tag left name right).EndsBefore rest := trivial
  have hdoubles := doubles_append (Piece.border_of_endsBefore h hends)
  rw [doubles_print h] at hdoubles
  rw [tagsByRuns, tagsByRuns, hdoubles, List.singleton_append, List.find?_cons, hgood,
    find?_isBad_append]
  cases (doubles rest).find? (isBad rest) with
  | none =>
    simp only [Option.map_none, List.map_cons, List.map_map, Result.map_ok]
    congr 2
    · rw [tagAt_tag h, Tag.shift, Nat.add_zero]
    · apply List.map_congr_left
      intro i _
      simp only [Function.comp_apply, tagAt_append, Tag.shift, Nat.add_assoc]
  | some i =>
    simp only [Option.map_some, interior?_append, List.take_length_add_append, Text.size_append,
      Nat.add_assoc, Result.map_error]

theorem exists_doubles_of_fault {fault : Piece.Fault} {text : List Char} (h : fault.At text) :
    ∃ runs, doubles text = 0 :: runs := by
  cases fault with
  | unterminated =>
    obtain ⟨after, rfl, hhead, -⟩ := h
    exact ⟨_, doubles_open hhead⟩
  | malformed interior =>
    obtain ⟨rest, rfl, hhead, -⟩ := h
    exact ⟨_, doubles_open (Piece.head?_append_ne hhead (by simp))⟩

theorem isBad_fault {fault : Piece.Fault} {text : List Char} (h : fault.At text)
    (position : Position) :
    isBad text 0 = true ∧ faultError position (interior? text 0) = fault.toError position := by
  cases fault with
  | unterminated =>
    obtain ⟨after, rfl, -, hfree⟩ := h
    have hinterior : interior? ('{' :: '{' :: after) 0 = none := by
      simp [interior?, Text.find?_pair_eq_none_iff.2 hfree]
    rw [isBad, hinterior]
    exact ⟨rfl, rfl⟩
  | malformed interior =>
    obtain ⟨rest, rfl, -, hfree, hname⟩ := h
    have hinterior : interior? ('{' :: '{' :: (interior ++ '}' :: '}' :: rest)) 0 =
        some interior := by
      simp [interior?, Text.find?_append_pair hfree]
    rw [isBad, hinterior]
    exact ⟨by simp [hname], rfl⟩

theorem tagsByRuns_fault {fault : Piece.Fault} {text : List Char} (h : fault.At text) :
    tagsByRuns source offset text = .error (fault.toError (.locate source offset)) := by
  obtain ⟨runs, hruns⟩ := exists_doubles_of_fault h
  obtain ⟨hbad, herror⟩ := isBad_fault h (.locate source offset)
  rw [tagsByRuns, hruns, List.find?_cons, hbad]
  exact congrArg Except.error herror

end Runs

theorem collectTags_resultsFrom (source : String) (offset : Nat) (text : List Char) :
    collectTags (resultsFrom source offset text) = tagsByRuns source offset text := by
  induction text using Piece.text_induction generalizing offset with
  | nil => simp [collectTags, tagsByRuns, doubles]
  | fault fault text h =>
    rw [resultsFrom_fault h, tagsByRuns_fault source offset h]
    rfl
  | piece piece rest hwf hends ih =>
    have hborder := Piece.border_of_endsBefore hwf hends
    have hdoubles := doubles_print hwf
    rw [resultsFrom_piece hwf hends]
    cases piece with
    | literal text => rw [Piece.segment, collectTags, ih, tagsByRuns_append _ _ hborder hdoubles]
    | escape length => rw [Piece.segment, collectTags, ih, tagsByRuns_append _ _ hborder hdoubles]
    | tag left name right => rw [Piece.segment, collectTags, ih, tagsByRuns_tag _ _ hwf]

/-- The tags of a template, or the error for the leftmost run at fault. -/
theorem placeholders_eq_of_doubles (template : String) :
    ((∃ tags, placeholders template = .ok tags) ↔
      ∀ i ∈ doubles template.toList, isBad template.toList i = false) ∧
    placeholders template =
      match (doubles template.toList).find? (isBad template.toList) with
      | none => .ok ((doubles template.toList).map (tagAt template.toList))
      | some i => .error (errorAt template i) := by
  have heq : placeholders template =
      match (doubles template.toList).find? (isBad template.toList) with
      | none => .ok ((doubles template.toList).map (tagAt template.toList))
      | some i => .error (errorAt template i) := by
    rw [placeholders, scan_eq_resultsFrom, collectTags_resultsFrom, tagsByRuns]
    simp only [Tag.shift, Nat.zero_add, errorAt]
  refine ⟨?_, heq⟩
  rw [heq]
  cases hfind : (doubles template.toList).find? (isBad template.toList) with
  | none => simpa using hfind
  | some i =>
    simp only [reduceCtorEq, exists_false, false_iff, not_forall]
    exact ⟨i, List.mem_of_find?_eq_some hfind, by simpa using List.find?_some hfind⟩

end TagTemplate
