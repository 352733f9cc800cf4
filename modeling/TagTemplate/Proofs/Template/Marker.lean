import TagTemplate.Proofs.Template.Append
import TagTemplate.Proofs.Template.Tags
import TagTemplate.Proofs.Text.Bytes

/-!
# A single marker

A template that is one marker around a tag name is handed out as one tag, and it is rendered as the
value of that name. So is a marker between two other texts, unless a brace stands right before it.
Every tag that is handed out at all has a tag name.
-/
namespace TagTemplate

/-- The marker for a name between two texts, which are blank if it is to be read as a tag. -/
def marker (left name right : String) : String :=
  "\x7b\x7b" ++ left ++ name ++ right ++ "\x7d\x7d"

/-- Whether a marker for a name gives a value, whatever blanks stand around the name. -/
def Model.Fills {M : Type u} [Model M] (model : M) (name value : String) : Prop :=
  ∀ left right : String, Text.Blank left.toList → Text.Blank right.toList →
    render model (marker left name right) = .ok value

variable {left name right value : String}

theorem toList_marker (left name right : String) : (marker left name right).toList =
    (Piece.tag left.toList name.toList right.toList).print := by
  simp [marker, Piece.print, String.toList_append]

theorem Position.locate_zero (source : String) : locate source 0 = ⟨0, 1, 1⟩ := by
  have hbefore : Text.takeBytes 0 source.toList = [] :=
    Text.takeBytes_size_append [] source.toList
  rw [locate, hbefore]
  rfl

section Tag

variable (hl : Text.Blank left.toList) (hn : isTagName name.toList = true)
  (hr : Text.Blank right.toList)

include hl hn hr

theorem scan_marker : scan (marker left name right) =
    [.ok (.tag ⟨name, 0, (marker left name right).utf8ByteSize⟩)] := by
  have hwf : (Piece.tag left.toList name.toList right.toList).WellFormed := ⟨hl, hn, hr⟩
  have hprint := toList_marker left name right
  rw [scan_eq_resultsFrom, hprint, ← List.append_nil (Piece.print _),
    resultsFrom_piece hwf trivial, resultsFrom_nil, Piece.segment, Nat.zero_add,
    String.ofList_toList, ← hprint, Text.size_toList]

theorem render_marker {M : Type u} [Model M] (model : M) :
    render model (marker left name right) =
      match Model.lookup model name with
      | none => .error (.unknownTag name ⟨0, 1, 1⟩)
      | some value => .ok value := by
  have hwf : (Piece.tag left.toList name.toList right.toList).WellFormed := ⟨hl, hn, hr⟩
  rw [render, scan_eq_resultsFrom, join_fill_resultsFrom, toList_marker,
    ← List.append_nil (Piece.print _), walk_tag _ _ _ hwf, String.ofList_toList]
  cases Model.lookup model name with
  | none => simp [Position.locate_zero]
  | some value => simp [walk_nil]

end Tag

/-- What a tag name is bound to is what fills its markers. -/
theorem Model.fills_iff {M : Type u} [Model M] {model : M} (hn : isTagName name.toList = true) :
    Model.Fills model name value ↔ Model.lookup model name = some value := by
  constructor
  · intro h
    have hblank : Text.Blank "".toList := by simp [Text.Blank]
    have hrender := h "" "" hblank hblank
    rw [render_marker hblank hn hblank] at hrender
    cases hlookup : Model.lookup model name with
    | none => simp [hlookup] at hrender
    | some other => simpa [hlookup] using hrender
  · intro h left right hl hr
    rw [render_marker hl hn hr, h]

section Between

variable {M : Type u} [Model M] {model : M} {template out : String}

def Model.Emits (model : M) (name value : String) : Prop :=
  ∀ before left right after out more : String, before.toList.getLast? ≠ some '{' →
    Text.Blank left.toList → Text.Blank right.toList →
    render model before = .ok out → render model after = .ok more →
    render model (before ++ marker left name right ++ after) = .ok (out ++ value ++ more)

/-- What is rendered on its own is rendered in any place of any source. -/
theorem walk_of_render (h : render model template = .ok out) (source : String) (offset : Nat) :
    walk model source offset template.toList = .ok out := by
  rw [render, scan_eq_resultsFrom, join_fill_resultsFrom] at h
  rw [← Nat.add_zero offset, walk_shift source template, h, Result.mapError_ok]

theorem Model.emits_of_lookup (hn : isTagName name.toList = true)
    (h : Model.lookup model name = some value) : Model.Emits model name value := by
  intro before left right after out more hborder hl hr hbefore hafter
  have hwf : (Piece.tag left.toList name.toList right.toList).WellFormed := ⟨hl, hn, hr⟩
  rw [render, scan_eq_resultsFrom, join_fill_resultsFrom, String.append_assoc,
    String.toList_append, String.toList_append, toList_marker,
    walk_append (walk_of_render hbefore _ 0) (fun hbrace => hborder hbrace.1),
    walk_tag _ _ _ hwf, String.ofList_toList, h]
  dsimp only
  rw [walk_of_render hafter, Result.map_ok, Result.map_ok, String.append_assoc]

end Between

variable {source template : String} {offset : Nat} {text : List Char} {tag : Tag}

theorem isTagName_of_mem_resultsFrom (h : .ok (.tag tag) ∈ resultsFrom source offset text) :
    isTagName tag.name.toList = true := by
  induction text using Piece.text_induction generalizing offset with
  | nil => simp at h
  | fault fault text hfault => simp [resultsFrom_fault hfault] at h
  | piece piece rest hwf hends ih =>
    rw [resultsFrom_piece hwf hends, List.mem_cons] at h
    rcases h with heq | hmem
    · cases piece with
      | literal text => simp [Piece.segment] at heq
      | escape length => simp [Piece.segment] at heq
      | tag left name right =>
        obtain rfl := Segment.tag.inj (Except.ok.inj heq)
        rw [String.toList_ofList]
        exact hwf.2.1
    · exact ih hmem

theorem isTagName_of_mem_scan (h : .ok (.tag tag) ∈ scan template) :
    isTagName tag.name.toList = true := isTagName_of_mem_resultsFrom h

theorem Scanner.length_take (s : Scanner) (calls : Nat) : (s.take calls).length = calls := by
  induction calls generalizing s with
  | zero => rfl
  | succ calls ih => rw [Scanner.take, List.length_cons, ih]

/-- However often a scanner is called, the tags that it hands out have tag names. -/
theorem isTagName_of_mem_take {calls : Nat}
    (h : some (.ok (.tag tag)) ∈ (Scanner.ofString template).take calls) :
    isTagName tag.name.toList = true := by
  obtain ⟨i, hi⟩ := List.mem_iff_getElem?.1 h
  have hlt : i < calls := by
    rw [← Scanner.length_take (.ofString template) calls]
    exact (List.getElem?_eq_some_iff.1 hi).1
  rw [Scanner.getElem?_take hlt, Option.some.injEq] at hi
  exact isTagName_of_mem_scan (List.mem_iff_getElem?.2 ⟨i, hi⟩)

end TagTemplate
