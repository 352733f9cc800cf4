import Mathlib.Data.List.TakeWhile
import TagTemplate.Proofs.Text.Bytes
import TagTemplate.Proofs.Text.Run
import TagTemplate.Template.Position

/-!
# Positions as reading reaches them

The position at a byte offset is the one that is reached by reading the characters before it, one by
one from the start: a line feed leads to the first column of the next line, and any other character
one column on. So positions increase with their offsets, and reading goes on from the end of a text
into the text after it. The same position comes from a search for the last line feed in the bytes
before the offset, and the slice that begins after it never parts a character.
-/
namespace TagTemplate

namespace Text

variable {b : Char} {text : List Char}

theorem exists_last_of_mem (h : b ∈ text) :
    ∃ before after, text = before ++ b :: after ∧ b ∉ after := by
  obtain ⟨after, before, htext, hafter⟩ := List.eq_append_cons_of_mem (List.mem_reverse.2 h)
  refine ⟨before.reverse, after.reverse, ?_, fun hb => hafter (List.mem_reverse.1 hb)⟩
  rw [← List.reverse_reverse text, htext, List.reverse_append, List.reverse_cons,
    List.append_assoc, List.singleton_append]

theorem forall_mem_reverse_bne (h : b ∉ text) : ∀ c ∈ text.reverse, (c != b) = true := by
  intro c hc
  rw [bne_iff_ne]
  rintro rfl
  exact h (List.mem_reverse.1 hc)

end Text

namespace Position

def start : Position := ⟨0, 1, 1⟩

def advance (p : Position) (c : Char) : Position :=
  if c = '\n' then ⟨p.offset + c.utf8Size, p.line + 1, 1⟩
  else ⟨p.offset + c.utf8Size, p.line, p.column + 1⟩

def after (p : Position) (text : List Char) : Position := text.foldl advance p

def IsBefore (p q : Position) : Prop := p.line < q.line ∨ p.line = q.line ∧ p.column < q.column

/-- The position at a byte offset, by a search for the last line feed before it. There is none if a
slice that is taken would begin or end within a character. -/
def search? (source : String) (offset : Nat) : Option Position := do
  let before ← Text.sliceTo? offset source.toList
  let lineStart := ((Text.findLastByte? 0x0a (Text.bytes before)).map (· + 1)).getD 0
  let line ← Text.sliceFrom? lineStart before
  return ⟨offset, before.count '\n' + 1, line.length + 1⟩

section Reading

variable (p : Position) {text : List Char}

@[simp] theorem after_nil : p.after [] = p := rfl

theorem after_cons (c : Char) (text : List Char) : p.after (c :: text) = (p.advance c).after text :=
  rfl

theorem after_append (a b : List Char) : p.after (a ++ b) = (p.after a).after b :=
  List.foldl_append

theorem isBefore_advance (c : Char) : p.IsBefore (p.advance c) := by
  unfold advance
  split_ifs
  · exact .inl (Nat.lt_succ_self p.line)
  · exact .inr ⟨rfl, Nat.lt_succ_self p.column⟩

theorem IsBefore.trans {p q r : Position} (h : p.IsBefore q) (h' : q.IsBefore r) :
    p.IsBefore r := by
  unfold IsBefore at h h' ⊢
  omega

theorem IsBefore.ne {p q : Position} (h : p.IsBefore q) :
    ¬(p.line = q.line ∧ p.column = q.column) := by
  unfold IsBefore at h
  omega

/-- Reading never leads back, nor to the same line and column again. -/
theorem isBefore_after (h : text ≠ []) : p.IsBefore (p.after text) := by
  induction text generalizing p with
  | nil => exact absurd rfl h
  | cons c text ih =>
    rw [after_cons]
    by_cases hnil : text = []
    · rw [hnil, after_nil]
      exact p.isBefore_advance c
    · exact (p.isBefore_advance c).trans (ih _ hnil)

theorem after_start (text : List Char) :
    start.after text = ⟨Text.size text, text.count '\n' + 1,
      (text.reverse.takeWhile (· != '\n')).length + 1⟩ := by
  induction text using List.reverseRecOn with
  | nil => rfl
  | append_singleton text c ih =>
    rw [after_append, ih, after_cons, after_nil, advance, Text.size_append, List.count_append,
      List.reverse_append]
    by_cases hc : c = '\n'
    · simp [hc]
    · simp [hc]

end Reading

section Locate

variable {source : String} {before rest : List Char}

theorem locate_eq_after_start (h : source.toList = before ++ rest) :
    locate source (Text.size before) = start.after before := by
  rw [after_start, locate, h, Text.takeBytes_size_append]

theorem search?_eq_locate (h : source.toList = before ++ rest) :
    search? source (Text.size before) = some (locate source (Text.size before)) := by
  have hfeed : String.utf8EncodeChar '\n' = [0x0a] := rfl
  have hslice : Text.sliceTo? (Text.size before) source.toList = some before := by
    rw [h, Text.sliceTo?_append]
  rw [locate, h, Text.takeBytes_size_append, search?, hslice]
  -- The search finds the line feed before the last line, or none in the first line.
  by_cases hfeeds : '\n' ∈ before
  · obtain ⟨lines, line, rfl, hline⟩ := Text.exists_last_of_mem hfeeds
    have hend : Text.sliceFrom? (Text.size lines + 1) (lines ++ '\n' :: line) = some line := by
      have hsplit := Text.sliceFrom?_append (lines ++ ['\n']) line
      rwa [Text.size_append, List.append_assoc] at hsplit
    have hlast : (lines ++ '\n' :: line).reverse.takeWhile (· != '\n') = line.reverse := by
      rw [List.reverse_append, List.reverse_cons, List.append_assoc]
      exact Text.takeWhile_append_of_head? (Text.forall_mem_reverse_bne hline) (by simp)
    simp only [Option.bind_eq_bind, Option.bind_some, Text.findLastByte?_bytes hfeed hline,
      Option.map_some, Option.getD_some, hend, hlast, List.length_reverse]
    rfl
  · have hlast : before.reverse.takeWhile (· != '\n') = before.reverse :=
      List.takeWhile_eq_self_iff.2 (Text.forall_mem_reverse_bne hfeeds)
    have hsearch := Text.findLastByte?_of_notMem (Text.notMem_bytes hfeed hfeeds)
    have hwhole : Text.sliceFrom? 0 before = some before := Text.sliceFrom?_append [] before
    simp only [Option.bind_eq_bind, Option.bind_some, hsearch, Option.map_none, Option.getD_none,
      hwhole, hlast, List.length_reverse]
    rfl

end Locate

/-- The two parts of a source at a boundary. -/
theorem exists_append_of_isValid {source : String} {offset : Nat}
    (h : String.Pos.Raw.IsValid source ⟨offset⟩) :
    ∃ before rest, source.toList = before ++ rest ∧ Text.size before = offset := by
  obtain ⟨⟨before, rest⟩, hsplit⟩ := (Text.exists_splitAt?_iff source offset).2 h
  exact ⟨before, rest, Text.eq_of_splitAt? hsplit⟩

theorem isBefore_locate {source : String} {before rest before' rest' : List Char}
    (h : source.toList = before ++ rest) (h' : source.toList = before' ++ rest')
    (hlt : Text.size before < Text.size before') :
    (locate source (Text.size before)).IsBefore (locate source (Text.size before')) := by
  obtain ⟨more, hmore, rfl⟩ := Text.exists_append_of_size_lt (h.symm.trans h') hlt
  rw [locate_eq_after_start h, locate_eq_after_start h', after_append]
  exact isBefore_after _ hmore

theorem size_eq_of_locate {source : String} {before rest before' rest' : List Char}
    (h : source.toList = before ++ rest) (h' : source.toList = before' ++ rest')
    (hline : (locate source (Text.size before)).line = (locate source (Text.size before')).line)
    (hcolumn : (locate source (Text.size before)).column =
      (locate source (Text.size before')).column) : Text.size before = Text.size before' := by
  rcases lt_trichotomy (Text.size before) (Text.size before') with hlt | heq | hgt
  · exact absurd ⟨hline, hcolumn⟩ (isBefore_locate h h' hlt).ne
  · exact heq
  · exact absurd ⟨hline.symm, hcolumn.symm⟩ (isBefore_locate h' h hgt).ne

/-- Positions are exact and unambiguous: each is the one that reading reaches, by line and column
they stand in the order of their offsets, and in a text after another one reading goes on from its
end. -/
theorem locate_eq_after (source : String) :
    (∀ offset, String.Pos.Raw.IsValid source ⟨offset⟩ →
      ∃ before, Text.sliceTo? offset source.toList = some before ∧
        locate source offset = start.after before ∧
        search? source offset = some (locate source offset)) ∧
    (∀ o₁ o₂, String.Pos.Raw.IsValid source ⟨o₁⟩ → String.Pos.Raw.IsValid source ⟨o₂⟩ →
      (o₁ < o₂ → (locate source o₁).IsBefore (locate source o₂)) ∧
      ((locate source o₁).line = (locate source o₂).line →
        (locate source o₁).column = (locate source o₂).column → o₁ = o₂)) ∧
    ∀ (next : String) offset, String.Pos.Raw.IsValid next ⟨offset⟩ →
      ∃ before, Text.sliceTo? offset next.toList = some before ∧
        locate (source ++ next) (source.utf8ByteSize + offset) =
          (start.after source.toList).after before := by
  refine ⟨fun offset hoffset => ?_, fun o₁ o₂ h₁ h₂ => ?_, fun next offset hoffset => ?_⟩
  · obtain ⟨before, rest, hsource, rfl⟩ := exists_append_of_isValid hoffset
    exact ⟨before, by rw [hsource, Text.sliceTo?_append], locate_eq_after_start hsource,
      search?_eq_locate hsource⟩
  · obtain ⟨before₁, rest₁, hsource₁, rfl⟩ := exists_append_of_isValid h₁
    obtain ⟨before₂, rest₂, hsource₂, rfl⟩ := exists_append_of_isValid h₂
    exact ⟨isBefore_locate hsource₁ hsource₂, size_eq_of_locate hsource₁ hsource₂⟩
  · obtain ⟨before, rest, hnext, rfl⟩ := exists_append_of_isValid hoffset
    refine ⟨before, by rw [hnext, Text.sliceTo?_append], ?_⟩
    have hboth : (source ++ next).toList = (source.toList ++ before) ++ rest := by
      rw [String.toList_append, hnext, List.append_assoc]
    rw [← Text.size_toList, ← Text.size_append, locate_eq_after_start hboth, after_append]

theorem locate_eq_after_sample :
    String.Pos.Raw.IsValid "é\n\nx" ⟨3⟩ ∧ String.Pos.Raw.IsValid "é\n\nx" ⟨5⟩ ∧
      (locate "é\n\nx" 3).IsBefore (locate "é\n\nx" 5) ∧
      search? "é\n\nx" 5 = some ⟨5, 3, 2⟩ ∧
      locate ("é\n\nx" ++ "é\n") (5 + 2) = ⟨7, 3, 3⟩ := by
  have hfirst : String.Pos.Raw.IsValid "é\n\nx" ⟨3⟩ :=
    (Text.exists_splitAt?_iff _ 3).1 ⟨(['é', '\n'], ['\n', 'x']), by decide⟩
  have hsecond : String.Pos.Raw.IsValid "é\n\nx" ⟨5⟩ :=
    (Text.exists_splitAt?_iff _ 5).1 ⟨(['é', '\n', '\n', 'x'], []), by decide⟩
  have hnext : String.Pos.Raw.IsValid "é\n" ⟨2⟩ :=
    (Text.exists_splitAt?_iff _ 2).1 ⟨(['é'], ['\n']), by decide⟩
  obtain ⟨hexact, horder, hjoined⟩ := locate_eq_after "é\n\nx"
  obtain ⟨_, -, -, hsearch⟩ := hexact 5 hsecond
  obtain ⟨before, hbefore, hlocate⟩ := hjoined "é\n" 2 hnext
  refine ⟨hfirst, hsecond, (horder 3 5 hfirst hsecond).1 (by decide), hsearch, ?_⟩
  rw [← Option.some.inj ((by decide : _ = some ['é']).symm.trans hbefore)] at hlocate
  exact hlocate

end Position
end TagTemplate
