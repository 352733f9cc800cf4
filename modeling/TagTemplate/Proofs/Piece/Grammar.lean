import TagTemplate.Proofs.Piece.Pair
import TagTemplate.Proofs.Text.Trim

/-!
# The grammar of pieces

A piece can be read at the start of a text exactly when it is well-formed, the text begins with what
the piece prints, and the piece ends where the rest of the text begins. A fault is found exactly at
two opening braces that no third one follows and that open no tag. Everything that is said about
scanning comes from these two facts; nothing else looks into `read`.
-/
namespace TagTemplate.Piece

def WellFormed : Piece → Prop
  | literal text => text ≠ [] ∧ PairFree '{' text
  | escape length => 3 ≤ length
  | tag left name right => Text.Blank left ∧ isTagName name = true ∧ Text.Blank right

instance : (piece : Piece) → Decidable piece.WellFormed
  | literal text => inferInstanceAs (Decidable (text ≠ [] ∧ PairFree '{' text))
  | escape length => inferInstanceAs (Decidable (3 ≤ length))
  | tag left name right =>
    inferInstanceAs (Decidable (Text.Blank left ∧ isTagName name = true ∧ Text.Blank right))

/-- Whether a piece ends where a text begins, so that it takes no more and no less. -/
def EndsBefore : Piece → List Char → Prop
  | literal text, rest =>
    rest = [] ∨ text.getLast? ≠ some '{' ∧ ∃ after, rest = '{' :: '{' :: after
  | escape _, rest => rest.head? ≠ some '{'
  | tag .., _ => True

def Fault.At : Fault → List Char → Prop
  | unterminated, text =>
    ∃ after, text = '{' :: '{' :: after ∧ after.head? ≠ some '{' ∧ PairFree '}' after
  | malformed interior, text =>
    ∃ rest, text = '{' :: '{' :: (interior ++ '}' :: '}' :: rest) ∧
      interior.head? ≠ some '{' ∧ PairFree '}' (interior ++ ['}']) ∧
      isTagName (Text.trim interior) = false

variable {text after rest : List Char} {piece : Piece} {fault : Fault}

theorem pairFree_snoc {b : Char} : PairFree b (text ++ [b]) ↔
    PairFree b text ∧ text.getLast? ≠ some b := by
  simp [pairFree_append, pairFree_cons]

theorem read_of_pairFree (h : PairFree '{' text) : read text = .ok (literal text, []) := by
  rw [read, cutAtPair_eq_none_iff.2 h]

theorem read_literal_append (hne : text ≠ []) (h : PairFree '{' text)
    (hlast : text.getLast? ≠ some '{') :
    read (text ++ '{' :: '{' :: after) = .ok (literal text, '{' :: '{' :: after) := by
  rw [read, cutAtPair_append_pair (pairFree_snoc.2 ⟨h, hlast⟩)]
  cases text with
  | nil => exact absurd rfl hne
  | cons c text => rfl

theorem read_open (after : List Char) : read ('{' :: '{' :: after) = readMarker after := by
  rw [read, cutAtPair, if_pos ⟨rfl, rfl⟩]

theorem forall_head?_beq_eq_false {b : Char} (h : rest.head? ≠ some b) :
    ∀ c ∈ rest.head?, (c == b) = false := by
  intro c hc
  rw [beq_eq_false_iff_ne]
  rintro rfl
  exact h hc

theorem readMarker_replicate {length : Nat} (hpos : 0 < length) (h : rest.head? ≠ some '{') :
    readMarker (List.replicate length '{' ++ rest) = .ok (escape (length + 2), rest) := by
  have hrun : ∀ c ∈ List.replicate length '{', (c == '{') = true := by
    intro c hc
    simp [List.eq_of_mem_replicate hc]
  obtain ⟨k, rfl⟩ := Nat.exists_eq_add_of_lt hpos
  rw [readMarker, Text.takeWhile_append_of_head? hrun (forall_head?_beq_eq_false h),
    Text.dropWhile_append_of_head? hrun (forall_head?_beq_eq_false h)]
  simp [List.replicate_succ]

theorem readMarker_of_head?_ne (h : text.head? ≠ some '{') :
    readMarker text =
      match cutAtPair '}' text with
      | none => .error .unterminated
      | some (interior, rest) =>
        if isTagName (Text.trim interior) then
          .ok (tag (Text.leadingBlanks interior) (Text.trim interior)
            (Text.trailingBlanks interior), rest)
        else .error (.malformed interior) := by
  have htake : text.takeWhile (· == '{') = [] :=
    Text.takeWhile_eq_nil_of_head? (forall_head?_beq_eq_false h)
  unfold readMarker
  split
  · cases cutAtPair '}' text <;> rfl
  · exact absurd htake ‹_›

/-- A text that begins with opening braces begins with a run of them that ends somewhere. -/
theorem exists_run (text : List Char) :
    ∃ length rest, text = List.replicate length '{' ++ rest ∧ rest.head? ≠ some '{' := by
  induction text with
  | nil => exact ⟨0, [], by simp⟩
  | cons c text ih =>
    by_cases hc : c = '{'
    · obtain ⟨length, rest, rfl, hrest⟩ := ih
      exact ⟨length + 1, rest, by simp [hc, List.replicate_succ], hrest⟩
    · exact ⟨0, c :: text, by simp, by simp [hc]⟩

/-- No brace stands between the braces of a well-formed tag. -/
theorem notMem_interior {left name right : List Char} {c : Char}
    (h : (tag left name right).WellFormed) (hblank : Text.isBlank c = false)
    (hname : c.isAlphanum = false) : c ∉ left ++ name ++ right := by
  obtain ⟨hl, hn, hr⟩ := h
  simp only [List.mem_append, not_or]
  exact ⟨⟨hl.notMem hblank, notMem_of_isTagName hn hname⟩, hr.notMem hblank⟩

theorem head?_ne_of_notMem {c : Char} (h : c ∉ text) : text.head? ≠ some c :=
  fun hhead => h (List.mem_of_mem_head? hhead)

theorem head?_append_ne {c : Char} {b : List Char} (h : text.head? ≠ some c)
    (hb : b.head? ≠ some c) : (text ++ b).head? ≠ some c := by
  cases text with
  | nil => exact hb
  | cons d text => exact h

/-- A well-formed piece is read wherever it is printed and ends. -/
theorem read_print_append (h : piece.WellFormed) (hends : piece.EndsBefore rest) :
    read (piece.print ++ rest) = .ok (piece, rest) := by
  cases piece with
  | literal text =>
    rcases hends with rfl | ⟨hlast, after, rfl⟩
    · rw [print, List.append_nil, read_of_pairFree h.2]
    · exact read_literal_append h.1 h.2 hlast
  | escape length =>
    obtain ⟨k, rfl⟩ : ∃ k, length = k + 1 + 2 := Nat.exists_eq_add_of_le' h
    rw [print, List.replicate_succ, List.replicate_succ, List.cons_append, List.cons_append,
      read_open, readMarker_replicate (Nat.succ_pos k) hends]
  | tag left name right =>
    have hopen : '{' ∉ left ++ name ++ right := notMem_interior h rfl rfl
    have hclose : '}' ∉ left ++ name ++ right := notMem_interior h rfl rfl
    have hcut : cutAtPair '}' (left ++ name ++ right ++ '}' :: '}' :: rest) =
        some (left ++ name ++ right, rest) := by
      apply cutAtPair_append_pair
      exact pairFree_snoc.2 ⟨pairFree_of_notMem hclose, fun hlast =>
        hclose (List.mem_of_getLast? hlast)⟩
    have htext : (tag left name right).print ++ rest =
        '{' :: '{' :: (left ++ name ++ right ++ '}' :: '}' :: rest) := by
      simp [print]
    obtain ⟨hl, hn, hr⟩ := h
    rw [htext, read_open, readMarker_of_head?_ne
      (head?_append_ne (head?_ne_of_notMem hopen) (by simp)), hcut]
    simp only [Text.trim_marker hl hn hr, Text.leadingBlanks_marker hl hn,
      Text.trailingBlanks_marker hl hn hr, hn, if_true]

theorem read_of_fault (h : fault.At text) : read text = .error fault := by
  cases fault with
  | unterminated =>
    obtain ⟨after, rfl, hhead, hfree⟩ := h
    rw [read_open, readMarker_of_head?_ne hhead, cutAtPair_eq_none_iff.2 hfree]
  | malformed interior =>
    obtain ⟨rest, rfl, hhead, hfree, hname⟩ := h
    rw [read_open, readMarker_of_head?_ne (head?_append_ne hhead (by simp)),
      cutAtPair_append_pair hfree]
    simp [hname]

/-- What follows two opening braces that no third one follows is a tag or at fault. -/
theorem piece_or_fault_of_open (hhead : after.head? ≠ some '{') :
    (∃ (piece : Piece) (rest : List Char), '{' :: '{' :: after = piece.print ++ rest ∧
      piece.WellFormed ∧ piece.EndsBefore rest) ∨
    ∃ fault : Fault, fault.At ('{' :: '{' :: after) := by
  cases hcut : cutAtPair '}' after with
  | none => exact .inr ⟨.unterminated, after, rfl, hhead, cutAtPair_eq_none_iff.1 hcut⟩
  | some cut =>
    obtain ⟨interior, rest⟩ := cut
    obtain ⟨rfl, hfree⟩ := cutAtPair_eq_some_iff.1 hcut
    by_cases hname : isTagName (Text.trim interior) = true
    · refine .inl ⟨tag (Text.leadingBlanks interior) (Text.trim interior)
        (Text.trailingBlanks interior), rest, ?_, ?_, trivial⟩
      · rw [print, Text.leading_trim_trailing]
        simp
      · exact ⟨Text.blank_leadingBlanks _, hname, Text.blank_trailingBlanks _⟩
    · refine .inr ⟨.malformed interior, rest, rfl, ?_, hfree, Bool.eq_false_iff.2 hname⟩
      cases interior with
      | nil => simp
      | cons c interior => exact hhead

/-- Every text that is not empty begins with a piece or a fault. -/
theorem piece_or_fault (hne : text ≠ []) :
    (∃ (piece : Piece) (rest : List Char), text = piece.print ++ rest ∧ piece.WellFormed ∧
      piece.EndsBefore rest) ∨ ∃ fault : Fault, fault.At text := by
  cases hcut : cutAtPair '{' text with
  | none =>
    exact .inl ⟨literal text, [], by simp [print], ⟨hne, cutAtPair_eq_none_iff.1 hcut⟩, .inl rfl⟩
  | some cut =>
    obtain ⟨before, after⟩ := cut
    obtain ⟨rfl, hfree⟩ := cutAtPair_eq_some_iff.1 hcut
    by_cases hbefore : before = []
    · subst hbefore
      obtain ⟨length, rest, rfl, hrest⟩ := exists_run after
      cases length with
      | zero => exact piece_or_fault_of_open hrest
      | succ length =>
        exact .inl ⟨escape (length + 3), rest, by simp [print, List.replicate_succ],
          Nat.le_add_left 3 length, hrest⟩
    · obtain ⟨hbefore', hlast⟩ := pairFree_snoc.1 hfree
      exact .inl ⟨literal before, '{' :: '{' :: after, rfl, ⟨hbefore, hbefore'⟩,
        .inr ⟨hlast, after, rfl⟩⟩

/-- Reading finds exactly the well-formed pieces that the text begins with and that end there. -/
theorem read_eq_ok_iff (hne : text ≠ []) :
    read text = .ok (piece, rest) ↔
      text = piece.print ++ rest ∧ piece.WellFormed ∧ piece.EndsBefore rest := by
  constructor
  · intro h
    rcases piece_or_fault hne with ⟨piece', rest', rfl, hwf, hends⟩ | ⟨fault, hfault⟩
    · rw [read_print_append hwf hends] at h
      simp only [Except.ok.injEq, Prod.mk.injEq] at h
      obtain ⟨rfl, rfl⟩ := h
      exact ⟨rfl, hwf, hends⟩
    · simp [read_of_fault hfault] at h
  · rintro ⟨rfl, hwf, hends⟩
    exact read_print_append hwf hends

theorem read_eq_error_iff (hne : text ≠ []) : read text = .error fault ↔ fault.At text := by
  constructor
  · intro h
    rcases piece_or_fault hne with ⟨piece', rest', rfl, hwf, hends⟩ | ⟨fault', hfault⟩
    · simp [read_print_append hwf hends] at h
    · rw [read_of_fault hfault, Except.error.injEq] at h
      exact h ▸ hfault
  · exact read_of_fault

theorem ne_nil_of_fault (h : fault.At text) : text ≠ [] := by
  cases fault with
  | unterminated => obtain ⟨after, rfl, -⟩ := h; simp
  | malformed interior => obtain ⟨rest, rfl, -⟩ := h; simp

theorem print_ne_nil (h : piece.WellFormed) : piece.print ≠ [] := by
  cases piece with
  | literal text => exact h.1
  | escape length =>
    have hlength : 3 ≤ length := h
    simp only [print, ne_eq, List.replicate_eq_nil_iff]
    omega
  | tag left name right => simp [print]

/-- No piece parts a run from the text after it. -/
theorem border_of_endsBefore (hwf : piece.WellFormed) (hends : piece.EndsBefore rest) :
    ¬(piece.print.getLast? = some '{' ∧ rest.head? = some '{') := by
  cases piece with
  | literal text =>
    rcases hends with rfl | ⟨hlast, -⟩
    · simp
    · exact fun h => hlast h.1
  | escape length => exact fun h => hends h.2
  | tag left name right => simp [print, List.getLast?_append, List.getLast?_cons]

/-- Texts are built from their end by putting pieces before them, until a fault is in the way. -/
@[elab_as_elim]
theorem text_induction {motive : List Char → Prop} (nil : motive [])
    (fault : ∀ (fault : Fault) text, fault.At text → motive text)
    (piece : ∀ (piece : Piece) rest, piece.WellFormed → piece.EndsBefore rest → motive rest →
      motive (piece.print ++ rest)) (text : List Char) : motive text := by
  induction hlength : text.length using Nat.strongRecOn generalizing text with
  | ind n ih =>
    by_cases hne : text = []
    · exact hne ▸ nil
    · rcases piece_or_fault hne with ⟨p, rest, rfl, hwf, hends⟩ | ⟨f, hfault⟩
      · refine piece p rest hwf hends (ih rest.length ?_ rest rfl)
        rw [← hlength]
        exact length_lt_of_read hne (read_print_append hwf hends)
      · exact fault f text hfault

end TagTemplate.Piece
