import TagTemplate.Proofs.Json.Scalar

/-!
# Entries of objects

An entry is a key in quotes, a colon and a value, with spaces around each of them. An entry with a
scalar value is read alike wherever it stands.
-/
namespace TagTemplate.Json

variable {text rest spaces quoted : List Char} {key : String} {value : Value} {depth : Nat}

def AllSpace (text : List Char) : Prop := ∀ c ∈ text, isSpace c = true

instance (text : List Char) : Decidable (AllSpace text) :=
  List.decidableBAll (fun c => isSpace c = true) text

section Space

theorem isBorder_of_isSpace {c : Char} (h : isSpace c = true) : isBorder c = true := by
  rw [isBorder, h, Bool.true_or, Bool.true_or]

theorem skipSpace_append (h : AllSpace spaces) (text : List Char) :
    skipSpace (spaces ++ text) = skipSpace text := by
  rw [skipSpace, List.dropWhile_append_of_pos h, skipSpace]

theorem skipSpace_of_head? (h : ∀ c ∈ text.head?, isSpace c = false) : skipSpace text = text :=
  TagTemplate.Text.dropWhile_eq_self_of_head? h

theorem exists_append_skipSpace (text : List Char) :
    ∃ spaces, AllSpace spaces ∧ text = spaces ++ skipSpace text :=
  ⟨text.takeWhile isSpace, fun _ hc => List.mem_takeWhile_imp hc,
    List.takeWhile_append_dropWhile.symm⟩

theorem AllSpace.atBorder (h : AllSpace spaces) (hrest : AtBorder rest) :
    AtBorder (spaces ++ rest) := by
  cases spaces with
  | nil => exact hrest
  | cons c spaces => exact ⟨c, rfl, isBorder_of_isSpace (h c List.mem_cons_self)⟩

theorem atBorder_cons {c : Char} (hc : isBorder c = true) (rest : List Char) :
    AtBorder (c :: rest) := ⟨c, rfl, hc⟩

end Space

section Value

def IsScalar : Value → Prop
  | .sequence _ => False
  | .mapping _ => False
  | _ => True

theorem head?_of_readScalar (h : readScalar text = .ok (value, rest)) :
    ∃ c ∈ text.head?, isBorder c = false ∧ c ≠ '[' ∧ c ≠ '\x7b' := by
  unfold readScalar at h
  split at h
  · exact ⟨'n', rfl, by decide⟩
  · exact ⟨'t', rfl, by decide⟩
  · exact ⟨'f', rfl, by decide⟩
  · exact ⟨'"', rfl, by decide⟩
  · cases h
  · rename_i c text _ _ _ _
    split_ifs at h with hc
    refine ⟨c, rfl, isBorder_of_numeral hc, ?_, ?_⟩
    · rintro rfl
      exact absurd hc (by decide)
    · rintro rfl
      exact absurd hc (by decide)

theorem readValue_eq_readScalar (hsequence : ∀ more, skipSpace text ≠ '[' :: more)
    (hmapping : ∀ more, skipSpace text ≠ '\x7b' :: more) :
    readValue depth text = readScalar (skipSpace text) := by
  unfold readValue
  split
  · exact absurd ‹_› (hsequence _)
  · exact absurd ‹_› (hmapping _)
  · rfl

theorem readScalar_of_readValue (hvalue : IsScalar value)
    (h : readValue depth text = .ok (value, rest)) :
    readScalar (skipSpace text) = .ok (value, rest) := by
  unfold readValue at h
  split at h
  · cases depth with
    | zero => cases h
    | succ depth =>
      obtain ⟨_, -, h⟩ := Result.bind_eq_ok_iff.1 h
      cases h
      exact absurd hvalue id
  · cases depth with
    | zero => cases h
    | succ depth =>
      obtain ⟨_, -, h⟩ := Result.bind_eq_ok_iff.1 h
      cases h
      exact absurd hvalue id
  · exact h

theorem exists_readValue_append (hvalue : IsScalar value)
    (h : readValue depth text = .ok (value, rest)) :
    ∃ taken, text = taken ++ rest ∧
      ∀ rest', Agree rest rest' → readValue depth (taken ++ rest') = .ok (value, rest') := by
  have hscalar := readScalar_of_readValue hvalue h
  obtain ⟨spaces, hspaces, htext⟩ := exists_append_skipSpace text
  obtain ⟨c, hc, hborder, hbracket, hbrace⟩ := head?_of_readScalar hscalar
  obtain ⟨taken, hskip, htaken⟩ := local_readScalar hscalar
  refine ⟨spaces ++ taken, by rw [List.append_assoc, ← hskip, ← htext], fun rest' hrest' => ?_⟩
  -- The value begins with the same character, and so after the same spaces.
  obtain ⟨more, hmore⟩ := List.head?_eq_some_iff.1 hc
  have hagree : Agree (c :: more) (taken ++ rest') := by
    rw [← hmore, hskip]
    exact stable_agree hrest'
  obtain ⟨more', hmore'⟩ := List.head?_eq_some_iff.1 (hagree.head?_eq hborder)
  have hspace : isSpace c = false := by
    by_contra hspace
    rw [Bool.not_eq_false] at hspace
    exact absurd (isBorder_of_isSpace hspace) (by simp [hborder])
  have hskip' : skipSpace (spaces ++ taken ++ rest') = taken ++ rest' := by
    rw [List.append_assoc, skipSpace_append hspaces]
    exact skipSpace_of_head? (by rw [hmore']; rintro d ⟨⟩; exact hspace)
  rw [readValue_eq_readScalar, hskip', htaken rest' hrest']
  · intro more heq
    rw [hskip', hmore'] at heq
    exact hbracket (List.cons.inj heq).1
  · intro more heq
    rw [hskip', hmore'] at heq
    exact hbrace (List.cons.inj heq).1

end Value

section Entry

variable {readValue : List Char → Except Fault (Value × List Char)}

theorem readEntry_append (hkey : Text.read quoted = .ok (key, [])) (hspaces : AllSpace spaces)
    (text : List Char) :
    readEntry readValue ('"' :: (quoted ++ (spaces ++ ':' :: text))) =
      (readValue text).map fun p => ((key, p.1), p.2) := by
  obtain ⟨taken, htaken, hread⟩ := local_readText hkey
  rw [List.append_nil] at htaken
  subst htaken
  rw [readEntry, hread _ trivial, Result.ok_bind]
  dsimp only
  rw [skipSpace_append hspaces, skipSpace_of_head? (by rintro c ⟨⟩; rfl)]
  change (readValue text >>= fun p => .ok ((key, p.1), p.2)) = _
  cases readValue text <;> rfl

theorem exists_of_readEntry (h : readEntry readValue text = .ok ((key, value), rest)) :
    ∃ quoted spaces after, Text.read quoted = .ok (key, []) ∧ AllSpace spaces ∧
      text = '"' :: (quoted ++ (spaces ++ ':' :: after)) ∧ readValue after = .ok (value, rest) := by
  unfold readEntry at h
  split at h
  · obtain ⟨⟨key', middle⟩, hread, hafter⟩ := Result.bind_eq_ok_iff.1 h
    obtain ⟨taken, rfl, htaken⟩ := local_readText hread
    obtain ⟨spaces, hspaces, hmiddle⟩ := exists_append_skipSpace middle
    dsimp only at hafter
    split at hafter
    · rename_i after hcolon
      obtain ⟨⟨value', rest'⟩, hvalue, heq⟩ := Result.bind_eq_ok_iff.1 hafter
      cases heq
      rw [hcolon] at hmiddle
      refine ⟨taken, spaces, after, ?_, hspaces, by rw [hmiddle], hvalue⟩
      have hkey := htaken [] trivial
      rwa [List.append_nil] at hkey
    · cases hafter
  · cases h

end Entry

section Yields

abbrev readTopEntry : List Char → Except Fault ((String × Value) × List Char) :=
  readEntry (readValue (depthLimit - 2))

/-- A text that is an entry with spaces around it, or has the fault of one, wherever it stands in
the object of a document. -/
def Yields (entry : List Char) (result : Except Fault (String × Value)) : Prop :=
  ∃ before body after, AllSpace before ∧ AllSpace after ∧ entry = before ++ '"' :: (body ++ after) ∧
    ∀ rest, AtBorder rest →
      readTopEntry ('"' :: (body ++ rest)) = result.map fun item => (item, rest)

theorem exists_readTopEntry_append (hvalue : IsScalar value)
    (h : readTopEntry text = .ok ((key, value), rest)) :
    ∃ body, text = '"' :: (body ++ rest) ∧ ∀ rest', Agree rest rest' →
      readTopEntry ('"' :: (body ++ rest')) = .ok ((key, value), rest') := by
  obtain ⟨quoted, spaces, after, hkey, hspaces, rfl, hread⟩ := exists_of_readEntry h
  obtain ⟨taken, rfl, htaken⟩ := exists_readValue_append hvalue hread
  refine ⟨quoted ++ (spaces ++ ':' :: taken), by simp, fun rest' hrest' => ?_⟩
  rw [List.append_assoc, List.append_assoc, List.cons_append, readTopEntry,
    readEntry_append hkey hspaces, htaken rest' hrest', Result.map_ok]

end Yields
end TagTemplate.Json
