import TagTemplate.Proofs.Json.Entry

/-!
# Objects

The object of some entries is read entry by entry: the result is the list of their keys and values,
or the fault of the first entry that has one. An entry is read in any object as it is read alone.
-/
namespace TagTemplate.Json

variable {entries : List (List Char)} {entry rest spaces before after text : List Char}
  {bound : Nat} {results : List (Except Fault (String × Value))}
  {result : Except Fault (String × Value)}

def object (entries : List (List Char)) : List Char :=
  '\x7b' :: ([','].intercalate entries ++ ['\x7d'])

def afterCommas (entries : List (List Char)) : List Char :=
  entries.flatMap fun entry => ',' :: entry

theorem intercalate_cons (entry : List Char) (entries : List (List Char)) :
    [','].intercalate (entry :: entries) = entry ++ afterCommas entries := by
  induction entries generalizing entry with
  | nil => simp [List.intercalate, afterCommas]
  | cons next entries ih =>
    have hstep : [','].intercalate (entry :: next :: entries) =
        entry ++ ',' :: [','].intercalate (next :: entries) := by simp [List.intercalate]
    rw [hstep, ih]
    rfl

theorem length_le_afterCommas (entries : List (List Char)) :
    entries.length ≤ (afterCommas entries).length := by
  induction entries with
  | nil => exact Nat.zero_le _
  | cons entry entries ih =>
    have hcons : afterCommas (entry :: entries) = ',' :: entry ++ afterCommas entries := rfl
    simp only [hcons, List.length_append, List.length_cons]
    omega

theorem atBorder_afterCommas (entries : List (List Char)) (rest : List Char) :
    AtBorder (afterCommas entries ++ '\x7d' :: rest) := by
  cases entries with
  | nil => exact atBorder_cons rfl _
  | cons entry entries => exact atBorder_cons rfl _

section Items

theorem readMore_close (hspaces : AllSpace spaces) (bound : Nat) (rest : List Char) :
    readMore '\x7d' readTopEntry (bound + 1) (spaces ++ '\x7d' :: rest) = .ok ([], rest) := by
  rw [readMore, skipSpace_append hspaces, skipSpace_of_head? (by rintro c ⟨⟩; rfl)]
  rfl

theorem readMore_comma (hspaces : AllSpace spaces) (hbefore : AllSpace before) (bound : Nat)
    (text : List Char) :
    readMore '\x7d' readTopEntry (bound + 1) (spaces ++ ',' :: (before ++ '"' :: text)) =
      readTopEntry ('"' :: text) >>= fun p => readMore '\x7d' readTopEntry bound p.2 >>= fun q =>
        .ok (p.1 :: q.1, q.2) := by
  rw [readMore, skipSpace_append hspaces, skipSpace_of_head? (by rintro c ⟨⟩; rfl)]
  dsimp only
  rw [if_neg (by decide), if_pos rfl, skipSpace_append hbefore,
    skipSpace_of_head? (by rintro c ⟨⟩; rfl)]
  rfl

theorem readItems_entry (hbefore : AllSpace before) (text : List Char) :
    readItems '\x7d' readTopEntry (before ++ '"' :: text) =
      readTopEntry ('"' :: text) >>= fun p =>
        readMore '\x7d' readTopEntry (text.length + 1) p.2 >>= fun q =>
          .ok (p.1 :: q.1, q.2) := by
  rw [readItems, skipSpace_append hbefore, skipSpace_of_head? (by rintro c ⟨⟩; rfl)]
  rfl

theorem mapM_cons_map (result : Except Fault (String × Value))
    (results : List (Except Fault (String × Value))) (rest : List Char) :
    ((result :: results).mapM id).map (fun items => (items, rest)) =
      result >>= fun item => (results.mapM id).map fun items => (item :: items, rest) := by
  rw [List.mapM_cons]
  cases result with
  | error fault => rfl
  | ok item =>
    rw [id, Result.ok_bind, Result.ok_bind]
    cases results.mapM id <;> rfl

theorem readMore_afterCommas (h : List.Forall₂ Yields entries results)
    (hbound : entries.length < bound) (hspaces : AllSpace spaces) (rest : List Char) :
    readMore '\x7d' readTopEntry bound (spaces ++ (afterCommas entries ++ '\x7d' :: rest)) =
      (results.mapM id).map fun items => (items, rest) := by
  induction h generalizing bound spaces with
  | nil =>
    obtain ⟨bound, rfl⟩ := Nat.exists_eq_add_one.2 hbound
    exact readMore_close hspaces bound rest
  | @cons entry result entries results hentry _ ih =>
    obtain ⟨bound, rfl⟩ := Nat.exists_eq_add_one.2 (Nat.zero_lt_of_lt hbound)
    obtain ⟨before, body, after, hbefore, hafter, rfl, hread⟩ := hentry
    have htext : afterCommas ((before ++ '"' :: (body ++ after)) :: entries) ++ '\x7d' :: rest =
        ',' :: (before ++ '"' :: (body ++ (after ++ (afterCommas entries ++ '\x7d' :: rest)))) := by
      simp [afterCommas]
    rw [htext, readMore_comma hspaces hbefore,
      hread _ (hafter.atBorder (atBorder_afterCommas entries rest)), mapM_cons_map]
    cases result with
    | error fault => rfl
    | ok item =>
      rw [Result.map_ok, Result.ok_bind, Result.ok_bind, ih (by simpa using hbound) hafter]
      cases results.mapM id <;> rfl

end Items

/-- The results of the entries, or the first fault among them. -/
theorem readDocument_object (h : List.Forall₂ Yields entries results) (hne : entries ≠ [])
    (hbefore : AllSpace before) (hafter : AllSpace after) :
    readDocument (before ++ (object entries ++ after)) = results.mapM id := by
  have hitems : readItems '\x7d' readTopEntry ([','].intercalate entries ++ '\x7d' :: after) =
      (results.mapM id).map fun items => (items, after) := by
    cases h with
    | nil => exact absurd rfl hne
    | @cons entry result entries results hentry hentries =>
      obtain ⟨gap, body, gap', hgap, hgap', rfl, hread⟩ := hentry
      have htext :
          [','].intercalate ((gap ++ '"' :: (body ++ gap')) :: entries) ++ '\x7d' :: after =
          gap ++ '"' :: (body ++ (gap' ++ (afterCommas entries ++ '\x7d' :: after))) := by
        simp [intercalate_cons]
      have hlength := length_le_afterCommas entries
      rw [htext, readItems_entry hgap,
        hread _ (hgap'.atBorder (atBorder_afterCommas entries after)), mapM_cons_map]
      cases result with
      | error fault => rfl
      | ok item =>
        rw [Result.map_ok, Result.ok_bind, Result.ok_bind, readMore_afterCommas hentries
          (by simp only [List.length_append, List.length_cons]; omega) hgap']
        cases results.mapM id <;> rfl
  have htext : object entries ++ after =
      '\x7b' :: ([','].intercalate entries ++ '\x7d' :: after) := by simp [object]
  have hend : skipSpace after = [] := by
    rw [skipSpace, List.dropWhile_eq_nil_iff]
    exact hafter
  rw [readDocument, skipSpace_append hbefore, htext, skipSpace_of_head? (by rintro c ⟨⟩; rfl)]
  dsimp only
  change readItems '\x7d' readTopEntry _ >>= _ = _
  rw [hitems]
  cases results.mapM id with
  | error fault => rfl
  | ok items =>
    rw [Result.map_ok, Result.ok_bind]
    dsimp only
    rw [hend]

section Alone

variable {readItem : List Char → Except Fault ((String × Value) × List Char)}
  {item : String × Value} {key : String} {value : Value}

theorem exists_of_readMore_nil (h : readMore '\x7d' readItem bound text = .ok ([], rest)) :
    ∃ spaces, AllSpace spaces ∧ text = spaces ++ '\x7d' :: rest := by
  obtain ⟨spaces, hspaces, htext⟩ := exists_append_skipSpace text
  cases bound with
  | zero => cases h
  | succ bound =>
    rw [readMore] at h
    split at h
    · cases h
    · rename_i c more hskip
      rw [hskip] at htext
      by_cases hclose : c = '\x7d'
      · rw [if_pos hclose] at h
        cases h
        exact ⟨spaces, hspaces, hclose ▸ htext⟩
      · rw [if_neg hclose] at h
        split_ifs at h
        split at h
        · cases h
        · split_ifs at h
          obtain ⟨_, -, h⟩ := Result.bind_eq_ok_iff.1 h
          obtain ⟨_, -, h⟩ := Result.bind_eq_ok_iff.1 h
          cases h

theorem exists_of_readItems_singleton (h : readItems '\x7d' readItem text = .ok ([item], rest)) :
    ∃ before c more after, AllSpace before ∧ AllSpace after ∧ text = before ++ c :: more ∧
      readItem (c :: more) = .ok (item, after ++ '\x7d' :: rest) := by
  obtain ⟨before, hbefore, htext⟩ := exists_append_skipSpace text
  rw [readItems] at h
  split at h
  · cases h
  · rename_i c more hskip
    split_ifs at h
    · cases h
    · obtain ⟨⟨first, middle⟩, hfirst, h⟩ := Result.bind_eq_ok_iff.1 h
      obtain ⟨⟨items, rest⟩, hmore, h⟩ := Result.bind_eq_ok_iff.1 h
      cases h
      obtain ⟨after, hafter, hmiddle⟩ := exists_of_readMore_nil hmore
      subst hmiddle
      exact ⟨before, c, more, after, hbefore, hafter, hskip ▸ htext, hfirst⟩

/-- What an entry yields in an object of its own, it yields in any. -/
theorem yields_of_readDocument (hvalue : IsScalar value)
    (h : readDocument (object [entry]) = .ok [(key, value)]) :
    Yields entry (.ok (key, value)) := by
  have htext : object [entry] = '\x7b' :: (entry ++ ['\x7d']) := by simp [object]
  rw [htext, readDocument, skipSpace_of_head? (by rintro c ⟨⟩; rfl)] at h
  obtain ⟨⟨items, rest⟩, hitems, hend⟩ := Result.bind_eq_ok_iff.1 h
  dsimp only at hend
  split at hend
  · rename_i hskip
    cases hend
    obtain ⟨before, c, more, after, hbefore, hafter, hentry, hread⟩ :=
      exists_of_readItems_singleton hitems
    obtain ⟨body, hbody, hyields⟩ := exists_readTopEntry_append hvalue hread
    -- Nothing but the closing brace can be left, for what is left are spaces.
    have hrest : rest = [] := by
      rcases List.eq_nil_or_concat' rest with hnil | ⟨front, last, rfl⟩
      · exact hnil
      · have hlast : last = '\x7d' := by
          have hends : entry ++ ['\x7d'] =
              (before ++ '"' :: (body ++ (after ++ '\x7d' :: front))) ++ [last] := by
            rw [hentry, hbody]
            simp
          exact (List.cons.inj (List.append_inj' hends rfl).2).1.symm
        have hspace := List.dropWhile_eq_nil_iff.1 hskip last (by simp)
        rw [hlast] at hspace
        exact absurd hspace (by decide)
    subst hrest
    refine ⟨before, body, after, hbefore, hafter, ?_, fun rest hrest => ?_⟩
    · rw [hbody] at hentry
      have hends : entry ++ ['\x7d'] = (before ++ '"' :: (body ++ after)) ++ ['\x7d'] := by
        simpa using hentry
      exact List.append_cancel_right hends
    · exact hyields rest (.inr ⟨hafter.atBorder (atBorder_cons rfl _), hrest⟩)
  · cases hend

end Alone
end TagTemplate.Json
