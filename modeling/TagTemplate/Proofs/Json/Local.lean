import TagTemplate.Json.Document
import TagTemplate.Proofs.Result

/-!
# Readers that stop at a border

A reader takes a part from the front of a text and leaves the rest. What it takes and what it makes
of it hardly depends on the rest: a quoted text or a word ends by itself, and a numeral ends where
something follows that does not go on it, such as a blank, a comma or a closing brace.
-/
namespace TagTemplate.Json

variable {α β : Type}

section Local

variable {R : List Char → List Char → Prop} {read : List Char → Except Fault (α × List Char)}

/-- A reader which leaves any rest that `R` relates to the one it leaves. -/
def Local (R : List Char → List Char → Prop) (read : List Char → Except Fault (α × List Char)) :
    Prop :=
  ∀ ⦃text a rest⦄, read text = .ok (a, rest) →
    ∃ taken, text = taken ++ rest ∧ ∀ rest', R rest rest' → read (taken ++ rest') = .ok (a, rest')

/-- A relation that goes on to hold when the same is put before two texts. -/
def Stable (R : List Char → List Char → Prop) : Prop :=
  ∀ ⦃taken rest rest'⦄, R rest rest' → R (taken ++ rest) (taken ++ rest')

def Anything (_ _ : List Char) : Prop := True

theorem stable_anything : Stable Anything := fun _ _ _ _ => trivial

theorem local_ok (a : α) : Local R fun rest => .ok (a, rest) := by
  intro text b rest h
  cases h
  exact ⟨[], rfl, fun _ _ => rfl⟩

theorem local_error (fault : List Char → Fault) :
    Local R fun rest => (.error (fault rest) : Except Fault (α × List Char)) := by
  intro text b rest h
  cases h

theorem Local.map (h : Local R read) (f : α → β) :
    Local R fun text => (read text).map fun p => (f p.1, p.2) := by
  intro text b rest hread
  obtain ⟨⟨a, rest⟩, hfirst, heq⟩ := Result.map_eq_ok_iff.1 hread
  cases heq
  obtain ⟨taken, rfl, htaken⟩ := h hfirst
  refine ⟨taken, rfl, fun rest' hrest => ?_⟩
  dsimp only
  rw [htaken rest' hrest, Result.map_ok]

theorem Local.bind (hR : Stable R) (h : Local R read)
    {s : α → List Char → Except Fault (β × List Char)} (hs : ∀ a, Local R (s a)) :
    Local R fun text => read text >>= fun p => s p.1 p.2 := by
  intro text b rest hread
  obtain ⟨⟨a, middle⟩, hfirst, hsecond⟩ := Result.bind_eq_ok_iff.1 hread
  obtain ⟨taken, rfl, htaken⟩ := h hfirst
  obtain ⟨more, rfl, hmore⟩ := hs a hsecond
  refine ⟨taken ++ more, (List.append_assoc ..).symm, fun rest' hrest => ?_⟩
  dsimp only
  rw [List.append_assoc, htaken _ (hR hrest), Result.ok_bind, hmore rest' hrest]

end Local

section Text

theorem local_readUnit : Local Anything Text.readUnit := by
  intro text n rest h
  unfold Text.readUnit at h
  split at h
  · rename_i a b c d text
    cases hunit : Text.unit? a b c d with
    | none => simp [hunit] at h
    | some m =>
      simp only [hunit, Except.ok.injEq, Prod.mk.injEq] at h
      obtain ⟨rfl, rfl⟩ := h
      refine ⟨[a, b, c, d], rfl, fun rest' _ => ?_⟩
      simp only [Text.readUnit, List.cons_append, List.nil_append, hunit]
  · cases h

/-- A condition on what was read decides whether it is taken. -/
theorem Local.ite {R : List Char → List Char → Prop} {p : Prop} [Decidable p]
    {read other : List Char → Except Fault (α × List Char)} (h : Local R read)
    (hother : Local R other) : Local R fun text => if p then read text else other text := by
  by_cases hp : p
  · simpa only [if_pos hp] using h
  · simpa only [if_neg hp] using hother

theorem local_readPair (high : Nat) : Local Anything (Text.readPair high) := by
  intro text c rest h
  unfold Text.readPair at h
  split at h
  · rename_i text
    have hlocal := local_readUnit.bind (s := fun low rest =>
      if 0xdc00 ≤ low ∧ low ≤ 0xdfff then
        .ok (Char.ofNat (0x10000 + (high - 0xd800) * 0x400 + (low - 0xdc00)), rest)
      else .error .malformed) stable_anything fun low => (local_ok _).ite (local_error fun _ => _)
    obtain ⟨taken, rfl, htaken⟩ := hlocal h
    exact ⟨'\\' :: 'u' :: taken, rfl, fun rest' _ => htaken rest' trivial⟩
  · cases h
  · cases h

theorem local_readCodePoint : Local Anything Text.readCodePoint := by
  refine local_readUnit.bind (s := fun n rest =>
    if 0xdc00 ≤ n ∧ n ≤ 0xdfff then .error .malformed
    else if 0xd800 ≤ n ∧ n ≤ 0xdbff then Text.readPair n rest
    else .ok (Char.ofNat n, rest)) stable_anything fun n => ?_
  exact (local_error fun _ => _).ite ((local_readPair n).ite (local_ok _))

theorem local_readEscape : Local Anything Text.readEscape := by
  intro text c rest h
  unfold Text.readEscape at h
  split at h
  · cases h
  · obtain ⟨taken, rfl, htaken⟩ := local_readCodePoint h
    exact ⟨'u' :: taken, rfl, fun rest' _ => htaken rest' trivial⟩
  · rename_i d text hd
    cases hescape : Text.escape? d with
    | none => simp [hescape] at h
    | some e =>
      simp only [hescape, Except.ok.injEq, Prod.mk.injEq] at h
      obtain ⟨rfl, rfl⟩ := h
      refine ⟨[d], rfl, fun rest' _ => ?_⟩
      rw [List.cons_append, List.nil_append, Text.readEscape, hescape]
      exact hd

/-- The bound does not matter if it is not less than what is taken. -/
theorem exists_readChars_append {bound : Nat} {text chars rest : List Char}
    (h : Text.readChars bound text = .ok (chars, rest)) :
    ∃ taken, text = taken ++ rest ∧ ∀ rest' bound', taken.length ≤ bound' →
      Text.readChars bound' (taken ++ rest') = .ok (chars, rest') := by
  induction bound generalizing text chars with
  | zero => cases h
  | succ bound ih =>
    cases text with
    | nil => cases h
    | cons c text =>
      rw [Text.readChars] at h
      by_cases hquote : c = '"'
      · rw [if_pos hquote] at h
        cases h
        refine ⟨[c], rfl, fun rest' bound' hbound => ?_⟩
        obtain ⟨bound', rfl⟩ := Nat.exists_eq_add_one.2 (Nat.lt_of_lt_of_le Nat.one_pos hbound)
        rw [List.cons_append, List.nil_append, Text.readChars, if_pos hquote]
      · rw [if_neg hquote] at h
        by_cases hescape : c = '\\'
        · rw [if_pos hescape] at h
          obtain ⟨⟨d, middle⟩, hread, h⟩ := Result.bind_eq_ok_iff.1 h
          obtain ⟨⟨ds, rest⟩, hmore, h⟩ := Result.bind_eq_ok_iff.1 h
          cases h
          obtain ⟨taken, rfl, htaken⟩ := local_readEscape hread
          obtain ⟨more, rfl, hrest⟩ := ih hmore
          refine ⟨c :: (taken ++ more), by simp, fun rest' bound' hbound => ?_⟩
          obtain ⟨bound', rfl⟩ := Nat.exists_eq_add_one.2 (Nat.lt_of_lt_of_le (by simp) hbound)
          have hlength : more.length ≤ bound' := by
            simp only [List.length_cons, List.length_append] at hbound
            omega
          rw [List.cons_append, List.append_assoc, Text.readChars, if_neg hquote, if_pos hescape,
            htaken _ trivial, Result.ok_bind]
          dsimp only
          rw [hrest rest' bound' hlength, Result.ok_bind]
        · rw [if_neg hescape] at h
          by_cases hcontrol : c.toNat < 0x20
          · rw [if_pos hcontrol] at h
            cases h
          · rw [if_neg hcontrol] at h
            obtain ⟨⟨ds, rest⟩, hmore, h⟩ := Result.bind_eq_ok_iff.1 h
            cases h
            obtain ⟨more, rfl, hrest⟩ := ih hmore
            refine ⟨c :: more, rfl, fun rest' bound' hbound => ?_⟩
            obtain ⟨bound', rfl⟩ := Nat.exists_eq_add_one.2 (Nat.lt_of_lt_of_le (by simp) hbound)
            rw [List.cons_append, Text.readChars, if_neg hquote, if_neg hescape, if_neg hcontrol,
              hrest rest' bound' (Nat.le_of_succ_le_succ hbound), Result.ok_bind]

theorem local_readText : Local Anything Text.read := by
  intro text content rest h
  obtain ⟨⟨chars, rest⟩, hread, h⟩ := Result.bind_eq_ok_iff.1 h
  cases h
  obtain ⟨taken, rfl, htaken⟩ := exists_readChars_append hread
  refine ⟨taken, rfl, fun rest' _ => ?_⟩
  rw [Text.read, htaken rest' _ (by simp only [List.length_append]; omega), Result.ok_bind]

end Text

section Border

def isBorder (c : Char) : Bool := isSpace c || c == ',' || c == '\x7d'

def AtBorder (rest : List Char) : Prop := ∃ c ∈ rest.head?, isBorder c = true

/-- Two texts that begin alike, as far as the value before them is concerned. -/
def Agree (rest rest' : List Char) : Prop :=
  rest.head? = rest'.head? ∨ AtBorder rest ∧ AtBorder rest'

theorem stable_agree : Stable Agree := by
  intro taken rest rest' h
  cases taken with
  | nil => exact h
  | cons c taken => exact .inl rfl

/-- What is no border is kept. -/
theorem Agree.head?_eq {c : Char} {rest rest' : List Char} (h : Agree (c :: rest) rest')
    (hc : isBorder c = false) : rest'.head? = some c := by
  rcases h with h | ⟨⟨d, hd, hborder⟩, -⟩
  · exact h.symm
  · cases hd
    exact absurd hborder (by simp [hc])

end Border
end TagTemplate.Json
