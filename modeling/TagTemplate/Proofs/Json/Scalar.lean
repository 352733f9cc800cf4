import Mathlib.Data.List.TakeWhile
import TagTemplate.Proofs.Json.Local
import TagTemplate.Proofs.Text.Run

/-!
# Scalars up to a border

The readers of numerals and of scalars stop at a border and do not look beyond it.
-/
namespace TagTemplate.Json

theorem isBorder_eq_true_iff {c : Char} :
    isBorder c = true ↔ c = ' ' ∨ c = '\n' ∨ c = '\t' ∨ c = '\r' ∨ c = ',' ∨ c = '\x7d' := by
  simp [isBorder, isSpace, or_assoc]

/-- What no border has is not where the other text begins if it is not where this one begins. -/
theorem Agree.forall_head? {p : Char → Prop} {rest rest' : List Char} (h : Agree rest rest')
    (hborder : ∀ c, isBorder c = true → p c) (hrest : ∀ c ∈ rest.head?, p c) :
    ∀ c ∈ rest'.head?, p c := by
  intro c hc
  rcases h with h | ⟨-, d, hd, hdborder⟩
  · exact hrest c (h ▸ hc)
  · rw [Option.mem_def] at hc hd
    rw [hc] at hd
    cases hd
    exact hborder c hdborder

namespace Numeral

section Digits

variable {digits rest : List Char}

theorem readDigits_append (hne : digits ≠ []) (hdigits : ∀ c ∈ digits, c.isDigit = true)
    (hrest : ∀ c ∈ rest.head?, c.isDigit = false) :
    readDigits (digits ++ rest) = .ok (digits, rest) := by
  rw [readDigits, TagTemplate.Text.takeWhile_append_of_head? hdigits hrest,
    TagTemplate.Text.dropWhile_append_of_head? hdigits hrest]
  cases digits with
  | nil => exact absurd rfl hne
  | cons c digits => rfl

theorem isDigit_of_isBorder {c : Char} (h : isBorder c = true) : c.isDigit = false := by
  rcases isBorder_eq_true_iff.1 h with rfl | rfl | rfl | rfl | rfl | rfl <;> decide

theorem readDigits_eq_ok {text : List Char} (h : readDigits text = .ok (digits, rest)) :
    digits ≠ [] ∧ (∀ c ∈ digits, c.isDigit = true) ∧ (∀ c ∈ rest.head?, c.isDigit = false) ∧
      text = digits ++ rest := by
  unfold readDigits at h
  split at h
  · cases h
  · rename_i hne
    simp only [Except.ok.injEq, Prod.mk.injEq] at h
    obtain ⟨rfl, rfl⟩ := h
    refine ⟨hne, fun c hc => List.mem_takeWhile_imp hc, fun c hc => ?_,
      List.takeWhile_append_dropWhile.symm⟩
    have hhead := List.head?_dropWhile_not Char.isDigit text
    rw [hc] at hhead
    simpa using hhead

theorem local_readDigits : Local Agree readDigits := by
  intro text digits rest h
  obtain ⟨hne, hdigits, hrest, rfl⟩ := readDigits_eq_ok h
  exact ⟨digits, rfl, fun rest' hrest' => readDigits_append hne hdigits <|
    hrest'.forall_head? (fun _ => isDigit_of_isBorder) hrest⟩

theorem readWhole_eq_ok_iff {text : List Char} : readWhole text = .ok (digits, rest) ↔
    readDigits text = .ok (digits, rest) ∧ ∀ c more, digits ≠ '0' :: c :: more := by
  unfold readWhole
  split
  · rename_i c more rest' hread
    rw [hread]
    simp only [reduceCtorEq, Except.ok.injEq, Prod.mk.injEq, false_iff, not_and]
    rintro ⟨rfl, rfl⟩ h
    exact h _ _ rfl
  · rename_i hzero
    constructor
    · intro h
      refine ⟨h, fun c more hdigits => ?_⟩
      exact hzero c more rest (hdigits ▸ h)
    · intro h
      exact h.1

theorem local_readWhole : Local Agree readWhole := by
  intro text digits rest h
  obtain ⟨hread, hzero⟩ := readWhole_eq_ok_iff.1 h
  obtain ⟨taken, rfl, htaken⟩ := local_readDigits hread
  exact ⟨taken, rfl, fun rest' hrest' => readWhole_eq_ok_iff.2 ⟨htaken rest' hrest', hzero⟩⟩

theorem readFraction_of_ne {text : List Char} (h : ∀ c ∈ text.head?, c ≠ '.') :
    readFraction text = .ok ([], text) := by
  unfold readFraction
  split
  · exact absurd rfl (h _ rfl)
  · rfl

theorem ne_point_of_isBorder {c : Char} (h : isBorder c = true) : c ≠ '.' := by
  rcases isBorder_eq_true_iff.1 h with rfl | rfl | rfl | rfl | rfl | rfl <;> decide

theorem local_readFraction : Local Agree readFraction := by
  intro text digits rest h
  by_cases hpoint : ∀ c ∈ text.head?, c ≠ '.'
  · rw [readFraction_of_ne hpoint] at h
    cases h
    exact ⟨[], rfl, fun rest' hrest' =>
      readFraction_of_ne (hrest'.forall_head? (fun _ => ne_point_of_isBorder) hpoint)⟩
  · cases text with
    | nil => simp at hpoint
    | cons c text =>
      obtain rfl : c = '.' := by simpa using hpoint
      obtain ⟨taken, rfl, htaken⟩ := local_readDigits h
      exact ⟨'.' :: taken, rfl, htaken⟩

section Exponent

variable {c : Char} {text : List Char}

theorem readExponent_of_ne (h : ∀ c ∈ text.head?, ¬(c = 'e' ∨ c = 'E')) :
    readExponent text = .ok (none, text) := by
  cases text with
  | nil => rfl
  | cons c text =>
    unfold readExponent
    dsimp only
    rw [if_neg (h c rfl)]

def readUnsignedExponent (negative : Bool) (text : List Char) :
    Except Fault (Option Exponent × List Char) :=
  (readDigits text).map fun p => (some ⟨negative, p.1⟩, p.2)

theorem readExponent_plus (hc : c = 'e' ∨ c = 'E') (text : List Char) :
    readExponent (c :: '+' :: text) = readUnsignedExponent false text := by
  unfold readExponent readUnsignedExponent
  dsimp only
  rw [if_pos hc]
  change (readDigits text >>= fun p => .ok (some (Exponent.mk false p.1), p.2)) = _
  cases readDigits text <;> rfl

theorem readExponent_minus (hc : c = 'e' ∨ c = 'E') (text : List Char) :
    readExponent (c :: '-' :: text) = readUnsignedExponent true text := by
  unfold readExponent readUnsignedExponent
  dsimp only
  rw [if_pos hc]
  change (readDigits text >>= fun p => .ok (some (Exponent.mk true p.1), p.2)) = _
  cases readDigits text <;> rfl

theorem readExponent_digits (hc : c = 'e' ∨ c = 'E') (hplus : ∀ more, text ≠ '+' :: more)
    (hminus : ∀ more, text ≠ '-' :: more) :
    readExponent (c :: text) = readUnsignedExponent false text := by
  unfold readExponent readUnsignedExponent
  dsimp only
  rw [if_pos hc]
  split
  · exact absurd rfl (hplus _)
  · exact absurd rfl (hminus _)
  · cases readDigits text <;> rfl

theorem local_readUnsignedExponent (negative : Bool) :
    Local Agree (readUnsignedExponent negative) :=
  local_readDigits.map fun digits => some (Exponent.mk negative digits)

theorem not_exponent_of_isBorder {c : Char} (h : isBorder c = true) : ¬(c = 'e' ∨ c = 'E') := by
  rcases isBorder_eq_true_iff.1 h with rfl | rfl | rfl | rfl | rfl | rfl <;> decide

theorem local_readExponent : Local Agree readExponent := by
  intro text exponent rest h
  by_cases hmark : ∀ c ∈ text.head?, ¬(c = 'e' ∨ c = 'E')
  · rw [readExponent_of_ne hmark] at h
    cases h
    exact ⟨[], rfl, fun rest' hrest' =>
      readExponent_of_ne (hrest'.forall_head? (fun _ => not_exponent_of_isBorder) hmark)⟩
  · cases text with
    | nil => simp at hmark
    | cons c text =>
      have hc : c = 'e' ∨ c = 'E' := by
        by_contra hc
        exact hmark fun d hd => Option.some.inj hd ▸ hc
      by_cases hplus : ∃ more, text = '+' :: more
      · obtain ⟨more, rfl⟩ := hplus
        rw [readExponent_plus hc] at h
        obtain ⟨taken, rfl, htaken⟩ := local_readUnsignedExponent false h
        exact ⟨c :: '+' :: taken, rfl, fun rest' hrest' =>
          (readExponent_plus hc _).trans (htaken rest' hrest')⟩
      · by_cases hminus : ∃ more, text = '-' :: more
        · obtain ⟨more, rfl⟩ := hminus
          rw [readExponent_minus hc] at h
          obtain ⟨taken, rfl, htaken⟩ := local_readUnsignedExponent true h
          exact ⟨c :: '-' :: taken, rfl, fun rest' hrest' =>
            (readExponent_minus hc _).trans (htaken rest' hrest')⟩
        · rw [readExponent_digits hc (fun more => mt (⟨more, ·⟩) hplus)
            (fun more => mt (⟨more, ·⟩) hminus)] at h
          obtain ⟨⟨digits, rest⟩, hread, heq⟩ := Result.map_eq_ok_iff.1 h
          cases heq
          obtain ⟨hne, hdigits, hrest, rfl⟩ := readDigits_eq_ok hread
          obtain ⟨d, digits, rfl⟩ := List.exists_cons_of_ne_nil hne
          have hd := hdigits d List.mem_cons_self
          refine ⟨c :: d :: digits, rfl, fun rest' hrest' => ?_⟩
          -- The first digit is no sign, whatever comes after the digits.
          have hsign : ∀ e more, e.isDigit = false → d :: (digits ++ rest') ≠ e :: more := by
            rintro e more he ⟨⟩
            exact absurd hd (by simp [he])
          rw [List.cons_append, List.cons_append,
            readExponent_digits hc (fun more => hsign '+' more rfl)
              (fun more => hsign '-' more rfl), readUnsignedExponent, ← List.cons_append,
            readDigits_append hne hdigits
              (hrest'.forall_head? (fun _ => isDigit_of_isBorder) hrest)]
          rfl

end Exponent

def readUnsigned (negative : Bool) (text : List Char) : Except Fault (Numeral × List Char) := do
  let (whole, text) ← readWhole text
  let (fraction, text) ← readFraction text
  let (exponent, rest) ← readExponent text
  .ok (⟨negative, whole, fraction, exponent⟩, rest)

theorem read_minus (text : List Char) : read ('-' :: text) = readUnsigned true text := rfl

theorem read_of_ne {text : List Char} (h : ∀ more, text ≠ '-' :: more) :
    read text = readUnsigned false text := by
  unfold read
  split
  rename_i negative text' hsign
  split at hsign
  · exact absurd rfl (h _)
  · cases hsign
    rfl

theorem local_readUnsigned (negative : Bool) : Local Agree (readUnsigned negative) := by
  refine local_readWhole.bind (s := fun whole text => readFraction text >>= fun q =>
    readExponent q.2 >>= fun r => .ok (Numeral.mk negative whole q.1 r.1, r.2))
    stable_agree fun whole => ?_
  refine local_readFraction.bind (s := fun fraction text => readExponent text >>= fun r =>
    .ok (Numeral.mk negative whole fraction r.1, r.2)) stable_agree fun fraction => ?_
  exact local_readExponent.bind (s := fun exponent rest =>
    .ok (Numeral.mk negative whole fraction exponent, rest)) stable_agree fun exponent => local_ok _

end Digits

theorem ne_minus_of_isBorder {c : Char} (h : isBorder c = true) : c ≠ '-' := by
  rcases isBorder_eq_true_iff.1 h with rfl | rfl | rfl | rfl | rfl | rfl <;> decide

theorem local_read : Local Agree read := by
  intro text numeral rest h
  by_cases hminus : ∀ c ∈ text.head?, c ≠ '-'
  · have hread : ∀ {text : List Char}, (∀ c ∈ text.head?, c ≠ '-') →
        read text = readUnsigned false text := by
      rintro text hne
      exact read_of_ne fun more hmore => hne '-' (hmore ▸ rfl) rfl
    rw [hread hminus] at h
    obtain ⟨taken, rfl, htaken⟩ := local_readUnsigned false h
    refine ⟨taken, rfl, fun rest' hrest' => ?_⟩
    rw [hread ?_, htaken rest' hrest']
    cases taken with
    | nil => exact hrest'.forall_head? (fun _ => ne_minus_of_isBorder) hminus
    | cons c taken => exact hminus
  · cases text with
    | nil => simp at hminus
    | cons c text =>
      obtain rfl : c = '-' := by simpa using hminus
      obtain ⟨taken, rfl, htaken⟩ := local_readUnsigned true h
      exact ⟨'-' :: taken, rfl, htaken⟩

end Numeral

def numberResult (numeral : Numeral) : Except Fault Value :=
  match numeral.value? with
  | some number => .ok (.number number)
  | none => .error .malformed

theorem readNumber_eq (text : List Char) :
    readNumber text = Numeral.read text >>= fun p =>
      (numberResult p.1).map fun value => (value, p.2) := by
  rw [readNumber]
  refine congrArg _ (funext fun p => ?_)
  obtain ⟨numeral, rest⟩ := p
  dsimp only
  rw [numberResult]
  cases numeral.value? <;> rfl

theorem local_readNumber : Local Agree readNumber := by
  have hlocal := Numeral.local_read.bind (s := fun numeral rest =>
    (numberResult numeral).map fun value => (value, rest)) stable_agree fun numeral => by
      cases numberResult numeral with
      | error fault => exact local_error fun _ => fault
      | ok value => exact local_ok value
  simpa only [← readNumber_eq] using hlocal

theorem local_readWord (value : Value) (word : List Char) :
    Local Anything (readWord value word) := by
  intro text v rest h
  induction word generalizing text with
  | nil =>
    cases h
    exact ⟨[], rfl, fun _ _ => rfl⟩
  | cons c word ih =>
    cases text with
    | nil => cases h
    | cons d text =>
      rw [readWord] at h
      split_ifs at h with hcd
      obtain ⟨taken, rfl, htaken⟩ := ih h
      refine ⟨d :: taken, rfl, fun rest' _ => ?_⟩
      rw [List.cons_append, readWord, if_pos hcd, htaken rest' trivial]

theorem readScalar_of_numeral {c : Char} (hc : c = '-' ∨ c.isDigit = true) (text : List Char) :
    readScalar (c :: text) = readNumber (c :: text) := by
  have hne : ∀ d, d ≠ '-' → d.isDigit = false → c ≠ d := by
    rintro d hminus hdigit rfl
    rcases hc with hc | hc
    · exact hminus hc
    · exact absurd hc (by simp [hdigit])
  unfold readScalar
  split
  · exact absurd (List.cons.inj ‹_›).1 (hne 'n' (by decide) rfl)
  · exact absurd (List.cons.inj ‹_›).1 (hne 't' (by decide) rfl)
  · exact absurd (List.cons.inj ‹_›).1 (hne 'f' (by decide) rfl)
  · exact absurd (List.cons.inj ‹_›).1 (hne '"' (by decide) rfl)
  · cases ‹_›
  · rename_i heq
    cases heq
    rw [if_pos hc]

theorem isBorder_of_numeral {c : Char} (hc : c = '-' ∨ c.isDigit = true) : isBorder c = false := by
  by_contra h
  rw [Bool.not_eq_false] at h
  rcases hc with hc | hc
  · exact Numeral.ne_minus_of_isBorder h hc
  · exact absurd hc (by simp [Numeral.isDigit_of_isBorder h])

theorem local_readScalar : Local Agree readScalar := by
  intro text value rest h
  unfold readScalar at h
  split at h
  · obtain ⟨taken, rfl, htaken⟩ := local_readWord _ _ h
    exact ⟨'n' :: taken, rfl, fun rest' _ => htaken rest' trivial⟩
  · obtain ⟨taken, rfl, htaken⟩ := local_readWord _ _ h
    exact ⟨'t' :: taken, rfl, fun rest' _ => htaken rest' trivial⟩
  · obtain ⟨taken, rfl, htaken⟩ := local_readWord _ _ h
    exact ⟨'f' :: taken, rfl, fun rest' _ => htaken rest' trivial⟩
  · obtain ⟨taken, rfl, htaken⟩ := local_readText.bind (s := fun content rest =>
      .ok (Value.string content, rest)) stable_anything (fun _ => local_ok _) h
    exact ⟨'"' :: taken, rfl, fun rest' _ => htaken rest' trivial⟩
  · cases h
  · rename_i c text hn ht hf hq
    split_ifs at h with hc
    obtain ⟨taken, htext, htaken⟩ := local_readNumber h
    refine ⟨taken, htext, fun rest' hrest' => ?_⟩
    have hagree : Agree (c :: text) (taken ++ rest') := htext ▸ stable_agree hrest'
    obtain ⟨more, hmore⟩ := List.head?_eq_some_iff.1 (hagree.head?_eq (isBorder_of_numeral hc))
    rw [hmore, readScalar_of_numeral hc, ← hmore, htaken rest' hrest']

end TagTemplate.Json
