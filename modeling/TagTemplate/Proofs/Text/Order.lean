import Mathlib.Data.Char
import TagTemplate.Proofs.Text.Bytes

/-!
# The order of texts and of their bytes

Texts are ordered by their characters. Their bytes in UTF-8 are ordered in the same way: the first
byte of a character tells how long it is, a longer one begins with a greater byte, and of two of the
same length the greater one has the greater byte where they first differ.
-/
namespace TagTemplate.Text

/-- Whether some bytes come before others whatever follows either. -/
def Precedes (a b : List UInt8) : Prop := ∀ x y, a ++ x < b ++ y

theorem Precedes.append {a b : List UInt8} (h : Precedes a b) (c d : List UInt8) :
    Precedes (a ++ c) (b ++ d) := by
  intro x y
  rw [List.append_assoc, List.append_assoc]
  exact h (c ++ x) (d ++ y)

theorem Precedes.append_left {a b : List UInt8} (h : Precedes a b) (l : List UInt8) :
    Precedes (l ++ a) (l ++ b) := by
  intro x y
  rw [List.append_assoc, List.append_assoc]
  exact List.append_left_lt (h x y)

theorem precedes_cons {m n : Nat} (h : m < n) (hn : n < 256) (a b : List UInt8) :
    Precedes (UInt8.ofNat m :: a) (UInt8.ofNat n :: b) := by
  intro x y
  rw [List.cons_append, List.cons_append, List.cons_lt_cons_iff, UInt8.lt_iff_toNat_lt,
    UInt8.toNat_ofNat', UInt8.toNat_ofNat']
  omega

/-- The byte that ends a code and holds the lowest six bits of it. -/
def lowByte (code : Nat) : UInt8 := UInt8.ofNat (code % 64 + 128)

/-- The bytes of two codes are decided by the codes without the lowest six bits, and by these bits
if nothing else differs. -/
theorem precedes_lowByte {f : Nat → List UInt8} {m n : Nat} (h : m < n)
    (hf : m / 64 < n / 64 → Precedes (f (m / 64)) (f (n / 64))) :
    Precedes (f (m / 64) ++ [lowByte m]) (f (n / 64) ++ [lowByte n]) := by
  rcases Nat.lt_or_eq_of_le (Nat.div_le_div_right (c := 64) h.le) with hlt | heq
  · exact (hf hlt).append _ _
  · rw [heq]
    exact (precedes_cons (by omega) (by omega) [] []).append_left _

theorem precedes_utf8EncodeChar {c d : Char} (h : c < d) :
    Precedes (String.utf8EncodeChar c) (String.utf8EncodeChar d) := by
  have hlt : c.val.toNat < d.val.toNat := UInt32.lt_iff_toNat_lt.1 h
  have hd : d.val.toNat < 1114112 := by
    have hvalid := d.valid
    simp only [UInt32.isValidChar, Nat.isValidChar] at hvalid
    omega
  unfold String.utf8EncodeChar
  generalize c.val.toNat = m at hlt ⊢
  generalize d.val.toNat = n at hlt hd ⊢
  have hdiv : ∀ k, k / 4096 = k / 64 / 64 := fun k => (Nat.div_div_eq_div_mul k 64 64).symm
  have hdiv' : ∀ k, k / 262144 = k / 4096 / 64 := fun k => (Nat.div_div_eq_div_mul k 4096 64).symm
  dsimp only
  split_ifs
  -- Codes of different lengths differ in the first byte already.
  all_goals try exact precedes_cons (by omega) (by omega) _ _
  · apply precedes_lowByte (f := fun v => [UInt8.ofNat (v % 32 + 192)]) hlt
    intro h2
    exact precedes_cons (by omega) (by omega) _ _
  · simp only [hdiv]
    apply precedes_lowByte (f := fun v => [UInt8.ofNat (v / 64 % 16 + 224), lowByte v]) hlt
    intro h2
    apply precedes_lowByte (f := fun v => [UInt8.ofNat (v % 16 + 224)]) h2
    intro h3
    exact precedes_cons (by omega) (by omega) _ _
  · simp only [hdiv', hdiv]
    apply precedes_lowByte
      (f := fun v => [UInt8.ofNat (v / 64 / 64 % 8 + 240), lowByte (v / 64), lowByte v]) hlt
    intro h2
    apply precedes_lowByte (f := fun v => [UInt8.ofNat (v / 64 % 8 + 240), lowByte v]) h2
    intro h3
    apply precedes_lowByte (f := fun v => [UInt8.ofNat (v % 8 + 240)]) h3
    intro h4
    exact precedes_cons (by omega) (by omega) _ _

theorem append_lt_append_iff (l a b : List UInt8) : l ++ a < l ++ b ↔ a < b := by
  induction l with
  | nil => rfl
  | cons x l ih => simp [ih]

/-- Bytes are ordered as the texts that they stand for. -/
theorem bytes_lt_bytes_iff {text other : List Char} : bytes text < bytes other ↔ text < other := by
  induction text generalizing other with
  | nil =>
    cases other with
    | nil => exact iff_of_false (List.not_lt_nil []) (List.not_lt_nil [])
    | cons d other =>
      obtain ⟨x, xs, hx⟩ := List.exists_cons_of_ne_nil (String.utf8EncodeChar_ne_nil (c := d))
      rw [bytes_cons, hx]
      exact iff_of_true (List.nil_lt_cons _ _) (List.nil_lt_cons _ _)
  | cons c text ih =>
    cases other with
    | nil => exact iff_of_false (List.not_lt_nil _) (List.not_lt_nil _)
    | cons d other =>
      rw [bytes_cons, bytes_cons, List.cons_lt_cons_iff]
      rcases lt_trichotomy c d with hlt | rfl | hgt
      · simp [hlt, precedes_utf8EncodeChar hlt _ _]
      · simp [append_lt_append_iff, ih]
      · have hbytes := precedes_utf8EncodeChar hgt (bytes other) (bytes text)
        simp [lt_asymm hgt, hgt.ne', List.lt_asymm hbytes]

theorem bytes_toList_lt_iff {text other : String} :
    bytes text.toList < bytes other.toList ↔ text < other := bytes_lt_bytes_iff

end TagTemplate.Text
