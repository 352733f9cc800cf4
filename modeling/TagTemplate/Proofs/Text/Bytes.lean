import Mathlib.Data.List.Infix
import TagTemplate.Proofs.Text.Find
import TagTemplate.Text.Size

/-!
# Texts as bytes

The bytes of a text in UTF-8, and the parts of a text before and after a byte offset. Characters of
one byte are never a part of another one, so they can be looked for among the bytes: a pair of them
is found in the place where the text has it, and so is the last of them, and a run of them is as
long.
-/
namespace TagTemplate.Text

def bytes (text : List Char) : List UInt8 := text.flatMap String.utf8EncodeChar

def findBytes? (word text : List UInt8) : Option Nat :=
  text.tails.findIdx? fun rest => word.isPrefixOf rest

def findLastByte? (x : UInt8) (bytes : List UInt8) : Option Nat :=
  (bytes.reverse.idxOf? x).map fun i => bytes.length - 1 - i

/-- The parts of a text before and after a byte offset, unless it lies within a character or beyond
the end. -/
def splitAt? (offset : Nat) : List Char → Option (List Char × List Char)
  | [] => if offset = 0 then some ([], []) else none
  | c :: text =>
    if offset = 0 then some ([], c :: text)
    else if c.utf8Size ≤ offset then
      (splitAt? (offset - c.utf8Size) text).map fun (before, after) => (c :: before, after)
    else none

def sliceTo? (offset : Nat) (text : List Char) : Option (List Char) :=
  (splitAt? offset text).map Prod.fst

def sliceFrom? (offset : Nat) (text : List Char) : Option (List Char) :=
  (splitAt? offset text).map Prod.snd

def slice? (start stop : Nat) (text : List Char) : Option (List Char) :=
  (sliceTo? stop text).bind (sliceFrom? start)

section Size

variable {text before after : List Char}

theorem size_ofList (text : List Char) : size text = (String.ofList text).utf8ByteSize := by
  induction text with
  | nil => rfl
  | cons c text ih =>
    rw [size_cons, ih, String.ofList_cons, String.utf8ByteSize_append,
      String.utf8ByteSize_singleton]

theorem size_toList (text : String) : size text.toList = text.utf8ByteSize := by
  rw [size_ofList, String.ofList_toList]

theorem length_le_size (text : List Char) : text.length ≤ size text := by
  induction text with
  | nil => exact Nat.le_refl 0
  | cons c text ih =>
    have hc := c.utf8Size_pos
    rw [List.length_cons, size_cons]
    omega

theorem size_eq_zero_iff : size text = 0 ↔ text = [] := by
  constructor
  · intro h
    have hlength := length_le_size text
    rw [h] at hlength
    exact List.eq_nil_of_length_eq_zero (Nat.le_zero.1 hlength)
  · rintro rfl
    rfl

/-- Of two parts from the start of a text the one of more bytes goes on where the other ends. -/
theorem exists_append_of_size_lt {before' after' : List Char}
    (h : before ++ after = before' ++ after') (hlt : size before < size before') :
    ∃ more, more ≠ [] ∧ before' = before ++ more := by
  rcases List.append_eq_append_iff.1 h with ⟨more, rfl, -⟩ | ⟨more, rfl, -⟩
  · refine ⟨more, ?_, rfl⟩
    rintro rfl
    rw [List.append_nil] at hlt
    exact lt_irrefl _ hlt
  · rw [size_append] at hlt
    omega

theorem splitAt?_zero (text : List Char) : splitAt? 0 text = some ([], text) := by
  cases text with
  | nil => rfl
  | cons c text => rw [splitAt?, if_pos rfl]

theorem splitAt?_append (before after : List Char) :
    splitAt? (size before) (before ++ after) = some (before, after) := by
  induction before with
  | nil => exact splitAt?_zero after
  | cons c before ih =>
    have hc := c.utf8Size_pos
    rw [List.cons_append, splitAt?, size_cons, if_neg (by omega), if_pos (by omega),
      Nat.add_sub_cancel_left, ih]
    rfl

theorem eq_of_splitAt? {offset : Nat} (h : splitAt? offset text = some (before, after)) :
    text = before ++ after ∧ size before = offset := by
  induction text generalizing offset before with
  | nil =>
    rw [splitAt?] at h
    split_ifs at h with hzero
    obtain ⟨rfl, rfl⟩ := Prod.mk.inj (Option.some.inj h)
    exact ⟨rfl, hzero.symm⟩
  | cons c text ih =>
    rw [splitAt?] at h
    split_ifs at h with hzero hc
    · obtain ⟨rfl, rfl⟩ := Prod.mk.inj (Option.some.inj h)
      exact ⟨rfl, hzero.symm⟩
    · obtain ⟨⟨first, second⟩, hsplit, heq⟩ := Option.map_eq_some_iff.1 h
      obtain ⟨rfl, rfl⟩ := Prod.mk.inj heq
      obtain ⟨rfl, hsize⟩ := ih hsplit
      refine ⟨rfl, ?_⟩
      rw [size_cons]
      omega

@[simp] theorem sliceTo?_append (before after : List Char) :
    sliceTo? (size before) (before ++ after) = some before := by
  rw [sliceTo?, splitAt?_append, Option.map_some]

@[simp] theorem sliceFrom?_append (before after : List Char) :
    sliceFrom? (size before) (before ++ after) = some after := by
  rw [sliceFrom?, splitAt?_append, Option.map_some]

theorem slice?_append (before text after : List Char) :
    slice? (size before) (size before + size text) (before ++ text ++ after) = some text := by
  rw [slice?, ← size_append, sliceTo?_append, Option.bind_some, sliceFrom?_append]

/-- A byte offset parts a text exactly if it lies on the boundary of a character. -/
theorem exists_splitAt?_iff (text : String) (offset : Nat) :
    (∃ parts, splitAt? offset text.toList = some parts) ↔
      String.Pos.Raw.IsValid text ⟨offset⟩ := by
  rw [String.Pos.Raw.isValid_iff_exists_append]
  constructor
  · rintro ⟨⟨before, after⟩, hsplit⟩
    obtain ⟨htext, hsize⟩ := eq_of_splitAt? hsplit
    refine ⟨String.ofList before, String.ofList after, ?_, ?_⟩
    · rw [← String.ofList_append, ← htext, String.ofList_toList]
    · rw [← hsize, size_ofList]
      rfl
  · rintro ⟨before, after, rfl, hoffset⟩
    have hsize : offset = size before.toList := by
      rw [size_toList]
      exact congrArg String.Pos.Raw.byteIdx hoffset
    rw [hsize, String.toList_append]
    exact ⟨_, splitAt?_append _ _⟩

end Size

section Bytes

variable {b : Char} {x : UInt8} {c : Char} {text : List Char}

theorem bytes_cons (c : Char) (text : List Char) :
    bytes (c :: text) = String.utf8EncodeChar c ++ bytes text := rfl

theorem bytes_append (a b : List Char) : bytes (a ++ b) = bytes a ++ bytes b :=
  List.flatMap_append

theorem length_bytes (text : List Char) : (bytes text).length = size text := by
  induction text with
  | nil => rfl
  | cons c text ih =>
    rw [bytes_cons, List.length_append, ih, String.length_utf8EncodeChar, size_cons]

theorem utf8EncodeChar_of_le (h : c.toNat ≤ 127) :
    String.utf8EncodeChar c = [UInt8.ofNat c.toNat] := if_pos h

/-- No byte of a longer character stands for a character by itself. -/
theorem le_toNat_of_mem_utf8EncodeChar (h : 127 < c.toNat) (hx : x ∈ String.utf8EncodeChar c) :
    128 ≤ x.toNat := by
  have hc : ¬c.val.toNat ≤ 127 := Nat.not_le.2 h
  unfold String.utf8EncodeChar at hx
  rw [if_neg hc] at hx
  split_ifs at hx
  all_goals
    simp only [List.mem_cons, List.not_mem_nil, or_false] at hx
    rcases hx with rfl | rfl | rfl | rfl
  all_goals
    rw [UInt8.toNat_ofNat']
    omega

theorem toNat_le_of_utf8EncodeChar_eq (hb : String.utf8EncodeChar b = [x]) : b.toNat ≤ 127 := by
  have hlength := String.length_utf8EncodeChar b
  rw [hb, List.length_singleton] at hlength
  have := (Char.utf8Size_eq_one_iff.1 hlength.symm)
  exact UInt32.le_iff_toNat_le.1 this

/-- A byte that stands for a character is a part of no other one. -/
theorem mem_utf8EncodeChar_iff (hb : String.utf8EncodeChar b = [x]) :
    x ∈ String.utf8EncodeChar c ↔ c = b := by
  constructor
  · intro hx
    have hcode := toNat_le_of_utf8EncodeChar_eq hb
    rw [utf8EncodeChar_of_le hcode, List.singleton_inj] at hb
    have hsmall : x.toNat = b.toNat := by
      rw [← hb, UInt8.toNat_ofNat']
      omega
    by_cases hc : c.toNat ≤ 127
    · rw [utf8EncodeChar_of_le hc, List.mem_singleton] at hx
      have hsame : x.toNat = c.toNat := by
        rw [hx, UInt8.toNat_ofNat']
        omega
      rw [← Char.toNat_inj, ← hsame, hsmall]
    · have hlarge := le_toNat_of_mem_utf8EncodeChar (Nat.not_le.1 hc) hx
      omega
  · rintro rfl
    rw [hb]
    exact List.mem_singleton_self x

theorem head?_bytes (hb : String.utf8EncodeChar b = [x]) :
    (bytes text).head? = some x ↔ text.head? = some b := by
  cases text with
  | nil => simp [bytes]
  | cons c text =>
    rw [bytes_cons, List.head?_append_of_ne_nil _ String.utf8EncodeChar_ne_nil, List.head?_cons,
      Option.some_inj]
    constructor
    · intro hhead
      exact (mem_utf8EncodeChar_iff hb).1 (List.mem_of_mem_head? hhead)
    · rintro rfl
      rw [hb]
      rfl

theorem findBytes?_pair_cons (x y : UInt8) (rest : List UInt8) :
    findBytes? [x, x] (y :: rest) =
      if y = x ∧ rest.head? = some x then some 0 else (findBytes? [x, x] rest).map (· + 1) :=
  findIdx?_tails_pair_cons x y rest

theorem findBytes?_append_of_notMem {run rest : List UInt8} (h : x ∉ run) :
    findBytes? [x, x] (run ++ rest) = (findBytes? [x, x] rest).map (run.length + ·) := by
  induction run with
  | nil => simp
  | cons y run ih =>
    rw [List.mem_cons, not_or] at h
    rw [List.cons_append, findBytes?_pair_cons, if_neg (fun heq => h.1 heq.1.symm), ih h.2,
      Option.map_map]
    congr 1
    funext length
    simp only [Function.comp_apply, List.length_cons]
    omega

/-- Among the bytes a pair is found where the text has it. -/
theorem findBytes?_pair (hb : String.utf8EncodeChar b = [x]) (text : List Char) :
    findBytes? [x, x] (bytes text) = (Piece.cutAtPair b text).map fun parts => size parts.1 := by
  induction text with
  | nil => rfl
  | cons c text ih =>
    by_cases hc : c = b
    · subst hc
      have hsize : c.utf8Size = 1 := by rw [← String.length_utf8EncodeChar, hb]; rfl
      rw [bytes_cons, hb, List.singleton_append, findBytes?_pair_cons, Piece.cutAtPair_cons]
      by_cases hpair : text.head? = some c
      · rw [if_pos ⟨rfl, (head?_bytes hb).2 hpair⟩, if_pos ⟨rfl, hpair⟩]
        rfl
      · rw [if_neg (fun h => hpair ((head?_bytes hb).1 h.2)), if_neg (fun h => hpair h.2), ih,
          Option.map_map, Option.map_map]
        congr 1
        funext parts
        simp only [Function.comp_apply, size_cons, hsize]
        omega
    · have hx : x ∉ String.utf8EncodeChar c := fun hmem => hc ((mem_utf8EncodeChar_iff hb).1 hmem)
      rw [bytes_cons, findBytes?_append_of_notMem hx, ih, Piece.cutAtPair_cons,
        if_neg (fun heq => hc heq.1), Option.map_map, Option.map_map]
      congr 1
      funext parts
      simp only [Function.comp_apply, size_cons, String.length_utf8EncodeChar]

theorem notMem_bytes (hb : String.utf8EncodeChar b = [x]) (h : b ∉ text) : x ∉ bytes text := by
  intro hx
  obtain ⟨c, hc, hx⟩ := List.mem_flatMap.1 hx
  rw [(mem_utf8EncodeChar_iff hb).1 hx] at hc
  exact h hc

theorem findLastByte?_of_notMem {bytes : List UInt8} (h : x ∉ bytes) :
    findLastByte? x bytes = none := by
  rw [findLastByte?, Option.map_eq_none_iff, List.idxOf?_eq_none_iff]
  exact fun hx => h (List.mem_reverse.1 hx)

theorem findLastByte?_append_cons {bytes rest : List UInt8} (h : x ∉ rest) :
    findLastByte? x (bytes ++ x :: rest) = some bytes.length := by
  have hrest : rest.reverse.findIdx? (· == x) = none :=
    List.idxOf?_eq_none_iff.2 fun hx => h (List.mem_reverse.1 hx)
  have hplace : (bytes ++ x :: rest).reverse.idxOf? x = some rest.length := by
    rw [List.reverse_append, List.reverse_cons, List.append_assoc, List.idxOf?,
      List.findIdx?_append, hrest, List.singleton_append, List.findIdx?_cons]
    simp
  rw [findLastByte?, hplace, Option.map_some, List.length_append, List.length_cons]
  congr 1
  omega

/-- Among the bytes a character is found for the last time where the text has it. -/
theorem findLastByte?_bytes (hb : String.utf8EncodeChar b = [x]) {before after : List Char}
    (h : b ∉ after) : findLastByte? x (bytes (before ++ b :: after)) = some (size before) := by
  rw [bytes_append, bytes_cons, hb, List.singleton_append,
    findLastByte?_append_cons (notMem_bytes hb h), length_bytes]

/-- Among the bytes a run of a character is as long as in the text. -/
theorem length_takeWhile_bytes (hb : String.utf8EncodeChar b = [x]) (text : List Char) :
    ((bytes text).takeWhile (· == x)).length = (text.takeWhile (· == b)).length := by
  induction text with
  | nil => rfl
  | cons c text ih =>
    by_cases hc : c = b
    · subst hc
      rw [bytes_cons, hb, List.singleton_append, List.takeWhile_cons_of_pos (by simp),
        List.takeWhile_cons_of_pos (by simp), List.length_cons, List.length_cons, ih]
    · have hhead : (bytes (c :: text)).head? ≠ some x := fun h =>
        hc (Option.some.inj ((head?_bytes hb).1 h))
      rw [List.takeWhile_cons_of_neg (by simpa using hc)]
      cases hbytes : bytes (c :: text) with
      | nil => rfl
      | cons y rest =>
        rw [hbytes, List.head?_cons, ne_eq, Option.some_inj] at hhead
        rw [List.takeWhile_cons_of_neg (by simpa using hhead)]
        rfl

end Bytes

end TagTemplate.Text
