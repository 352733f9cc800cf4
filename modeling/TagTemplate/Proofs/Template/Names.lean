import Mathlib.Data.List.Basic
import Mathlib.Data.List.Induction

/-!
# Distinct names

Erasing duplicates keeps the first of equal names, and what is left stands in the order of first
appearance. So the first name with a property is the same with and without the duplicates. Names
that are taken up one by one, each if it is not there yet, are what is left.
-/
namespace TagTemplate.Names

variable {α : Type u} [BEq α] [LawfulBEq α]

theorem eraseDups_snoc (l : List α) (a : α) :
    (l ++ [a]).eraseDups = l.eraseDups ++ if a ∈ l then [] else [a] := by
  rw [List.eraseDups_append]
  by_cases h : a ∈ l
  · simp [List.removeAll, h]
  · simp [List.removeAll, h, List.eraseDups_cons]

theorem find?_eraseDups (p : α → Bool) (l : List α) : l.eraseDups.find? p = l.find? p := by
  induction l using List.reverseRecOn with
  | nil => rfl
  | append_singleton l a ih =>
    rw [eraseDups_snoc, List.find?_append, List.find?_append, ih]
    by_cases h : a ∈ l
    · rw [if_pos h]
      cases hfind : l.find? p with
      | some b => rfl
      | none =>
        have ha : ¬p a = true := List.find?_eq_none.1 hfind a h
        simp [ha]
    · rw [if_neg h]

theorem pairwise_idxOf_eraseDups (l : List α) :
    l.eraseDups.Pairwise fun a b => l.idxOf a < l.idxOf b := by
  induction l using List.reverseRecOn with
  | nil => exact List.Pairwise.nil
  | append_singleton l a ih =>
    have hold : l.eraseDups.Pairwise fun b c => (l ++ [a]).idxOf b < (l ++ [a]).idxOf c := by
      apply List.Pairwise.imp_of_mem _ ih
      intro b c hb hc hlt
      rw [List.mem_eraseDups] at hb hc
      rw [List.idxOf_append_of_mem hb, List.idxOf_append_of_mem hc]
      exact hlt
    rw [eraseDups_snoc]
    by_cases h : a ∈ l
    · rw [if_pos h, List.append_nil]
      exact hold
    · rw [if_neg h, List.pairwise_append]
      refine ⟨hold, List.pairwise_singleton _ _, ?_⟩
      intro b hb c hc
      rw [List.mem_eraseDups] at hb
      rw [List.mem_singleton.1 hc, List.idxOf_append_of_mem hb, List.idxOf_append_of_notMem h]
      have := List.idxOf_lt_length_of_mem hb
      omega

theorem nodup_eraseDups (l : List α) : l.eraseDups.Nodup := by
  apply (pairwise_idxOf_eraseDups l).imp
  rintro a b hlt rfl
  exact absurd hlt (Nat.lt_irrefl _)

theorem idxOf_lt_of_idxOf_eraseDups_lt {l : List α} {a b : α} (ha : a ∈ l) (hb : b ∈ l)
    (h : l.eraseDups.idxOf a < l.eraseDups.idxOf b) : l.idxOf a < l.idxOf b := by
  have hi := List.idxOf_lt_length_of_mem (List.mem_eraseDups.2 ha)
  have hj := List.idxOf_lt_length_of_mem (List.mem_eraseDups.2 hb)
  have hlt := List.pairwise_iff_getElem.1 (pairwise_idxOf_eraseDups l) _ _ hi hj h
  rwa [List.getElem_idxOf, List.getElem_idxOf] at hlt

/-- Of two names the one that appears first stands first. -/
theorem idxOf_eraseDups_lt_iff {l : List α} {a b : α} :
    l.eraseDups.idxOf a < l.eraseDups.idxOf b ↔ l.idxOf a < l.idxOf b := by
  by_cases ha : a ∈ l
  · by_cases hb : b ∈ l
    · refine ⟨idxOf_lt_of_idxOf_eraseDups_lt ha hb, fun h => ?_⟩
      rcases Nat.lt_trichotomy (l.eraseDups.idxOf a) (l.eraseDups.idxOf b) with hlt | heq | hgt
      · exact hlt
      · obtain rfl := (List.idxOf_inj (List.mem_eraseDups.2 ha)).1 heq
        exact absurd h (Nat.lt_irrefl _)
      · exact absurd h (Nat.lt_asymm (idxOf_lt_of_idxOf_eraseDups_lt hb ha hgt))
    · -- What does not appear is looked for to the end.
      have hb' : b ∉ l.eraseDups := mt List.mem_eraseDups.1 hb
      rw [List.idxOf_eq_length hb, List.idxOf_eq_length hb']
      exact iff_of_true (List.idxOf_lt_length_of_mem (List.mem_eraseDups.2 ha))
        (List.idxOf_lt_length_of_mem ha)
  · have ha' : a ∉ l.eraseDups := mt List.mem_eraseDups.1 ha
    rw [List.idxOf_eq_length ha, List.idxOf_eq_length ha']
    exact iff_of_false (Nat.not_lt.2 List.idxOf_le_length) (Nat.not_lt.2 List.idxOf_le_length)

theorem eraseDups_filter (p : α → Bool) (l : List α) :
    (l.filter p).eraseDups = l.eraseDups.filter p := by
  induction l using List.reverseRecOn with
  | nil => rfl
  | append_singleton l a ih =>
    rw [eraseDups_snoc, List.filter_append, List.filter_append, List.filter_singleton, ← ih]
    cases hp : p a with
    | false =>
      by_cases h : a ∈ l <;> simp [h, hp]
    | true =>
      by_cases h : a ∈ l <;> simp [eraseDups_snoc, h, hp]

/-- Of two lists of names the first keeps all of its own, and the second those that are new. -/
theorem eraseDups_append (l more : List α) :
    (l ++ more).eraseDups =
      l.eraseDups ++ more.eraseDups.filter fun a => !l.eraseDups.contains a := by
  rw [List.eraseDups_append, List.removeAll, eraseDups_filter]
  congr 2
  funext a
  simp [List.elem_eq_contains]

def addNew (names : List α) (name : α) : List α :=
  if names.contains name then names else names ++ [name]

theorem addNew_eraseDups (l : List α) (a : α) : addNew l.eraseDups a = (l ++ [a]).eraseDups := by
  rw [addNew, eraseDups_snoc]
  by_cases h : a ∈ l <;> simp [h]

theorem foldl_addNew (l : List α) : l.foldl addNew [] = l.eraseDups := by
  induction l using List.reverseRecOn with
  | nil => rfl
  | append_singleton l a ih =>
    rw [List.foldl_append, ih]
    exact addNew_eraseDups l a

end TagTemplate.Names
