import Mathlib.Logic.Equiv.Basic
import TagTemplate.Proofs.Table

/-!
# Entries in a different order

What a table binds a key to, after some entries are put into it, is told by the entries with that
key alone. So entries with different keys may change places, and only the order among those with one
key counts. Equal entries are told apart by their places, so a reordering is a bijection of places.
-/
namespace TagTemplate.Table

variable {α : Type u} {entries other : List (String × α)} {key : String}

/-- Whether some entries are others in a different order, where those with one key stay in the order
that they have among themselves. -/
def IsReordering (entries other : List (String × α)) : Prop :=
  ∃ place : Fin entries.length ≃ Fin other.length,
    (∀ i, other.get (place i) = entries.get i) ∧
    ∀ i j, i < j → (entries.get i).1 = (entries.get j).1 → place i < place j

def placesOf (key : String) (entries : List (String × α)) : List (Fin entries.length) :=
  (List.finRange entries.length).filter fun i => (entries.get i).1 = key

theorem mem_placesOf_iff {i : Fin entries.length} :
    i ∈ placesOf key entries ↔ (entries.get i).1 = key := by
  simp [placesOf]

theorem pairwise_placesOf (key : String) (entries : List (String × α)) :
    (placesOf key entries).Pairwise (· < ·) :=
  (List.pairwise_lt_finRange entries.length).filter _

theorem filter_eq_map_placesOf (key : String) (entries : List (String × α)) :
    entries.filter (fun entry => entry.1 = key) = (placesOf key entries).map entries.get := by
  conv_lhs => rw [← List.map_get_finRange entries]
  exact List.filter_map

/-- The places of a key go over into each other, in order. -/
theorem placesOf_eq_map {place : Fin entries.length ≃ Fin other.length}
    (hplace : ∀ i, other.get (place i) = entries.get i)
    (horder : ∀ i j, i < j → (entries.get i).1 = (entries.get j).1 → place i < place j) :
    placesOf key other = (placesOf key entries).map place := by
  have hsorted : ((placesOf key entries).map place).Pairwise (· < ·) := by
    rw [List.pairwise_map]
    apply (pairwise_placesOf key entries).imp_of_mem
    intro i j hi hj hlt
    exact horder i j hlt ((mem_placesOf_iff.1 hi).trans (mem_placesOf_iff.1 hj).symm)
  apply List.Pairwise.eq_of_mem_iff (pairwise_placesOf key other) hsorted
  intro j
  obtain ⟨i, rfl⟩ := place.surjective j
  rw [List.mem_map_of_injective place.injective, mem_placesOf_iff, mem_placesOf_iff, hplace]

theorem IsReordering.filter_eq (h : IsReordering entries other) (key : String) :
    other.filter (fun entry => entry.1 = key) = entries.filter (fun entry => entry.1 = key) := by
  obtain ⟨place, hplace, horder⟩ := h
  calc other.filter (fun entry => entry.1 = key)
    _ = (placesOf key other).map other.get := filter_eq_map_placesOf key other
    _ = ((placesOf key entries).map place).map other.get := by
      rw [placesOf_eq_map hplace horder]
    _ = (placesOf key entries).map entries.get := by
      rw [List.map_map]
      exact List.map_congr_left fun i _ => hplace i
    _ = entries.filter (fun entry => entry.1 = key) := (filter_eq_map_placesOf key entries).symm

theorem IsReordering.mem_iff (h : IsReordering entries other) {entry : String × α} :
    entry ∈ other ↔ entry ∈ entries := by
  have hmem : ∀ l : List (String × α), entry ∈ l ↔ entry ∈ l.filter fun e => e.1 = entry.1 := by
    simp
  rw [hmem other, hmem entries, h.filter_eq]

/-- Of the entries only those with a key bear on its value. -/
theorem lastSome?_valueAt?_filter (key : String) (entries : List (String × α)) :
    lastSome? (valueAt? key) (entries.filter fun entry => entry.1 = key) =
      lastSome? (valueAt? key) entries := by
  apply lastSome?_filter
  intro entry hentry
  rw [valueAt?_eq_none_iff]
  simpa using hentry

/-- A table is the same in whichever order entries with different keys are put into it. -/
theorem IsReordering.insertAll_eq (h : IsReordering entries other) (t : Table α) :
    t.insertAll other = t.insertAll entries := by
  apply eq_of_lookup_eq
  intro key
  rw [lookup_insertAll, lookup_insertAll, ← lastSome?_valueAt?_filter key other,
    ← lastSome?_valueAt?_filter key entries, h.filter_eq key]

end TagTemplate.Table
