import Mathlib.Data.List.Sort
import TagTemplate.Proofs.Last
import TagTemplate.Table

/-!
# Bindings of tables

Which of several entries with one key a table keeps, and that what a table binds are its entries, so
that its bindings are all there is to it.
-/
namespace TagTemplate.Table

variable {α : Type u} {t : Table α} {key : String} {value : α} {entries : List (String × α)}

theorem insertAll_append (t : Table α) (entries more : List (String × α)) :
    t.insertAll (entries ++ more) = (t.insertAll entries).insertAll more := by
  rw [insertAll, List.foldl_append]
  rfl

theorem insertAll_cons (t : Table α) (entry : String × α) (entries : List (String × α)) :
    t.insertAll (entry :: entries) = (t.insert entry.1 entry.2).insertAll entries := rfl

def valueAt? (key : String) (entry : String × α) : Option α :=
  if entry.1 = key then some entry.2 else none

theorem valueAt?_eq_none_iff {entry : String × α} : valueAt? key entry = none ↔ entry.1 ≠ key := by
  simp [valueAt?]

theorem valueAt?_eq_some_iff {entry : String × α} :
    valueAt? key entry = some value ↔ entry = (key, value) := by
  obtain ⟨key', value'⟩ := entry
  simp [valueAt?]

theorem lookup_insert_entry (t : Table α) (entry : String × α) (key : String) :
    (t.insert entry.1 entry.2).lookup key = (valueAt? key entry).or (t.lookup key) := by
  rw [lookup_insert, valueAt?]
  by_cases h : key = entry.1
  · simp [h]
  · simp [h, Ne.symm h]

/-- The last entry with a key counts, and the table as it was if there is none. -/
theorem lookup_insertAll (t : Table α) (entries : List (String × α)) (key : String) :
    (t.insertAll entries).lookup key =
      (lastSome? (valueAt? key) entries).or (t.lookup key) :=
  foldl_eq_lastSome?_or (fun t : Table α => t.lookup key)
    (fun t entry => lookup_insert_entry t entry key) t entries

theorem lookup_ofList (entries : List (String × α)) (key : String) :
    (ofList entries).lookup key = lastSome? (valueAt? key) entries := by
  rw [ofList, lookup_insertAll, lookup_empty, Option.or_none]

theorem lastSome?_valueAt?_eq_none_iff :
    lastSome? (valueAt? key) entries = none ↔ key ∉ entries.map Prod.fst := by
  simp only [lastSome?_eq_none_iff, valueAt?_eq_none_iff, List.mem_map, not_exists, not_and, ne_eq]

theorem exists_lookup_insertAll_iff :
    (∃ value, (t.insertAll entries).lookup key = some value) ↔
      key ∈ entries.map Prod.fst ∨ ∃ value, t.lookup key = some value := by
  rw [lookup_insertAll]
  cases hlast : lastSome? (valueAt? key) entries with
  | none => simp [lastSome?_valueAt?_eq_none_iff.1 hlast]
  | some value =>
    obtain ⟨entry, hentry, hvalue⟩ := exists_mem_of_lastSome? hlast
    have hmem : key ∈ entries.map Prod.fst :=
      List.mem_map.2 ⟨entry, hentry, congrArg Prod.fst (valueAt?_eq_some_iff.1 hvalue)⟩
    simp [hmem]

theorem lookup_ofList_append_cons (before : List (String × α)) {after : List (String × α)}
    (h : ∀ e ∈ after, e.1 ≠ key) :
    (ofList (before ++ (key, value) :: after)).lookup key = some value := by
  rw [lookup_ofList, lastSome?_eq_some_iff]
  exact ⟨before, (key, value), after, rfl, valueAt?_eq_some_iff.2 rfl, fun e he =>
    valueAt?_eq_none_iff.2 (h e he)⟩

theorem mem_of_mem_toList_insertAll {entries : List (String × α)} {e : String × α}
    (h : e ∈ (t.insertAll entries).toList) : e ∈ t.toList ∨ e ∈ entries := by
  induction entries generalizing t with
  | nil => exact .inl h
  | cons entry entries ih =>
    rw [insertAll_cons] at h
    rcases ih h with hmem | hmem
    · rcases eq_or_mem_of_mem_insertEntry hmem with rfl | hmem
      · exact .inr List.mem_cons_self
      · exact .inl hmem
    · exact .inr (List.mem_cons_of_mem _ hmem)

theorem mem_of_mem_toList_ofList {entries : List (String × α)} {e : String × α}
    (h : e ∈ (ofList entries).toList) : e ∈ entries :=
  (mem_of_mem_toList_insertAll h).resolve_left List.not_mem_nil

/-- The entries before one of a table have lesser keys, and those after it greater ones. -/
theorem lt_of_toList_eq {before after : List (String × α)} {entry : String × α}
    (h : t.toList = before ++ entry :: after) :
    (∀ e ∈ before, e.1 < entry.1) ∧ ∀ e ∈ after, entry.1 < e.1 := by
  have hsorted : t.toList.Pairwise fun a b => a.1 < b.1 := t.sorted
  rw [h, List.pairwise_append, List.pairwise_cons] at hsorted
  exact ⟨fun e he => hsorted.2.2 e he entry List.mem_cons_self, hsorted.2.1.1⟩

/-- No entry after the one of a key has that key. -/
theorem forall_ne_of_toList_eq {before after : List (String × α)}
    (h : t.toList = before ++ (key, value) :: after) : ∀ e ∈ after, e.1 ≠ key := by
  intro e he hkey
  exact String.lt_irrefl e.1 (hkey ▸ (lt_of_toList_eq h).2 e he)

/-- A bound key divides the entries: no entry after its own has it. -/
theorem exists_toList_eq_of_lookup (h : t.lookup key = some value) :
    ∃ before after, t.toList = before ++ (key, value) :: after ∧ ∀ e ∈ after, e.1 ≠ key := by
  obtain ⟨before, after, heq, -⟩ := List.lookup_eq_some_iff.1 h
  exact ⟨before, after, heq, forall_ne_of_toList_eq heq⟩

theorem insertEntry_of_forall_lt {entries : List (String × α)} (h : ∀ e ∈ entries, e.1 < key) :
    insertEntry key value entries = entries ++ [(key, value)] := by
  induction entries with
  | nil => rfl
  | cons entry entries ih =>
    obtain ⟨hentry, hentries⟩ := List.forall_mem_cons.1 h
    have hlt : ¬key < entry.1 := fun hlt => String.lt_irrefl _ (String.lt_trans hlt hentry)
    have hne : key ≠ entry.1 := fun heq => String.lt_irrefl _ (heq ▸ hentry)
    rw [insertEntry, if_neg hlt, if_neg hne, ih hentries, List.cons_append]

/-- Entries with greater keys, in order, are put at the end one after the other. -/
theorem entries_insertAll {entries : List (String × α)}
    (h : (t.entries ++ entries).Pairwise fun a b => a.1 < b.1) :
    (t.insertAll entries).entries = t.entries ++ entries := by
  induction entries generalizing t with
  | nil => rw [List.append_nil]; rfl
  | cons entry entries ih =>
    have hlt : ∀ e ∈ t.entries, e.1 < entry.1 := fun e he =>
      (List.pairwise_append.1 h).2.2 e he entry List.mem_cons_self
    have hentries : (t.insert entry.1 entry.2).entries = t.entries ++ [entry] :=
      insertEntry_of_forall_lt hlt
    have hsplit : t.entries ++ entry :: entries =
        (t.insert entry.1 entry.2).entries ++ entries := by
      rw [hentries, List.append_assoc, List.singleton_append]
    rw [insertAll_cons, hsplit]
    exact ih (hsplit ▸ h)

theorem eq_of_entries_eq {t t' : Table α} (h : t.entries = t'.entries) : t = t' := by
  cases t
  cases t'
  cases h
  rfl

/-- A table is made of its entries. -/
theorem ofList_toList (t : Table α) : ofList t.toList = t :=
  eq_of_entries_eq (entries_insertAll t.sorted)

/-- The entries of a table are its bindings. -/
theorem mem_toList_iff {entry : String × α} :
    entry ∈ t.toList ↔ t.lookup entry.1 = some entry.2 := by
  constructor
  · intro h
    obtain ⟨before, after, heq⟩ := List.append_of_mem h
    have hafter := forall_ne_of_toList_eq heq
    rw [← ofList_toList t, heq]
    exact lookup_ofList_append_cons before hafter
  · intro h
    obtain ⟨before, after, heq, -⟩ := exists_toList_eq_of_lookup h
    rw [heq]
    exact List.mem_append_right before List.mem_cons_self

/-- Tables that bind the same keys to the same values are equal. -/
theorem eq_of_lookup_eq {t t' : Table α} (h : ∀ key, t.lookup key = t'.lookup key) : t = t' := by
  let r : String × α → String × α → Prop := fun a b => a.1 < b.1
  have : Std.Irrefl r := ⟨fun a => String.lt_irrefl a.1⟩
  have : Std.Antisymm r :=
    ⟨fun a b hab hba => absurd (String.lt_trans hab hba) (String.lt_irrefl a.1)⟩
  have hmem : ∀ entry, entry ∈ t.entries ↔ entry ∈ t'.entries := by
    intro entry
    rw [← toList, ← toList, mem_toList_iff, mem_toList_iff, h]
  exact eq_of_entries_eq (List.Pairwise.eq_of_mem_iff (r := r) t.sorted t'.sorted hmem)

theorem mem_toList_insert_iff {entry : String × α} :
    entry ∈ (t.insert key value).toList ↔
      entry = (key, value) ∨ entry.1 ≠ key ∧ entry ∈ t.toList := by
  obtain ⟨key', value'⟩ := entry
  rw [mem_toList_iff, mem_toList_iff, lookup_insert, Prod.mk.injEq]
  by_cases h : key' = key
  · simp [h, eq_comm]
  · simp [h]

theorem lastSome?_valueAt?_toList : lastSome? (valueAt? key) t.toList = t.lookup key := by
  rw [← lookup_ofList, ofList_toList]

theorem lookup_merge (t other : Table α) (key : String) :
    (t.merge other).lookup key = (other.lookup key).or (t.lookup key) := by
  rw [← lastSome?_valueAt?_toList (t := other), merge, lookup_insertAll]
  rfl

theorem exists_lookup_iff : (∃ value, t.lookup key = some value) ↔ key ∈ t.toList.map Prod.fst := by
  constructor
  · rintro ⟨value, hvalue⟩
    exact List.mem_map.2 ⟨(key, value), mem_toList_iff.2 hvalue, rfl⟩
  · intro h
    obtain ⟨entry, hentry, rfl⟩ := List.mem_map.1 h
    exact ⟨entry.2, mem_toList_iff.1 hentry⟩

end TagTemplate.Table
