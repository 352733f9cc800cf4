/-!
# The first that fails and the last that counts

Where things are taken in turn until one of them fails, either all of them pass or there is a first
one that does not. Where later things win over earlier ones, what counts is what the last of them
gives that gives anything. It may be looked for among the later ones first, and among the earlier
ones only if the later ones give nothing.
-/
namespace TagTemplate

theorem forall_or_exists_first (p : α → Prop) (l : List α) :
    (∀ a ∈ l, p a) ∨
      ∃ before a after, l = before ++ a :: after ∧ (∀ b ∈ before, p b) ∧ ¬p a := by
  induction l with
  | nil => exact .inl (by simp)
  | cons a l ih =>
    by_cases ha : p a
    · rcases ih with hall | ⟨before, b, after, rfl, hbefore, hb⟩
      · exact .inl (List.forall_mem_cons.2 ⟨ha, hall⟩)
      · exact .inr ⟨a :: before, b, after, rfl, List.forall_mem_cons.2 ⟨ha, hbefore⟩, hb⟩
    · exact .inr ⟨[], a, l, rfl, by simp, ha⟩

/-- What the last element of a list gives that gives anything. -/
def lastSome? (f : α → Option β) (l : List α) : Option β := l.reverse.findSome? f

variable {f : α → Option β} {l : List α} {a : α} {b : β}

theorem lastSome?_append (f : α → Option β) (l later : List α) :
    lastSome? f (l ++ later) = (lastSome? f later).or (lastSome? f l) := by
  rw [lastSome?, List.reverse_append, List.findSome?_append]
  rfl

@[simp] theorem lastSome?_singleton (f : α → Option β) (a : α) : lastSome? f [a] = f a := by
  rw [lastSome?, List.reverse_singleton, List.findSome?_singleton]

theorem lastSome?_cons (f : α → Option β) (a : α) (l : List α) :
    lastSome? f (a :: l) = (lastSome? f l).or (f a) := by
  rw [← List.singleton_append, lastSome?_append, lastSome?_singleton]

theorem lastSome?_eq_none_iff : lastSome? f l = none ↔ ∀ a ∈ l, f a = none := by
  rw [lastSome?, List.findSome?_eq_none_iff]
  simp only [List.mem_reverse]

theorem exists_mem_of_lastSome? (h : lastSome? f l = some b) : ∃ a ∈ l, f a = some b := by
  obtain ⟨a, ha, hb⟩ := List.exists_of_findSome?_eq_some h
  exact ⟨a, List.mem_reverse.1 ha, hb⟩

/-- What an element gives counts just if those after it give nothing. -/
theorem lastSome?_eq_some_iff :
    lastSome? f l = some b ↔
      ∃ before a after, l = before ++ a :: after ∧ f a = some b ∧ ∀ later ∈ after, f later = none := by
  rw [lastSome?, List.findSome?_eq_some_iff]
  constructor
  · rintro ⟨after, a, before, hl, ha, hafter⟩
    refine ⟨before.reverse, a, after.reverse, ?_, ha, fun later hlater => ?_⟩
    · rw [← List.reverse_reverse l, hl]
      simp
    · exact hafter later (List.mem_reverse.1 hlater)
  · rintro ⟨before, a, after, rfl, ha, hafter⟩
    refine ⟨after.reverse, a, before.reverse, by simp, ha, fun later hlater => ?_⟩
    exact hafter later (List.mem_reverse.1 hlater)

/-- What is given by an element after which none gives anything. -/
def LastGives (R : α → β → Prop) (l : List α) (b : β) : Prop :=
  ∃ before a after, l = before ++ a :: after ∧ R a b ∧ ∀ later ∈ after, ∀ other, ¬R later other

section Relation

variable {R : α → β → Prop} (h : ∀ a b, f a = some b ↔ R a b)
include h

theorem lastSome?_eq_some_iff_lastGives : lastSome? f l = some b ↔ LastGives R l b := by
  simp only [lastSome?_eq_some_iff, LastGives, Option.eq_none_iff_forall_ne_some, ne_eq, h]

theorem lastSome?_eq_none_iff_forall_not : lastSome? f l = none ↔ ∀ a ∈ l, ∀ b, ¬R a b := by
  rw [lastSome?_eq_none_iff]
  simp only [Option.eq_none_iff_forall_ne_some, ne_eq, h]

end Relation

/-- Elements that give nothing may be left out. -/
theorem lastSome?_filter {p : α → Bool} (h : ∀ a, p a = false → f a = none) (l : List α) :
    lastSome? f (l.filter p) = lastSome? f l := by
  induction l with
  | nil => rfl
  | cons a l ih =>
    rw [lastSome?_cons]
    cases hp : p a with
    | false => rw [List.filter_cons_of_neg (by simp [hp]), ih, h a hp, Option.or_none]
    | true => rw [List.filter_cons_of_pos hp, lastSome?_cons, ih]

/-- Where each step lays what it gives over what there was, the last that gives anything counts, and
what there was at first if none does. -/
theorem foldl_eq_lastSome?_or (see : σ → Option β) {step : σ → α → σ}
    (hstep : ∀ s a, see (step s a) = (f a).or (see s)) (s : σ) (l : List α) :
    see (l.foldl step s) = (lastSome? f l).or (see s) := by
  induction l generalizing s with
  | nil => rfl
  | cons a l ih => rw [List.foldl_cons, ih, hstep, lastSome?_cons, Option.or_assoc]

end TagTemplate
