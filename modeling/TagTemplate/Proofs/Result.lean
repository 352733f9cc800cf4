import Mathlib.Data.List.Forall2
import TagTemplate.Proofs.Last

/-!
# Results that may be errors

How mapping and sequencing pass on a value or an error. A list of results is a list of values if
none of them is an error.
-/
namespace TagTemplate.Result

variable {ε α β γ : Type u}

@[simp] theorem map_ok (f : α → β) (a : α) : (.ok a : Except ε α).map f = .ok (f a) := rfl

@[simp] theorem map_error (f : α → β) (e : ε) : (.error e : Except ε α).map f = .error e := rfl

@[simp] theorem mapError_ok (g : ε → γ) (a : α) : (.ok a : Except ε α).mapError g = .ok a := rfl

@[simp] theorem mapError_error (g : ε → γ) (e : ε) :
    (.error e : Except ε α).mapError g = .error (g e) := rfl

@[simp] theorem bind_ok (a : α) (f : α → Except ε β) : (.ok a : Except ε α).bind f = f a := rfl

@[simp] theorem bind_error (e : ε) (f : α → Except ε β) :
    (.error e : Except ε α).bind f = .error e := rfl

theorem map_map (f : α → β) (g : β → γ) (x : Except ε α) :
    (x.map f).map g = x.map fun a => g (f a) := by
  cases x <;> rfl

theorem map_eq_self {f : α → α} (h : ∀ a, f a = a) (x : Except ε α) : x.map f = x := by
  cases x with
  | ok a => rw [map_ok, h]
  | error e => rfl

theorem map_eq_ok_iff {f : α → β} {x : Except ε α} {b : β} :
    x.map f = .ok b ↔ ∃ a, x = .ok a ∧ f a = b := by
  cases x <;> simp

theorem mapError_map (f : α → β) (g : ε → γ) (x : Except ε α) :
    (x.map f).mapError g = (x.mapError g).map f := by
  cases x <;> rfl

theorem map_eq_error_iff {f : α → β} {x : Except ε α} {e : ε} :
    x.map f = .error e ↔ x = .error e := by
  cases x <;> simp

theorem mapError_eq_ok_iff {g : ε → γ} {x : Except ε α} {a : α} :
    x.mapError g = .ok a ↔ x = .ok a := by
  cases x <;> simp

theorem mapError_eq_error_iff {g : ε → γ} {x : Except ε α} {e' : γ} :
    x.mapError g = .error e' ↔ ∃ e, x = .error e ∧ g e = e' := by
  cases x <;> simp

theorem toOption_eq_some_iff {x : Except ε α} {a : α} : x.toOption = some a ↔ x = .ok a := by
  cases x <;> simp [Except.toOption]

@[simp] theorem ok_bind (a : α) (f : α → Except ε β) : ((.ok a : Except ε α) >>= f) = f a := rfl

@[simp] theorem error_bind (e : ε) (f : α → Except ε β) :
    ((.error e : Except ε α) >>= f) = .error e := rfl

theorem bind_eq_ok_iff {x : Except ε α} {f : α → Except ε β} {b : β} :
    (x >>= f) = .ok b ↔ ∃ a, x = .ok a ∧ f a = .ok b := by
  cases x <;> simp

theorem mapM_eq_ok_iff {f : α → Except ε β} {as : List α} {bs : List β} :
    as.mapM f = .ok bs ↔ List.Forall₂ (fun a b => f a = .ok b) as bs := by
  induction as generalizing bs with
  | nil =>
    rw [List.mapM_nil, List.forall₂_nil_left_iff]
    exact ⟨fun h => (Except.ok.inj h).symm, fun h => h ▸ rfl⟩
  | cons a as ih =>
    rw [List.mapM_cons, bind_eq_ok_iff, List.forall₂_cons_left_iff]
    constructor
    · rintro ⟨b, hb, h⟩
      obtain ⟨bs', hbs', h⟩ := bind_eq_ok_iff.1 h
      exact ⟨b, bs', hb, ih.1 hbs', (Except.ok.inj h).symm⟩
    · rintro ⟨b, bs', hb, hbs', rfl⟩
      exact ⟨b, hb, bind_eq_ok_iff.2 ⟨bs', ih.2 hbs', rfl⟩⟩

section Forall₂

variable {α : Type u} {β : Type v} {R : α → β → Prop}

theorem forall₂_append_cons_left {before after : List α} {a : α} {bs : List β}
    (h : List.Forall₂ R (before ++ a :: after) bs) :
    ∃ bs₁ b bs₂, bs = bs₁ ++ b :: bs₂ ∧ R a b ∧ List.Forall₂ R after bs₂ := by
  induction before generalizing bs with
  | nil =>
    obtain ⟨b, bs₂, hb, hbs₂, rfl⟩ := List.forall₂_cons_left_iff.1 h
    exact ⟨[], b, bs₂, rfl, hb, hbs₂⟩
  | cons c before ih =>
    obtain ⟨d, bs', -, hbs', rfl⟩ := List.forall₂_cons_left_iff.1 h
    obtain ⟨bs₁, b, bs₂, rfl, hb, hbs₂⟩ := ih hbs'
    exact ⟨d :: bs₁, b, bs₂, rfl, hb, hbs₂⟩

theorem exists_left_of_mem {as : List α} {bs : List β} (h : List.Forall₂ R as bs) {b : β}
    (hb : b ∈ bs) : ∃ a ∈ as, R a b := by
  induction h with
  | nil => exact absurd hb List.not_mem_nil
  | cons hac _ ih =>
    rcases List.mem_cons.1 hb with rfl | hb
    · exact ⟨_, List.mem_cons_self, hac⟩
    · obtain ⟨a, ha, hab⟩ := ih hb
      exact ⟨a, List.mem_cons_of_mem _ ha, hab⟩

end Forall₂

theorem exists_mapM_eq_ok_iff {f : α → Except ε β} {as : List α} :
    (∃ bs, as.mapM f = .ok bs) ↔ ∀ a ∈ as, ∃ b, f a = .ok b := by
  simp only [mapM_eq_ok_iff]
  induction as with
  | nil => simp
  | cons a as ih =>
    rw [List.forall_mem_cons, ← ih]
    constructor
    · rintro ⟨bs, h⟩
      obtain ⟨b, bs', hb, hbs', -⟩ := List.forall₂_cons_left_iff.1 h
      exact ⟨⟨b, hb⟩, bs', hbs'⟩
    · rintro ⟨⟨b, hb⟩, bs, hbs⟩
      exact ⟨b :: bs, List.Forall₂.cons hb hbs⟩

theorem mapM_append_cons_of_error {f : α → Except ε β} {before : List α} {a : α} {e : ε}
    (hbefore : ∀ b ∈ before, ∃ c, f b = .ok c) (ha : f a = .error e) (after : List α) :
    (before ++ a :: after).mapM f = .error e := by
  induction before with
  | nil => rw [List.nil_append, List.mapM_cons, ha, error_bind]
  | cons b before ih =>
    obtain ⟨⟨c, hb⟩, hbefore⟩ := List.forall_mem_cons.1 hbefore
    rw [List.cons_append, List.mapM_cons, hb, ok_bind, ih hbefore, error_bind]

theorem exists_first_of_mapM_eq_error {f : α → Except ε β} {as : List α} {e : ε}
    (h : as.mapM f = .error e) : ∃ before a after, as = before ++ a :: after ∧
      (∀ b ∈ before, ∃ c, f b = .ok c) ∧ f a = .error e := by
  rcases forall_or_exists_first (fun a => ∃ b, f a = .ok b) as with
    hall | ⟨before, a, after, rfl, hbefore, ha⟩
  · obtain ⟨bs, hbs⟩ := exists_mapM_eq_ok_iff.2 hall
    rw [hbs] at h
    cases h
  · cases hfault : f a with
    | ok b => exact absurd ⟨b, hfault⟩ ha
    | error e' =>
      rw [mapM_append_cons_of_error hbefore hfault, Except.error.injEq] at h
      exact ⟨before, a, after, rfl, hbefore, h ▸ hfault⟩

/-- Of several errors the first one is the answer. -/
theorem mapM_eq_error_iff {f : α → Except ε β} {as : List α} {e : ε} :
    as.mapM f = .error e ↔ ∃ before a after, as = before ++ a :: after ∧
      (∀ b ∈ before, ∃ c, f b = .ok c) ∧ f a = .error e := by
  refine ⟨exists_first_of_mapM_eq_error, ?_⟩
  rintro ⟨before, a, after, rfl, hbefore, ha⟩
  exact mapM_append_cons_of_error hbefore ha after

/-- One of several results decides, if the others are values. -/
theorem mapM_id_append_cons (before after : List α) (x : Except ε α) :
    (before.map Except.ok ++ x :: after.map Except.ok).mapM id =
      x.map fun a => before ++ a :: after := by
  induction before with
  | nil =>
    have hafter : (after.map Except.ok).mapM id = (.ok after : Except ε (List α)) := by
      rw [mapM_eq_ok_iff, List.forall₂_map_left_iff]
      exact List.forall₂_same.2 fun _ _ => rfl
    rw [List.map_nil, List.nil_append, List.mapM_cons]
    cases x with
    | error e => rfl
    | ok a =>
      rw [id, ok_bind, hafter]
      rfl
  | cons b before ih =>
    rw [List.map_cons, List.cons_append, List.mapM_cons, id, ok_bind, ih]
    cases x <;> rfl

end TagTemplate.Result
