import OrderFlow.Keyed

/-!
# Distinct keys

Keys stay distinct as entries are altered (`Distinct.alter`). Where they are, an entry is found
exactly if it is in the list (`Distinct.get?_eq_some_iff`), so that what is found does not depend
on the order of entries.
-/

namespace OrderFlow.Keyed

variable {κ α : Type} [DecidableEq κ] {xs : Keyed κ α} {key : κ} {a : α}

/-- A keyed list with one entry for each of its keys. -/
def Distinct (xs : Keyed κ α) : Prop :=
  (xs.map (·.1)).Nodup

theorem get?_eq_none_iff : xs.get? key = none ↔ key ∉ xs.map (·.1) := by
  induction xs with
  | nil => simp [get?]
  | cons x rest ih =>
    obtain ⟨k, a⟩ := x
    by_cases h : k = key
    · simp [get?, h]
    · simp only [get?, if_neg h, ih, List.map_cons, List.mem_cons, not_or]
      constructor
      · intro fresh
        exact ⟨Ne.symm h, fresh⟩
      · intro fresh
        exact fresh.2

theorem mem_of_get?_eq_some (h : xs.get? key = some a) : (key, a) ∈ xs := by
  induction xs with
  | nil => cases h
  | cons x rest ih =>
    obtain ⟨k, b⟩ := x
    rw [get?] at h
    split at h
    · rename_i hk
      cases h
      exact hk ▸ List.mem_cons_self
    · exact List.mem_cons_of_mem _ (ih h)

theorem Distinct.get?_eq_some_iff (distinct : xs.Distinct) :
    xs.get? key = some a ↔ (key, a) ∈ xs := by
  constructor
  · exact mem_of_get?_eq_some
  intro h
  induction xs with
  | nil => cases h
  | cons x rest ih =>
    obtain ⟨k, b⟩ := x
    obtain ⟨fresh, distinct⟩ := List.nodup_cons.1 distinct
    rw [get?]
    rcases List.mem_cons.1 h with e | h
    · cases e
      rw [if_pos rfl]
    · rw [if_neg, ih distinct h]
      rintro rfl
      have stored := List.mem_map_of_mem (f := Prod.fst) h
      exact fresh stored

/-- Entries that are changed one by one, each by its key, are found changed. -/
theorem get?_map_entries {β : Type} (f : κ → α → β) (xs : Keyed κ α) (key : κ) :
    Keyed.get? key (xs.map fun x => (x.1, f x.1 x.2)) = (xs.get? key).map (f key) := by
  induction xs with
  | nil => rfl
  | cons x rest ih =>
    rw [List.map_cons, get?, ih, get?]
    split
    · rename_i h
      rw [h, Option.map_some]
    · rfl

/-- An entry is found among those whose keys are like its own. -/
theorem get?_filter {p : κ → Bool} (h : p key = true) (xs : Keyed κ α) :
    Keyed.get? key (xs.filter fun x => p x.1) = xs.get? key := by
  induction xs with
  | nil => rfl
  | cons x rest ih =>
    obtain ⟨k, a⟩ := x
    rw [List.filter_cons, get?]
    by_cases hk : k = key
    · rw [if_pos hk, if_pos (hk ▸ h), get?, if_pos hk]
    · rw [if_neg hk, ← ih]
      split
      · rw [get?, if_neg hk]
      · rfl

/-- Of the entries whose keys are of a kind, altering changes one or none. -/
theorem filter_alter (p : κ → Bool) (key : κ) (f : Option α → α) (xs : Keyed κ α) :
    (alter key f xs).filter (fun x => p x.1) =
      if p key then alter key f (xs.filter fun x => p x.1) else xs.filter fun x => p x.1 := by
  induction xs with
  | nil => cases hp : p key <;> simp [alter, hp]
  | cons x rest ih =>
    obtain ⟨k, a⟩ := x
    by_cases hk : k = key
    · subst hk
      cases hp : p k <;> simp [alter, hp]
    · rw [alter, if_neg hk, List.filter_cons, List.filter_cons, ih]
      cases p k <;> cases p key <;> simp [alter, hk]

/-- A key that is altered for the first time goes to the end. -/
theorem keys_alter (f : Option α → α) (xs : Keyed κ α) :
    (alter key f xs).map (·.1) =
      if key ∈ xs.map (·.1) then xs.map (·.1) else xs.map (·.1) ++ [key] := by
  induction xs with
  | nil => simp [alter]
  | cons x rest ih =>
    obtain ⟨k, a⟩ := x
    by_cases h : k = key
    · simp [alter, h]
    · rw [alter, if_neg h, List.map_cons, ih, List.map_cons]
      have hk : key ∈ k :: rest.map (·.1) ↔ key ∈ rest.map (·.1) := by
        simp [List.mem_cons, Ne.symm h]
      simp only [hk]
      split <;> rfl

theorem Distinct.alter (distinct : xs.Distinct) (f : Option α → α) :
    (Keyed.alter key f xs).Distinct := by
  unfold Distinct at *
  rw [keys_alter]
  split
  · exact distinct
  · rename_i fresh
    rw [List.nodup_append]
    refine ⟨distinct, by simp, ?_⟩
    intro k hk j hj e
    obtain rfl := List.mem_singleton.1 hj
    exact fresh (e ▸ hk)

end OrderFlow.Keyed
