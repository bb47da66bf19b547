/-!
# Keyed lists

A list of entries under distinct keys, each where its key was first written. `alter` changes
the entry of one key, or adds it at the end; all other entries stay as they are
(`get?_alter`).
-/

namespace OrderFlow

/-- Entries by key. -/
abbrev Keyed (κ α : Type) := List (κ × α)

namespace Keyed

variable {κ α : Type} [DecidableEq κ]

/-- The entry of a key. -/
def get? (key : κ) : Keyed κ α → Option α
  | [] => none
  | (k, a) :: rest => if k = key then some a else get? key rest

/-- A keyed list with the entry of one key changed; `f` gets the entry if there is one. -/
def alter (key : κ) (f : Option α → α) : Keyed κ α → Keyed κ α
  | [] => [(key, f none)]
  | (k, a) :: rest => if k = key then (k, f (some a)) :: rest else (k, a) :: alter key f rest

/-- A keyed list with the entry of one key set. -/
def put (key : κ) (a : α) (xs : Keyed κ α) : Keyed κ α :=
  alter key (fun _ => a) xs

/-- Only the entry of the altered key changes. -/
theorem get?_alter (key k : κ) (f : Option α → α) (xs : Keyed κ α) :
    (alter key f xs).get? k = if key = k then some (f (xs.get? key)) else xs.get? k := by
  induction xs with
  | nil => rfl
  | cons x rest ih =>
    obtain ⟨j, a⟩ := x
    by_cases hj : j = key
    · subst hj
      by_cases h : j = k <;> simp [alter, get?, h]
    · rw [alter, if_neg hj, get?, ih, get?]
      by_cases h : key = k
      · subst h
        simp [hj]
      · simp [h, get?]

end Keyed

end OrderFlow
