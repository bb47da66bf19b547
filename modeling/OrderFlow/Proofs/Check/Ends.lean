import OrderFlow.Check.Scalar
import OrderFlow.Check.Time

/-!
# Checks that come to their end

The check of a record collects what is wrong with its parts, but two things end it at once: a price
that has too many digits, and a time outside the representable years in UTC. A check `Ends` if it
does not come upon them. All others do: those of integers, truth values, texts, identifiers,
quantities, numbers and times, and those of records whose parts are checked to the end.
-/

namespace OrderFlow

namespace Checked

variable {α β : Type} {x : Checked α} {f : Checked (α → β)} {check : Value → Checked α}
  {record : Value} {name : String}

/-- A check that comes to its end. -/
def Ends : Checked α → Prop
  | aborted _ => False
  | _ => True

@[simp] theorem ends_accepted (a : α) : (accepted a).Ends := trivial

@[simp] theorem ends_refused (issues : List Issue) : (refused issues : Checked α).Ends := trivial

@[simp] theorem not_ends_aborted (cause : Abort) : ¬ (aborted cause : Checked α).Ends := id

theorem exists_of_not_ends (h : ¬ x.Ends) : ∃ cause, x = aborted cause := by
  cases x with
  | aborted cause => exact ⟨cause, rfl⟩
  | _ => exact absurd trivial h

@[simp] theorem ends_defect (d : Defect) : (defect d : Checked α).Ends := trivial

@[simp] theorem ends_map_iff {g : α → β} : (g <$> x).Ends ↔ x.Ends := by
  cases x <;> exact Iff.rfl

@[simp] theorem ends_under_iff {step : PathStep} : (x.under step).Ends ↔ x.Ends := by
  cases x <;> exact Iff.rfl

/-- The second of two checks is made even if the first one is refused. -/
@[simp] theorem ends_seq_iff : (f <*> x).Ends ↔ f.Ends ∧ x.Ends := by
  cases f with
  | aborted cause => exact ⟨False.elim, And.left⟩
  | accepted g => cases x <;> exact (and_iff_right trivial).symm
  | refused issues => cases x <;> exact (and_iff_right trivial).symm

/-- A check on what another one accepted is made if that has come to its end. -/
theorem ends_andThen_iff {g : α → Checked β} :
    (x.andThen g).Ends ↔ x.Ends ∧ ∀ a, x = accepted a → (g a).Ends := by
  cases x with
  | accepted a =>
    refine ⟨fun h => ⟨trivial, fun b same => ?_⟩, fun h => h.2 a rfl⟩
    cases same
    exact h
  | refused issues => exact ⟨fun _ => ⟨trivial, fun _ same => nomatch same⟩, fun _ => trivial⟩
  | aborted cause => exact ⟨False.elim, And.left⟩

@[simp] theorem ends_ofRule (rule : Except ValueFault α) : (ofRule rule).Ends := by
  cases rule <;> trivial

/-- A check that comes to its end fails by the issues that it found. -/
theorem Ends.toExcept {invalid : List Issue → Failure} {fault : Failure} (h : x.Ends)
    (fails : x.toExcept invalid = .error fault) : ∃ issues, fault = invalid issues := by
  cases x with
  | accepted a => cases fails
  | refused issues =>
    cases fails
    exact ⟨issues, rfl⟩
  | aborted cause => exact h.elim

/-- A field that has to be there is checked to the end if its value is. -/
theorem ends_required_iff : (required record name check).Ends ↔
    ∀ v, record.field? name = some v → (check v).Ends := by
  unfold required
  cases record.field? name with
  | none => simp
  | some v => simp

theorem ends_optional_iff {absent : α} : (optional record name absent check).Ends ↔
    ∀ v, record.field? name = some v → (check v).Ends := by
  unfold optional
  cases record.field? name with
  | none => simp
  | some v => simp

theorem ends_nullable (h : ∀ v, (check v).Ends) (v : Value) : (nullable check v).Ends := by
  cases v with
  | null => trivial
  | _ => exact ends_map_iff.2 (h _)

/-- A list is checked to the end if all of its items are. -/
theorem ends_items_iff {vs : List Value} {n : Nat} :
    (items check n vs).Ends ↔ ∀ v ∈ vs, (check v).Ends := by
  induction vs generalizing n with
  | nil => simp [items]
  | cons v vs ih =>
    have split : items check n (v :: vs) =
        (List.cons <$> (check v).under (.index n) <*> items check (n + 1) vs) := rfl
    rw [split, ends_seq_iff, ends_map_iff, ends_under_iff, ih, List.forall_mem_cons]

end Checked

namespace Check

open Checked

/-! What a value can be is told apart case by case; in none of them does the check end at once. -/

@[simp] theorem ends_numeral (s : String) : (numeral s).Ends := by
  unfold numeral
  simp only
  repeat' split
  all_goals simp

@[simp] theorem ends_integer (v : Value) : (integer v).Ends := by
  unfold integer
  repeat' split
  all_goals simp

@[simp] theorem ends_truthOfInt (n : Int) : (truthOfInt n).Ends := by
  unfold truthOfInt
  repeat' split
  all_goals simp

@[simp] theorem ends_truth (v : Value) : (truth v).Ends := by
  unfold truth
  repeat' split
  all_goals simp

@[simp] theorem ends_text (v : Value) : (text v).Ends := by
  cases v <;> simp [text]

@[simp] theorem ends_id (kind : IdKind) (v : Value) : (id kind v).Ends := by
  simp [id, ends_andThen_iff]

@[simp] theorem ends_quantity (v : Value) : (quantity v).Ends := by
  simp [quantity, ends_andThen_iff]

@[simp] theorem ends_finite (x : Number) : (number.finite x).Ends := by
  cases x <;> simp [number.finite]

@[simp] theorem ends_number (v : Value) : (number v).Ends := by
  unfold number
  repeat' split
  all_goals simp

@[simp] theorem ends_unixStamp (seconds micros : Int) : (unixStamp seconds micros).Ends := by
  unfold unixStamp
  simp only
  repeat' split
  all_goals simp

@[simp] theorem ends_countStamp (count micros : Int) : (countStamp count micros).Ends := by
  unfold countStamp
  split <;> simp

@[simp] theorem ends_pointStamp (negative : Bool) (x : Binary64) :
    (pointStamp negative x).Ends := by
  unfold pointStamp
  repeat' split
  all_goals simp

@[simp] theorem ends_countText (s : String) : (countText s).Ends := by
  unfold countText
  simp only
  repeat' split
  all_goals simp

@[simp] theorem ends_floatStamp (x : Binary64) : (floatStamp x).Ends := by
  unfold floatStamp
  repeat' split
  all_goals simp

@[simp] theorem ends_time (v : Value) : (time v).Ends := by
  unfold time
  repeat' split
  all_goals simp

/-- The check of a time comes to its end exactly if it can be told in UTC. -/
theorem ends_instant_iff {v : Value} :
    (instant v).Ends ↔ ∀ s, time v = .accepted s → s.utc?.isSome := by
  rw [instant, ends_andThen_iff, and_iff_right (ends_time v)]
  refine forall₂_congr fun s _ => ?_
  cases s.utc? <;> simp

end Check

end OrderFlow
