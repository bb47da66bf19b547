import OrderFlow.Proofs.Order.Check
import OrderFlow.Proofs.Outcome
import OrderFlow.Venue.Pages

/-!
# Fetched orders are validated

`Exchange.Ensures e P` says that whatever an exchange gives satisfies `P`, from any session. Each
page ensures that its orders were accepted by their check, and so does the whole book
(`Connection.ensures_orders`).
-/

namespace OrderFlow

namespace Exchange

variable {α β : Type} {P : α → Prop} {Q : β → Prop}

/-- What an exchange gives satisfies a condition. -/
def Ensures (e : Exchange α) (P : α → Prop) : Prop :=
  ∀ s a, (e.run s).2 = .ok a → P a

theorem ensures_pure {a : α} (h : P a) : Ensures (pure a) P := by
  rintro s b hb
  cases hb
  exact h

theorem ensures_throw (f : Failure) : Ensures (throw f) P := by
  rintro s b hb
  cases hb

theorem ensures_lift {x : Except Failure α} (h : ∀ a, x = .ok a → P a) : Ensures (lift x) P :=
  fun _ a ha => h a ha

theorem run_bind (e : Exchange α) (f : α → Exchange β) (s : Session) :
    run (e >>= f) s = match run e s with
      | (between, .ok a) => run (f a) between
      | (between, .error fault) => (between, .error fault) := by
  unfold run
  simp only [bind, ExceptT.bind, ExceptT.mk, ExceptT.bindCont, StateT.bind, ExceptT.run]
  generalize e s = outcome
  rcases outcome with ⟨_ | a, between⟩ <;> rfl

theorem ensures_bind {e : Exchange α} {f : α → Exchange β} (he : Ensures e P)
    (hf : ∀ a, P a → Ensures (f a) Q) : Ensures (e >>= f) Q := by
  intro s b hb
  rw [run_bind] at hb
  generalize hrun : run e s = outcome at hb
  rcases outcome with ⟨between, _ | a⟩
  · cases hb
  · exact hf a (he s a (by rw [hrun])) between b hb

theorem ensures_trivial (e : Exchange α) : Ensures e fun _ => True :=
  fun _ _ _ => trivial

theorem ensures_settled {e : Exchange α} (h : Ensures e P) :
    Ensures (settled e) fun outcome => ∀ a, outcome = .ok a → P a := by
  intro s outcome houtcome a ha
  subst ha
  refine h s a ?_
  unfold settled run at *
  simp only [ExceptT.run, ExceptT.mk, bind, StateT.bind] at houtcome ⊢
  generalize e s = result at houtcome ⊢
  obtain ⟨found, after⟩ := result
  cases houtcome
  rfl

end Exchange

namespace Connection

open Exchange

variable (c : Connection) (around : Surroundings) (venue : VenueId) (forceRefresh : Bool)

theorem ensures_page (number : Nat) :
    Ensures (c.page around venue forceRefresh number) fun p => ∀ o ∈ p.1, o.Validated := by
  unfold page
  refine ensures_bind (ensures_trivial _) fun url _ => ?_
  refine ensures_bind (ensures_trivial _) fun (body, headers) _ => ?_
  refine ensures_bind (P := fun orders => ∀ o ∈ orders, o.Validated)
    (ensures_lift fun orders h => ?_) fun orders validated => ?_
  · have accepted := Checked.toExcept_eq_ok_iff.1 h
    cases body with
    | arr vs => exact Checked.accepted_of_items accepted
    | _ => cases accepted
  · exact ensures_bind (ensures_trivial _) fun count _ => ensures_pure validated

theorem ensures_following (number count : Nat) :
    Ensures (c.following around venue forceRefresh number count) fun outcomes =>
      ∀ orders, .ok orders ∈ outcomes → ∀ o ∈ orders, o.Validated := by
  induction count generalizing number with
  | zero => exact ensures_pure (by simp)
  | succ count ih =>
    unfold following
    refine ensures_bind (ensures_settled (c.ensures_page around venue forceRefresh number))
      fun outcome houtcome => ?_
    refine ensures_bind (ih (number + 1)) fun rest hrest => ensures_pure fun orders mem => ?_
    rcases List.mem_cons.1 mem with head | mem
    · obtain ⟨p, hp, rfl⟩ := Outcome.map_eq_ok_iff.1 head.symm
      exact houtcome p hp
    · exact hrest orders mem

/-- All orders of a book were accepted by their check. -/
theorem ensures_orders :
    Ensures (c.orders around venue forceRefresh) fun orders => ∀ o ∈ orders, o.Validated := by
  unfold orders
  refine ensures_bind (c.ensures_page around venue forceRefresh 1) fun (first, count) hfirst => ?_
  have others : Ensures (do
      let rest ← c.following around venue forceRefresh 2 (count - 1)
      return first ++ (← lift (rest.mapM id)).flatten) fun orders => ∀ o ∈ orders, o.Validated := by
    refine ensures_bind (c.ensures_following around venue forceRefresh 2 (count - 1))
      fun rest hrest => ?_
    refine ensures_bind (P := fun pages => ∀ orders ∈ pages, ∀ o ∈ orders, o.Validated)
      (ensures_lift fun pages h orders mem => ?_) fun pages hpages => ensures_pure fun o ho => ?_
    · obtain ⟨outcome, houtcome, rfl⟩ := Outcome.exists_of_mapM h mem
      exact hrest orders houtcome
    · rcases List.mem_append.1 ho with ho | ho
      · exact hfirst o ho
      · obtain ⟨orders, horders, ho⟩ := List.mem_flatten.1 ho
        exact hpages orders horders o ho
  simp only
  split
  · exact ensures_bind (P := fun _ => True) (ensures_throw _) fun _ _ => others
  · exact others

end Connection

end OrderFlow
