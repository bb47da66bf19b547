import OrderFlow.Proofs.Trade.Estimate

/-!
# Orders are judged one by one

An estimate succeeds if every order that vanished can be judged (`exists_between_iff`), and fails
only where an instant cannot be represented (`between_error`). Its deltas are those that single
orders account for: the `fill` of each order that is still there, and the `loss` of each one that
vanished (`between_ok`). A book that is found unchanged is no exception: no order went down then
and none vanished.
-/

namespace OrderFlow

namespace Book

/-- The orders of a book that are not in a later one. -/
def gone (previous current : Book) : List Order :=
  previous.filter fun o => !current.has o.id

/-- No order vanished between two books in the same state. -/
theorem gone_of_unchanged {before after : List Order}
    (h : unchanged (ofOrders before) (ofOrders after) = true) :
    gone (ofOrders before) (ofOrders after) = [] := by
  refine List.filter_eq_nil_iff.2 fun o ho => ?_
  have ids := ids_perm_of_unchanged h (nodup_ids_ofOrders after)
  have there : o.id ∈ (ofOrders after).ids := ids.mem_iff.2 (List.mem_map_of_mem ho)
  have found : (ofOrders after).find? o.id ≠ none := mt find?_eq_none_iff.1 (not_not_intro there)
  simpa [has, Option.isSome_iff_ne_none] using found

end Book

namespace Estimate

/-- The trades of an order that is in both books. -/
def fill (day : Day) (venue : VenueId) (previous : Book) (c : Order) : List TradeDelta :=
  match previous.find? c.id with
  | some p => (filled day venue p c).filterMap Finding.delta?
  | none => []

/-- The findings on an order that vanished, none if it cannot be judged. -/
def judged (day : Day) (venue : VenueId) (previousAt nowAt : Stamp) (window : Duration)
    (o : Order) : List Finding :=
  match vanished day venue previousAt nowAt window o with
  | .ok findings => findings
  | .error _ => []

/-- The trades of an order that vanished. -/
def loss (day : Day) (venue : VenueId) (previousAt nowAt : Stamp) (window : Duration) (o : Order) :
    List TradeDelta :=
  (judged day venue previousAt nowAt window o).filterMap Finding.delta?

variable {day : Day} {venue : VenueId} {p n : Instant} {previousAt nowAt : Stamp}
  {window : Duration} {before after : List Order} {o : Order}

theorem deltas_fills (day : Day) (venue : VenueId) (previous current : Book) :
    (fills day venue previous current).filterMap Finding.delta? =
      current.flatMap (fill day venue previous) := by
  rw [fills, List.filterMap_flatMap]
  refine List.flatMap_congr fun c _ => ?_
  unfold fill
  cases previous.find? c.id <;> rfl

/-- Orders of unchanged books have no fills. -/
theorem fills_of_unchanged (h : Book.unchanged (.ofOrders before) (.ofOrders after) = true) :
    (Book.ofOrders after).flatMap (fill day venue (.ofOrders before)) = [] := by
  rw [List.flatMap_eq_nil_iff]
  intro c hc
  obtain ⟨p, hp, remaining⟩ := Book.find?_of_unchanged h hc
  have none : filled day venue p c = [] := dif_neg (by omega)
  simp only [fill, hp, none, List.filterMap_nil]

/-- Disappearances can be told if each order that vanished can be judged. -/
theorem disappearances_eq_ok_iff {previous current : Book} {findings : List Finding} :
    disappearances day venue previousAt nowAt window previous current = .ok findings ↔
      (∀ o ∈ previous.gone current, ∃ own, vanished day venue previousAt nowAt window o = .ok own) ∧
        findings = (previous.gone current).flatMap (judged day venue previousAt nowAt window) := by
  have each (all : ∀ o ∈ previous.gone current,
      ∃ own, vanished day venue previousAt nowAt window o = .ok own) :
      (previous.gone current).mapM (vanished day venue previousAt nowAt window) =
        .ok ((previous.gone current).map (judged day venue previousAt nowAt window)) := by
    refine Outcome.mapM_eq_ok fun o ho => ?_
    obtain ⟨own, hown⟩ := all o ho
    rw [judged, hown]
  rw [disappearances, Outcome.bind_eq_ok_iff]
  constructor
  · rintro ⟨_, hmap, h⟩
    have all (o : Order) (ho : o ∈ previous.gone current) :=
      (Outcome.exists_ok_of_mapM hmap o ho).imp fun _ given => given.2
    obtain rfl := Except.ok.inj ((each all).symm.trans hmap)
    exact ⟨all, (Outcome.pure_eq_ok_iff.1 h).symm⟩
  · rintro ⟨all, rfl⟩
    exact ⟨_, each all, rfl⟩

/-- Disappearances that cannot be told fail as the judgement of one order does. -/
theorem exists_of_disappearances {previous current : Book} {f : Failure}
    (h : disappearances day venue previousAt nowAt window previous current = .error f) :
    ∃ o ∈ previous.gone current, vanished day venue previousAt nowAt window o = .error f := by
  rcases Outcome.bind_eq_error_iff.1 h with failed | ⟨_, -, failed⟩
  · exact Outcome.exists_error_of_mapM failed
  · cases failed

/-- When an estimate succeeds, and what it then says: whether the books are unchanged, and the
trades that single orders account for. -/
theorem between_ok (hp : previousAt.utc? = some p) (hn : nowAt.utc? = some n) {e : Estimate}
    (h : between before after previousAt nowAt venue window = .ok e) :
    e.unchanged = Book.unchanged (.ofOrders before) (.ofOrders after) ∧
      e.deltas = (Book.ofOrders after).flatMap (fill n.day venue (.ofOrders before)) ++
        (Book.gone (.ofOrders before) (.ofOrders after)).flatMap
          (loss n.day venue (.ofInstant p) (.ofInstant n) window) := by
  unfold between at h
  simp only [hp, hn] at h
  split at h
  · rename_i same
    obtain rfl := Outcome.pure_eq_ok_iff.1 h
    rw [fills_of_unchanged same, Book.gone_of_unchanged same]
    exact ⟨same.symm, rfl⟩
  · rename_i changed
    obtain ⟨findings, hgone, h⟩ := Outcome.bind_eq_ok_iff.1 h
    obtain rfl := Outcome.pure_eq_ok_iff.1 h
    obtain ⟨-, rfl⟩ := disappearances_eq_ok_iff.1 hgone
    refine ⟨(Bool.eq_false_iff.2 changed).symm, ?_⟩
    rw [deltas, List.filterMap_append, deltas_fills, List.filterMap_flatMap]
    rfl

theorem exists_between_iff (hp : previousAt.utc? = some p) (hn : nowAt.utc? = some n) :
    (∃ e, between before after previousAt nowAt venue window = .ok e) ↔
      ∀ o ∈ Book.gone (.ofOrders before) (.ofOrders after),
        ∃ own, vanished n.day venue (.ofInstant p) (.ofInstant n) window o = .ok own := by
  unfold between
  simp only [hp, hn]
  split
  · rename_i same
    rw [Book.gone_of_unchanged same]
    simp [pure, Except.pure]
  · constructor
    · rintro ⟨e, h⟩
      obtain ⟨findings, hgone, -⟩ := Outcome.bind_eq_ok_iff.1 h
      exact (disappearances_eq_ok_iff.1 hgone).1
    · intro all
      exact ⟨_, Outcome.bind_eq_ok_iff.2 ⟨_, disappearances_eq_ok_iff.2 ⟨all, rfl⟩, rfl⟩⟩

theorem exists_of_between (hp : previousAt.utc? = some p) (hn : nowAt.utc? = some n) {f : Failure}
    (h : between before after previousAt nowAt venue window = .error f) :
    ∃ o ∈ Book.gone (.ofOrders before) (.ofOrders after),
      vanished n.day venue (.ofInstant p) (.ofInstant n) window o = .error f := by
  unfold between at h
  simp only [hp, hn] at h
  split at h
  · cases h
  · rcases Outcome.bind_eq_error_iff.1 h with failed | ⟨_, -, failed⟩
    · exact exists_of_disappearances failed
    · cases failed

/-! ## The judgement of one order -/

theorem toNat_remaining_pos {o : Order} (h : 0 < o.remaining) : 0 < o.remaining.toNat := by
  omega

/-- The findings on an order that vanished although it was not due to expire. -/
def unexpired (day : Day) (venue : VenueId) (o : Order) : List Finding :=
  if h : 0 < o.remaining then
    match usablePrice? [o.price] with
    | none => [.skip o.id .noUsablePrice]
    | some price => [.trade ⟨keyOf day venue o .liberal, o.remaining.toNat, 1, price,
        toNat_remaining_pos h⟩]
  else [.skip o.id .nothingRemaining]

theorem vanished_eq (day : Day) (venue : VenueId) (previousAt nowAt : Stamp) (window : Duration)
    (o : Order) : vanished day venue previousAt nowAt window o =
      if o.duration ≤ 0 then .ok [.skip o.id (.duration o.duration)]
      else (o.likelyExpired previousAt nowAt window).map fun expired =>
        if expired then [] else unexpired day venue o := by
  unfold vanished unexpired
  split
  · rfl
  · cases o.likelyExpired previousAt nowAt window with
    | error f => rfl
    | ok expired =>
      cases expired
      · simp only [bind, Except.bind, Except.map, Bool.false_eq_true, if_false]
        split
        · cases usablePrice? [o.price] <;> rfl
        · rfl
      · rfl

/-- An order that vanished accounts for nothing, or for what it does if it was not due to expire. -/
theorem loss_cases (day : Day) (venue : VenueId) (previousAt nowAt : Stamp) (window : Duration)
    (o : Order) : loss day venue previousAt nowAt window o = [] ∨
      loss day venue previousAt nowAt window o =
        (unexpired day venue o).filterMap Finding.delta? := by
  rw [loss, judged, vanished_eq]
  by_cases skipped : o.duration ≤ 0
  · rw [if_pos skipped]
    exact .inl rfl
  · rw [if_neg skipped]
    cases o.likelyExpired previousAt nowAt window with
    | error f => exact .inl rfl
    | ok expired =>
      cases expired
      · exact .inr rfl
      · exact .inl rfl

/-- Whether an order was due to expire is judged by the clock of UTC. -/
theorem likelyExpired_ofInstant (o : Order) (p n : Instant) (window : Duration) :
    o.likelyExpired (.ofInstant p) (.ofInstant n) window =
      match o.expiry?, p.add? (-window), n.add? window with
      | some expiry, some first, last =>
        if expiry.micros < first.micros then .ok false
        else match last with
          | some last => .ok (decide (expiry.micros ≤ last.micros))
          | none => .error .overflow
      | _, _, _ => .error .overflow := by
  have moved (t : Instant) (d : Duration) : (Stamp.ofInstant t).add? d =
      (t.add? d).map Stamp.ofInstant := rfl
  have utc (t : Instant) : (Stamp.ofInstant t).offset.isNone = false := rfl
  have point (t : Instant) : (Stamp.ofInstant t).point = t.micros := by
    simp [Stamp.point, Stamp.ofInstant, Duration.seconds]
  unfold Order.likelyExpired
  rw [moved, moved]
  cases o.expiry? with
  | none => rfl
  | some expiry =>
    cases p.add? (-window) with
    | none => rfl
    | some first =>
      simp only [Option.map_some, utc, point, bind, Except.bind, Bool.false_eq_true, if_false,
        Int.ofNat_lt]
      -- the end of the window is computed only for an order that does not expire before its start
      split
      · rfl
      · cases n.add? window with
        | none => rfl
        | some last =>
          simp only [Option.map_some, utc, point, Bool.false_eq_true, if_false, Int.ofNat_le]
          rfl

/-- The judgement of an order fails only where an instant cannot be represented. -/
theorem vanished_error {f : Failure}
    (h : vanished day venue (.ofInstant p) (.ofInstant n) window o = .error f) : f = .overflow := by
  have only : ∀ f, o.likelyExpired (.ofInstant p) (.ofInstant n) window = .error f →
      f = .overflow := by
    intro f hf
    rw [likelyExpired_ofInstant] at hf
    split at hf
    · split at hf
      · cases hf
      · split at hf <;> cases hf
        rfl
    · cases hf
      rfl
  rw [vanished_eq] at h
  split at h
  · cases h
  · cases expired : o.likelyExpired (.ofInstant p) (.ofInstant n) window with
    | error e =>
      rw [expired] at h
      cases h
      exact only _ expired
    | ok b =>
      rw [expired] at h
      cases h

theorem between_error (hp : previousAt.utc? = some p) (hn : nowAt.utc? = some n) {f : Failure}
    (h : between before after previousAt nowAt venue window = .error f) : f = .overflow := by
  obtain ⟨o, -, failed⟩ := exists_of_between hp hn h
  exact vanished_error failed

/-- With both ends of the window in range, an order can be judged unless it has a duration that
leads out of the representable years. -/
theorem exists_vanished_iff (early : (p.add? (-window)).isSome) (late : (n.add? window).isSome) :
    (∃ own, vanished day venue (.ofInstant p) (.ofInstant n) window o = .ok own) ↔
      (0 < o.duration → o.expiry?.isSome) := by
  obtain ⟨first, hfirst⟩ := Option.isSome_iff_exists.1 early
  obtain ⟨last, hlast⟩ := Option.isSome_iff_exists.1 late
  rw [vanished_eq, likelyExpired_ofInstant, hfirst, hlast]
  by_cases lasting : 0 < o.duration
  · rw [if_neg (by omega)]
    cases expiry : o.expiry? with
    | none => simp [lasting, Except.map]
    | some expiry =>
      simp only [Option.isSome_some, implies_true, iff_true]
      split <;> exact ⟨_, rfl⟩
  · rw [if_pos (by omega)]
    simp [lasting]

end Estimate

end OrderFlow
