import OrderFlow.Proofs.Store.Daily
import OrderFlow.Proofs.Store.Snapshot
import OrderFlow.Store.Daily

/-!
# The portion of a venue

The portion of a venue is what tables hold of it alone. Its readers see nothing else
(`Store.snapshot?_portion`, `Store.daily_portion`, `Store.status_portion`). A commit of a venue
does to the portion what it does to the store, with the same outcome (`Store.commitUnder_portion`),
and leaves the portions of all other venues as they were (`Store.portion_commitUnder_of_ne`).
-/

namespace OrderFlow

namespace Work

variable {α β : Type}

/-- Work that does not tell tables from their image under a map, and takes the one to the other. -/
def Respects (work : Work α) (g : Tables → Tables) : Prop :=
  ∀ t, work.runOn (g t) = ((work.runOn t).1, g (work.runOn t).2)

variable {g : Tables → Tables}

theorem respects_throw (f : Failure) : Respects (throw f : Work α) g :=
  fun _ => rfl

theorem respects_require (c : Bool) (f : Failure) : (require c f).Respects g := by
  cases c <;> exact fun _ => rfl

/-- Work that looks at the tables does to the image what it does to them, with both in sight. -/
theorem respects_get_bind {next : Tables → Work α}
    (h : ∀ t, (next (g t)).runOn (g t) = (((next t).runOn t).1, g ((next t).runOn t).2)) :
    (get >>= next).Respects g :=
  h

theorem respects_modify {f : Tables → Tables} (h : ∀ t, f (g t) = g (f t)) :
    Respects (modify f) g :=
  fun t => Prod.ext rfl (h t)

theorem Respects.bind {work : Work α} {next : α → Work β} (h : work.Respects g)
    (rest : ∀ a, (next a).Respects g) : (work >>= next).Respects g := by
  intro t
  rw [runOn_bind, runOn_bind, h t]
  rcases work.runOn t with ⟨_ | a, between⟩
  · rfl
  · exact rest a between

/-- A step that does not look at the tables fails, or its result is that of every run. -/
theorem respects_lift_bind {x : Except Failure α} {next : α → Work β}
    (rest : ∀ a, x = .ok a → (next a).Respects g) : (lift x >>= next).Respects g := by
  intro t
  rw [runOn_bind, runOn_bind]
  cases x with
  | error f => rfl
  | ok a => exact rest a rfl t

theorem respects_execute {works : List (Work Unit)} (h : ∀ work ∈ works, work.Respects g)
    (fault : Option Nat) : (execute fault works).Respects g := by
  induction works generalizing fault with
  | nil => exact respects_require _ _
  | cons work rest ih =>
    have first := h work List.mem_cons_self
    have others := ih fun w hw => h w (List.mem_cons_of_mem _ hw)
    exact (respects_require _ _).bind fun _ => first.bind fun _ => others _

/-- A transaction does to the image what it does to the tables. -/
theorem Respects.atomically {work : Work α} (h : work.Respects g) (t : Tables) :
    work.atomically (g t) = (g (work.atomically t).1, (work.atomically t).2) := by
  rw [atomically_eq, atomically_eq, h t]
  rcases work.runOn t with ⟨_ | a, after⟩ <;> rfl

end Work

namespace Tables

/-- What tables hold of a venue. -/
def portion (t : Tables) (venue : VenueId) : Tables :=
  ⟨t.books.filter fun e => decide (e.1 = venue), t.daily.filter fun e => decide (e.1.venue = venue)⟩

variable {venue v : VenueId}

@[simp] theorem book?_portion (t : Tables) (venue : VenueId) :
    (t.portion venue).book? venue = t.book? venue :=
  Keyed.get?_filter (p := fun u => decide (u = venue)) (decide_eq_true rfl) t.books

theorem portion_putBook (t : Tables) (venue v : VenueId) (book : StoredBook) :
    (t.putBook venue book).portion v =
      if venue = v then (t.portion v).putBook venue book else t.portion v := by
  have books := Keyed.filter_alter (fun u => decide (u = v)) venue (fun _ => book) t.books
  simp only [putBook, portion, Keyed.put, books, decide_eq_true_eq]
  split <;> rfl

theorem portion_touchBook (t : Tables) (venue v : VenueId) (now : Instant) :
    (t.touchBook venue now).portion v =
      if venue = v then (t.portion v).touchBook venue now else t.portion v := by
  simp only [touchBook, portion, List.filter_map, Function.comp_def]
  split
  · rfl
  · rename_i other
    have kept : ∀ e ∈ t.books.filter fun e => decide (e.1 = v),
        (e.1, if e.1 = venue then { e.2 with observedAt := now } else e.2) = e := by
      intro e he
      have here : e.1 = v := of_decide_eq_true (List.mem_filter.1 he).2
      rw [if_neg fun same => other (same.symm.trans here)]
    rw [List.map_congr_left kept, List.map_id']

variable {now : Instant} {orders : List Order} {unchanged : Bool}

theorem portion_withBook_of_ne (h : venue ≠ v) (t : Tables) :
    (t.withBook venue now orders unchanged).portion v = t.portion v := by
  unfold withBook
  split
  · rw [portion_touchBook, if_neg h]
  · rw [portion_putBook, if_neg h]

theorem portion_mergeFigures (t : Tables) (key : TradeKey) (new : DailyFigures) (v : VenueId) :
    (t.mergeFigures key new).portion v =
      if key.venue = v then (t.portion v).mergeFigures key new else t.portion v := by
  have daily := Keyed.filter_alter (fun k : TradeKey => decide (k.venue = v)) key
    (fun old => old.elim new (·.merge new)) t.daily
  simp only [mergeFigures, portion, daily, decide_eq_true_eq]
  split <;> rfl

variable {entries : List (TradeKey × DailyFigures)}

theorem portion_mergeEntries (h : ∀ e ∈ entries, e.1.venue = venue) (t : Tables) :
    (t.mergeEntries entries).portion venue = (t.portion venue).mergeEntries entries := by
  induction entries generalizing t with
  | nil => rfl
  | cons e entries ih =>
    have first := portion_mergeFigures t e.1 e.2 venue
    rw [if_pos (h e List.mem_cons_self)] at first
    have rest := ih (fun x hx => h x (List.mem_cons_of_mem _ hx)) (t.mergeFigures e.1 e.2)
    rw [first] at rest
    exact rest

theorem portion_mergeEntries_of_ne (h : ∀ e ∈ entries, e.1.venue ≠ v) (t : Tables) :
    (t.mergeEntries entries).portion v = t.portion v := by
  induction entries generalizing t with
  | nil => rfl
  | cons e entries ih =>
    have first := portion_mergeFigures t e.1 e.2 v
    rw [if_neg (h e List.mem_cons_self)] at first
    exact (ih (fun x hx => h x (List.mem_cons_of_mem _ hx)) (t.mergeFigures e.1 e.2)).trans first

theorem venue_of_entries {rows : List TradeRow} (hrows : rows.mapM (entryOf now) = .ok entries)
    (h : ∀ r ∈ rows, r.key.venue = venue) : ∀ e ∈ entries, e.1.venue = venue := by
  intro e he
  have key : e.1 ∈ rows.map (·.key) := keys_of_entries hrows ▸ List.mem_map_of_mem he
  obtain ⟨r, hr, same⟩ := List.mem_map.1 key
  exact same ▸ h r hr

section Statements

open Work

variable {rows : List TradeRow}

theorem keepsBook_portion (t : Tables) :
    (t.portion venue).keepsBook venue unchanged = t.keepsBook venue unchanged := by
  rw [keepsBook, book?_portion, keepsBook]

theorem respects_openBook (room : Room) :
    (openBook room venue now unchanged).Respects (portion · venue) := by
  refine (respects_require _ _).bind fun _ => respects_get_bind fun t => ?_
  rw [keepsBook_portion, book?_portion]
  split
  · have touched := portion_touchBook t venue venue now
    rw [if_pos rfl] at touched
    exact Prod.ext rfl touched.symm
  · cases t.book? venue with
    | none => rfl
    | some book => rfl

theorem respects_replaceBook :
    (replaceBook venue now orders unchanged).Respects (portion · venue) := by
  refine respects_get_bind fun t => ?_
  rw [keepsBook_portion]
  split
  · rfl
  · have put := portion_putBook t venue venue ⟨now, documentOf orders⟩
    rw [if_pos rfl] at put
    rw [runOn_bind, runOn_bind]
    cases decide (∀ o ∈ orders, o.Legible) with
    | true => exact Prod.ext rfl put.symm
    | false => rfl

theorem respects_mergeRows (h : ∀ r ∈ rows, r.key.venue = venue) :
    (mergeRows now rows).Respects (portion · venue) := by
  refine respects_lift_bind fun entries hentries => ?_
  refine (respects_require _ _).bind fun _ => respects_modify fun t => ?_
  exact (portion_mergeEntries (venue_of_entries hentries h) t).symm

theorem respects_rowStatements (h : ∀ r ∈ rows, r.key.venue = venue) (chunkSize : Int) :
    ∀ work ∈ rowStatements chunkSize now rows, work.Respects (portion · venue) := by
  unfold rowStatements
  cases hc : chunks chunkSize rows with
  | error f =>
    simp only [List.mem_singleton, forall_eq]
    exact respects_throw f
  | ok pieces =>
    obtain ⟨-, rfl⟩ := chunks_ok_iff.1 hc
    intro work hwork
    obtain ⟨piece, hpiece, rfl⟩ := List.mem_map.1 hwork
    refine respects_mergeRows fun r hr => h r ?_
    rw [← flatten_piecesOf (chunkSize.toNat - 1) rows]
    exact List.mem_flatten.2 ⟨piece, hpiece, hr⟩

theorem respects_statements (h : ∀ r ∈ rows, r.key.venue = venue) (room : Room)
    (chunkSize : Int) :
    ∀ work ∈ statements room chunkSize venue now orders unchanged rows,
      work.Respects (portion · venue) := by
  refine List.forall_mem_cons.2 ⟨respects_openBook room, List.forall_mem_append.2 ⟨?_, ?_⟩⟩
  · exact respects_rowStatements h chunkSize
  · simp only [List.mem_singleton, forall_eq]
    exact respects_replaceBook

end Statements

end Tables

namespace Store

/-- What a store holds of a venue. -/
def portion (s : Store) (venue : VenueId) : Store :=
  { s with tables := s.tables.map (·.portion venue) }

variable {s : Store} {venue v : VenueId} {observedAt : Stamp} {orders : List Order}
  {unchanged : Bool} {rows : List TradeRow} {fault : Option Nat}

/-- A commit of a venue does to its portion what it does to the store. -/
theorem commitUnder_portion (h : ∀ r ∈ rows, r.key.venue = venue) :
    (s.portion venue).commitUnder fault venue observedAt orders unchanged rows =
      ((s.commitUnder fault venue observedAt orders unchanged rows).1.portion venue,
        (s.commitUnder fault venue observedAt orders unchanged rows).2) := by
  cases hnow : observedAt.utc? with
  | none => simp only [commitUnder, hnow]
  | some now =>
    cases ht : s.tables with
    | none => simp only [commitUnder, hnow, portion, ht, Option.map_none]
    | some t =>
      have image : (s.portion venue).tables = some (t.portion venue) := by
        rw [portion, ht, Option.map_some]
      rw [commitUnder_eq hnow ht, commitUnder_eq hnow image]
      have respects : (Work.execute fault
          (Tables.statements s.room s.chunkSize venue now orders unchanged rows)).Respects
            (Tables.portion · venue) :=
        Work.respects_execute (Tables.respects_statements h s.room s.chunkSize) fault
      simp only [portion, respects.atomically t, Option.map_some]

/-- A commit leaves the portions of other venues as they were. -/
theorem portion_commitUnder_of_ne (h : ∀ r ∈ rows, r.key.venue = venue) (other : venue ≠ v) :
    (s.commitUnder fault venue observedAt orders unchanged rows).1.portion v = s.portion v := by
  obtain ⟨f, failed⟩ | ⟨after, done⟩ :=
    commitUnder_cases fault s venue observedAt orders unchanged rows
  · rw [failed]
  · rw [done]
    obtain ⟨-, -, -, now, t, entries, -, ht, -, hentries, -, rfl⟩ := commitUnder_ok_iff.1 done
    have elsewhere : ∀ e ∈ entries, e.1.venue ≠ v := fun e he here =>
      other ((Tables.venue_of_entries hentries h e he).symm.trans here)
    simp only [portion, ht, Option.map_some, Tables.portion_mergeEntries_of_ne elsewhere,
      Tables.portion_withBook_of_ne other]

/-! ## Readers -/

theorem snapshot?_portion (s : Store) (venue : VenueId) :
    (s.portion venue).snapshot? venue = s.snapshot? venue := by
  unfold snapshot? reading portion
  cases s.tables with
  | none => rfl
  | some t => simp only [Option.map_some, bind, Except.bind, Tables.book?_portion]

theorem daily_portion (s : Store) (q : DailyQuery) : (s.portion q.venue).daily q = s.daily q := by
  have here (key : TradeKey) (h : q.selects key = true) : key.venue = q.venue := by
    simp only [DailyQuery.selects, Bool.and_eq_true, beq_iff_eq] at h
    exact h.1.1.1.1
  have narrow : (fun e : TradeKey × DailyFigures =>
      q.selects e.1 && decide (e.1.venue = q.venue)) = fun e => q.selects e.1 := by
    funext e
    cases hs : q.selects e.1 with
    | false => rfl
    | true => exact decide_eq_true (here e.1 hs)
  have selected (t : Tables) : (t.portion q.venue).selected q = t.selected q := by
    simp only [Tables.selected, Tables.portion, List.filter_filter, narrow]
  unfold daily reading portion
  cases s.tables with
  | none => rfl
  | some t => simp only [Option.map_some, bind, Except.bind, Tables.dailyRows, selected]

theorem status_portion (s : Store) (venue : VenueId) :
    (s.portion venue).status venue = s.status venue := by
  have latest (t : Tables) : (t.portion venue).latestDay? venue = t.latestDay? venue := by
    simp only [Tables.latestDay?, Tables.portion, List.filter_filter, Bool.and_self]
  unfold status
  rw [snapshot?_portion]
  unfold reading portion
  cases s.tables with
  | none => rfl
  | some t => simp only [Option.map_some, bind, Except.bind, latest]

end Store

end OrderFlow
