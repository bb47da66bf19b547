import OrderFlow.Proofs.Keyed
import OrderFlow.Store.Commit

/-!
# Transactions

`Work.Yields` is the successful run of a piece of work, with one view lemma for each way of
building work. A transaction either yields or leaves the tables as they were
(`atomically_error`). `commitUnder_ok_iff` says when a commit succeeds and what it writes, with
the chunks and the order of statements gone.
-/

namespace OrderFlow

namespace Work

variable {α β : Type}

/-- The outcome of work on certain tables, and the tables after it. -/
def runOn (work : Work α) (t : Tables) : Except Failure α × Tables :=
  ExceptT.run work t

/-- Work that succeeds on certain tables, its result and the tables after it. -/
def Yields (work : Work α) (t : Tables) (a : α) (after : Tables) : Prop :=
  work.runOn t = (.ok a, after)

theorem runOn_bind (work : Work α) (f : α → Work β) (t : Tables) :
    (work >>= f).runOn t = match work.runOn t with
      | (.ok a, between) => (f a).runOn between
      | (.error e, between) => (.error e, between) := by
  unfold runOn
  simp only [bind, ExceptT.bind, ExceptT.mk, ExceptT.bindCont, StateT.bind, ExceptT.run]
  generalize work t = run
  rcases run with ⟨_ | a, between⟩ <;> rfl

@[simp] theorem yields_pure {a b : α} {t after : Tables} :
    Yields (pure a) t b after ↔ a = b ∧ t = after := by
  show ((.ok a, t) : Except Failure α × Tables) = (.ok b, after) ↔ _
  simp

@[simp] theorem not_yields_throw {f : Failure} {a : α} {t after : Tables} :
    ¬ Yields (throw f) t a after := by
  show ¬ ((.error f, t) : Except Failure α × Tables) = (.ok a, after)
  simp

@[simp] theorem yields_lift {x : Except Failure α} {a : α} {t after : Tables} :
    Yields (lift x) t a after ↔ x = .ok a ∧ t = after := by
  show ((x, t) : Except Failure α × Tables) = (.ok a, after) ↔ _
  simp

@[simp] theorem yields_modify {g : Tables → Tables} {u : Unit} {t after : Tables} :
    Yields (modify g) t u after ↔ g t = after := by
  show ((.ok (), g t) : Except Failure Unit × Tables) = (.ok u, after) ↔ _
  simp

@[simp] theorem yields_set {new : Tables} {u : PUnit} {t after : Tables} :
    Yields (set new) t u after ↔ new = after := by
  show ((.ok PUnit.unit, new) : Except Failure PUnit × Tables) = (.ok u, after) ↔ _
  simp

@[simp] theorem yields_bind {work : Work α} {f : α → Work β} {b : β} {t after : Tables} :
    Yields (work >>= f) t b after ↔
      ∃ a between, Yields work t a between ∧ Yields (f a) between b after := by
  unfold Yields
  rw [runOn_bind]
  rcases work.runOn t with ⟨_ | a, between⟩
  · simp
  · constructor
    · exact fun h => ⟨a, between, rfl, h⟩
    · rintro ⟨_, _, ⟨rfl, rfl⟩, h⟩
      exact h

@[simp] theorem yields_require {c : Bool} {f : Failure} {u : Unit} {t after : Tables} :
    Yields (require c f) t u after ↔ c = true ∧ t = after := by
  cases c <;> simp [require]

/-- Work that looks at the tables. -/
theorem yields_get_bind {f : Tables → Work β} {b : β} {t after : Tables} :
    Yields (get >>= f) t b after ↔ Yields (f t) t b after :=
  Iff.rfl

theorem yields_require_bind {c : Bool} {failure : Failure} {f : Unit → Work β} {b : β}
    {t after : Tables} :
    Yields (require c failure >>= f) t b after ↔ c = true ∧ Yields (f ()) t b after := by
  cases c <;> simp [require]

theorem atomically_eq (work : Work α) (t : Tables) :
    atomically work t = match work.runOn t with
      | (.ok a, after) => (after, .ok a)
      | (.error f, _) => (t, .error f) :=
  rfl

/-- A transaction that fails leaves no trace. -/
theorem atomically_error {work : Work α} {t : Tables} {f : Failure}
    (h : (atomically work t).2 = .error f) : (atomically work t).1 = t := by
  rw [atomically_eq] at h ⊢
  match work.runOn t, h with
  | (.error _, _), _ => rfl

theorem atomically_ok_iff {work : Work α} {t after : Tables} {a : α} :
    atomically work t = (after, .ok a) ↔ Yields work t a after := by
  rw [atomically_eq, Yields]
  rcases work.runOn t with ⟨_ | b, between⟩
  · simp
  · simp [and_comm]

/-- A fault that strikes none of so many statements and not the commit behind them. -/
def Spares (fault : Option Nat) (count : Nat) : Prop :=
  ∀ n ∈ fault, count < n

theorem spares_none (count : Nat) : Spares none count :=
  fun _ h => nomatch h

theorem spares_zero {fault : Option Nat} : Spares fault 0 ↔ (fault != some 0) = true := by
  cases fault with
  | none => simp [Spares]
  | some n => simp [Spares, Nat.pos_iff_ne_zero]

theorem spares_succ {fault : Option Nat} {count : Nat} :
    Spares fault (count + 1) ↔
      (fault != some 0) = true ∧ Spares (fault.map (· - 1)) count := by
  cases fault with
  | none => simp [Spares]
  | some n =>
    simp [Spares]
    omega

@[simp] theorem yields_execute_nil {fault : Option Nat} {u : Unit} {t after : Tables} :
    Yields (execute fault []) t u after ↔ Spares fault 0 ∧ t = after := by
  rw [execute, yields_require, spares_zero]

theorem yields_execute_cons {fault : Option Nat} {work : Work Unit} {rest : List (Work Unit)}
    {u : Unit} {t after : Tables} :
    Yields (execute fault (work :: rest)) t u after ↔
      (fault != some 0) = true ∧ ∃ between, Yields work t () between ∧
        Yields (execute (fault.map (· - 1)) rest) between u after := by
  rw [execute, yields_bind]
  constructor
  · rintro ⟨_, _, passed, h⟩
    obtain ⟨free, rfl⟩ := yields_require.1 passed
    obtain ⟨_, between, hwork, hrest⟩ := yields_bind.1 h
    exact ⟨free, between, hwork, hrest⟩
  · rintro ⟨free, between, hwork, hrest⟩
    exact ⟨(), t, yields_require.2 ⟨free, rfl⟩, yields_bind.2 ⟨(), between, hwork, hrest⟩⟩

/-- Statements that yield are spared, and yield what they do on a database that does not fail. -/
theorem yields_execute_iff {fault : Option Nat} {works : List (Work Unit)} {u : Unit}
    {t after : Tables} :
    Yields (execute fault works) t u after ↔
      Spares fault works.length ∧ Yields (execute none works) t u after := by
  induction works generalizing fault t with
  | nil => simp [spares_none]
  | cons work works ih =>
    rw [yields_execute_cons, yields_execute_cons, List.length_cons, spares_succ]
    constructor
    · rintro ⟨free, between, hwork, hrest⟩
      obtain ⟨spared, rest⟩ := ih.1 hrest
      exact ⟨⟨free, spared⟩, rfl, between, hwork, rest⟩
    · rintro ⟨⟨free, spared⟩, -, between, hwork, rest⟩
      exact ⟨free, between, hwork, ih.2 ⟨spared, rest⟩⟩

theorem yields_execute_append {works rest : List (Work Unit)} {u : Unit} {t after : Tables} :
    Yields (execute none (works ++ rest)) t u after ↔
      ∃ between, Yields (execute none works) t () between ∧
        Yields (execute none rest) between u after := by
  induction works generalizing t with
  | nil => simp [spares_none]
  | cons work works ih =>
    rw [List.cons_append, yields_execute_cons, Option.map_none]
    constructor
    · rintro ⟨free, first, hfirst, rest⟩
      obtain ⟨between, hworks, hrest⟩ := ih.1 rest
      exact ⟨between, yields_execute_cons.2 ⟨free, first, hfirst, hworks⟩, hrest⟩
    · rintro ⟨between, hall, hrest⟩
      obtain ⟨free, first, hfirst, hworks⟩ := yields_execute_cons.1 hall
      exact ⟨free, first, hfirst, ih.2 ⟨between, hworks, hrest⟩⟩

theorem yields_execute_singleton {work : Work Unit} {u : Unit} {t after : Tables} :
    Yields (execute none [work]) t u after ↔ Yields work t u after := by
  rw [yields_execute_cons, Option.map_none]
  simp [spares_none]

end Work

theorem flatten_piecesOf {α : Type} (size : Nat) (xs : List α) :
    (piecesOf size xs).flatten = xs := by
  fun_induction piecesOf size xs with
  | case1 => rfl
  | case2 x xs ih => rw [List.flatten_cons, ih, List.cons_append, List.take_append_drop]

theorem chunks_ok_iff {α : Type} {size : Int} {xs : List α} {pieces : List (List α)} :
    chunks size xs = .ok pieces ↔ 0 < size ∧ piecesOf (size.toNat - 1) xs = pieces := by
  unfold chunks
  split
  · rename_i h
    simp [Int.not_lt.2 h]
  · rename_i h
    simp [Int.not_le.1 h]

namespace StoredBook

/-- A book whose document can be read where there is so much room. -/
def Loads (room : Room) (book : StoredBook) : Prop :=
  Document.obstacle? book.payload room.levels = none

variable {room : Room} {book : StoredBook}

theorem load_eq_ok_iff {v : Value} :
    book.load room = .ok v ↔ book.Loads room ∧ book.payload = v := by
  unfold load Loads
  cases Document.obstacle? book.payload room.levels <;> simp

theorem load_eq_error_iff {f : Failure} : book.load room = .error f ↔
    ∃ obstacle, Document.obstacle? book.payload room.levels = some obstacle ∧
      obstacle.failure = f := by
  unfold load
  cases Document.obstacle? book.payload room.levels <;> simp

theorem load_map_eq_ok_iff {u : Unit} :
    (book.load room).map (fun _ => ()) = .ok u ↔ book.Loads room := by
  unfold load Loads
  cases Document.obstacle? book.payload room.levels <;> simp [Except.map]

end StoredBook

namespace Tables

open Work

/-- A row with its figures, as a statement computes them. -/
def entryOf (now : Instant) (r : TradeRow) : Except Failure (TradeKey × DailyFigures) := do
  return (r.key, ← DailyFigures.ofRow now r)

/-- Tables with the figures of several rows merged one after the other. -/
def mergeEntries (t : Tables) (entries : List (TradeKey × DailyFigures)) : Tables :=
  entries.foldl (fun t e => t.mergeFigures e.1 e.2) t

/-- Tables with the book of a pass written. -/
def withBook (t : Tables) (venue : VenueId) (now : Instant) (orders : List Order)
    (unchanged : Bool) : Tables :=
  if t.keepsBook venue unchanged then t.touchBook venue now
  else t.putBook venue ⟨now, documentOf orders⟩

/-- The book of a venue can be loaded, if there is one. -/
def Loads (t : Tables) (room : Room) (venue : VenueId) : Prop :=
  ∀ book, t.book? venue = some book → book.Loads room

/-- What a pass has to load and to write unless it keeps the book: the book that is there can be
loaded, and the document of the orders can be written. -/
def Takes (t : Tables) (room : Room) (venue : VenueId) (orders : List Order) (unchanged : Bool) :
    Prop :=
  t.keepsBook venue unchanged = false → t.Loads room venue ∧ ∀ o ∈ orders, o.Legible

theorem loads_of_absent {t : Tables} {venue : VenueId} (absent : t.book? venue = none)
    (room : Room) : t.Loads room venue := by
  intro book there
  rw [absent] at there
  cases there

theorem mergeEntries_append (t : Tables) (xs ys : List (TradeKey × DailyFigures)) :
    t.mergeEntries (xs ++ ys) = (t.mergeEntries xs).mergeEntries ys :=
  List.foldl_append

@[simp] theorem books_mergeEntries (t : Tables) (entries : List (TradeKey × DailyFigures)) :
    (t.mergeEntries entries).books = t.books := by
  induction entries generalizing t with
  | nil => rfl
  | cons e rest ih => exact ih (t.mergeFigures e.1 e.2)

/-- Books and figures are written apart from each other. -/
theorem putBook_mergeEntries (t : Tables) (entries : List (TradeKey × DailyFigures))
    (venue : VenueId) (book : StoredBook) :
    (t.mergeEntries entries).putBook venue book = (t.putBook venue book).mergeEntries entries := by
  induction entries generalizing t with
  | nil => rfl
  | cons e rest ih => exact ih (t.mergeFigures e.1 e.2)

theorem book?_touchBook (t : Tables) (venue v : VenueId) (now : Instant) :
    (t.touchBook venue now).book? v = (t.book? v).map fun book =>
      if v = venue then { book with observedAt := now } else book :=
  Keyed.get?_map_entries (fun v (book : StoredBook) =>
    if v = venue then StoredBook.mk now book.payload else book) t.books v

section Statements

variable {room : Room} {chunkSize : Int} {venue : VenueId} {now : Instant} {orders : List Order}
  {unchanged : Bool} {rows : List TradeRow} {entries : List (TradeKey × DailyFigures)} {u : Unit}
  {t after : Tables}

theorem yields_openBook : Yields (openBook room venue now unchanged) t u after ↔
    Cell.Fits venue.val ∧
      if t.keepsBook venue unchanged then t.touchBook venue now = after
      else t.Loads room venue ∧ t = after := by
  rw [openBook, yields_require_bind, yields_get_bind, decide_eq_true_iff, Loads]
  cases t.keepsBook venue unchanged with
  | true => simp
  | false =>
    cases t.book? venue with
    | none => simp
    | some book => simp [StoredBook.load_map_eq_ok_iff]

theorem yields_replaceBook : Yields (replaceBook venue now orders unchanged) t u after ↔
    if t.keepsBook venue unchanged then t = after
    else (∀ o ∈ orders, o.Legible) ∧ t.putBook venue ⟨now, documentOf orders⟩ = after := by
  rw [replaceBook, yields_get_bind]
  cases t.keepsBook venue unchanged with
  | true => simp
  | false => simp

theorem yields_mergeRows : Yields (mergeRows now rows) t u after ↔
    ∃ entries, rows.mapM (entryOf now) = .ok entries ∧ (∀ e ∈ entries, fits e.1 e.2 = true) ∧
      t.mergeEntries entries = after := by
  rw [mergeRows, show (fun r : TradeRow => do return (r.key, ← DailyFigures.ofRow now r)) =
    entryOf now from rfl]
  simp [mergeEntries, and_assoc]

/-- Where the cuts between chunks lie does not matter. -/
theorem yields_execute_pieces {pieces : List (List TradeRow)} :
    Yields (execute none (pieces.map (mergeRows now))) t u after ↔
      ∃ entries, pieces.flatten.mapM (entryOf now) = .ok entries ∧
        (∀ e ∈ entries, fits e.1 e.2 = true) ∧ t.mergeEntries entries = after := by
  induction pieces generalizing t with
  | nil => simp [mergeEntries, spares_none, pure, Except.pure]
  | cons piece pieces ih =>
    rw [List.map_cons, yields_execute_cons, Option.map_none, List.flatten_cons]
    constructor
    · rintro ⟨-, between, hpiece, hrest⟩
      obtain ⟨xs, hxs, fx, rfl⟩ := yields_mergeRows.1 hpiece
      obtain ⟨ys, hys, fy, rfl⟩ := ih.1 hrest
      refine ⟨xs ++ ys, ?_, ?_, mergeEntries_append t xs ys⟩
      · rw [List.mapM_append, hxs, hys]
        rfl
      · intro e he
        rcases List.mem_append.1 he with he | he
        · exact fx e he
        · exact fy e he
    · rintro ⟨entries, hmap, hfits, rfl⟩
      rw [List.mapM_append] at hmap
      cases hxs : piece.mapM (entryOf now) with
      | error f => rw [hxs] at hmap; cases hmap
      | ok xs =>
        cases hys : pieces.flatten.mapM (entryOf now) with
        | error f => rw [hxs, hys] at hmap; cases hmap
        | ok ys =>
          rw [hxs, hys] at hmap
          obtain rfl : xs ++ ys = entries := by injection hmap
          refine ⟨rfl, t.mergeEntries xs, ?_, ?_⟩
          · exact yields_mergeRows.2 ⟨xs, hxs, fun e he => hfits e (List.mem_append_left _ he), rfl⟩
          · exact ih.2 ⟨ys, hys, fun e he => hfits e (List.mem_append_right _ he),
              (mergeEntries_append t xs ys).symm⟩

theorem yields_rowStatements :
    Yields (execute none (rowStatements chunkSize now rows)) t u after ↔
      0 < chunkSize ∧ ∃ entries, rows.mapM (entryOf now) = .ok entries ∧
        (∀ e ∈ entries, fits e.1 e.2 = true) ∧ t.mergeEntries entries = after := by
  unfold rowStatements
  cases hc : chunks chunkSize rows with
  | error f =>
    have none : ¬ 0 < chunkSize := fun positive => by
      rw [chunks_ok_iff.2 ⟨positive, rfl⟩] at hc
      cases hc
    simp [yields_execute_cons, none]
  | ok pieces =>
    obtain ⟨positive, rfl⟩ := chunks_ok_iff.1 hc
    simp only [yields_execute_pieces, flatten_piecesOf, positive, true_and]

theorem length_rowStatements (positive : 0 < chunkSize) :
    (rowStatements chunkSize now rows).length =
      (piecesOf (chunkSize.toNat - 1) rows).length := by
  rw [rowStatements, chunks_ok_iff.2 ⟨positive, rfl⟩]
  exact List.length_map ..

/-- Writing the book in two steps, around the rows, is writing it in one. -/
theorem yields_around :
    (∃ opened, Yields (openBook room venue now unchanged) t () opened ∧
      Yields (replaceBook venue now orders unchanged) (opened.mergeEntries entries) u after) ↔
      Cell.Fits venue.val ∧ t.Takes room venue orders unchanged ∧
        (t.withBook venue now orders unchanged).mergeEntries entries = after := by
  have same (opened : Tables) : (opened.mergeEntries entries).keepsBook venue unchanged =
      opened.keepsBook venue unchanged := by
    rw [keepsBook, book?, books_mergeEntries, keepsBook, book?]
  simp only [yields_openBook, yields_replaceBook, same, Takes, withBook, putBook_mergeEntries]
  cases kept : t.keepsBook venue unchanged with
  | true =>
    have touched : (t.touchBook venue now).keepsBook venue unchanged = true := by
      rw [keepsBook, book?_touchBook, Option.isSome_map]
      exact kept
    simp [touched, and_assoc]
  | false => simp [kept, and_assoc]

theorem yields_execute_statements {fault : Option Nat} :
    Yields (execute fault (statements room chunkSize venue now orders unchanged rows)) t u after ↔
      Cell.Fits venue.val ∧ 0 < chunkSize ∧
        Spares fault ((piecesOf (chunkSize.toNat - 1) rows).length + 2) ∧
        t.Takes room venue orders unchanged ∧
        ∃ entries, rows.mapM (entryOf now) = .ok entries ∧
          (∀ e ∈ entries, fits e.1 e.2 = true) ∧
          (t.withBook venue now orders unchanged).mergeEntries entries = after := by
  have inner (opened : Tables) :
      Yields (execute none (rowStatements chunkSize now rows ++
        [replaceBook venue now orders unchanged])) opened u after ↔
      0 < chunkSize ∧ ∃ entries, rows.mapM (entryOf now) = .ok entries ∧
        (∀ e ∈ entries, fits e.1 e.2 = true) ∧
        Yields (replaceBook venue now orders unchanged) (opened.mergeEntries entries) u after := by
    rw [yields_execute_append]
    simp only [yields_rowStatements, yields_execute_singleton]
    constructor
    · rintro ⟨_, ⟨positive, entries, hmap, hfits, rfl⟩, replaced⟩
      exact ⟨positive, entries, hmap, hfits, replaced⟩
    · rintro ⟨positive, entries, hmap, hfits, replaced⟩
      exact ⟨_, ⟨positive, entries, hmap, hfits, rfl⟩, replaced⟩
  rw [yields_execute_iff, statements, yields_execute_cons, Option.map_none, List.length_cons,
    List.length_append, List.length_singleton]
  simp only [inner]
  constructor
  · rintro ⟨spared, -, opened, hopened, positive, entries, hmap, hfits, replaced⟩
    obtain ⟨fits, takes, written⟩ := yields_around.1 ⟨opened, hopened, replaced⟩
    rw [length_rowStatements positive] at spared
    exact ⟨fits, positive, spared, takes, entries, hmap, hfits, written⟩
  · rintro ⟨fits, positive, spared, takes, entries, hmap, hfits, written⟩
    obtain ⟨opened, hopened, replaced⟩ := yields_around.2 ⟨fits, takes, written⟩
    rw [length_rowStatements positive]
    exact ⟨spared, rfl, opened, hopened, positive, entries, hmap, hfits, replaced⟩

end Statements

end Tables

namespace Store

variable {fault : Option Nat} {s after : Store} {venue : VenueId} {observedAt : Stamp}
  {orders : List Order} {unchanged : Bool} {rows : List TradeRow}

/-- The transaction of a commit. -/
theorem commitUnder_eq {now : Instant} {t : Tables} (hnow : observedAt.utc? = some now)
    (ht : s.tables = some t) :
    commitUnder fault s venue observedAt orders unchanged rows =
      let run := (Work.execute fault
        (Tables.statements s.room s.chunkSize venue now orders unchanged rows)).atomically t
      ({ s with tables := some run.1 }, run.2) := by
  unfold commitUnder
  rw [hnow, ht]

/-- A commit that fails, for whatever reason and at whatever statement, leaves the store as it
was. -/
theorem commitUnder_error {f : Failure}
    (h : (commitUnder fault s venue observedAt orders unchanged rows).2 = .error f) :
    (commitUnder fault s venue observedAt orders unchanged rows).1 = s := by
  cases hnow : observedAt.utc? with
  | none => simp [commitUnder, hnow]
  | some now =>
    cases ht : s.tables with
    | none => simp [commitUnder, hnow, ht]
    | some t =>
      rw [commitUnder_eq hnow ht] at h ⊢
      have kept := Work.atomically_error h
      simp only [kept, ← ht]

/-- A commit fails and changes nothing, or it succeeds. -/
theorem commitUnder_cases (fault : Option Nat) (s : Store) (venue : VenueId) (observedAt : Stamp)
    (orders : List Order) (unchanged : Bool) (rows : List TradeRow) :
    (∃ f, commitUnder fault s venue observedAt orders unchanged rows = (s, .error f)) ∨
      ∃ after, commitUnder fault s venue observedAt orders unchanged rows = (after, .ok ()) := by
  generalize hrun : commitUnder fault s venue observedAt orders unchanged rows = run
  obtain ⟨after, f | u⟩ := run
  · have kept := commitUnder_error (congrArg Prod.snd hrun)
    rw [hrun] at kept
    exact .inl ⟨f, by rw [← kept]⟩
  · exact .inr ⟨after, rfl⟩

/-- When a commit succeeds, and what it writes: the book, and then the entries of all rows. -/
theorem commitUnder_ok_iff :
    commitUnder fault s venue observedAt orders unchanged rows = (after, .ok ()) ↔
      Cell.Fits venue.val ∧ 0 < s.chunkSize ∧
      Work.Spares fault ((piecesOf (s.chunkSize.toNat - 1) rows).length + 2) ∧
      ∃ now t entries, observedAt.utc? = some now ∧ s.tables = some t ∧
        t.Takes s.room venue orders unchanged ∧ rows.mapM (Tables.entryOf now) = .ok entries ∧
        (∀ e ∈ entries, Tables.fits e.1 e.2 = true) ∧
        after = { s with
          tables := some ((t.withBook venue now orders unchanged).mergeEntries entries) } := by
  constructor
  · intro h
    cases hnow : observedAt.utc? with
    | none => simp [commitUnder, hnow] at h
    | some now =>
      cases ht : s.tables with
      | none => simp [commitUnder, hnow, ht] at h
      | some t =>
        rw [commitUnder_eq hnow ht] at h
        obtain ⟨rfl, outcome⟩ := Prod.mk.inj h
        obtain ⟨hv, hsize, spared, takes, entries, hmap, hfits, written⟩ :=
          Tables.yields_execute_statements.1 (Work.atomically_ok_iff.1 (Prod.ext rfl outcome))
        exact ⟨hv, hsize, spared, now, t, entries, rfl, rfl, takes, hmap, hfits, by rw [written]⟩
  · rintro ⟨hv, hsize, spared, now, t, entries, hnow, ht, takes, hmap, hfits, rfl⟩
    have run : Work.Yields (Work.execute fault
        (Tables.statements s.room s.chunkSize venue now orders unchanged rows)) t () _ :=
      Tables.yields_execute_statements.2 ⟨hv, hsize, spared, takes, entries, hmap, hfits, rfl⟩
    rw [commitUnder_eq hnow ht]
    simp only [Work.atomically_ok_iff.2 run]

/-- A commit that succeeds has taken its book. -/
theorem takes_of_commitUnder {t : Tables} (ht : s.tables = some t)
    (h : commitUnder fault s venue observedAt orders unchanged rows = (after, .ok ())) :
    t.Takes s.room venue orders unchanged := by
  obtain ⟨-, -, -, now, t₀, entries, -, ht₀, takes, -⟩ := commitUnder_ok_iff.1 h
  obtain rfl := Option.some.inj (ht.symm.trans ht₀)
  exact takes

end Store

end OrderFlow
