import OrderFlow.Proofs.Store.Daily
import OrderFlow.Proofs.Store.Snapshot

/-!
# Batches of deltas

Deltas may be committed in one batch or in many, and in any order: the figures that are stored in
the end are the initial ones with the ledger of all deltas merged in. The store and the tally are
two folds of the same operation, one over integers in cells and chunks of rows, the other over
decimals (`batches_merge_as_one`).
-/

namespace OrderFlow

/-- What one commit is given: a book, and the deltas whose rows it merges. -/
structure Batch where
  venue : VenueId
  observedAt : Stamp
  orders : List Order
  unchanged : Bool
  deltas : List TradeDelta

namespace Batch

/-- A batch with a time in UTC whose identifiers fit into cells, whose orders fit into a document
and whose deltas have prices. -/
structure Valid (b : Batch) : Prop where
  venue : Cell.Fits b.venue.val
  observedAt : b.observedAt.utc?.isSome
  legible : ∀ o ∈ b.orders, o.Legible
  priced : ∀ d ∈ b.deltas, d.Priced
  keys : ∀ d ∈ b.deltas, Cell.Fits d.key.venue.val ∧ Cell.Fits d.key.item.val

/-- The deltas of several batches, one after the other. -/
def allDeltas (bs : List Batch) : List TradeDelta :=
  bs.flatMap (·.deltas)

end Batch

namespace Store

/-- The rows of each batch committed by a transaction of their own, up to one that fails. -/
def commitAll : List Batch → Store → Store × Except Failure Unit
  | [], s => (s, .ok ())
  | b :: bs, s =>
    match s.commit b.venue b.observedAt b.orders b.unchanged (aggregate b.deltas) with
    | (after, .ok ()) => commitAll bs after
    | (after, .error f) => (after, .error f)

end Store

/-- Figures with the same counts, values and prices. -/
structure DailyFigures.Agree (f g : DailyFigures) : Prop where
  amount : f.amount = g.amount
  events : f.events = g.events
  value : f.value = g.value
  high : f.high = g.high
  low : f.low = g.low

theorem DailyFigures.Shows.agree {f g : DailyFigures} {a : Totals} (hf : f.Shows a)
    (hg : g.Shows a) : f.Agree g :=
  ⟨hf.amount.trans hg.amount.symm, hf.events.trans hg.events.symm, hf.value.trans hg.value.symm,
    hf.high.trans hg.high.symm, hf.low.trans hg.low.symm⟩

/-- Figures of the same totals agree. -/
theorem agree_of_shows {f g : Option DailyFigures} {a : Option Totals}
    (hf : Option.Rel DailyFigures.Shows f a) (hg : Option.Rel DailyFigures.Shows g a) :
    Option.Rel DailyFigures.Agree f g := by
  cases hf with
  | none =>
    cases hg with
    | none => exact .none
  | some hf =>
    cases hg with
    | some hg => exact .some (hf.agree hg)

namespace Tables

variable {t : Tables} {totalsOf : TradeKey → Option Totals}

theorem tracks_of_shows
    (shows : ∀ key, Option.Rel DailyFigures.Shows (Keyed.get? key t.daily) (totalsOf key))
    (fits : ∀ key a, totalsOf key = some a → a.Fits) : t.Tracks totalsOf := by
  intro key
  have shown := shows key
  have fit := fits key
  generalize Keyed.get? key t.daily = f, totalsOf key = a at shown fit ⊢
  cases shown with
  | none => exact .none
  | some shows => exact .some (shows.tracks (fit _ rfl))

/-- Totals that fit are shown as they are. -/
theorem Tracks.shows (tracks : t.Tracks totalsOf)
    (fits : ∀ key a, totalsOf key = some a → a.Fits) (key : TradeKey) :
    Option.Rel DailyFigures.Shows (Keyed.get? key t.daily) (totalsOf key) := by
  have tracked := tracks key
  have fit := fits key
  generalize Keyed.get? key t.daily = f, totalsOf key = a at tracked fit ⊢
  cases tracked with
  | none => exact .none
  | some tracked => exact .some (tracked.shows_of_fits (fit _ rfl))

end Tables

theorem key_of_ledger {ds : List TradeDelta} {key : TradeKey} {a : Totals}
    (h : ledger ds key = some a) : ∃ d ∈ ds, d.key = key := by
  have touched : ¬ ∀ d ∈ ds, d.key ≠ key := by
    intro untouched
    rw [ledger_eq_none_iff.2 untouched] at h
    cases h
  simpa using touched

namespace Batch

theorem ledger_mono {b : Batch} {bs : List Batch} (hb : b ∈ bs) {key : TradeKey} {a : Totals}
    (h : ledger b.deltas key = some a) : ∃ c, ledger (allDeltas bs) key = some c ∧ a.Under c := by
  have part : b.deltas.Sublist (allDeltas bs) :=
    List.sublist_flatten_of_mem (List.mem_map_of_mem hb)
  exact Totals.ofDeltas_mono (part.filter _) h

end Batch

theorem Totals.Fits.of_under {a b : Totals} (h : a.Under b) (fits : b.Fits) (proper : a.Proper) :
    a.Fits := by
  obtain ⟨hamount, hevents, hvalue, -, -⟩ := h
  obtain ⟨⟨-, famount⟩, ⟨-, fevents⟩, ⟨-, fvalue⟩⟩ := fits
  have value := proper.value_nonneg
  obtain ⟨amount, events, -, -, -⟩ := proper
  constructor <;> constructor <;> omega

namespace Store

variable {s : Store} {t : Tables} {bs : List Batch}

/-- All batches are committed, and together they add the ledger of all of their deltas. -/
theorem exists_commitAll (hsize : 0 < s.chunkSize) (ht : s.tables = some t)
    (loads : ∀ b ∈ bs, t.Loads s.room b.venue) (valid : ∀ b ∈ bs, b.Valid)
    (small : ∀ b ∈ bs, ∀ key a, ledger b.deltas key = some a → a.Fits) :
    ∃ t', commitAll bs s = ({ s with tables := some t' }, .ok ()) ∧
      (∀ totalsOf, t.Tracks totalsOf →
        t'.Tracks fun key => (totalsOf key).merge .merge (ledger (Batch.allDeltas bs) key)) ∧
      ∀ key, ledger (Batch.allDeltas bs) key = none →
        Keyed.get? key t'.daily = Keyed.get? key t.daily := by
  induction bs generalizing s t with
  | nil =>
    refine ⟨t, by rw [commitAll, ← ht], ?_, fun _ _ => rfl⟩
    intro totalsOf h
    have none (key : TradeKey) : ledger (Batch.allDeltas []) key = none := rfl
    simpa only [none, Option.merge_none_right] using h
  | cons b bs ih =>
    have hb := valid b List.mem_cons_self
    obtain ⟨now, hnow⟩ := Option.isSome_iff_exists.1 hb.observedAt
    have fits (key : TradeKey) (a : Totals) (ha : ledger b.deltas key = some a) :
        a.Fits ∧ Cell.Fits key.venue.val ∧ Cell.Fits key.item.val := by
      obtain ⟨d, hd, rfl⟩ := key_of_ledger ha
      exact ⟨small b List.mem_cons_self _ a ha, hb.keys d hd⟩
    have takes : t.Takes s.room b.venue b.orders b.unchanged :=
      fun _ => ⟨loads b List.mem_cons_self, hb.legible⟩
    obtain ⟨after, commit⟩ : ∃ after, s.commit b.venue b.observedAt b.orders b.unchanged
        (aggregate b.deltas) = (after, .ok ()) :=
      exists_commit hsize hb.venue hnow ht takes hb.priced fits
    obtain ⟨_, t₀, t₁, -, ht₀, rfl, books, adds⟩ := commit_adds hb.priced commit
    obtain rfl := Option.some.inj (ht.symm.trans ht₀)
    -- the books of the later batches can still be loaded, this batch's own document included
    have later (c : Batch) (hc : c ∈ bs) : t₁.Loads s.room c.venue := by
      intro book there
      rw [Tables.book?, books] at there
      exact (loads c (List.mem_cons_of_mem _ hc)).withBook hb.legible _ _ _ book there
    obtain ⟨t', rest, tracks, untouched⟩ := ih (s := { s with tables := some t₁ }) hsize rfl later
      (fun c hc => valid c (List.mem_cons_of_mem _ hc))
      fun c hc => small c (List.mem_cons_of_mem _ hc)
    have both (key : TradeKey) : ledger (Batch.allDeltas (b :: bs)) key =
        (ledger b.deltas key).merge .merge (ledger (Batch.allDeltas bs) key) := by
      rw [Batch.allDeltas, List.flatMap_cons, ledger_append, Batch.allDeltas]
    refine ⟨t', by rw [commitAll, commit]; exact rest, ?_, ?_⟩
    · intro totalsOf h key
      have later := tracks _ (adds.tracks h) key
      simp only [Totals.join_assoc] at later
      simpa only [both] using later
    · intro key h
      rw [both] at h
      obtain ⟨first, others⟩ := Option.merge_eq_none_iff.1 h
      rw [untouched key others, adds.untouched first]

/-- **Batches merge as one.** Two series of batches with the same deltas in any order, committed
onto the same tables with chunks of any size, all succeed and leave the same figures under every
key, namely the stored ones with the totals of the deltas merged in; a key of none of the deltas
keeps its row. It is assumed that the stored figures are integers, that no running total of a
key, in the table or of the deltas, leaves the integers that fit, and that the books which the
batches replace can be loaded. -/
theorem batches_merge_as_one {s₁ s₂ : Store} {t : Tables} {initial : TradeKey → Option Totals}
    {bs cs : List Batch} (ht₁ : s₁.tables = some t) (ht₂ : s₂.tables = some t)
    (hsize₁ : 0 < s₁.chunkSize) (hsize₂ : 0 < s₂.chunkSize)
    (loads₁ : ∀ b ∈ bs, t.Loads s₁.room b.venue) (loads₂ : ∀ b ∈ cs, t.Loads s₂.room b.venue)
    (stored : ∀ key, Option.Rel DailyFigures.Shows (Keyed.get? key t.daily) (initial key))
    (validbs : ∀ b ∈ bs, b.Valid) (validcs : ∀ b ∈ cs, b.Valid)
    (same : (Batch.allDeltas bs).Perm (Batch.allDeltas cs))
    (fits : ∀ key a, initial key = some a → a.Fits)
    (fitsAdded : ∀ key a, ledger (Batch.allDeltas bs) key = some a → a.Fits)
    (fitsMerged : ∀ key a,
      (initial key).merge .merge (ledger (Batch.allDeltas bs) key) = some a → a.Fits) :
    ∃ t₁ t₂, commitAll bs s₁ = ({ s₁ with tables := some t₁ }, .ok ()) ∧
      commitAll cs s₂ = ({ s₂ with tables := some t₂ }, .ok ()) ∧
      ∀ key,
        Option.Rel DailyFigures.Agree (Keyed.get? key t₁.daily) (Keyed.get? key t₂.daily) ∧
        Option.Rel DailyFigures.Shows (Keyed.get? key t₁.daily)
          ((initial key).merge .merge (ledger (Batch.allDeltas bs) key)) ∧
        ((∀ d ∈ Batch.allDeltas bs, d.key ≠ key) →
          Keyed.get? key t₁.daily = Keyed.get? key t.daily ∧
            Keyed.get? key t₂.daily = Keyed.get? key t.daily) := by
  have tracks := Tables.tracks_of_shows stored fits
  have part {b : Batch} {bs : List Batch} (hb : b ∈ bs)
      (all : ∀ key a, ledger (Batch.allDeltas bs) key = some a → a.Fits) (key : TradeKey)
      (a : Totals) (ha : ledger b.deltas key = some a) : a.Fits := by
    obtain ⟨c, hc, under⟩ := Batch.ledger_mono hb ha
    exact (all key c hc).of_under under (proper_of_ledger ha)
  have ledgers (key : TradeKey) := ledger_perm same key
  obtain ⟨t₁, commits₁, tracks₁, untouched₁⟩ := exists_commitAll hsize₁ ht₁ loads₁ validbs
    fun b hb =>
    part hb fitsAdded
  obtain ⟨t₂, commits₂, tracks₂, untouched₂⟩ := exists_commitAll hsize₂ ht₂ loads₂ validcs
    fun b hb =>
    part hb fun key a ha => fitsAdded key a (by rw [ledgers, ha])
  have shows₁ := (tracks₁ initial tracks).shows fitsMerged
  have shows₂ := (tracks₂ initial tracks).shows fun key a h => fitsMerged key a (by rwa [ledgers])
  refine ⟨t₁, t₂, commits₁, commits₂, ?_⟩
  intro key
  refine ⟨?_, shows₁ key, ?_⟩
  · apply agree_of_shows (shows₁ key)
    rw [ledgers]
    exact shows₂ key
  · intro absent
    have empty := ledger_eq_none_iff.2 absent
    exact ⟨untouched₁ key empty, untouched₂ key (by rwa [← ledgers])⟩

/-- A key at which ten units are stored. -/
def soldKey : TradeKey :=
  ⟨⟨1, by decide⟩, ⟨8, by decide⟩, ⟨35, by decide⟩, .sell, .conservative⟩

/-- The figures of these units. -/
def tenFigures : DailyFigures :=
  ⟨.int 10, .int 2, .int 2600, 300, 250, .int 0, ⟨1, by decide⟩⟩

/-- A store with these units. -/
def soldTen (chunkSize : Int) : Store :=
  ⟨some ⟨[], [(soldKey, tenFigures)]⟩, chunkSize, .standard⟩

/-- Five units more. -/
def soldFive : TradeDelta := ⟨soldKey, 5, 1, ⟨false, 250, -2⟩, by decide⟩

/-- Six units more at a higher price. -/
def soldSix : TradeDelta := ⟨soldKey, 6, 1, ⟨false, 400, -2⟩, by decide⟩

/-- Some of these units in one batch. -/
def soldBatch (deltas : List TradeDelta) : Batch :=
  ⟨soldKey.venue, ⟨⟨1, by decide⟩, none⟩, [], false, deltas⟩

theorem valid_soldBatch {deltas : List TradeDelta}
    (h : ∀ d ∈ deltas, d = soldFive ∨ d = soldSix) : (soldBatch deltas).Valid where
  venue := show Cell.Fits 8 by decide
  observedAt := rfl
  legible := by simp [soldBatch]
  priced d hd := by
    obtain rfl | rfl := h d hd
    · exact ⟨⟨250, false, by decide, by decide⟩, rfl⟩
    · exact ⟨⟨400, false, by decide, by decide⟩, rfl⟩
  keys d hd := by
    obtain rfl | rfl := h d hd <;> decide

/-- Five units and then six, or six and five in one batch, in chunks of different sizes. -/
theorem sold_batches_merge :
    ∃ t₁ t₂, commitAll [soldBatch [soldFive], soldBatch [soldSix]] (soldTen 1) =
        ({ soldTen 1 with tables := some t₁ }, .ok ()) ∧
      commitAll [soldBatch [soldSix, soldFive]] (soldTen 500) =
        ({ soldTen 500 with tables := some t₂ }, .ok ()) ∧
      Option.Rel DailyFigures.Agree (Keyed.get? soldKey t₁.daily) (Keyed.get? soldKey t₂.daily) ∧
      Option.Rel DailyFigures.Shows (Keyed.get? soldKey t₁.daily)
        (some ⟨21, 4, 6250, 400, 250⟩) := by
  have stored (key : TradeKey) : Option.Rel DailyFigures.Shows
      (Keyed.get? key [(soldKey, tenFigures)])
      (if soldKey = key then some ⟨10, 2, 2600, 300, 250⟩ else none) := by
    rw [Keyed.get?]
    split
    · exact .some ⟨rfl, rfl, rfl, rfl, rfl⟩
    · exact .none
  have same : (Batch.allDeltas [soldBatch [soldFive], soldBatch [soldSix]]).Perm
      (Batch.allDeltas [soldBatch [soldSix, soldFive]]) := .swap soldSix soldFive []
  have added (key : TradeKey) : ledger (Batch.allDeltas [soldBatch [soldFive], soldBatch [soldSix]])
      key = if soldKey = key then some ⟨11, 2, 3650, 400, 250⟩ else none := by
    by_cases h : soldKey = key
    · subst h
      rfl
    · rw [if_neg h, ledger_eq_none_iff]
      intro d hd
      obtain rfl | rfl : d = soldFive ∨ d = soldSix := by
        simpa [Batch.allDeltas, soldBatch] using hd
      · exact h
      · exact h
  have small {a : Totals} (fits : a.Fits) (key : TradeKey) (b : Totals)
      (h : (if soldKey = key then some a else none) = some b) : b.Fits := by
    split at h
    · exact Option.some.inj h ▸ fits
    · cases h
  have merged (key : TradeKey) :
      (if soldKey = key then some (⟨10, 2, 2600, 300, 250⟩ : Totals) else none).merge .merge
          (ledger (Batch.allDeltas [soldBatch [soldFive], soldBatch [soldSix]]) key) =
        if soldKey = key then some ⟨21, 4, 6250, 400, 250⟩ else none := by
    rw [added]
    split <;> rfl
  obtain ⟨t₁, t₂, commits₁, commits₂, figures⟩ := @batches_merge_as_one (soldTen 1) (soldTen 500) _
    (fun key => if soldKey = key then some ⟨10, 2, 2600, 300, 250⟩ else none)
    [soldBatch [soldFive], soldBatch [soldSix]] [soldBatch [soldSix, soldFive]] rfl rfl
    (by decide) (by decide) (fun _ _ => Tables.loads_of_absent rfl _)
    (fun _ _ => Tables.loads_of_absent rfl _) stored
    (by simpa using ⟨valid_soldBatch (by simp), valid_soldBatch (by simp)⟩)
    (by simpa using valid_soldBatch (by simp)) same
    (small ⟨by decide, by decide, by decide⟩)
    (fun key a h => small ⟨by decide, by decide, by decide⟩ key a ((added key).symm.trans h))
    (fun key a h => small ⟨by decide, by decide, by decide⟩ key a ((merged key).symm.trans h))
  obtain ⟨agree, shows, -⟩ := figures soldKey
  exact ⟨t₁, t₂, commits₁, commits₂, agree, shows⟩

end Store

end OrderFlow
