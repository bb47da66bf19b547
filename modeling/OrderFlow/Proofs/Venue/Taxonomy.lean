import OrderFlow.Proofs.Credential.Usable
import OrderFlow.Proofs.Order.Range
import OrderFlow.Proofs.Value.Document
import OrderFlow.Proofs.Venue.Whole

/-!
# How a fetch may fail

A fetch fails by a fault of the fetch or by one of the configuration, whatever the venue replies,
with whatever credential and in whatever order (`BookFetch.fails_as_expected`). What a reply holds
has to stay within bounds: a record that is out of range ends the check of its page at once
(`Sample.price_too_large`), an integer with too many digits or a list that is nested too deep ends
the reading of its body, which has to be a text in the first place, and a first page may not tell of
more than 2 ^ 63 pages.
-/

namespace OrderFlow

/-- A failure by which a fetch is expected to fail. -/
inductive Failure.Expected : Failure → Prop
  | configuration (fault : ConfigurationFault) : Expected (.configuration fault)
  | fetch (fault : FetchFault) : Expected (.fetch fault)

/-- If no credential can be had that can be used, the configuration is at fault. -/
theorem Access.expected_of_handed {a : Access} {provider : CredentialProvider} {now : Instant}
    {fault : Failure} (clock : (now.add? CredentialProvider.defaultLife).isSome)
    (fails : a.handed provider now = .error fault) : fault.Expected := by
  obtain ⟨c, rfl⟩ := configuration_of_handed (provider.isSome_add?_margin clock) fails
  exact .configuration c

/-! ## Replies -/

/-- A response within bounds: its body is a text in the encoding that it names, no integer of it has
more digits than a literal may have, nothing in it is nested deeper than there is room for, its
records are in range, and the response does not tell of too many pages. -/
structure Response.Moderate (r : Response) : Prop where
  decoded : r.body.text.isSome
  unstopped : ∀ text ∈ r.body.text, ∀ obstacle,
    Document.read r.body.room text ≠ .error (.stopped obstacle)
  records : ∀ text ∈ r.body.text, ∀ items,
    Document.read r.body.room text = .ok (.arr items) → ∀ v ∈ items, Order.InRange v
  pages : ∀ count, Connection.pageCount (r.headers.find? Connection.pageCountHeader) = .ok count →
    count ≤ 2 ^ 63

/-- A reply from the venue, or the word that it could not be reached. Only responses that are not
refused for their status have to be within bounds. -/
inductive Reply.Orderly : Reply → Prop
  | response {r : Response} (moderate : r.status < 400 → r.Moderate) : Orderly (.response r)
  | unreachable (text : String) : Orderly (.unreachable text)

/-- What a page gives in orderly surroundings. -/
inductive PageOutcome.Orderly : PageOutcome → Prop
  | orders {orders : List Order} {count : Nat} (few : count ≤ 2 ^ 63) :
      Orderly (.ok (orders, count))
  | fails {fault : Failure} (expected : fault.Expected) : Orderly (.error fault)

/-- Surroundings with orderly replies, at least twenty minutes before the end of the representable
years. -/
structure Surroundings.Orderly (around : Surroundings) : Prop where
  clock : (around.now.add? CredentialProvider.defaultLife).isSome
  replies : ∀ request, (around.transport request).Orderly

/-- A request that can only be answered in an orderly way. -/
def PageStage.Orderly (f : BookFetch) : PageStage → Prop
  | waiting => True
  | looked url _ => f.url = .ok url
  | allowed url _ => f.url = .ok url
  | answered _ reply => reply.Orderly
  | ended outcome => outcome.Orderly

theorem Response.value_of_read {r : Response} {text : String} {v : Value}
    (decoded : r.body.text = some text) (read : Document.read r.body.room text = .ok v) :
    r.value = .ok v := by
  rw [value, decoded, Option.map_some, read]

/-- A response within bounds has a value, and if it is a list its records are in range. -/
theorem Response.Moderate.exists_value {r : Response} (moderate : r.Moderate) :
    ∃ v, r.value = .ok v ∧ ∀ items, v = .arr items → ∀ item ∈ items, Order.InRange item := by
  obtain ⟨text, htext⟩ := Option.isSome_iff_exists.1 moderate.decoded
  unfold value
  rw [htext, Option.map_some]
  cases read : Document.read r.body.room text with
  | ok v => exact ⟨v, rfl, fun items same => moderate.records text htext items (same ▸ read)⟩
  | error fault =>
    cases fault with
    | malformed =>
      refine ⟨_, rfl, fun items same => ?_⟩
      cases same
    | stopped obstacle => exact absurd read (moderate.unstopped text htext obstacle)

theorem Connection.expected_of_pageCount {text : Option String} {fault : Failure}
    (fails : pageCount text = .error fault) : fault.Expected := by
  cases text with
  | none => cases fails
  | some text =>
    rw [pageCount] at fails
    split at fails
    · split at fails
      · cases fails
        exact .fetch _
      · cases fails
    · cases fails
      exact .fetch _

namespace BookFetch

variable {f : BookFetch} {around : Surroundings} {number : Nat} {s : Session} {stage : PageStage}

/-- A page whose records are in range gives orders, or it is expected to fail. -/
theorem orderly_content (f : BookFetch) (number : Nat) {body : Value} {headers : Headers}
    (records : ∀ items, body = .arr items → ∀ item ∈ items, Order.InRange item)
    (pages : ∀ count, Connection.pageCount (headers.find? Connection.pageCountHeader) = .ok count →
      count ≤ 2 ^ 63) :
    (f.content number body headers).Orderly := by
  cases given : f.content number body headers with
  | ok page =>
    obtain ⟨orders, count⟩ := page
    obtain ⟨-, told⟩ := content_eq_ok_iff.1 given
    exact .orders (pages count told)
  | error fault =>
    refine .fails ?_
    rcases Outcome.bind_eq_error_iff.1 given with fails | ⟨_, -, fails⟩
    · obtain ⟨issues, rfl⟩ := (Order.ends_checkPage_iff.2 records).toExcept fails
      exact .fetch _
    · rcases Outcome.bind_eq_error_iff.1 fails with fails | ⟨_, -, fails⟩
      · exact Connection.expected_of_pageCount fails
      · cases fails

/-- What an orderly reply gives. -/
theorem orderly_of_read (f : BookFetch) (number : Nat) (path : Url) (account : AccountId)
    {reply : Reply} (orderly : reply.Orderly) :
    PageOutcome.Orderly (reply.read path account >>= fun (body, headers) =>
      f.content number body headers) := by
  cases orderly with
  | unreachable text => exact .fails (.fetch _)
  | @response r moderate =>
    rw [Reply.read]
    split
    · exact .fails (.fetch _)
    split
    · exact .fails (.configuration _)
    split
    · exact .fails (.fetch _)
    · rename_i good
      have moderate := moderate (Int.not_le.1 good)
      obtain ⟨v, hv, records⟩ := moderate.exists_value
      rw [hv]
      exact f.orderly_content number records moderate.pages

/-- Every step of a request that is orderly leads on to one. -/
theorem orderly_advance
    (addressed : ∃ url target, f.url = .ok url ∧ f.connection.target url = .ok target)
    (orderly : around.Orderly) (h : stage.Orderly f) :
    (f.advance around number s stage).2.Orderly f := by
  obtain ⟨url, ⟨path, full⟩, hurl, htarget⟩ := addressed
  cases stage with
  | waiting =>
    simp only [advance, hurl]
    exact hurl
  | looked url' seen =>
    simp only [advance]
    obtain ⟨c, -, -, run⟩ | ⟨c, -, run⟩ | ⟨fault, why, run⟩ :=
      s.access.confirm_cases around.provider around.now seen
    · rw [run]
      exact h
    · rw [run]
      exact h
    · rw [run]
      refine .fails ?_
      rcases why with none | ⟨c, -, overflow⟩
      · exact Access.expected_of_handed orderly.clock none
      · obtain ⟨fresh, hfresh⟩ := c.exists_isFresh
          (Instant.isSome_add?_of_le (by decide) (by decide) orderly.clock)
        rw [hfresh] at overflow
        cases overflow
  | allowed url' c =>
    have same : url' = url := Except.ok.inj (h.symm.trans hurl)
    subst same
    simp only [advance, htarget]
    exact orderly.replies _
  | answered path' reply =>
    have given := f.orderly_of_read number path' s.access.account h
    simp only [advance, Connection.run_receive]
    cases hread : reply.read path' s.access.account with
    | ok page =>
      rw [hread] at given
      exact given
    | error fault =>
      rw [hread] at given
      exact given
  | ended outcome => exact h

/-- **A fetch fails as expected.** Let the replies be orderly: responses of any status with any
headers and any body, as far as the bodies and headers of those below 400 stay within bounds, or the
word that the venue could not be reached. Then a fetch from any session, for any number of workers
and whatever happens first, can go on until it ends, in less than six moves for each page; and if it
fails, it is by a fault of the fetch or of the configuration. The same holds of the fetch that takes
up one page after the other. -/
theorem fails_as_expected (f : BookFetch) (workers : 1 ≤ f.workers)
    (addressed : ∃ url target, f.url = .ok url ∧ f.connection.target url = .ok target)
    (s : Session) :
    (∀ (moves : List (Surroundings × Move)) (p : Pool), (∀ move ∈ moves, move.1.Orderly) →
      f.run moves (.start s) = some p →
      moves.length < 6 * p.told ∧
      ((∀ outcome, ¬ p.Returns outcome) → ∀ around, ∃ m p', f.step around m p = some p') ∧
      ∀ fault, p.Returns (.error fault) → fault.Expected) ∧
    ∀ around : Surroundings, around.Orderly → ∀ fault,
      ((f.connection.orders around f.venue f.forceRefresh).run s).2 = .error fault →
        fault.Expected := by
  have expected (moves : List (Surroundings × Move)) (p : Pool)
      (orderly : ∀ move ∈ moves, move.1.Orderly) (run : f.run moves (.start s) = some p)
      (outcome : Except Failure (List Order)) (returns : p.Returns outcome) (fault : Failure)
      (fails : outcome = .error fault) : fault.Expected := by
    subst fails
    obtain ⟨-, stages⟩ := run_stages (S := fun _ => True) (Q := fun _ => PageStage.Orderly f)
      (fun _ => trivial)
      (fun around number s stage orderly _ h => ⟨trivial, orderly_advance addressed orderly h⟩)
      orderly run trivial
    have gives {n : Nat} {outcome : PageOutcome} (h : p.outcome? n = some outcome) :
        outcome.Orderly := by
      have stage := stages n
      rw [PageStage.outcome?_eq_some_iff.1 h] at stage
      exact stage
    have stands := (sound_run run).stands
    rw [returns.1] at stands
    cases stands with
    | refused _ bad =>
      cases gives bad with
      | fails expected => exact expected
    | tooMany tells _ many =>
      obtain ⟨orders, told⟩ := tells
      cases gives told with
      | orders few =>
        unfold Connection.maxFollowing at many
        omega
    | failed _ _ _ _ _ bad =>
      cases gives bad with
      | fails expected => exact expected
  constructor
  · intro moves p orderly run
    have length := length_run_le run
    have one := (sound_run run).one_le_told
    exact ⟨by omega, (sound_run run).exists_step workers,
      fun fault returns => expected moves p orderly run _ returns fault rfl⟩
  · intro around orderly
    exact orders_of_runs (A := Surroundings.Orderly)
      (P := fun outcome _ => ∀ fault, outcome = .error fault → fault.Expected) workers expected
      orderly

end BookFetch

namespace Sample

/-- The record of an order that sells at a price in whole units. -/
def selling (price : Int) : Value :=
  .obj [("order_id", .int 101), ("type_id", .int 34), ("is_buy_order", .bool false),
    ("price", .int price), ("volume_remain", .int 1), ("volume_total", .int 1),
    ("issued", .str "2024-01-01T00:00:00Z"), ("duration", .int 90)]

/-- The document of a page with one order that sells at such a price. -/
def listingText (price : Int) : String :=
  Document.write (.arr [selling price])

/-- A page with this document. -/
def listing (price : Int) : Response :=
  ⟨200, [], listingText price⟩

/-- Surroundings in which all pages are such ones. -/
def listed (price : Int) : Surroundings :=
  answering fun _ => .response (listing price)

theorem read_listing {price : Int} (few : Document.digitCount price ≤ Text.literalDigits) :
    Document.read .standard (listingText price) = .ok (.arr [selling price]) := by
  have exact : Document.Exact (selling price) := by
    refine .obj (by simp) fun field mem => ?_
    simp only [List.mem_cons, List.not_mem_nil, or_false] at mem
    rcases mem with rfl | rfl | rfl | rfl | rfl | rfl | rfl | rfl
    · exact .int 101
    · exact .int 34
    · exact .bool false
    · exact .int price
    · exact .int 1
    · exact .int 1
    · exact .str _
    · exact .int 90
  have short : ∀ n ∈ [101, 34, 1, 90], Document.digitCount n ≤ Text.literalDigits := by
    decide
  have free : Document.obstacle? (.arr [selling price]) Room.standard.levels = none := by
    simp_all [Document.obstacle?, Document.itemsObstacle?, Document.fieldsObstacle?, selling,
      Room.standard]
  rw [listingText, Document.read_write (.arr (List.forall_mem_singleton.2 exact)), free]

theorem addressed_fetch :
    ∃ url target, fetch.url = .ok url ∧ fetch.connection.target url = .ok target := by
  refine ⟨⟨"markets/structures/7"⟩, (path, path), ?_, ?_⟩
  · with_unfolding_all rfl
  · with_unfolding_all rfl

/-- In such surroundings the fetch fails as the check of the page does. -/
theorem orders_listed {price : Int} {fault : Failure}
    (few : Document.digitCount price ≤ Text.literalDigits)
    (fails : (Order.checkPage (.arr [selling price])).toExcept (fun issues =>
      .fetch (.malformed 1 venue.val issues)) = .error fault) :
    ((fetch.connection.orders (listed price) venue false).run ⟨access, []⟩).2 = .error fault := by
  have value : (listing price).value = .ok (.arr [selling price]) :=
    Response.value_of_read rfl (read_listing few)
  refine fetch.orders_of_bad_first (by decide) (fun _ _ => trivial)
    (serves_answering fun _ => .response (listing price)) ?_
  have good : (listing price).status < 400 := by
    show (200 : Int) < 400
    decide
  show fetch.answer account 1 (.response (listing price)) = _
  rw [BookFetch.answer_of_value addressed_fetch good value]
  exact Outcome.bind_eq_error_iff.2 (.inl fails)

/-- A price below zero is a fault of the fetch. -/
theorem price_below_zero :
    ∃ fault, ((fetch.connection.orders (listed (-5)) venue false).run ⟨access, []⟩).2 =
      .error fault ∧ fault.Expected := by
  have few : Document.digitCount (-5) ≤ Text.literalDigits := by decide
  obtain ⟨issues, refused⟩ :
      ∃ issues, Order.checkPage (.arr [selling (-5)]) = .refused issues :=
    ⟨_, by with_unfolding_all rfl⟩
  have fails : ((fetch.connection.orders (listed (-5)) venue false).run ⟨access, []⟩).2 =
      .error (.fetch (.malformed 1 venue.val issues)) := by
    refine orders_listed few ?_
    rw [refused]
    rfl
  have inRange : ∀ items, Value.arr [selling (-5)] = .arr items →
      ∀ item ∈ items, Order.InRange item := by
    refine Order.ends_checkPage_iff.1 ?_
    rw [refused]
    trivial
  have moderate : (listing (-5)).Moderate := by
    have read : ∀ text ∈ (listing (-5)).body.text,
        Document.read (listing (-5)).body.room text = .ok (.arr [selling (-5)]) := by
      rintro _ ⟨⟩
      exact read_listing few
    refine ⟨rfl, fun text mem obstacle h => ?_, fun text mem items h => ?_, fun count h => ?_⟩
    · rw [read text mem] at h
      cases h
    · rw [read text mem] at h
      cases h
      exact inRange _ rfl
    · obtain rfl : 1 = count := Except.ok.inj h
      decide
  have orderly : (listed (-5)).Orderly := ⟨by decide, fun _ => .response fun _ => moderate⟩
  obtain ⟨-, serial⟩ := fetch.fails_as_expected (by decide) addressed_fetch ⟨access, []⟩
  exact ⟨_, fails, serial _ orderly _ fails⟩

/-- A price that is too large ends the fetch otherwise. -/
theorem price_too_large :
    access.handed (listed (10 ^ 30)).provider (listed (10 ^ 30)).now = .ok credential ∧
      ∃ cause, ((fetch.connection.orders (listed (10 ^ 30)) venue false).run ⟨access, []⟩).2 =
        .error (.abort cause) ∧ ¬ Failure.Expected (.abort cause) := by
  have few : Document.digitCount (10 ^ 30) ≤ Text.literalDigits := by decide
  have large : ¬ (Order.checkPage (.arr [selling (10 ^ 30)])).Ends := by
    intro ends
    have small := (Order.ends_checkPage_iff.1 ends _ rfl _ List.mem_cons_self).price
      (.int (10 ^ 30)) (.ofInt (10 ^ 30)) rfl rfl
    have value : (Decimal.ofInt (10 ^ 30)).value = 10 ^ 30 := by
      norm_num [Decimal.ofInt, Decimal.value, Decimal.signedCoefficient]
    rw [value] at small
    norm_num at small
  obtain ⟨cause, aborts⟩ := Checked.exists_of_not_ends large
  refine ⟨handed_credential, cause, orders_listed few ?_, ?_⟩
  · rw [aborts]
    rfl
  · intro expected
    cases expected

end Sample

end OrderFlow
