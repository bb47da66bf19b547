import OrderFlow.Proofs.Order.Document
import OrderFlow.Proofs.Settings.Usable
import OrderFlow.Proofs.Venue.Requests
import OrderFlow.Proofs.Venue.Serial

/-!
# All pages or none

A fetch gives the orders of all pages in the order of pages, or it fails as the lowest bad page does
(`BookFetch.all_or_nothing`). That holds for every number of workers and in whatever order the pages
are answered, as long as the replies to a page do not depend on when it is asked for and the
provider has a credential that can be used. A first page that tells of more than 2 ^ 63 pages is the
exception (`Sample.too_many_pages`).
-/

namespace OrderFlow

/-- The orders of a page. -/
def PageOutcome.orders : PageOutcome → List Order
  | .ok (orders, _) => orders
  | .error _ => []

/-- The count of pages that a page tells, one if it is bad. -/
def PageOutcome.count : PageOutcome → Nat
  | .ok (_, count) => count
  | .error _ => 1

/-- What the outcome of a fetch and its requests are, given what each page gives: all orders if all
pages are good, from one request for each page, and otherwise the failure of the lowest bad one. -/
structure AllOrNothing (page : Nat → PageOutcome) (outcome : Except Failure (List Order))
    (sent : List Request) : Prop where
  good : (∃ orders, outcome = .ok orders) ↔
    ∀ n, 1 ≤ n → n ≤ (page 1).count → ∃ given, page n = .ok given
  whole : ∀ orders, outcome = .ok orders →
    orders = (List.range' 1 (page 1).count).flatMap fun n => (page n).orders
  once : ∀ orders, outcome = .ok orders → ∃ asked : List Nat,
    asked.Perm (List.range' 1 (page 1).count) ∧ asked.head? = some 1 ∧
      sent.map (·.params) = asked.map fun n => some (BookFetch.params n)
  lowest : ∀ n fault, 1 ≤ n → n ≤ (page 1).count → page n = .error fault →
    (∀ k, 1 ≤ k → k < n → ∃ given, page k = .ok given) → outcome = .error fault

/-- A fetch that fails as the lowest bad page does. -/
theorem AllOrNothing.failed {page : Nat → PageOutcome} {n : Nat} {fault : Failure}
    (one : 1 ≤ n) (le : n ≤ (page 1).count) (bad : page n = .error fault)
    (before : ∀ k, 1 ≤ k → k < n → ∃ given, page k = .ok given) (sent : List Request) :
    AllOrNothing page (.error fault) sent where
  good := by
    constructor
    · rintro ⟨orders, ok⟩
      cases ok
    · intro all
      obtain ⟨given, hgiven⟩ := all n one le
      rw [bad] at hgiven
      cases hgiven
  whole orders ok := by cases ok
  once orders ok := by cases ok
  lowest m fault' oneM _ badM beforeM := by
    have notBefore {a b : Nat} {f : Failure} (one : 1 ≤ a) (bad : page a = .error f)
        (before : ∀ k, 1 ≤ k → k < b → ∃ given, page k = .ok given) : ¬ a < b := by
      intro lt
      obtain ⟨given, hgiven⟩ := before a one lt
      rw [bad] at hgiven
      cases hgiven
    have low := notBefore oneM badM before
    have high := notBefore one bad beforeM
    obtain rfl : m = n := by omega
    rw [bad] at badM
    cases badM
    rfl

namespace Pool

variable {p : Pool} {page : Nat → PageOutcome} {k : Nat} {orders : List Order}

/-- Orders that were gathered are those of the pages in their order. -/
theorem Gathered.eq_flatMap (h : Gathered p.outcome? k orders)
    (gives : ∀ n outcome, p.outcome? n = some outcome → outcome = page n) :
    orders = (List.range' 1 k).flatMap fun n => (page n).orders := by
  induction h with
  | none => rfl
  | @page k count orders more _ given ih =>
    have own := gives (k + 1) _ given
    rw [List.range'_1_concat, List.flatMap_append, ← ih, Nat.add_comm 1 k, List.flatMap_singleton,
      ← own]
    rfl

/-- A fetch that has ended, of pages that give what they give, is all or nothing. -/
theorem Sound.allOrNothing (sound : p.Sound) (few : (page 1).count - 1 ≤ Connection.maxFollowing)
    (gives : ∀ n outcome, p.outcome? n = some outcome → outcome = page n) {asked : List Nat}
    (hasked : p.Asked asked) {outcome : Except Failure (List Order)} (ends : p.Returns outcome) :
    AllOrNothing page outcome p.session.sent := by
  have stands := sound.stands
  rw [ends.1] at stands
  have told {count : Nat} (tells : p.Tells count) : (page 1).count = count := by
    obtain ⟨orders, given⟩ := tells
    rw [← gives 1 _ given]
    rfl
  have given {n : Nat} (h : ∃ orders told, p.outcome? n = some (.ok (orders, told))) :
      ∃ given, page n = .ok given := by
    obtain ⟨orders, told, h⟩ := h
    exact ⟨_, (gives n _ h).symm⟩
  generalize outcome = result at stands
  cases stands with
  | @whole count orders tells _ within gathered =>
    have same := told tells
    refine ⟨⟨fun _ n one le => given (gathered.gives one (same ▸ le)), fun _ => ⟨orders, rfl⟩⟩,
      ?_, ?_, ?_⟩
    · intro _ ok
      cases ok
      rw [same]
      exact gathered.eq_flatMap gives
    · intro _ _
      obtain ⟨perm, first⟩ := hasked.perm sound tells within fun n one le => by
        obtain ⟨orders, told, h⟩ := gathered.gives one le
        exact ⟨_, h⟩
      exact ⟨asked, same.symm ▸ perm, first, hasked.params⟩
    · intro n fault one le bad _
      obtain ⟨x, hx⟩ := given (gathered.gives one (same ▸ le))
      rw [bad] at hx
      cases hx
  | refused _ bad =>
    have bad := (gives 1 _ bad).symm
    refine .failed (Nat.le_refl 1) ?_ bad (fun k one lt => by omega) _
    rw [bad]
    exact Nat.le_refl 1
  | tooMany tells _ many =>
    have same := told tells
    omega
  | @failed count k orders fault tells _ within lt gathered bad =>
    have same := told tells
    exact .failed (Nat.succ_pos k) (by omega) (gives _ _ bad).symm
      (fun n one before => given (gathered.gives one (by omega))) _

/-- The count that the first page has told, if it is over. -/
theorem told_le (gives : ∀ given, p.outcome? 1 = some (.ok given) → page 1 = .ok given)
    (one : 1 ≤ (page 1).count) : p.told ≤ (page 1).count := by
  unfold told
  split
  · rename_i orders count given
    rw [gives _ given]
    exact Nat.le_refl count
  · exact one

end Pool

namespace BookFetch

/-- What each page gives to an account, where the replies are certain ones. -/
def pages (f : BookFetch) (account : AccountId) (replies : Nat → Reply) (number : Nat) :
    PageOutcome :=
  f.answer account number (replies number)

theorem one_le_count (f : BookFetch) (account : AccountId) (replies : Nat → Reply) :
    1 ≤ (f.pages account replies 1).count := by
  cases h : f.pages account replies 1 with
  | error fault => exact Nat.le_refl 1
  | ok given =>
    obtain ⟨orders, count⟩ := given
    obtain ⟨-, r, body, -, -, -, -, told⟩ := answer_eq_ok_iff.1 h
    exact Connection.one_le_pageCount told

/-- **A fetch is all or nothing.** Let the reply to each page be the same whenever it is asked for,
with any valid credential, and let the provider always have a valid one that can be used. Then, for
any number of workers and whatever happens first, a fetch can go on until it ends, in less than six
moves for each page; and if it has ended, it has the orders of all pages in the order of pages,
having asked for each of them once and for the first one before the others, or it fails as the
lowest bad page does. The same holds of the fetch that takes up one page after the other. The first
page may tell of any count of pages up to 2 ^ 63. -/
theorem all_or_nothing (f : BookFetch) (workers : 1 ≤ f.workers) (access : Access)
    (valid : Credential → Prop) (held : ∀ c ∈ access.held, valid c) (replies : Nat → Reply)
    (few : (f.pages access.account replies 1).count ≤ 2 ^ 63) :
    (∀ (moves : List (Surroundings × Move)) (p : Pool),
      (∀ move ∈ moves, f.Serves access valid replies move.1) →
      f.run moves (.start ⟨access, []⟩) = some p →
      moves.length < 6 * (f.pages access.account replies 1).count ∧
      ((∀ outcome, ¬ p.Returns outcome) → ∀ around, ∃ m p', f.step around m p = some p') ∧
      ∀ outcome, p.Returns outcome →
        AllOrNothing (f.pages access.account replies) outcome p.session.sent) ∧
    ∀ around, f.Serves access valid replies around →
      AllOrNothing (f.pages access.account replies)
        ((f.connection.orders around f.venue f.forceRefresh).run ⟨access, []⟩).2
        ((f.connection.orders around f.venue f.forceRefresh).run ⟨access, []⟩).1.sent := by
  have one := f.one_le_count access.account replies
  have few : (f.pages access.account replies 1).count - 1 ≤ Connection.maxFollowing := by
    unfold Connection.maxFollowing
    omega
  have ends (moves : List (Surroundings × Move)) (p : Pool)
      (serves : ∀ move ∈ moves, f.Serves access valid replies move.1)
      (run : f.run moves (.start ⟨access, []⟩) = some p) (outcome : Except Failure (List Order))
      (returns : p.Returns outcome) :
      AllOrNothing (f.pages access.account replies) outcome p.session.sent := by
    obtain ⟨asked, hasked⟩ := asked_run run
    exact (sound_run run).allOrNothing few (fun n _ => outcome_of_run serves held run) hasked
      returns
  constructor
  · intro moves p serves run
    refine ⟨?_, (sound_run run).exists_step workers, ends moves p serves run⟩
    have length := length_run_le run
    have told : p.told ≤ (f.pages access.account replies 1).count :=
      Pool.told_le (fun _ given => (outcome_of_run serves held run given).symm) one
    have := (sound_run run).one_le_told
    omega
  · intro around serves
    exact orders_of_runs (A := f.Serves access valid replies)
      (P := fun outcome s => AllOrNothing (f.pages access.account replies) outcome s.sent)
      workers ends serves

end BookFetch

namespace Sample

/-- An account that may read the market of a structure. -/
def account : AccountId := ⟨92, by decide⟩

/-- Its credential, which expires an hour later. -/
def credential : Credential where
  account := account
  accessToken := "token"
  expiresAt := .ofInstant ⟨now.micros + 3600000000, by decide⟩
  scopes := [Access.marketScope]
  refreshToken := some "refresh"

/-- A fetch with two workers. -/
def fetch : BookFetch where
  connection := .ofSettings settings true
  venue := venue
  forceRefresh := false
  workers := 2

/-- Surroundings in which the reply to a request depends on its parameters. -/
def answering (reply : Option (List (String × String)) → Reply) : Surroundings where
  provider := .held [credential]
  now := now
  transport request := reply request.params

/-- An empty page that tells of so many pages. -/
def emptyPage (count : String) : Reply :=
  .response ⟨200, [("X-Pages", count)], "[]"⟩

/-- The second page is refused, and the others are empty. -/
def secondRefused (count : String) (params : Option (List (String × String))) : Reply :=
  if params = some (BookFetch.params 2) then .response ⟨500, [], "\x7b\x7d"⟩ else emptyPage count

/-- The replies to pages that depend on the parameters of requests. -/
def repliesOf (reply : Option (List (String × String)) → Reply) (number : Nat) : Reply :=
  reply (some (BookFetch.params number))

/-- An account that has not asked for its credential yet. -/
def access : Access :=
  .start account Access.marketScope

theorem handed_credential : access.handed (.held [credential]) now = .ok credential := by
  with_unfolding_all rfl

theorem serves_answering (reply : Option (List (String × String)) → Reply) :
    fetch.Serves access (fun _ => True) (repliesOf reply) (answering reply) where
  given _ _ := trivial
  same _ _ _ _ _ _ _ _ := rfl
  hands := ⟨credential, handed_credential⟩

/-- The address of the order book. -/
def path : Url := ⟨"latest/markets/structures/7"⟩

theorem second_page_bad (count : String) :
    fetch.pages account (repliesOf (secondRefused count)) 2 =
      .error (.fetch (.refused path.text 500)) := by
  with_unfolding_all rfl

/-- Of two pages the second is refused: that is what the fetch fails with. -/
theorem second_page_refused :
    ((fetch.connection.orders (answering (secondRefused "2")) venue false).run ⟨access, []⟩).2 =
      .error (.fetch (.refused path.text 500)) := by
  have first : fetch.pages account (repliesOf (secondRefused "2")) 1 = .ok ([], 2) := by
    with_unfolding_all rfl
  have count : (fetch.pages account (repliesOf (secondRefused "2")) 1).count = 2 := by
    rw [first]
    rfl
  have held : ∀ c ∈ access.held, True := fun _ _ => trivial
  have few : (fetch.pages account (repliesOf (secondRefused "2")) 1).count ≤ 2 ^ 63 := by
    rw [count]
    decide
  obtain ⟨-, serial⟩ := fetch.all_or_nothing (by decide) access (fun _ => True) held
    (repliesOf (secondRefused "2")) few
  refine (serial _ (serves_answering (secondRefused "2"))).lowest 2 _ (by decide)
    (Nat.le_of_eq count.symm) (second_page_bad "2") fun k one lt => ?_
  obtain rfl : k = 1 := by omega
  exact ⟨_, first⟩

/-- Of a page more than 2 ^ 63 the second is refused as well, but the fetch fails otherwise: so many
pages are not even asked for. -/
theorem too_many_pages :
    fetch.Serves access (fun _ => True) (repliesOf (secondRefused "9223372036854775809"))
        (answering (secondRefused "9223372036854775809")) ∧
      fetch.pages account (repliesOf (secondRefused "9223372036854775809")) 1 =
        .ok ([], 2 ^ 63 + 1) ∧
      fetch.pages account (repliesOf (secondRefused "9223372036854775809")) 2 =
        .error (.fetch (.refused path.text 500)) ∧
      ((fetch.connection.orders (answering (secondRefused "9223372036854775809")) venue false).run
        ⟨access, []⟩).2 = .error .overflow := by
  refine ⟨serves_answering _, ?_, second_page_bad _, ?_⟩
  · with_unfolding_all rfl
  · with_unfolding_all rfl

end Sample

end OrderFlow
