import OrderFlow.Proofs.Url
import OrderFlow.Proofs.Venue.Whole

/-!
# Where requests go

All requests of a fetch go to one address (`BookFetch.sent_run`). For a base of the web and a
version of plain segments, whatever slashes stand around them, it is the base, the version, the path
of order books and the venue, one behind the other (`BookFetch.requests_below_base`).
-/

namespace OrderFlow

open Url (path IsSegment padded)

/-- The segments of the path of order books of a venue. -/
def bookSegments (venue : VenueId) : List (List Char) :=
  ["markets".toList, "structures".toList, Nat.toDigits 10 venue.val]

theorem isSegment_bookSegments (venue : VenueId) : ∀ s ∈ bookSegments venue, IsSegment s := by
  intro s mem
  simp only [bookSegments, List.mem_cons, List.not_mem_nil, or_false] at mem
  rcases mem with rfl | rfl | rfl
  · exact Url.isSegment_of_isName (by decide)
  · exact Url.isSegment_of_isName (by decide)
  · exact Url.isSegment_toDigits _

theorem path_bookSegments (venue : VenueId) : path (bookSegments venue) =
    "markets/structures/".toList ++ (Text.natText venue.val).toList := by
  have digits : (Text.natText venue.val).toList = Nat.toDigits 10 venue.val :=
    String.toList_ofList
  rw [digits, bookSegments, Url.path_cons (List.cons_ne_nil _ _),
    Url.path_cons (List.cons_ne_nil _ _), Url.path_singleton]
  rfl

namespace Connection

variable {settings : Settings} {b : Url.Base} {version rest : List (List Char)}
  {before behind behind' : Nat}

/-- A path below the version is put below the base and the version. -/
theorem target_ofSettings (valid : b.Valid) (hversion : ∀ s ∈ version, IsSegment s)
    (ne : version ≠ []) (base : settings.baseUrl = padded 0 b.text behind)
    (api : settings.apiVersion = padded before (path version) behind')
    (hrest : ∀ s ∈ rest, IsSegment s) (ne' : rest ≠ []) :
    (ofSettings settings false).target ⟨String.ofList (path rest)⟩ =
      .ok (⟨String.ofList (path (version ++ rest))⟩,
        ⟨String.ofList (b.text ++ '/' :: path (version ++ rest))⟩) := by
  have both (s : List Char) (mem : s ∈ version ++ rest) : IsSegment s := by
    rcases List.mem_append.1 mem with mem | mem
    · exact hversion s mem
    · exact hrest s mem
  have some : version ++ rest ≠ [] := List.append_ne_nil_of_left_ne_nil ne rest
  have left (segments : List (List Char)) (h : ∀ s ∈ segments, IsSegment s)
      (ne : segments ≠ []) : Url.bare (String.ofList (path segments)) = path segments := by
    have bare : Url.bare (padded 0 (path segments) 0).text = path segments := Url.bare_path h ne
    rwa [Url.padded_zero] at bare
  have inner : Url.bare settings.apiVersion.addSlash.text = path version := by
    rw [Url.bare_addSlash, api]
    exact Url.bare_path hversion ne
  have outer : Url.bare settings.baseUrl.text = b.text := by
    rw [base]
    exact valid.bare_text
  have first := Url.add_path inner (v := ⟨String.ofList (path rest)⟩) (left rest hrest ne')
    hversion hrest ne ne'
  have second := Url.add_base valid outer (v := ⟨String.ofList (path (version ++ rest))⟩)
    (left _ both some) both some
  rw [b.text_below some] at second
  show (do
    let path ← (settings.apiVersion.addSlash.add _).mapError .value
    return (path, ← (settings.baseUrl.add path).mapError .value) : Except Failure (Url × Url)) = _
  rw [first]
  show (do return (_, ← (settings.baseUrl.add _).mapError .value) : Except Failure _) = _
  rw [second]
  rfl

end Connection

namespace BookFetch

open Exchange

variable {f : BookFetch} {around : Surroundings} {number : Nat} {s : Session} {stage : PageStage}
  {url shown full : Url} {moves : List (Surroundings × Move)} {p : Pool}

/-- A request that is going to be sent to the address of the fetch. -/
def Aims (f : BookFetch) : PageStage → Prop
  | .looked url _ => f.url = .ok url
  | .allowed url _ => f.url = .ok url
  | _ => True

/-- A session in which more requests were sent, all to one address. -/
def SentOn (full : Url) (before after : Session) : Prop :=
  ∃ later, after.sent = before.sent ++ later ∧ ∀ request ∈ later, request.url = full

theorem SentOn.of_eq {s' : Session} (same : s'.sent = s.sent) : SentOn full s s' :=
  ⟨[], same.trans (List.append_nil _).symm, fun _ mem => absurd mem List.not_mem_nil⟩

theorem SentOn.trans {s' s'' : Session} (h : SentOn full s s') (h' : SentOn full s' s'') :
    SentOn full s s'' := by
  obtain ⟨later, sent, each⟩ := h
  obtain ⟨later', sent', each'⟩ := h'
  refine ⟨later ++ later', ?_, fun request mem => ?_⟩
  · rw [sent', sent, List.append_assoc]
  · rcases List.mem_append.1 mem with mem | mem
    · exact each request mem
    · exact each' request mem

/-- What a step of a request sends goes to the address of the fetch. -/
theorem sentOn_advance (hurl : f.url = .ok url)
    (target : f.connection.target url = .ok (shown, full)) (aims : f.Aims stage)
    (around : Surroundings) (number : Nat) (s : Session) :
    SentOn full s (f.advance around number s stage).1 ∧
      f.Aims (f.advance around number s stage).2 := by
  cases stage with
  | waiting =>
    simp only [advance, hurl]
    exact ⟨.of_eq rfl, hurl⟩
  | looked _ seen =>
    simp only [advance]
    split
    · exact ⟨.of_eq rfl, aims⟩
    · exact ⟨.of_eq rfl, trivial⟩
  | allowed url' credential =>
    obtain rfl : url' = url := Except.ok.inj (aims.symm.trans hurl)
    simp only [advance, target]
    refine ⟨⟨[f.request number full credential], rfl, fun request mem => ?_⟩, trivial⟩
    rw [List.mem_singleton.1 mem]
    rfl
  | answered path reply =>
    have kept :
        (if reply.rejects then { s with access := s.access.drop } else s).sent = s.sent := by
      split <;> rfl
    simp only [advance, Connection.run_receive]
    cases reply.read path s.access.account with
    | ok given => exact ⟨.of_eq kept, trivial⟩
    | error fault => exact ⟨.of_eq kept, trivial⟩
  | ended outcome => exact ⟨.of_eq rfl, trivial⟩

/-- All that a run sends goes to the address of the fetch. -/
theorem sentOn_run (hurl : f.url = .ok url)
    (target : f.connection.target url = .ok (shown, full))
    (run : f.run moves (.start s) = some p) : SentOn full s p.session := by
  refine (run_stages (A := fun _ => True) (S := SentOn full s) (Q := fun _ => f.Aims)
    (fun _ => trivial) ?_ (fun _ _ => trivial) run (.of_eq rfl)).1
  intro around number s' stage _ sent aims
  obtain ⟨more, aims⟩ := sentOn_advance hurl target aims around number s'
  exact ⟨sent.trans more, aims⟩

/-- A page that is asked for alone sends its request to the address of the fetch once it has a
credential, and nothing else. -/
theorem sent_page (hurl : f.url = .ok url)
    (target : f.connection.target url = .ok (shown, full)) (around : Surroundings) (number : Nat)
    (s : Session) : ((f.page around number).run s).1.sent =
      s.sent ++ match ((authorize around).run s).2 with
        | .ok credential => [f.request number full credential]
        | .error _ => [] := by
  rw [page_eq]
  simp only [run_bind, run_lift, hurl, run_authorize]
  generalize s.access.confirm around.provider around.now s.access.held = confirmed
  obtain ⟨access, fault | credential⟩ := confirmed
  · exact (List.append_nil _).symm
  simp only [target, run_send, Connection.run_receive]
  cases (around.transport (f.request number full credential)).read shown access.account with
  | ok given =>
    simp only
    split <;> rfl
  | error fault =>
    simp only
    split <;> rfl

/-- The address of the order book below the version. -/
theorem url_eq (f : BookFetch) : f.url = .ok ⟨String.ofList (path (bookSegments f.venue))⟩ := by
  have structures : Url.bare Connection.structuresPath.text =
      path ["markets".toList, "structures".toList] := by
    with_unfolding_all rfl
  have digits : Url.bare (Text.natText f.venue.val) = path [Nat.toDigits 10 f.venue.val] := by
    have bare : Url.bare (padded 0 (path [Nat.toDigits 10 f.venue.val]) 0).text = path [_] :=
      Url.bare_path (fun s mem => List.mem_singleton.1 mem ▸ Url.isSegment_toDigits _)
        (List.cons_ne_nil _ _)
    rw [Url.padded_zero, Url.path_singleton] at bare
    rw [Url.path_singleton]
    exact bare
  have segments := isSegment_bookSegments f.venue
  have added := Url.add_path structures (v := ⟨Text.natText f.venue.val⟩) digits
    (fun s mem => segments s (List.mem_append_left [_] mem))
    (fun s mem => segments s (List.mem_append_right [_, _] mem)) (List.cons_ne_nil _ _)
    (List.cons_ne_nil _ _)
  rw [url, added]
  rfl

/-- **Where the requests for pages go.** Let the base be an address of the web with any number of
segments, the version have one or more segments, and slashes stand around them. Then all requests of
a fetch go to the base, the version, the path of order books and the venue, one behind the other,
with a single slash between them: the request of a page that is asked for alone, which is sent once
there is a credential, those of a pool in every order of its moves, and those of the fetch that
takes up one page after the other. -/
theorem requests_below_base (f : BookFetch) {settings : Settings} {b : Url.Base}
    {version : List (List Char)} {before behind behind' : Nat}
    (connection : f.connection = .ofSettings settings false) (valid : b.Valid)
    (base : settings.baseUrl = padded 0 b.text behind)
    (api : settings.apiVersion = padded before (path version) behind')
    (segments : ∀ s ∈ version, IsSegment s) (ne : version ≠ []) :
    let full : Url := ⟨String.ofList (b.text ++ '/' :: path version ++
      "/markets/structures/".toList ++ (Text.natText f.venue.val).toList)⟩
    (∀ around number s,
      ((f.connection.page around f.venue f.forceRefresh number).run s).1.sent =
        s.sent ++ match ((authorize around).run s).2 with
          | .ok credential => [f.request number full credential]
          | .error _ => []) ∧
    (∀ moves s p, f.run moves (.start s) = some p → SentOn full s p.session) ∧
    ∀ around s,
      SentOn full s ((f.connection.orders around f.venue f.forceRefresh).run s).1 := by
  intro full
  have some : bookSegments f.venue ≠ [] := List.cons_ne_nil _ _
  have text : b.text ++ '/' :: path (version ++ bookSegments f.venue) = b.text ++
      '/' :: path version ++ "/markets/structures/".toList ++ (Text.natText f.venue.val).toList := by
    have slash : "/markets/structures/".toList = '/' :: "markets/structures/".toList := rfl
    rw [Url.path_append ne some, path_bookSegments, slash]
    simp only [List.append_assoc, List.cons_append]
  obtain ⟨shown, target⟩ : ∃ shown, f.connection.target
      ⟨String.ofList (path (bookSegments f.venue))⟩ = .ok (shown, full) := by
    have target := Connection.target_ofSettings valid segments ne base api
      (isSegment_bookSegments f.venue) some
    rw [text, ← connection] at target
    exact ⟨_, target⟩
  refine ⟨sent_page f.url_eq target, fun _ _ _ run => sentOn_run f.url_eq target run, ?_⟩
  intro around s
  -- the fetch that takes up one page after the other has one worker
  exact orders_of_runs (f := { f with workers := 1 }) (A := fun _ => True)
    (P := fun _ after => SentOn full s after) (Nat.le_refl 1)
    (fun _ _ _ run _ _ => sentOn_run (f := { f with workers := 1 }) f.url_eq target run) trivial

end BookFetch

namespace Sample

/-- A base with a port and two segments. -/
def site : Url.Base where
  scheme := "https".toList
  host := "venue.example:8443".toList
  segments := ["api".toList, "eu-1".toList]

/-- Settings with slashes around the base and the version. -/
def slashed : Settings :=
  { settings with
    baseUrl := ⟨"https://venue.example:8443/api/eu-1//"⟩
    apiVersion := ⟨"//v1/latest_2.0/"⟩ }

theorem valid_site : site.Valid where
  scheme := .inr (by decide)
  host := Url.isHost_of_name (by decide) (by decide)
  segments := Url.isSegment_of_all (by decide)

/-- A fetch with these settings. -/
def siteFetch : BookFetch :=
  { fetch with connection := .ofSettings slashed false }

/-- The request for the first page goes to the order book below both. -/
theorem request_below_site :
    ((siteFetch.connection.page (answering fun _ => emptyPage "1") venue false 1).run
      ⟨access, []⟩).1.sent.map (·.url) =
        [⟨"https://venue.example:8443/api/eu-1/v1/latest_2.0/markets/structures/7"⟩] := by
  have segments : ∀ s ∈ ["v1".toList, "latest_2.0".toList], IsSegment s :=
    Url.isSegment_of_all (by decide)
  have base : slashed.baseUrl = padded 0 site.text 2 := rfl
  have api : slashed.apiVersion = padded 2 (Url.path ["v1".toList, "latest_2.0".toList]) 1 := rfl
  have sent := (siteFetch.requests_below_base rfl valid_site base api segments
    (List.cons_ne_nil _ _)).1 (answering fun _ => emptyPage "1") 1 ⟨access, []⟩
  show List.map _ ((siteFetch.connection.page _ siteFetch.venue siteFetch.forceRefresh 1).run
    _).1.sent = _
  rw [sent]
  with_unfolding_all rfl

end Sample

end OrderFlow
