import Mathlib.Data.List.TakeWhile
import OrderFlow.Proofs.Price.Text
import OrderFlow.Url

/-!
# Addresses below a base

A path of plain segments is split as it was put together (`splitOn_path`, `split_path`), and seen
from a directory of plain segments it is that directory with the segments behind it: none is lost,
doubled or taken for another one (`joinPaths_path`). So an address that is added to another one has
the segments of both, whatever slashes stand around the two (`add_path`, `add_base`).
-/

namespace OrderFlow.Url

open Text

/-- A character that parts an address, or that is dropped from one. -/
def isMark (c : Char) : Bool :=
  c.toNat ≤ 32 || c == '/' || c == ':' || c == ';' || c == '?' || c == '#'

/-- A segment of a path that is read as it stands. -/
structure IsSegment (segment : List Char) : Prop where
  nonempty : segment ≠ []
  plain : ∀ c ∈ segment, isMark c = false
  notHere : segment ≠ ['.']
  notUp : segment ≠ ['.', '.']

/-- A scheme of the web. -/
def IsScheme (scheme : List Char) : Prop :=
  scheme = ['h', 't', 't', 'p'] ∨ scheme = ['h', 't', 't', 'p', 's']

/-- A host, with its port if it has one, that is read as it stands. -/
structure IsHost (host : List Char) : Prop where
  nonempty : host ≠ []
  plain : ∀ c ∈ host, endsHost c = false ∧ isDropped c = false
  accepted : checkHost host = .ok ()

/-- The text of a path. -/
def path (segments : List (List Char)) : List Char :=
  ['/'].intercalate segments

/-- An address with slashes around it. -/
def padded (before : Nat) (cs : List Char) (behind : Nat) : Url :=
  ⟨String.ofList (List.replicate before '/' ++ cs ++ List.replicate behind '/')⟩

/-- An address that others are put below. -/
structure Base where
  scheme : List Char
  host : List Char
  segments : List (List Char)

namespace Base

/-- The text of a base. -/
def text (b : Base) : List Char :=
  b.scheme ++ ':' :: '/' :: '/' :: path (b.host :: b.segments)

/-- A base with more segments. -/
def below (b : Base) (segments : List (List Char)) : Base :=
  { b with segments := b.segments ++ segments }

/-- A base of the web whose parts are read as they stand. -/
structure Valid (b : Base) : Prop where
  scheme : IsScheme b.scheme
  host : IsHost b.host
  segments : ∀ s ∈ b.segments, IsSegment s

end Base

/-! ### Characters -/

variable {c : Char} {cs : List Char} {first segment : List Char}
  {segments dir rest : List (List Char)} {before behind : Nat}

/-- A letter, a digit or another character of a name. -/
def isNameChar (c : Char) : Bool :=
  c.isAlphanum || c == '-' || c == '_' || c == '.'

theorem toNat_of_isNameChar (h : isNameChar c = true) : 32 < c.toNat ∧ c.toNat < 128 := by
  simp only [isNameChar, Bool.or_eq_true, beq_iff_eq] at h
  rcases h with ((h | rfl) | rfl) | rfl
  · change (decide ('A'.val ≤ c.val ∧ c.val ≤ 'Z'.val) ||
      (decide ('a'.val ≤ c.val) && decide (c.val ≤ 'z'.val)) ||
      (decide ('0'.val ≤ c.val) && decide (c.val ≤ '9'.val))) = true at h
    simp only [Bool.or_eq_true, Bool.and_eq_true, decide_eq_true_eq, UInt32.le_iff_toNat_le] at h
    change ((65 ≤ c.toNat ∧ c.toNat ≤ 90) ∨ 97 ≤ c.toNat ∧ c.toNat ≤ 122) ∨
      48 ≤ c.toNat ∧ c.toNat ≤ 57 at h
    omega
  · decide
  · decide
  · decide

theorem ne_of_isNameChar {d : Char} (h : isNameChar c = true) (hd : isNameChar d = false) :
    c ≠ d := by
  rintro rfl
  rw [h] at hd
  cases hd

/-- The characters of a name do not part an address. -/
theorem isMark_of_isNameChar (h : isNameChar c = true) : isMark c = false := by
  have apart (d : Char) (hd : isNameChar d = false) : (c == d) = false :=
    beq_eq_false_iff_ne.2 (ne_of_isNameChar h hd)
  have printed : ¬ c.toNat ≤ 32 := Nat.not_le.2 (toNat_of_isNameChar h).1
  simp only [isMark, printed, decide_false, apart '/' rfl, apart ':' rfl, apart ';' rfl,
    apart '?' rfl, apart '#' rfl, Bool.or_false]

/-- A name of such characters that is not one of dots. -/
def isName (segment : List Char) : Bool :=
  !segment.isEmpty && segment.all isNameChar && segment != ['.'] && segment != ['.', '.']

theorem isSegment_of_isName (h : isName segment = true) : IsSegment segment := by
  simp only [isName, Bool.and_eq_true, Bool.not_eq_true', List.isEmpty_eq_false_iff,
    List.all_eq_true, bne_iff_ne] at h
  obtain ⟨⟨⟨nonempty, name⟩, notHere⟩, notUp⟩ := h
  exact ⟨nonempty, fun c mem => isMark_of_isNameChar (name c mem), notHere, notUp⟩

theorem isSegment_of_all (h : segments.all isName = true) : ∀ s ∈ segments, IsSegment s :=
  fun s mem => isSegment_of_isName (List.all_eq_true.1 h s mem)

/-- A name of such characters is a host, alone or with a port. -/
theorem isHost_of_name {host : List Char} (ne : host ≠ [])
    (h : (host.all fun c => isNameChar c || c == ':') = true) : IsHost host := by
  have each (c : Char) (mem : c ∈ host) : isNameChar c = true ∨ c = ':' := by
    have name := List.all_eq_true.1 h c mem
    rwa [Bool.or_eq_true, beq_iff_eq] at name
  refine ⟨ne, fun c mem => ?_, ?_⟩
  · rcases each c mem with name | rfl
    · have apart (d : Char) (hd : isNameChar d = false) : (c == d) = false :=
        beq_eq_false_iff_ne.2 (ne_of_isNameChar name hd)
      simp only [endsHost, isDropped, apart '/' rfl, apart '?' rfl, apart '#' rfl,
        apart '\t' rfl, apart '\r' rfl, apart '\n' rfl, Bool.or_false, and_self]
    · exact ⟨rfl, rfl⟩
  · have ascii (c : Char) (mem : c ∈ host) : c.toNat < 128 := by
      rcases each c mem with name | rfl
      · exact (toNat_of_isNameChar name).2
      · decide
    have absent (d : Char) (hd : isNameChar d = false) (other : ':' ≠ d) :
        host.contains d = false := by
      rw [Bool.eq_false_iff, ne_eq, List.contains_iff_mem]
      intro mem
      rcases each d mem with name | same
      · exact ne_of_isNameChar name hd rfl
      · exact other same.symm
    have far : ∀ n ∈ disguised, 128 ≤ n := by decide
    have plain : host.any (fun c => disguised.contains c.toNat) = false := by
      rw [List.any_eq_false]
      intro c mem
      rw [List.contains_iff_mem]
      intro bad
      have := far _ bad
      have := ascii c mem
      omega
    simp only [checkHost, absent '[' rfl (by decide), absent ']' rfl (by decide), plain]
    rfl

theorem IsSegment.ne_slash (h : IsSegment segment) : '/' ∉ segment :=
  fun mem => Bool.false_ne_true (h.plain '/' mem).symm

theorem IsHost.ne_slash {host : List Char} (h : IsHost host) : '/' ∉ host :=
  fun mem => Bool.false_ne_true (h.plain '/' mem).1.symm

/-- The decimal digits of a number are a segment. -/
theorem isSegment_toDigits (n : Nat) : IsSegment (Nat.toDigits 10 n) where
  nonempty := Nat.toDigits_ne_nil
  plain c mem := by
    apply isMark_of_isNameChar
    simp only [isNameChar, Char.isAlphanum, isDigit_of_mem_toDigits mem, Bool.or_true,
      Bool.true_or]
  notHere same := by
    have digit : '.'.isDigit = true :=
      isDigit_of_mem_toDigits (n := n) (same ▸ List.mem_cons_self)
    cases digit
  notUp same := by
    have digit : '.'.isDigit = true :=
      isDigit_of_mem_toDigits (n := n) (same ▸ List.mem_cons_self)
    cases digit

/-! ### Paths -/

theorem path_cons (ne : rest ≠ []) : path (first :: rest) = first ++ '/' :: path rest := by
  rw [path, List.intercalate_cons_of_ne_nil ne, List.append_assoc]
  rfl

theorem path_singleton (segment : List Char) : path [segment] = segment :=
  List.intercalate_singleton

theorem path_append (ne : dir ≠ []) (ne' : rest ≠ []) :
    path (dir ++ rest) = path dir ++ '/' :: path rest := by
  induction dir with
  | nil => exact absurd rfl ne
  | cons first dir ih =>
    by_cases single : dir = []
    · subst single
      rw [List.singleton_append, path_cons ne', path_singleton]
    · have more : dir ++ rest ≠ [] := fun none => single (List.append_eq_nil_iff.1 none).1
      rw [List.cons_append, path_cons more, path_cons single, ih single, List.append_assoc,
        List.cons_append]

/-- A path that starts at the root. -/
theorem path_cons_eq (first : List Char) (segments : List (List Char)) :
    path (first :: segments) = first ++ path ([] :: segments) := by
  cases segments with
  | nil => rw [path_singleton, path_singleton, List.append_nil]
  | cons second segments =>
    rw [path_cons (List.cons_ne_nil _ _), path_cons (List.cons_ne_nil _ _), List.nil_append]

theorem mem_path (h : c ∈ path segments) : c = '/' ∨ ∃ s ∈ segments, c ∈ s := by
  induction segments with
  | nil => cases h
  | cons first segments ih =>
    by_cases single : segments = []
    · subst single
      rw [path_singleton] at h
      exact .inr ⟨first, List.mem_cons_self, h⟩
    · rw [path_cons single] at h
      rcases List.mem_append.1 h with h | h
      · exact .inr ⟨first, List.mem_cons_self, h⟩
      rcases List.mem_cons.1 h with slash | h
      · exact .inl slash
      obtain slash | ⟨s, mem, hs⟩ := ih h
      · exact .inl slash
      · exact .inr ⟨s, List.mem_cons_of_mem _ mem, hs⟩

/-- A path is split as it was put together. -/
theorem splitOn_path (ne : segments ≠ []) (whole : ∀ s ∈ segments, '/' ∉ s) :
    (path segments).splitOn '/' = segments :=
  List.splitOn_intercalate '/' whole ne

/-- A path of plain segments starts with a character of the first one. -/
theorem head?_path (ne : segments ≠ []) (h : ∀ s ∈ segments, s ≠ [] ∧ '/' ∉ s) :
    (path segments).head? ≠ some '/' := by
  cases segments with
  | nil => exact absurd rfl ne
  | cons first segments =>
    obtain ⟨nonempty, whole⟩ := h first List.mem_cons_self
    rw [path_cons_eq, List.head?_append_of_ne_nil _ nonempty]
    exact fun slash => whole (List.mem_of_mem_head? slash)

/-- A path of plain segments ends with a character of the last one. -/
theorem getLast?_path (ne : segments ≠ []) (h : ∀ s ∈ segments, s ≠ [] ∧ '/' ∉ s) :
    (path segments).getLast? ≠ some '/' := by
  obtain rfl | ⟨dir, last, rfl⟩ := List.eq_nil_or_concat' segments
  · exact absurd rfl ne
  · obtain ⟨nonempty, whole⟩ := h last (List.mem_append_right _ List.mem_cons_self)
    have ends : (path (dir ++ [last])).getLast? = last.getLast? := by
      by_cases single : dir = []
      · rw [single, List.nil_append, path_singleton]
      · rw [path_append single (List.cons_ne_nil _ _), path_singleton, List.getLast?_append,
          List.getLast?_cons_of_ne_nil nonempty]
        cases ends : last.getLast? with
        | none => exact absurd (List.getLast?_eq_none_iff.1 ends) nonempty
        | some c => rfl
    rw [ends]
    exact fun slash => whole (List.mem_of_getLast? slash)

/-- What does not start or end with a slash is what is left without outer slashes. -/
theorem bare_padded (nonempty : cs ≠ []) (head : cs.head? ≠ some '/')
    (last : cs.getLast? ≠ some '/') : bare (padded before cs behind).text = cs := by
  have drops (n : Nat) {ds : List Char} (h : ds ≠ []) (hd : ds.head? ≠ some '/')
      (tail : List Char) : (List.replicate n '/' ++ (ds ++ tail)).dropWhile (· == '/') =
        ds ++ tail := by
    rw [List.dropWhile_append_of_pos fun c mem => by
      rw [(List.mem_replicate.1 mem).2]
      rfl]
    cases ds with
    | nil => exact absurd rfl h
    | cons d ds =>
      refine List.dropWhile_cons_of_neg ?_
      intro slash
      exact hd (congrArg some (beq_iff_eq.1 slash))
  have reversed : cs.reverse.head? ≠ some '/' := by
    rwa [List.head?_reverse]
  have left := drops before nonempty head (List.replicate behind '/')
  have right := drops behind (List.reverse_eq_nil_iff.not.2 nonempty) reversed []
  rw [List.append_nil] at right
  rw [bare, padded, trim, String.toList_ofList, List.append_assoc, left, List.reverse_append,
    List.reverse_replicate, right, List.reverse_reverse]

theorem padded_zero (cs : List Char) : padded 0 cs 0 = ⟨String.ofList cs⟩ := by
  rw [padded, List.replicate_zero, List.nil_append, List.append_nil]

/-- A leading slash makes no difference to what is left without outer slashes. -/
theorem bare_addSlash (u : Url) : bare u.addSlash.text = bare u.text := by
  unfold addSlash
  split
  · rfl
  · have slash : ("/" ++ u.text).toList = '/' :: u.text.toList := by
      rw [String.toList_append]
      rfl
    rw [bare, slash, trim, List.dropWhile_cons_of_pos (by decide)]
    rfl

/-! ### Reading -/

theorem cutAt_of_notMem (h : c ∉ cs) : cutAt c cs = (cs, none) := by
  have other (d : Char) (mem : d ∈ cs) : decide (d ≠ c) = true :=
    decide_eq_true fun same => h (same ▸ mem)
  rw [cutAt, List.takeWhile_eq_self_iff.2 other, List.dropWhile_eq_nil_iff.2 other]

theorem splitParams_of_notMem (h : ';' ∉ cs) : splitParams cs = (cs, []) := by
  have segment : ';' ∉ (cs.reverse.takeWhile (· ≠ '/')).reverse := by
    intro mem
    apply h
    rw [← List.mem_reverse]
    exact List.takeWhile_subset _ (List.mem_reverse.1 mem)
  simp only [splitParams, cutAt_of_notMem segment]

/-- A text without marks, slashes apart, is a path. -/
def Plain (cs : List Char) : Prop :=
  ∀ c ∈ cs, c = '/' ∨ isMark c = false

theorem plain_path (h : ∀ s ∈ segments, ∀ c ∈ s, isMark c = false) : Plain (path segments) := by
  intro c mem
  obtain slash | ⟨s, hs, hc⟩ := mem_path mem
  · exact .inl slash
  · exact .inr (h s hs c hc)

theorem Plain.append {ds : List Char} (h : Plain cs) (h' : Plain ds) : Plain (cs ++ ds) := by
  intro c mem
  rcases List.mem_append.1 mem with mem | mem
  · exact h c mem
  · exact h' c mem

theorem Plain.notMem (h : Plain cs) (mark : isMark c = true) (other : c ≠ '/') : c ∉ cs := by
  intro mem
  rcases h c mem with slash | plain
  · exact other slash
  · rw [mark] at plain
    cases plain

/-- Nothing is dropped from a plain text. -/
theorem Plain.kept (h : Plain cs) (mem : c ∈ cs) : isLeading c = false ∧ isDropped c = false := by
  rcases h c mem with rfl | plain
  · exact ⟨rfl, rfl⟩
  · simp only [isMark, Bool.or_eq_false_iff, decide_eq_false_iff_not] at plain
    have printed : ¬ c.toNat ≤ 32 := plain.1.1.1.1.1
    refine ⟨decide_eq_false printed, ?_⟩
    have apart (d : Char) (small : d.toNat ≤ 32) : (c == d) = false :=
      beq_eq_false_iff_ne.2 fun same => printed (same ▸ small)
    rw [isDropped, apart '\t' (by decide), apart '\r' (by decide), apart '\n' (by decide)]
    rfl

theorem splitHost_of_single (single : cs.take 2 ≠ ['/', '/']) : splitHost cs = ([], cs) := by
  unfold splitHost
  split
  · exact absurd rfl single
  · rfl

/-- A plain text is read as a path. -/
theorem split_plain (h : Plain cs) (single : cs.take 2 ≠ ['/', '/']) (inherited : List Char) :
    split inherited cs = .ok ⟨inherited, [], cs, [], [], []⟩ := by
  have kept : (cs.dropWhile isLeading).filter (fun c => !isDropped c) = cs := by
    rw [dropWhile_eq_self fun c mem => (h.kept mem).1, List.filter_eq_self]
    intro c mem
    rw [(h.kept mem).2]
    rfl
  have scheme : splitScheme inherited cs = (inherited, cs) := by
    rw [splitScheme, cutAt_of_notMem (h.notMem (c := ':') rfl (by decide))]
    split
    · rename_i same
      cases same
    · rfl
  have host : checkHost [] = .ok () := rfl
  simp only [split, kept, scheme, splitHost_of_single single, host,
    cutAt_of_notMem (h.notMem (c := '#') rfl (by decide)),
    cutAt_of_notMem (h.notMem (c := '?') rfl (by decide)),
    splitParams_of_notMem (h.notMem (c := ';') rfl (by decide)), ite_self]
  rfl

namespace IsScheme

variable {scheme : List Char} (h : IsScheme scheme)
include h

theorem head?_eq (cs : List Char) : (scheme ++ cs).head? = some 'h' := by
  rcases h with rfl | rfl <;> rfl

theorem isDropped_eq_false (mem : c ∈ scheme) : isDropped c = false := by
  have none : ['h', 't', 't', 'p', 's'].all (fun c => !isDropped c) = true := by decide
  have each (c : Char) (mem : c ∈ ['h', 't', 't', 'p', 's']) : isDropped c = false := by
    have kept := List.all_eq_true.1 none c mem
    rwa [Bool.not_eq_true'] at kept
  rcases h with rfl | rfl
  · exact each c (List.mem_append_left ['s'] mem)
  · exact each c mem

theorem splitScheme_eq (inherited cs : List Char) :
    splitScheme inherited (scheme ++ ':' :: cs) = (scheme, cs) := by
  rcases h with rfl | rfl <;> rfl

theorem relative : isOneOf relativeSchemes scheme = true := by
  rcases h with rfl | rfl <;> decide

theorem hosted : isOneOf hostSchemes scheme = true := by
  rcases h with rfl | rfl <;> decide

end IsScheme

/-- The host behind two slashes is read up to the path. -/
theorem splitHost_web {host : List Char} (h : IsHost host) (cs : List Char) :
    splitHost ('/' :: '/' :: (host ++ '/' :: cs)) = (host, '/' :: cs) := by
  have within (c : Char) (mem : c ∈ host) : (!endsHost c) = true := by
    rw [(h.plain c mem).1]
    rfl
  rw [splitHost, List.takeWhile_append_of_pos within, List.dropWhile_append_of_pos within,
    List.takeWhile_cons_of_neg (by decide), List.dropWhile_cons_of_neg (by decide),
    List.append_nil]

/-- An address of the web is read as its scheme, its host and a path. -/
theorem split_web {scheme host : List Char} (hscheme : IsScheme scheme) (hhost : IsHost host)
    (h : Plain cs) :
    split [] (scheme ++ ':' :: '/' :: '/' :: (host ++ '/' :: cs)) =
      .ok ⟨scheme, host, '/' :: cs, [], [], []⟩ := by
  have slash : Plain ['/'] := by simp [Plain]
  have rooted : Plain ('/' :: cs) := slash.append h
  have kept : ((scheme ++ ':' :: '/' :: '/' :: (host ++ '/' :: cs)).dropWhile isLeading).filter
      (fun c => !isDropped c) = scheme ++ ':' :: '/' :: '/' :: (host ++ '/' :: cs) := by
    have first : (scheme ++ ':' :: '/' :: '/' :: (host ++ '/' :: cs)).dropWhile isLeading =
        scheme ++ ':' :: '/' :: '/' :: (host ++ '/' :: cs) := by
      obtain ⟨rest, same⟩ := List.head?_eq_some_iff.1 (hscheme.head?_eq
        (':' :: '/' :: '/' :: (host ++ '/' :: cs)))
      rw [same, List.dropWhile_cons_of_neg (by decide)]
    rw [first, List.filter_eq_self]
    intro c mem
    rw [Bool.not_eq_true']
    simp only [List.mem_append, List.mem_cons] at mem
    rcases mem with mem | rfl | rfl | rfl | mem | rfl | mem
    · exact hscheme.isDropped_eq_false mem
    · rfl
    · rfl
    · rfl
    · exact (hhost.plain c mem).2
    · rfl
    · exact (h.kept mem).2
  simp only [split, kept, hscheme.splitScheme_eq, splitHost_web hhost, hhost.accepted,
    cutAt_of_notMem (rooted.notMem (c := '#') rfl (by decide)),
    cutAt_of_notMem (rooted.notMem (c := '?') rfl (by decide)),
    splitParams_of_notMem (rooted.notMem (c := ';') rfl (by decide)), ite_self]
  rfl

/-! ### Joining -/

/-- A path without dot segments stays as it is. -/
theorem resolve_of_plain (h : ∀ s ∈ segments, s ≠ ['.'] ∧ s ≠ ['.', '.']) :
    resolve segments = segments := by
  have descends (done : List (List Char)) : segments.foldl descend done =
      segments.reverse ++ done := by
    induction segments generalizing done with
    | nil => rfl
    | cons first segments ih =>
      obtain ⟨notHere, notUp⟩ := h first List.mem_cons_self
      have kept : descend done first = first :: done := by
        rw [descend, if_neg notUp, if_neg notHere]
      rw [List.foldl_cons, kept, ih (fun s mem => h s (List.mem_cons_of_mem _ mem)),
        List.reverse_cons, List.append_assoc, List.singleton_append]
  rw [resolve, descends, List.append_nil, List.reverse_reverse]
  cases last : segments.getLast? with
  | none => rfl
  | some s =>
    obtain ⟨notHere, notUp⟩ := h s (List.mem_of_getLast? last)
    exact if_neg (not_or.2 ⟨notHere, notUp⟩)

/-- The empty segment that ends a directory is left out where others follow. -/
theorem withoutEmpty_directory (hdir : ∀ s ∈ dir, s ≠ []) (hrest : ∀ s ∈ rest, s ≠ [])
    (ne : rest ≠ []) : withoutEmpty (first :: dir ++ [[]] ++ rest) = first :: (dir ++ rest) := by
  obtain rfl | ⟨inner, last, rfl⟩ := List.eq_nil_or_concat' rest
  · exact absurd rfl ne
  have filled (s : List Char) (hs : s ≠ []) : (!s.isEmpty) = true := by
    cases s with
    | nil => exact absurd rfl hs
    | cons => rfl
  have kept : (dir ++ [[]] ++ inner).filter (fun s => !s.isEmpty) = dir ++ inner := by
    rw [List.filter_append, List.filter_append,
      List.filter_eq_self.2 fun s mem => filled s (hdir s mem),
      List.filter_eq_self.2 fun s mem => filled s (hrest s (List.mem_append_left _ mem))]
    exact congrArg (· ++ inner) (List.append_nil dir)
  rw [List.cons_append, List.cons_append, withoutEmpty, ← List.append_assoc, List.dropLast_concat,
    List.getLast?_concat, kept, List.append_assoc]
  rfl

/-- The segments of the directory that a path ends in. -/
theorem directory_path (whole : ∀ s ∈ segments, '/' ∉ s) (ne : segments ≠ []) :
    directory (path segments ++ ['/']) = segments ++ [[]] := by
  have ended : path segments ++ ['/'] = path (segments ++ [[]]) := by
    rw [path_append ne (List.cons_ne_nil _ _), path_singleton]
  have split : (path (segments ++ [[]])).splitOn '/' = segments ++ [[]] := by
    refine splitOn_path (List.append_ne_nil_of_right_ne_nil _ (List.cons_ne_nil _ _)) ?_
    intro s mem
    rcases List.mem_append.1 mem with mem | mem
    · exact whole s mem
    · rw [List.mem_singleton.1 mem]
      exact List.not_mem_nil
  simp only [ended, directory, split, List.getLast?_concat, if_true]

/-- **No segment is lost, doubled or taken for another one.** Plain segments seen from a directory
are the path of the directory with these segments behind it. -/
theorem joinPaths_path (hfirst : '/' ∉ first ∧ first ≠ ['.'] ∧ first ≠ ['.', '.'])
    (hdir : ∀ s ∈ dir, IsSegment s) (hrest : ∀ s ∈ rest, IsSegment s) (ne : rest ≠ []) :
    joinPaths (path (first :: dir) ++ ['/']) (path rest) = path (first :: dir ++ rest) := by
  have relative : (path rest).head? ≠ some '/' :=
    head?_path ne fun s mem => ⟨(hrest s mem).nonempty, (hrest s mem).ne_slash⟩
  have whole (s : List Char) (mem : s ∈ first :: dir) : '/' ∉ s := by
    rcases List.mem_cons.1 mem with rfl | mem
    · exact hfirst.1
    · exact (hdir s mem).ne_slash
  have plain (s : List Char) (mem : s ∈ first :: (dir ++ rest)) : s ≠ ['.'] ∧ s ≠ ['.', '.'] := by
    rcases List.mem_cons.1 mem with rfl | mem
    · exact hfirst.2
    rcases List.mem_append.1 mem with mem | mem
    · exact ⟨(hdir s mem).notHere, (hdir s mem).notUp⟩
    · exact ⟨(hrest s mem).notHere, (hrest s mem).notUp⟩
  have long : (path (first :: (dir ++ rest))).isEmpty = false := by
    rw [path_cons (List.append_ne_nil_of_right_ne_nil _ ne), List.isEmpty_eq_false_iff]
    exact List.append_ne_nil_of_right_ne_nil _ (List.cons_ne_nil _ _)
  rw [joinPaths, if_neg relative, directory_path whole (List.cons_ne_nil _ _),
    splitOn_path ne fun s mem => (hrest s mem).ne_slash,
    withoutEmpty_directory (fun s mem => (hdir s mem).nonempty)
      (fun s mem => (hrest s mem).nonempty) ne, resolve_of_plain plain]
  exact if_neg (Bool.eq_false_iff.1 long)

/-- A relative path seen from a base of the same scheme. -/
theorem reference_of_split {base target : List Char} {b : Parts} (hbase : base ≠ [])
    (htarget : target ≠ []) (readBase : split [] base = .ok b)
    (readTarget : split b.scheme target = .ok ⟨b.scheme, [], target, [], [], []⟩)
    (relative : isOneOf relativeSchemes b.scheme = true)
    (hosted : isOneOf hostSchemes b.scheme = true) :
    reference base target =
      .ok (join ⟨b.scheme, b.host, joinPaths b.path target, [], [], []⟩) := by
  have some (cs : List Char) (h : cs ≠ []) : cs.isEmpty = false := List.isEmpty_eq_false_iff.2 h
  simp only [reference, some base hbase, some target htarget, readBase, bind, Except.bind,
    readTarget, relative, hosted, ne_eq, not_true_eq_false, decide_false]
  rfl

theorem take_two_ne (nonempty : cs ≠ []) (head : cs.head? ≠ some '/') (tail : List Char) :
    (cs ++ tail).take 2 ≠ ['/', '/'] := by
  cases cs with
  | nil => exact absurd rfl nonempty
  | cons c cs =>
    intro double
    obtain ⟨same, -⟩ := List.cons.inj double
    exact head (congrArg some same)

theorem IsSegment.whole (h : IsSegment segment) : segment ≠ [] ∧ '/' ∉ segment :=
  ⟨h.nonempty, h.ne_slash⟩

theorem path_ne_nil (h : ∀ s ∈ segments, s ≠ []) (ne : segments ≠ []) : path segments ≠ [] := by
  cases segments with
  | nil => exact absurd rfl ne
  | cons first segments =>
    rw [path_cons_eq]
    exact List.append_ne_nil_of_left_ne_nil (h first List.mem_cons_self) _

/-- A path is what is left of it, and of it with slashes around it, without outer slashes. -/
theorem bare_path (h : ∀ s ∈ segments, IsSegment s) (ne : segments ≠ []) :
    bare (padded before (path segments) behind).text = path segments :=
  bare_padded (path_ne_nil (fun s mem => (h s mem).nonempty) ne)
    (head?_path ne fun s mem => (h s mem).whole) (getLast?_path ne fun s mem => (h s mem).whole)

/-- A path of plain segments is read as it stands, whichever scheme it inherits. -/
theorem split_path (h : ∀ s ∈ segments, IsSegment s) (ne : segments ≠ [])
    (inherited : List Char) :
    split inherited (path segments) = .ok ⟨inherited, [], path segments, [], [], []⟩ := by
  have single := take_two_ne (path_ne_nil (fun s mem => (h s mem).nonempty) ne)
    (head?_path ne fun s mem => (h s mem).whole) []
  rw [List.append_nil] at single
  exact split_plain (plain_path fun s mem => (h s mem).plain) single inherited

/-- A path that is added to a path. -/
theorem add_path {u v : Url} (hu : bare u.text = path dir) (hv : bare v.text = path rest)
    (hdir : ∀ s ∈ dir, IsSegment s) (hrest : ∀ s ∈ rest, IsSegment s) (ne : dir ≠ [])
    (ne' : rest ≠ []) : u.add v = .ok ⟨String.ofList (path (dir ++ rest))⟩ := by
  have nonempty := path_ne_nil (fun s mem => (hdir s mem).nonempty) ne
  have plain : Plain (path dir ++ ['/']) :=
    .append (plain_path fun s mem => (hdir s mem).plain) (by simp [Plain])
  have single := take_two_ne nonempty (head?_path ne fun s mem => (hdir s mem).whole) ['/']
  have relative : isOneOf relativeSchemes [] = true := by decide
  have hosted : isOneOf hostSchemes [] = true := by decide
  have seen := reference_of_split (List.append_ne_nil_of_left_ne_nil nonempty ['/'])
    (path_ne_nil (fun s mem => (hrest s mem).nonempty) ne') (split_plain plain single [])
    (split_path hrest ne' []) relative hosted
  rw [add, hu, hv, seen]
  cases dir with
  | nil => exact absurd rfl ne
  | cons first dir =>
    have hfirst := hdir first List.mem_cons_self
    rw [joinPaths_path ⟨hfirst.ne_slash, hfirst.notHere, hfirst.notUp⟩
      (fun s mem => hdir s (List.mem_cons_of_mem _ mem)) hrest ne']
    simp [join, marked, Except.map]

namespace Base

variable {b : Base}

/-- The segments that are put below a base stand behind it. -/
theorem text_below (b : Base) (ne : rest ≠ []) :
    (b.below rest).text = b.text ++ '/' :: path rest := by
  have segments : path (b.host :: (b.segments ++ rest)) =
      path (b.host :: b.segments) ++ '/' :: path rest :=
    path_append (List.cons_ne_nil _ _) ne
  simp only [text, below, segments, List.append_assoc, List.cons_append]

/-- The text of a base does not start or end with a slash. -/
theorem Valid.bare_text (valid : b.Valid) : bare (padded 0 b.text behind).text = b.text := by
  have whole (s : List Char) (mem : s ∈ b.host :: b.segments) : s ≠ [] ∧ '/' ∉ s := by
    rcases List.mem_cons.1 mem with rfl | mem
    · exact ⟨valid.host.nonempty, valid.host.ne_slash⟩
    · exact (valid.segments s mem).whole
  have nonempty := path_ne_nil (fun s mem => (whole s mem).1) (List.cons_ne_nil _ _)
  have first : b.text.head? = some 'h' := valid.scheme.head?_eq _
  have last : b.text.getLast? = (path (b.host :: b.segments)).getLast? := by
    show (b.scheme ++ ([':', '/', '/'] ++ path (b.host :: b.segments))).getLast? = _
    rw [← List.append_assoc]
    exact List.getLast?_append_of_ne_nil _ nonempty
  refine bare_padded (List.append_ne_nil_of_right_ne_nil _ (List.cons_ne_nil _ _)) ?_ ?_
  · rw [first]
    decide
  · rw [last]
    exact getLast?_path (List.cons_ne_nil _ _) whole

/-- A base is read as its scheme, its host and the path of its segments. -/
theorem Valid.split_text (valid : b.Valid) : split [] (b.text ++ ['/']) =
    .ok ⟨b.scheme, b.host, path ([] :: b.segments) ++ ['/'], [], [], []⟩ := by
  have ended : path ([] :: b.segments) ++ ['/'] = '/' :: path (b.segments ++ [[]]) := by
    have behind : path ([] :: b.segments) ++ '/' :: path [[]] = path ([] :: b.segments ++ [[]]) :=
      (path_append (List.cons_ne_nil _ _) (List.cons_ne_nil _ _)).symm
    rw [path_singleton] at behind
    rw [behind, List.cons_append,
      path_cons (List.append_ne_nil_of_right_ne_nil _ (List.cons_ne_nil _ _)), List.nil_append]
  have text : b.text ++ ['/'] =
      b.scheme ++ ':' :: '/' :: '/' :: (b.host ++ '/' :: path (b.segments ++ [[]])) := by
    rw [text, path_cons_eq, ← ended]
    simp only [List.append_assoc, List.cons_append]
  have plain : Plain (path (b.segments ++ [[]])) := by
    refine plain_path fun s mem c hc => ?_
    rcases List.mem_append.1 mem with mem | mem
    · exact (valid.segments s mem).plain c hc
    · rw [List.mem_singleton.1 mem] at hc
      cases hc
  rw [text, ended]
  exact split_web valid.scheme valid.host plain

end Base

theorem join_web {scheme host : List Char} (hscheme : scheme ≠ []) (hhost : host ≠ [])
    (rooted : cs.head? = some '/') :
    join ⟨scheme, host, cs, [], [], []⟩ = scheme ++ ':' :: '/' :: '/' :: (host ++ cs) := by
  simp [join, marked, hscheme, hhost, rooted]

/-- A path that is added to a base. -/
theorem add_base {u v : Url} {b : Base} (valid : b.Valid) (hu : bare u.text = b.text)
    (hv : bare v.text = path rest) (hrest : ∀ s ∈ rest, IsSegment s) (ne : rest ≠ []) :
    u.add v = .ok ⟨String.ofList (b.below rest).text⟩ := by
  have seen := reference_of_split (List.append_ne_nil_of_right_ne_nil _ (List.cons_ne_nil _ _))
    (path_ne_nil (fun s mem => (hrest s mem).nonempty) ne) valid.split_text
    (split_path hrest ne b.scheme) valid.scheme.relative valid.scheme.hosted
  rw [add, hu, hv, seen, joinPaths_path (by decide) valid.segments hrest ne]
  have hscheme : b.scheme ≠ [] := by
    rcases valid.scheme with same | same <;> exact same ▸ List.cons_ne_nil _ _
  have rooted : (path ([] :: b.segments ++ rest)).head? = some '/' := by
    rw [List.cons_append, path_cons (List.append_ne_nil_of_right_ne_nil _ ne)]
    rfl
  rw [join_web hscheme valid.host.nonempty rooted, List.cons_append, ← path_cons_eq]
  rfl

end OrderFlow.Url
